import MiniLisp.Proofs.Eval.Encapsulation

/-! # Which frames gain names

A name is bound in the current frame only, and a frame becomes current only where the evaluation starts
or when it is new. So of the frames that were there, all but the one where the evaluation starts bind the
names that they bound before, and that one loses none (`namesKept_after_evaluate`).

A frame is always added inside a frame that is there: frames are grounded (`Frames.Grounded`) and stay so.
So the chain of a new frame leads through new frames, latest first, into the chain of a frame that was
there (`Grown.exists_chain_eq`). -/

namespace MiniLisp

/-! ### Frames that were there -/

/-- The frames `before` are the first ones of `fs`, and lie inside the same frames as before. -/
structure Extended (before fs : Frames) : Prop where
  size_le : before.size ≤ fs.size
  enclosing : ∀ i < before.size, fs.enclosing i = before.enclosing i

namespace Extended

variable {before fs : Frames}

theorem refl (before : Frames) : Extended before before := ⟨Nat.le_refl _, fun _ _ => rfl⟩

theorem define (h : Extended before fs) (i : FrameId) (name : String) (v : Value) :
    Extended before (fs.define i name v) where
  size_le := by rw [Frames.size_define]; exact h.size_le
  enclosing j hj := by rw [Frames.enclosing_define]; exact h.enclosing j hj

/-- The frame that is added is none of those that were there. -/
theorem ne_size (h : Extended before fs) {i : FrameId} (hi : i < before.size) : i ≠ fs.size :=
  Nat.ne_of_lt (Nat.lt_of_lt_of_le hi h.size_le)

theorem addChild (h : Extended before fs) (i : FrameId) : Extended before (fs.addChild i) where
  size_le := by rw [Frames.size_addChild]; exact Nat.le_succ_of_le h.size_le
  enclosing j hj := by
    rw [Frames.enclosing_addChild, if_neg (h.ne_size hj)]
    exact h.enclosing j hj

end Extended

/-! ### Names -/

/-- Names have been bound in the new frames and in `env` only. -/
structure NamesKept (before : Frames) (env : FrameId) (fs : Frames) : Prop
    extends Extended before fs where
  names_prefix : ∀ i < before.size, Assoc.names (before.vars i) <+: Assoc.names (fs.vars i)
  names : ∀ i < before.size, i ≠ env → Assoc.names (fs.vars i) = Assoc.names (before.vars i)

namespace NamesKept

variable {before fs fs' : Frames} {env i : FrameId} {name : String} {v : Value}

theorem refl (before : Frames) (env : FrameId) : NamesKept before env before where
  toExtended := .refl before
  names_prefix _ _ := List.prefix_refl _
  names _ _ _ := rfl

theorem define (h : NamesKept before env fs) (hi : i = env ∨ before.size ≤ i) :
    NamesKept before env (fs.define i name v) where
  toExtended := h.toExtended.define i name v
  names_prefix j hj := (h.names_prefix j hj).trans (Frames.names_vars_define fs i j name v)
  names j hj hne := by
    have hij : i ≠ j := by
      rintro rfl
      rcases hi with hi | hi
      · exact hne hi
      · exact Nat.not_lt.2 hi hj
    rw [Frames.vars_define_of_ne hij]
    exact h.names j hj hne

/-- Assigning binds no name, in whichever frame of the chain it happens. -/
theorem assign? (h : NamesKept before env fs) (ha : fs.assign? i name v = some fs') :
    NamesKept before env fs' where
  toExtended := by
    obtain ⟨k, -, rfl⟩ := Frames.exists_of_assign? ha
    exact h.toExtended.define k name v
  names_prefix j hj := by rw [Frames.names_vars_assign? ha]; exact h.names_prefix j hj
  names j hj hne := by rw [Frames.names_vars_assign? ha]; exact h.names j hj hne

theorem addChild (h : NamesKept before env fs) (i : FrameId) :
    NamesKept before env (fs.addChild i) where
  toExtended := h.toExtended.addChild i
  names_prefix j hj := by
    rw [Frames.vars_addChild, if_neg (h.ne_size hj)]
    exact h.names_prefix j hj
  names j hj hne := by
    rw [Frames.vars_addChild, if_neg (h.ne_size hj)]
    exact h.names j hj hne

end NamesKept

/-- Evaluation that starts in `env` binds names there and in new frames only. -/
def nameKeeping (before : Frames) (env : FrameId) : Invariant where
  frames := NamesKept before env
  form _ _ := True
  value _ _ := True
  frame _ _ := True
  current _ i := i = env ∨ before.size ≤ i
  failure _ := True
  frame_of_current _ := trivial
  value_of_form _ := trivial
  form_of_mem _ _ := trivial
  form_nil _ := trivial
  value_true _ := trivial
  value_closure := ⟨fun _ => ⟨trivial, fun _ _ => trivial⟩, fun _ => trivial⟩
  failure_of_isEvaluation _ := trivial
  value_of_lookup? _ _ _ := trivial
  frames_define h hi _ := h.define hi
  frames_assign? h _ _ ha := h.assign? ha
  frames_addChild h _ := ⟨h.addChild _, .inr h.size_le⟩
  keeps_call _ b args hargs :=
    Builtin.keeps_call b args (fun _ h => h) ⟨fun _ _ _ => trivial, fun _ => trivial⟩
      (fun _ _ _ => trivial) (fun _ _ => trivial) hargs

/-- **Only the frame where the evaluation starts gains names**, whatever the outcome. -/
theorem namesKept_after_evaluate (tracing : Bool) (fuel : Nat) (form : Value) (env : FrameId)
    (s : Store) : NamesKept s.frames env ((evaluate tracing fuel form env).after s).frames :=
  (nameKeeping s.frames env).after_evaluate tracing fuel env (NamesKept.refl s.frames env) trivial
    (.inl rfl)

/-! ### Grounded frames -/

/-- Every frame but those that nothing encloses lies inside an earlier frame, and functions remember
frames that are there. -/
structure Frames.Grounded (fs : Frames) : Prop where
  enclosed : ∀ i < fs.size, fs.enclosing i = [] ∨ ∃ j < i, fs.enclosing i = fs.chain j
  remembered : fs.Binds fun v => ∀ j ∈ v.remembered true, j < fs.size

/-- The chain of a frame goes from later frames to earlier ones, so it has no cycle. -/
theorem Frames.Grounded.pairwise_chain {fs : Frames} (h : fs.Grounded) (i : FrameId) :
    i < fs.size → (fs.chain i).Pairwise (· > ·) := by
  -- the frame that encloses is an earlier one
  induction i using Nat.strongRecOn with
  | ind i ih =>
    intro hi
    rcases h.enclosed i hi with hroot | ⟨j, hj, hinside⟩
    · rw [Frames.chain, hroot]
      exact List.pairwise_singleton _ i
    · have hchain := ih j hj (Nat.lt_trans hj hi)
      rw [Frames.chain, hinside]
      refine List.pairwise_cons.2 ⟨fun k hk => ?_, hchain⟩
      rcases List.mem_cons.1 hk with rfl | hk
      · exact hj
      · exact Nat.lt_trans ((List.pairwise_cons.1 hchain).1 k hk) hj

/-- Grounded frames in which all frames that are new lie inside frames. -/
structure Grown (before fs : Frames) : Prop extends fs.Grounded, Extended before fs where
  inside : ∀ i < fs.size, before.size ≤ i → ∃ j < i, fs.enclosing i = fs.chain j

namespace Grown

variable {before fs fs' : Frames} {i : FrameId} {name : String} {v : Value}

theorem refl (h : before.Grounded) : Grown before before where
  toGrounded := h
  toExtended := .refl before
  inside _ hi hnew := absurd hi (Nat.not_lt.2 hnew)

theorem define (h : Grown before fs) (hv : ∀ j ∈ v.remembered true, j < fs.size) :
    Grown before (fs.define i name v) where
  enclosed := by
    simp only [Frames.size_define, Frames.enclosing_define, Frames.chain_define]
    exact h.enclosed
  remembered := by
    rw [Frames.size_define]
    exact h.remembered.define hv
  toExtended := h.toExtended.define i name v
  inside := by
    simp only [Frames.size_define, Frames.enclosing_define, Frames.chain_define]
    exact h.inside

theorem addChild (h : Grown before fs) (hi : i < fs.size) : Grown before (fs.addChild i) := by
  have hnew : (fs.addChild i).enclosing fs.size = (fs.addChild i).chain i := by
    rw [Frames.enclosing_addChild, if_pos rfl, Frames.chain_addChild hi]
  have hold : ∀ j < fs.size, (fs.addChild i).enclosing j = fs.enclosing j := fun j hj => by
    rw [Frames.enclosing_addChild, if_neg (Nat.ne_of_lt hj)]
  have hinside : ∀ j < fs.size, (∃ k < j, fs.enclosing j = fs.chain k) →
      ∃ k < j, (fs.addChild i).enclosing j = (fs.addChild i).chain k := by
    rintro j hj ⟨k, hk, hjk⟩
    exact ⟨k, hk, by rw [hold j hj, Frames.chain_addChild (Nat.lt_trans hk hj), hjk]⟩
  refine ⟨⟨fun j hj => ?_, fun j b hb k hk => ?_⟩, h.toExtended.addChild i, fun j hj hle => ?_⟩
  · rw [Frames.size_addChild] at hj
    rcases Nat.lt_succ_iff_lt_or_eq.1 hj with hj | rfl
    · exact (h.enclosed j hj).imp (fun hroot => by rw [hold j hj, hroot]) (hinside j hj)
    · exact .inr ⟨i, hi, hnew⟩
  · rw [Frames.size_addChild]
    exact Nat.lt_succ_of_lt (h.remembered.addChild i j b hb k hk)
  · rw [Frames.size_addChild] at hj
    rcases Nat.lt_succ_iff_lt_or_eq.1 hj with hj | rfl
    · exact hinside j hj (h.inside j hj hle)
    · exact ⟨i, hi, hnew⟩

/-- **The chain of every frame** leads through new frames into the chain of a frame that was there. -/
theorem exists_chain_eq (h : Grown before fs) (i : FrameId) : i < fs.size →
    ∃ news j, j < before.size ∧ fs.chain i = news ++ before.chain j ∧
      ∀ k ∈ news, before.size ≤ k := by
  -- a new frame lies inside an earlier one, so the induction is on its number
  induction i using Nat.strongRecOn with
  | ind i ih =>
    intro hi
    by_cases hold : i < before.size
    · refine ⟨[], i, hold, ?_, by simp⟩
      rw [Frames.chain, h.enclosing i hold, List.nil_append, Frames.chain]
    · have hnew := Nat.le_of_not_lt hold
      obtain ⟨j, hj, hinside⟩ := h.inside i hi hnew
      obtain ⟨news, k, hk, hchain, hnews⟩ := ih j hj (Nat.lt_trans hj hi)
      refine ⟨i :: news, k, hk, ?_, List.forall_mem_cons.2 ⟨hnew, hnews⟩⟩
      rw [Frames.chain, hinside, hchain, List.cons_append]

end Grown

/-- Evaluation adds frames inside frames that are there. -/
def grounding (before : Frames) : Invariant where
  frames := Grown before
  form n v := ∀ i ∈ v.remembered true, i < n
  value n v := ∀ i ∈ v.remembered true, i < n
  frame n i := i < n
  current n i := i < n
  failure _ := True
  form_mono hmn h i hi := Nat.lt_of_lt_of_le (h i hi) hmn
  value_mono hmn h i hi := Nat.lt_of_lt_of_le (h i hi) hmn
  frame_mono hmn h := Nat.lt_of_lt_of_le h hmn
  current_mono hmn h := Nat.lt_of_lt_of_le h hmn
  value_of_form h := h
  form_of_mem h hv := Value.forall_remembered_list.1 h _ hv
  form_nil _ := by simp [Value.remembered]
  value_true _ := by simp [Value.remembered]
  value_closure := Value.forall_remembered_closure
  failure_of_isEvaluation _ := trivial
  value_of_lookup? h _ hv := h.remembered.lookup? hv
  frames_define h _ hv := h.define hv
  frames_assign? h _ hv ha := by
    obtain ⟨k, -, rfl⟩ := Frames.exists_of_assign? ha
    exact h.define hv
  frames_addChild h hi := ⟨h.addChild hi, Nat.lt_succ_self _⟩
  keeps_call _ b args hargs :=
    Builtin.keeps_call b args (fun hmn h i hi => Nat.lt_of_lt_of_le (h i hi) hmn)
      Value.forall_remembered_list (fun _ _ _ => by simp [Value.remembered]) (fun _ _ => trivial)
      hargs

theorem grown_after_evaluate (tracing : Bool) (fuel : Nat) {form : Value} {env : FrameId}
    {s : Store} (hs : s.frames.Grounded) (henv : env < s.frames.size)
    (hform : ∀ i ∈ form.remembered true, i < s.frames.size) :
    Grown s.frames ((evaluate tracing fuel form env).after s).frames :=
  (grounding s.frames).after_evaluate tracing fuel env (Grown.refl hs) hform henv

namespace Interpreter

theorem grounded_newStore (clock : DateTime) :
    (newStore clock).frames.Grounded ∧ 0 < (newStore clock).frames.size := by
  have hroot : Frames.empty.addRoot.Grounded := by
    constructor
    · intro i _
      cases i <;> exact .inl rfl
    · intro i b hb
      rw [vars_addRoot_empty] at hb
      cases hb
  have hgrown : Grown Frames.empty.addRoot (newStore clock).frames :=
    frames_newStore clock (Grown.refl hroot) fun _ _ _ _ hfs =>
      hfs.define (by simp [Value.remembered])
  exact ⟨hgrown.toGrounded, Nat.lt_of_lt_of_le (by decide) hgrown.size_le⟩

/-- **The frames of an interpreter stay grounded**, whatever texts it evaluates. -/
theorem grounded_eval (it : Interpreter) (source : String)
    (h : it.store.frames.Grounded ∧ 0 < it.store.frames.size) :
    (it.eval source).2.store.frames.Grounded ∧ 0 < (it.eval source).2.store.frames.size := by
  refine store_eval (P := fun s => s.frames.Grounded ∧ 0 < s.frames.size)
    (fun tracing d s hs => ?_) it source h
  have hcode := Value.remembered_of_isCode true (Value.isCode_ofDatum s.nextId d)
  have hgrown : Grown s.frames ((datumRun tracing (silently d) d).after s).frames :=
    grown_after_evaluate tracing nesting (s := { s with nextId := (Value.ofDatum s.nextId d).2 })
      hs.1 hs.2 (by rw [hcode]; simp)
  exact ⟨hgrown.toGrounded, Nat.lt_of_lt_of_le hs.2 hgrown.size_le⟩

end Interpreter

/-! ### What evaluation does to scopes -/

/-- **Only the current frame can gain names.** Whatever the outcome, every frame that was there is inside
the same frames as before and has lost no name, and all of them but the one where the evaluation started
bind the same names as before. If the frames were grounded they still are, and the chain of every frame
that is new has no cycle and leads through new frames into the chain of a frame that was there. -/
theorem evaluate_scopes (tracing : Bool) (fuel : Nat) (form : Value) (env : FrameId) (s : Store) :
    (∀ i < s.frames.size,
      i < ((evaluate tracing fuel form env).after s).frames.size ∧
      ((evaluate tracing fuel form env).after s).frames.enclosing i = s.frames.enclosing i ∧
      Assoc.names (s.frames.vars i) <+:
        Assoc.names (((evaluate tracing fuel form env).after s).frames.vars i) ∧
      (i ≠ env → Assoc.names (((evaluate tracing fuel form env).after s).frames.vars i) =
        Assoc.names (s.frames.vars i))) ∧
    (s.frames.Grounded → env < s.frames.size →
      (∀ i ∈ form.remembered true, i < s.frames.size) →
      ((evaluate tracing fuel form env).after s).frames.Grounded ∧
      ∀ i, s.frames.size ≤ i → i < ((evaluate tracing fuel form env).after s).frames.size →
        (((evaluate tracing fuel form env).after s).frames.chain i).Nodup ∧
        ∃ news j, j < s.frames.size ∧
          ((evaluate tracing fuel form env).after s).frames.chain i = news ++ s.frames.chain j ∧
          ∀ k ∈ news, s.frames.size ≤ k) := by
  have hnames := namesKept_after_evaluate tracing fuel form env s
  refine ⟨fun i hi => ⟨?_, ?_, ?_, ?_⟩, fun hs henv hform => ?_⟩
  · exact Nat.lt_of_lt_of_le hi hnames.size_le
  · exact hnames.enclosing i hi
  · exact hnames.names_prefix i hi
  · exact hnames.names i hi
  · have hgrown := grown_after_evaluate tracing fuel hs henv hform
    refine ⟨hgrown.toGrounded, fun i _ hi => ⟨?_, hgrown.exists_chain_eq i hi⟩⟩
    exact (hgrown.pairwise_chain i hi).imp fun h => Nat.ne_of_gt h

/-- The form `(define d (c))`. -/
def defineFromCounter : Value :=
  .list 3 [.symbol "define", .symbol "d", callCounter]

theorem grounded_twoCounters : twoCounters.frames.Grounded := by
  constructor
  · intro i hi
    match i, hi with
    | 0, _ => exact .inl rfl
    | 1, _ => exact .inr ⟨0, by decide, rfl⟩
    | 2, _ => exact .inr ⟨0, by decide, rfl⟩
  · intro i b hb
    match i with
    | 0 | 1 | 2 =>
      simp [twoCounters, Frames.vars] at hb
      subst hb
      decide
    | i + 3 => simp [twoCounters, Frames.vars] at hb

/-- Defining `d` from a call of the first counter: the global frame gains the name, the frames of the
counters do not, and the frame of the call lies inside that of the first counter. -/
theorem evaluate_scopes_twoCounters :
    Assoc.names (((evaluate false 9 defineFromCounter 0).after twoCounters).frames.vars 0) =
      ["c", "d"] ∧
    Assoc.names (((evaluate false 9 defineFromCounter 0).after twoCounters).frames.vars 1) =
      ["n"] ∧
    ((evaluate false 9 defineFromCounter 0).after twoCounters).frames.Grounded ∧
    (((evaluate false 9 defineFromCounter 0).after twoCounters).frames.chain 3).Nodup ∧
    ((evaluate false 9 defineFromCounter 0).after twoCounters).frames.chain 3 = [3, 1, 0] := by
  obtain ⟨hnames, hgrown⟩ := evaluate_scopes false 9 defineFromCounter 0 twoCounters
  obtain ⟨hgrounded, hchain⟩ := hgrown grounded_twoCounters (by decide) (by decide)
  refine ⟨by rfl, ?_, hgrounded, (hchain 3 (by decide) (by decide)).1, by rfl⟩
  rw [(hnames 1 (by decide)).2.2.2 (by decide)]
  rfl

end MiniLisp
