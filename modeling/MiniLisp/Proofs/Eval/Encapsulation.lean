import MiniLisp.Proofs.Builtin.Result
import MiniLisp.Proofs.Eval.Invariant
import MiniLisp.Proofs.Frames.Access
import MiniLisp.Proofs.Interpreter
import MiniLisp.Proofs.Value.Remembered

/-! # Encapsulation of frames

Evaluation can reach a frame from the current frame and from the functions in the form, by way of the
frames that enclose a frame, the functions that a frame binds, alone or in lists, and the frames that
functions remember (`Reaches`). A frame that it cannot reach stays as it was
(`evaluate_encapsulates`): what a function keeps in a frame of its own can be changed only by
code that reaches the function.

The body of a function can hold functions of its own only where a host has put them. So `Reaches` comes
in two depths, with and without a look into bodies; where all values are plain they are the same.
Evaluating code keeps all values plain (`plainness`), so they are in the frames of every interpreter
(`Interpreter.isPlain_eval`). -/

namespace MiniLisp

/-! ### Reaching frames -/

/-- **The frames that evaluating a form in a frame can reach.** -/
inductive Reaches (deep : Bool) (fs : Frames) (env : FrameId) (form : Value) : FrameId → Prop
  | current : Reaches deep fs env form env
  | embedded {i : FrameId} : i ∈ form.remembered deep → Reaches deep fs env form i
  | enclosing {i j : FrameId} : Reaches deep fs env form i → j ∈ fs.enclosing i →
      Reaches deep fs env form j
  | bound {i j : FrameId} {b : String × Value} : Reaches deep fs env form i → b ∈ fs.vars i →
      j ∈ b.2.remembered deep → Reaches deep fs env form j

/-- The bodies of the functions that frames bind hold no functions. -/
def Frames.IsPlain (fs : Frames) : Prop := ∀ i, ∀ b ∈ fs.vars i, b.2.isPlain = true

theorem reaches_iff_of_isPlain {fs : Frames} {env : FrameId} {form : Value} (hfs : fs.IsPlain)
    (hform : form.isPlain = true) {i : FrameId} :
    Reaches true fs env form i ↔ Reaches false fs env form i := by
  constructor
  · intro h
    induction h with
    | current => exact .current
    | embedded h => exact .embedded (by rwa [← Value.remembered_of_isPlain hform])
    | enclosing _ hj ih => exact .enclosing ih hj
    | bound _ hb hj ih => exact .bound ih hb (by rwa [← Value.remembered_of_isPlain (hfs _ _ hb)])
  · intro h
    induction h with
    | current => exact .current
    | embedded h => exact .embedded (by rwa [Value.remembered_of_isPlain hform])
    | enclosing _ hj ih => exact .enclosing ih hj
    | bound _ hb hj ih => exact .bound ih hb (by rwa [Value.remembered_of_isPlain (hfs _ _ hb)])

/-! ### Staying among frames -/

/-- Frames that evaluation has left for the frames of `S`: what these enclose, bind and remember lies in
`S`, and all other frames are as before. -/
structure Confined (S : FrameId → Prop) (before fs : Frames) : Prop where
  size_le : before.size ≤ fs.size
  enclosing : ∀ {i}, S i → ∀ j ∈ fs.enclosing i, S j
  bound : ∀ {i}, S i → ∀ b ∈ fs.vars i, ∀ j ∈ b.2.remembered true, S j
  unchanged : ∀ {i}, ¬ S i → fs.all[i]? = before.all[i]?

namespace Confined

variable {S : FrameId → Prop} {before fs fs' : Frames} {i : FrameId} {name : String} {v : Value}

theorem chain (h : Confined S before fs) (hi : S i) : ∀ j ∈ fs.chain i, S j := by
  intro j hj
  rcases List.mem_cons.1 hj with rfl | hj
  · exact hi
  · exact h.enclosing hi j hj

theorem lookup? (h : Confined S before fs) (hi : S i) (hv : fs.lookup? i name = some v) :
    ∀ j ∈ v.remembered true, S j := by
  obtain ⟨k, hk, hb⟩ := Frames.exists_of_lookup? hv
  exact h.bound (h.chain hi k hk) _ hb

theorem define (h : Confined S before fs) (hi : S i) (hv : ∀ j ∈ v.remembered true, S j) :
    Confined S before (fs.define i name v) where
  size_le := by rw [Frames.size_define]; exact h.size_le
  enclosing := by
    intro k hk j hj
    rw [Frames.enclosing_define] at hj
    exact h.enclosing hk j hj
  bound := by
    intro k hk b hb
    rcases Frames.mem_vars_define hb with ⟨-, rfl⟩ | hb
    · exact hv
    · exact h.bound hk b hb
  unchanged := by
    intro k hk
    have hne : i ≠ k := by
      rintro rfl
      exact hk hi
    rw [Frames.getElem?_define_of_ne hne]
    exact h.unchanged hk

theorem assign? (h : Confined S before fs) (hi : S i) (hv : ∀ j ∈ v.remembered true, S j)
    (ha : fs.assign? i name v = some fs') : Confined S before fs' := by
  obtain ⟨k, hk, rfl⟩ := Frames.exists_of_assign? ha
  exact h.define (h.chain hi k hk) hv

/-- A new frame has a number that no frame had before, so it lies in `S`. -/
theorem addChild (h : Confined S before fs) (hS : ∀ i, before.size ≤ i → S i) (hi : S i) :
    Confined S before (fs.addChild i) where
  size_le := by rw [Frames.size_addChild]; exact Nat.le_succ_of_le h.size_le
  enclosing := by
    intro k hk j hj
    rw [Frames.enclosing_addChild] at hj
    split at hj
    · exact h.chain hi j hj
    · exact h.enclosing hk j hj
  bound := by
    intro k hk b hb
    rw [Frames.vars_addChild] at hb
    split at hb
    · cases hb
    · exact h.bound hk b hb
  unchanged := by
    intro k hk
    have hne : k ≠ fs.size := by
      rintro rfl
      exact hk (hS _ h.size_le)
    rw [Frames.getElem?_addChild, if_neg hne]
    exact h.unchanged hk

end Confined

/-- Evaluation among the frames of `S` stays among them and leaves all others as they were. -/
def confinement (S : FrameId → Prop) (before : Frames) (hS : ∀ i, before.size ≤ i → S i) :
    Invariant where
  frames := Confined S before
  form _ v := ∀ i ∈ v.remembered true, S i
  value _ v := ∀ i ∈ v.remembered true, S i
  frame _ := S
  failure _ := True
  value_of_form h := h
  form_of_mem h hv i hi := h i (Value.mem_rememberedByAll.2 ⟨_, hv, hi⟩)
  form_nil _ := by simp [Value.remembered]
  value_true _ := by simp [Value.remembered]
  value_closure := Value.forall_remembered_closure
  failure_of_isEvaluation _ := trivial
  value_of_lookup? h hi := h.lookup? hi
  frames_define h hi hv := h.define hi hv
  frames_assign? h hi hv := h.assign? hi hv
  frames_addChild h hi := ⟨h.addChild hS hi, hS _ h.size_le⟩
  keeps_call _ b args hargs :=
    Builtin.keeps_call b args (fun _ h => h) Value.forall_remembered_list
      (fun _ _ _ => by simp [Value.remembered]) (fun _ _ => trivial) hargs

/-- The frames that evaluation can reach confine it. -/
theorem confined_reaches (fs : Frames) (env : FrameId) (form : Value) :
    Confined (fun i => Reaches true fs env form i ∨ fs.size ≤ i) fs fs where
  size_le := Nat.le_refl _
  enclosing := by
    rintro i (hi | hi) j hj
    · exact .inl (.enclosing hi hj)
    · rw [Frames.enclosing_of_size_le hi] at hj
      cases hj
  bound := by
    rintro i (hi | hi) b hb j hj
    · exact .inl (.bound hi hb hj)
    · rw [Frames.vars_of_size_le hi] at hb
      cases hb
  unchanged _ := rfl

theorem getElem?_after_evaluate (tracing : Bool) (fuel : Nat) (form : Value) (env : FrameId)
    (s : Store) {i : FrameId} (hi : i < s.frames.size) (hr : ¬ Reaches true s.frames env form i) :
    ((evaluate tracing fuel form env).after s).frames.all[i]? = s.frames.all[i]? := by
  let S : FrameId → Prop := fun i => Reaches true s.frames env form i ∨ s.frames.size ≤ i
  have hS : ∀ i, s.frames.size ≤ i → S i := fun i hi => .inr hi
  have hafter : Confined S s.frames ((evaluate tracing fuel form env).after s).frames :=
    (confinement S s.frames hS).after_evaluate tracing fuel env (confined_reaches s.frames env form)
      (fun i hi => .inl (.embedded hi)) (.inl .current)
  refine hafter.unchanged ?_
  rintro (h | h)
  · exact hr h
  · exact Nat.not_lt.2 h hi

/-! ### Keeping bodies plain -/

/-- Evaluating code keeps all values plain. -/
def plainness : Invariant :=
  .ofValues (fun v => v.isCode = true) (fun v => v.isPlain = true) (fun _ => True)
    Value.isPlain_of_isCode (fun h hv => Value.areCode_iff.1 h _ hv) rfl rfl
    (by
      intro id formals body f name
      rw [Value.isPlain, Value.areCode_iff])
    (fun _ => trivial)
    fun _ b args hargs =>
      Builtin.keeps_call b args (fun _ h => h) Value.arePlain_iff (fun _ _ _ => rfl)
        (fun _ _ => trivial) hargs

theorem isPlain_after_evaluate (tracing : Bool) (fuel : Nat) {form : Value} (env : FrameId)
    {s : Store} (hs : s.frames.IsPlain) (hform : form.isCode = true) :
    ((evaluate tracing fuel form env).after s).frames.IsPlain :=
  plainness.after_evaluate tracing fuel env hs hform trivial

namespace Interpreter

theorem isPlain_newStore (clock : DateTime) : (newStore clock).frames.IsPlain := by
  refine frames_newStore clock ?_ fun _ _ _ _ hfs => plainness.frames_define hfs trivial rfl
  intro i b hb
  rw [vars_addRoot_empty] at hb
  cases hb

/-- **The frames of an interpreter stay plain**, whatever texts it evaluates. -/
theorem isPlain_eval (it : Interpreter) (source : String) (h : it.store.frames.IsPlain) :
    (it.eval source).2.store.frames.IsPlain := by
  refine store_eval (P := fun s => s.frames.IsPlain) (fun tracing d s hs => ?_) it source h
  have hform := Value.isCode_ofDatum s.nextId d
  exact isPlain_after_evaluate tracing nesting globalFrame
    (s := { s with nextId := (Value.ofDatum s.nextId d).2 }) hs hform

end Interpreter

/-! ### The frames that evaluation leaves alone -/

/-- **Encapsulation.** A frame that was there and that evaluation cannot reach is left exactly as it was,
whatever the outcome. Where all values are plain, functions in bodies need not be considered, and
evaluating code leaves all values plain. -/
theorem evaluate_encapsulates (tracing : Bool) (fuel : Nat) (form : Value) (env : FrameId)
    (s : Store) :
    (∀ i < s.frames.size, ¬ Reaches true s.frames env form i →
      ((evaluate tracing fuel form env).after s).frames.all[i]? = s.frames.all[i]?) ∧
    (s.frames.IsPlain → form.isPlain = true →
      ∀ i < s.frames.size, ¬ Reaches false s.frames env form i →
        ((evaluate tracing fuel form env).after s).frames.all[i]? = s.frames.all[i]?) ∧
    (s.frames.IsPlain → form.isCode = true →
      ((evaluate tracing fuel form env).after s).frames.IsPlain) := by
  refine ⟨fun i hi hr => ?_, fun hs hform i hi hr => ?_, fun hs hform => ?_⟩
  · exact getElem?_after_evaluate tracing fuel form env s hi hr
  · rw [← reaches_iff_of_isPlain hs hform] at hr
    exact getElem?_after_evaluate tracing fuel form env s hi hr
  · exact isPlain_after_evaluate tracing fuel env hs hform

/-- Two counters, of which the global frame binds the first: `c` sets the `n` of frame 1. -/
def twoCounters : Store where
  frames := ⟨#[
    ⟨[("c", .closure 0 [] [.list 1 [.symbol "set!", .symbol "n", .int 1]] 1 "c")], []⟩,
    ⟨[("n", .int 0)], [0]⟩,
    ⟨[("n", .int 0)], [0]⟩]⟩
  nextId := 3
  output := ""
  trace := #[]
  depth := 0
  clock := ⟨⟨2024, 1, 15, by decide, by decide⟩, 0, by decide⟩

/-- The call `(c)`. -/
def callCounter : Value := .list 2 [.symbol "c"]

theorem not_reaches_twoCounters (deep : Bool) : ¬ Reaches deep twoCounters.frames 0 callCounter 2 := by
  have hr : ∀ i, Reaches deep twoCounters.frames 0 callCounter i → i = 0 ∨ i = 1 := by
    intro i hi
    induction hi with
    | current => exact .inl rfl
    | embedded h => simp [callCounter, Value.remembered, Value.rememberedByAll] at h
    | enclosing _ hj ih =>
      rcases ih with rfl | rfl <;> simp [twoCounters, Frames.enclosing] at hj
      exact .inl hj
    | bound _ hb hj ih =>
      rcases ih with rfl | rfl
      · simp only [twoCounters, Frames.vars, List.getElem?_toArray, List.getElem?_cons_zero,
          List.mem_singleton] at hb
        subst hb
        cases deep <;> simp [Value.remembered, Value.rememberedByAll] at hj <;> exact .inr hj
      · simp only [twoCounters, Frames.vars, List.getElem?_toArray, List.getElem?_cons_succ,
          List.getElem?_cons_zero, List.mem_singleton] at hb
        subst hb
        simp [Value.remembered] at hj
  intro h
  rcases hr 2 h with h | h <;> cases h

theorem isPlain_twoCounters : twoCounters.frames.IsPlain := by
  intro i b hb
  match i with
  | 0 | 1 | 2 =>
    simp [twoCounters, Frames.vars] at hb
    subst hb
    rfl
  | i + 3 => simp [twoCounters, Frames.vars] at hb

/-- Calling the first counter changes its own frame and leaves that of the second as it was. -/
theorem evaluate_encapsulates_twoCounters :
    ((evaluate false 9 callCounter 0).after twoCounters).frames.vars 1 = [("n", .int 1)] ∧
    ((evaluate false 9 callCounter 0).after twoCounters).frames.all[2]? =
      twoCounters.frames.all[2]? ∧
    ((evaluate false 9 callCounter 0).after twoCounters).frames.vars 2 = [("n", .int 0)] ∧
    ((evaluate false 9 callCounter 0).after twoCounters).frames.IsPlain := by
  obtain ⟨hdeep, hplain, hcode⟩ := evaluate_encapsulates false 9 callCounter 0 twoCounters
  refine ⟨by rfl, ?_, ?_, hcode isPlain_twoCounters rfl⟩
  · exact hdeep 2 (by decide) (not_reaches_twoCounters true)
  · have h := hplain isPlain_twoCounters rfl 2 (by decide) (not_reaches_twoCounters false)
    rw [Frames.vars, h]
    rfl

end MiniLisp
