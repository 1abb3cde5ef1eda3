import MiniLisp.Proofs.Run.Follows

/-! # Runs that trace other runs

A run traces another one if it does what the other does and notes in the trace what happens.
`Traces e Q r r'` says so of `r'` and `r`: at any depth and on any trace, the two end alike, and `r'` has
added to the trace the log of finished calls (`Calls`), after a failure the log of a call that broke
off (`Broken`). Values of `r` satisfy `Q`. Nothing is claimed where `r` fails with `e`, the failure
of a run that refuses to go on. Runs that are put together in the same way of runs that trace each
other trace each other (`Traces.bind`). -/

namespace MiniLisp

/-! ### Logs -/

/-- The depth of an entry that tells of an evaluation. -/
def TraceEntry.depth? : TraceEntry → Option Nat
  | .form depth _ => some depth
  | .value depth _ => some depth
  | _ => none

/-- **The log of finished calls** at a depth: of each the form, the calls in it one level deeper,
and the value. Between them stand the conditions that were decided. -/
inductive Calls : Nat → List TraceEntry → Prop
  | nil (depth : Nat) : Calls depth []
  | condition {depth : Nat} {rest : List TraceEntry} (text : String) (holds : Bool)
    (next : Calls depth rest) : Calls depth (.condition text holds :: rest)
  | call {depth : Nat} {inner rest : List TraceEntry} (form v : Value)
    (calls : Calls (depth + 1) inner) (next : Calls depth rest) :
    Calls depth (.form depth form.text :: (inner ++ .value depth v.text :: rest))

/-- **The log of calls of which the last one broke off**: it has no value, and in it the last call
broke off too, or none was made. -/
inductive Broken : Nat → List TraceEntry → Prop
  | between {depth : Nat} {log : List TraceEntry} (calls : Calls depth log) : Broken depth log
  | inside {depth : Nat} {log inner : List TraceEntry} (form : Value) (calls : Calls depth log)
    (broken : Broken (depth + 1) inner) : Broken depth (log ++ .form depth form.text :: inner)

section Logs

variable {depth : Nat} {log log' : List TraceEntry}

theorem Calls.append (h : Calls depth log) (h' : Calls depth log') : Calls depth (log ++ log') := by
  induction h with
  | nil => exact h'
  | condition text holds _ ih => exact .condition text holds (ih h')
  | call form v calls _ _ ih =>
    rw [List.cons_append, List.append_assoc, List.cons_append]
    exact .call form v calls (ih h')

theorem Calls.append_broken (h : Calls depth log) (h' : Broken depth log') :
    Broken depth (log ++ log') := by
  cases h' with
  | between calls => exact .between (h.append calls)
  | inside form calls broken =>
    rw [← List.append_assoc]
    exact .inside form (h.append calls) broken

/-- **All entries of calls** are at their depth or deeper. -/
theorem Calls.le_depth (h : Calls depth log) :
    ∀ entry ∈ log, ∀ k ∈ entry.depth?, depth ≤ k := by
  induction h with
  | nil => exact nofun
  | condition text holds _ ih =>
    rw [List.forall_mem_cons]
    exact ⟨nofun, ih⟩
  | call form v calls _ ihcalls ih =>
    rw [List.forall_mem_cons, List.forall_mem_append, List.forall_mem_cons]
    refine ⟨?_, fun entry hentry k hk => Nat.le_of_succ_le (ihcalls entry hentry k hk), ?_, ih⟩
    · rintro k ⟨⟩
      exact Nat.le_refl _
    · rintro k ⟨⟩
      exact Nat.le_refl _

theorem Broken.le_depth (h : Broken depth log) :
    ∀ entry ∈ log, ∀ k ∈ entry.depth?, depth ≤ k := by
  induction h with
  | between calls => exact calls.le_depth
  | inside form calls _ ih =>
    rw [List.forall_mem_append, List.forall_mem_cons]
    refine ⟨calls.le_depth, ?_, fun entry hentry k hk => Nat.le_of_succ_le (ih entry hentry k hk)⟩
    rintro k ⟨⟩
    exact Nat.le_refl _

end Logs

/-! ### Tracing -/

/-- The store with another trace, at another depth. -/
def Store.traceAt (s : Store) (trace : Array TraceEntry) (depth : Nat) : Store :=
  { s with trace, depth }

theorem append_log {trace : Array TraceEntry} {log log' : List TraceEntry} :
    trace ++ log.toArray ++ log'.toArray = trace ++ (log ++ log').toArray := by
  simp

namespace Run

variable {α β : Type} {e : Failure} {Q : α → Prop}

/-- **The run `r'` traces the run `r`.** -/
def Traces (e : Failure) (Q : α → Prop) (r r' : Run α) : Prop :=
  ∀ s trace depth,
    match r s with
    | .ok a s' => Q a ∧ s'.trace = s.trace ∧ s'.depth = s.depth ∧ ∃ log, Calls depth log ∧
        r' (s.traceAt trace depth) = .ok a (s'.traceAt (trace ++ log.toArray) depth)
    | .error e' s' => e' ≠ e → s'.trace = s.trace ∧ s'.depth = s.depth ∧ ∃ log, Broken depth log ∧
        r' (s.traceAt trace depth) = .error e' (s'.traceAt (trace ++ log.toArray) depth)

/-! ### Putting runs together -/

/-- A step that leaves the trace alone traces itself. -/
theorem traces_of_quiet {r : Run α} (h : ∀ s,
    match r s with
    | .ok a s' => Q a ∧ s'.trace = s.trace ∧ s'.depth = s.depth ∧
        ∀ trace depth, r (s.traceAt trace depth) = .ok a (s'.traceAt trace depth)
    | .error e' s' => s'.trace = s.trace ∧ s'.depth = s.depth ∧
        ∀ trace depth, r (s.traceAt trace depth) = .error e' (s'.traceAt trace depth)) :
    Traces e Q r r := by
  intro s trace depth
  have hs := h s
  cases hrs : r s with
  | ok a s' =>
    rw [hrs] at hs
    obtain ⟨ha, htrace, hdepth, hr⟩ := hs
    exact ⟨ha, htrace, hdepth, [], .nil depth, by rw [hr, Array.append_empty]⟩
  | error e' s' =>
    rw [hrs] at hs
    obtain ⟨htrace, hdepth, hr⟩ := hs
    exact fun _ => ⟨htrace, hdepth, [], .between (.nil depth), by rw [hr, Array.append_empty]⟩

theorem traces_pure {a : α} (h : Q a) : Traces e Q (pure a) (pure a) :=
  traces_of_quiet fun _ => ⟨h, rfl, rfl, fun _ _ => rfl⟩

theorem traces_throw (e' : Failure) : Traces e Q (throw e') (throw e') :=
  traces_of_quiet fun _ => ⟨rfl, rfl, fun _ _ => rfl⟩

theorem Traces.bind {R : β → Prop} {r r' : Run α} {f f' : α → Run β} (hr : Traces e Q r r')
    (hf : ∀ a, Q a → Traces e R (f a) (f' a)) : Traces e R (r >>= f) (r' >>= f') := by
  intro s trace depth
  have h := hr s trace depth
  rw [bind_apply]
  cases hrs : r s with
  | error e' s₁ =>
    rw [hrs] at h
    intro hne
    obtain ⟨htrace, hdepth, log, hlog, hr'⟩ := h hne
    exact ⟨htrace, hdepth, log, hlog, by rw [bind_apply, hr']⟩
  | ok a s₁ =>
    rw [hrs] at h
    obtain ⟨ha, htrace, hdepth, log, hlog, hr'⟩ := h
    have h' := hf a ha s₁ (trace ++ log.toArray) depth
    change match f a s₁ with
      | .ok b s₂ => _
      | .error e' s₂ => _
    cases hfs : f a s₁ with
    | ok b s₂ =>
      rw [hfs] at h'
      obtain ⟨hb, htrace', hdepth', log', hlog', hf'⟩ := h'
      refine ⟨hb, htrace'.trans htrace, hdepth'.trans hdepth, log ++ log', hlog.append hlog', ?_⟩
      rw [bind_apply, hr', ← append_log]
      exact hf'
    | error e' s₂ =>
      rw [hfs] at h'
      intro hne
      obtain ⟨htrace', hdepth', log', hlog', hf'⟩ := h' hne
      refine ⟨htrace'.trans htrace, hdepth'.trans hdepth, log ++ log', hlog.append_broken hlog', ?_⟩
      rw [bind_apply, hr', ← append_log]
      exact hf'

theorem Traces.weaken {R : α → Prop} {r r' : Run α} (h : Traces e Q r r') (hQ : ∀ a, Q a → R a) :
    Traces e R r r' := by
  intro s trace depth
  have hs := h s trace depth
  cases hrs : r s with
  | ok a s' =>
    rw [hrs] at hs
    exact ⟨hQ a hs.1, hs.2⟩
  | error e' s' =>
    rw [hrs] at hs
    exact hs

theorem traces_ite {c : Prop} [Decidable c] {r r' t t' : Run α} (hr : Traces e Q r r')
    (ht : Traces e Q t t') : Traces e Q (if c then r else t) (if c then r' else t') := by
  split
  · exact hr
  · exact ht

/-! ### One level deeper -/

section Deeper

variable {r : Run α} {s s' : Store} {trace trace' : Array TraceEntry} {depth : Nat}

theorem deeper_of_ok {a : α}
    (h : r (s.traceAt trace (depth + 1)) = .ok a (s'.traceAt trace' (depth + 1))) :
    deeper r (s.traceAt trace depth) = .ok a (s'.traceAt trace' depth) := by
  have hr : r { s.traceAt trace depth with depth := (s.traceAt trace depth).depth + 1 } = _ := h
  rw [deeper, hr]
  rfl

theorem deeper_of_error
    (h : r (s.traceAt trace (depth + 1)) = .error e (s'.traceAt trace' (depth + 1))) :
    deeper r (s.traceAt trace depth) = .error e (s'.traceAt trace' depth) := by
  have hr : r { s.traceAt trace depth with depth := (s.traceAt trace depth).depth + 1 } = _ := h
  rw [deeper, hr]
  rfl

end Deeper

/-! ### Single steps -/

/-- Nothing is said of the value. -/
abbrev whatever : α → Prop := fun _ => True

theorem traces_ofExcept (x : Except Failure α) : Traces e whatever (ofExcept x) (ofExcept x) := by
  cases x with
  | ok a => exact traces_pure trivial
  | error e' => exact traces_throw e'

theorem traces_newId : Traces e whatever newId newId :=
  traces_of_quiet fun _ => ⟨trivial, rfl, rfl, fun _ _ => rfl⟩

theorem traces_newList (items : List Value) :
    Traces e whatever (newList items) (newList items) :=
  traces_newId.bind fun _ _ => traces_pure trivial

theorem traces_write (text : String) : Traces e whatever (write text) (write text) :=
  traces_of_quiet fun _ => ⟨trivial, rfl, rfl, fun _ _ => rfl⟩

theorem traces_readClock : Traces e whatever readClock readClock :=
  traces_of_quiet fun _ => ⟨trivial, rfl, rfl, fun _ _ => rfl⟩

theorem traces_lookup? (env : FrameId) (name : String) :
    Traces e whatever (lookup? env name) (lookup? env name) :=
  traces_of_quiet fun _ => ⟨trivial, rfl, rfl, fun _ _ => rfl⟩

theorem traces_define (env : FrameId) (name : String) (v : Value) :
    Traces e whatever (define env name v) (define env name v) :=
  traces_of_quiet fun _ => ⟨trivial, rfl, rfl, fun _ _ => rfl⟩

theorem traces_defineAll (env : FrameId) (bindings : List (String × Value)) :
    Traces e whatever (defineAll env bindings) (defineAll env bindings) :=
  traces_of_quiet fun _ => ⟨trivial, rfl, rfl, fun _ _ => rfl⟩

theorem traces_newFrame (env : FrameId) : Traces e whatever (newFrame env) (newFrame env) :=
  traces_of_quiet fun _ => ⟨trivial, rfl, rfl, fun _ _ => rfl⟩

theorem traces_assign (env : FrameId) (name : String) (v : Value) :
    Traces e whatever (assign env name v) (assign env name v) :=
  traces_of_quiet fun s => by
    cases h : s.frames.assign? env name v with
    | some frames =>
      rw [assign_of_some h]
      exact ⟨trivial, rfl, rfl, fun _ _ => assign_of_some (s := s.traceAt _ _) h⟩
    | none =>
      rw [assign_of_none h]
      exact ⟨rfl, rfl, fun _ _ => assign_of_none (s := s.traceAt _ _) h⟩

end Run

end MiniLisp
