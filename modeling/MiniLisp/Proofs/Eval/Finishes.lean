import MiniLisp.Proofs.Eval.Renaming

/-! # Evaluations that finish

An evaluation finishes if some nesting is enough for it. How it ends does not depend on the nesting
that is allowed (`evaluate_eq_of_le`), so a form has at most one ending (`Finishes.unique`). A run
refines another one if it ends as the other does wherever the other does not exhaust the stack; forms
whose evaluations refine each other, with more nesting allowed, finish in the same ways
(`finishes_iff_of_refines`). -/

namespace MiniLisp

/-- How a run ends: with a value or a failure, and the store after it. -/
abbrev Ending := EStateM.Result Failure Store Value

/-- The run had to stop because the stack was exhausted. -/
def Exhausted {α : Type} : EStateM.Result Failure Store α → Prop
  | .error .stackExhausted _ => True
  | _ => False

theorem exhausted_error_iff {α : Type} {e : Failure} {s : Store} :
    Exhausted (.error e s : EStateM.Result Failure Store α) ↔ e = .stackExhausted := by
  cases e <;> simp [Exhausted]

/-- **The form finishes** with this ending, with enough nesting. -/
def Finishes (tracing : Bool) (form : Value) (env : FrameId) (s : Store) (r : Ending) : Prop :=
  (∃ fuel, evaluate tracing fuel form env s = r) ∧ ¬ Exhausted r

namespace Run

variable {α : Type}

/-- The run `r'` ends as `r` does, wherever `r` does not exhaust the stack. -/
def Refines (r r' : Run α) : Prop := ∀ s, ¬ Exhausted (r s) → r' s = r s

theorem Refines.trans {r r' r'' : Run α} (h : Refines r r') (h' : Refines r' r'') :
    Refines r r'' := by
  intro s hne
  have heq := h s hne
  rw [h' s (by rwa [heq]), heq]

theorem Refines.refl (r : Run α) : Refines r r := fun _ _ => rfl

theorem Refines.bind {β : Type} {r r' : Run α} {f f' : α → Run β} (hr : Refines r r')
    (hf : ∀ a, Refines (f a) (f' a)) : Refines (r >>= f) (r' >>= f') := by
  intro s hne
  rw [bind_apply] at hne
  rw [bind_apply, bind_apply]
  cases hrs : r s with
  | ok a s' =>
    rw [hrs] at hne
    rw [hr s (by rw [hrs]; exact id), hrs]
    exact hf a s' hne
  | error e s' =>
    rw [hrs] at hne
    have hne' : ¬ Exhausted (r s) := fun h => hne (by
      rw [hrs] at h
      exact exhausted_error_iff.2 (exhausted_error_iff.1 h))
    rw [hr s hne', hrs]

/-- Only the store itself is the store with nothing renamed. -/
theorem renamed_identity_iff {stop : ObjectId} {s t : Store} :
    s.Renamed (.identity stop) t ↔ t = s := by
  have hframes : Frames.Renamed (.identity stop) s.frames t.frames ↔ _ := Frames.renamed_iff rfl
  rw [Frames.rename_identity] at hframes
  constructor
  · intro h
    cases t
    cases s
    cases hframes.1 h.frames
    cases h.nextId
    cases h.output
    cases h.trace
    cases h.depth
    cases h.clock
    rfl
  · rintro rfl
    exact ⟨hframes.2 rfl, rfl, rfl, rfl, rfl, rfl⟩

/-- A run that follows another one without renaming refines it. -/
theorem refines_of_follows {φ : α → α} {r r' : Run α} (hφ : ∀ a, φ a = a)
    (h : ∀ stop, Follows (.identity stop) (· ≠ .stackExhausted) φ r r') : Refines r r' := by
  intro s hne
  cases hr : r s with
  | ok a s' =>
    have hs := h s'.nextId s (Nat.zero_le _)
    rw [hr] at hs
    obtain ⟨t', hrt, ht'⟩ := hs.2 (Nat.le_refl _) s (renamed_identity_iff.2 rfl)
    rwa [renamed_identity_iff.1 ht', hφ] at hrt
  | error e s' =>
    have hs := h s'.nextId s (Nat.zero_le _)
    rw [hr] at hs hne
    obtain ⟨t', hrt, ht'⟩ := hs.2 (fun he => hne (exhausted_error_iff.2 he)) (Nat.le_refl _) s
      (renamed_identity_iff.2 rfl)
    rwa [renamed_identity_iff.1 ht'] at hrt

end Run

open Run

variable {tracing : Bool} {form form' : Value} {env : FrameId} {s : Store} {r r' : Ending}

/-- More nesting refines an evaluation. -/
theorem refines_evaluate (tracing : Bool) {m n : Nat} (h : m ≤ n) (form : Value) (env : FrameId) :
    Refines (evaluate tracing m form env) (evaluate tracing n form env) := by
  refine refines_of_follows Value.relabel_identity fun stop => ?_
  have hfollows := follows_evaluate_of_le stop tracing h form env
  have hform : form.relabel (Renaming.identity stop).map = form := Value.relabel_identity form
  rwa [hform] at hfollows

/-- **How an evaluation ends does not depend on the nesting** that is allowed. -/
theorem evaluate_eq_of_le {m n : Nat} (h : m ≤ n) (hr : evaluate tracing m form env s = r)
    (hne : ¬ Exhausted r) : evaluate tracing n form env s = r := by
  rw [refines_evaluate tracing h form env s (by rwa [hr]), hr]

/-- **A form has at most one ending.** -/
theorem Finishes.unique (h : Finishes tracing form env s r) (h' : Finishes tracing form env s r') :
    r = r' := by
  obtain ⟨⟨m, hm⟩, hne⟩ := h
  obtain ⟨⟨n, hn⟩, hne'⟩ := h'
  rw [← evaluate_eq_of_le (Nat.le_max_left m n) hm hne,
    ← evaluate_eq_of_le (Nat.le_max_right m n) hn hne']

theorem Finishes.of_refines {k : Nat}
    (h : ∀ fuel, Refines (evaluate tracing fuel form env) (evaluate tracing (fuel + k) form' env))
    (hr : Finishes tracing form env s r) : Finishes tracing form' env s r := by
  obtain ⟨⟨fuel, hfuel⟩, hne⟩ := hr
  exact ⟨⟨fuel + k, by rw [h fuel s (by rwa [hfuel]), hfuel]⟩, hne⟩

/-- Forms whose evaluations refine each other finish in the same ways. -/
theorem finishes_iff_of_refines {k k' : Nat}
    (h : ∀ fuel, Refines (evaluate tracing fuel form env) (evaluate tracing (fuel + k) form' env))
    (h' : ∀ fuel, Refines (evaluate tracing fuel form' env)
      (evaluate tracing (fuel + k') form env)) :
    Finishes tracing form env s r ↔ Finishes tracing form' env s r :=
  ⟨Finishes.of_refines h, Finishes.of_refines h'⟩

end MiniLisp
