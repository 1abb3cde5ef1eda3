/-! # Computations that may fail

A computation of two steps succeeds exactly if both steps do, and fails with the failure of the first
step that fails. `Ends Q E x` says that `x` gives a value that `Q` holds of or fails with a failure that
`E` holds of; computations that are put together of such computations are such computations. -/

namespace MiniLisp.Except

variable {ε α β : Type} {x : Except ε α} {f : α → Except ε β} {g : α → β}

theorem bind_eq_ok {b : β} : (x >>= f) = .ok b ↔ ∃ a, x = .ok a ∧ f a = .ok b := by
  constructor
  · intro h
    cases x with
    | ok a => exact ⟨a, rfl, h⟩
    | error e => cases h
  · rintro ⟨a, rfl, h⟩
    exact h

theorem bind_eq_error {e : ε} :
    (x >>= f) = .error e ↔ x = .error e ∨ ∃ a, x = .ok a ∧ f a = .error e := by
  constructor
  · intro h
    cases x with
    | ok a => exact .inr ⟨a, rfl, h⟩
    | error e' => cases h; exact .inl rfl
  · rintro (rfl | ⟨a, rfl, h⟩)
    · rfl
    · exact h

theorem map_eq_ok {b : β} : g <$> x = .ok b ↔ ∃ a, x = .ok a ∧ g a = b := by
  constructor
  · intro h
    cases x with
    | ok a => cases h; exact ⟨a, rfl, rfl⟩
    | error e => cases h
  · rintro ⟨a, rfl, rfl⟩
    rfl

/-! ### How computations end -/

/-- **The computation ends** in a value or a failure of the given kinds. -/
def Ends (Q : α → Prop) (E : ε → Prop) : Except ε α → Prop
  | .ok a => Q a
  | .error e => E e

variable {Q : α → Prop} {R : β → Prop} {E : ε → Prop}

theorem Ends.of_ok {a : α} (h : Ends Q E x) (hx : x = .ok a) : Q a := by
  rw [hx] at h
  exact h

theorem Ends.of_error {e : ε} (h : Ends Q E x) (hx : x = .error e) : E e := by
  rw [hx] at h
  exact h

theorem Ends.bind (hx : Ends Q E x) (hf : ∀ a, Q a → Ends R E (f a)) : Ends R E (x >>= f) := by
  cases x with
  | ok a => exact hf a hx
  | error e => exact hx

theorem Ends.map (hx : Ends Q E x) (hg : ∀ a, Q a → R (g a)) : Ends R E (g <$> x) := by
  cases x with
  | ok a => exact hg a hx
  | error e => exact hx

theorem ends_ite {c : Prop} [Decidable c] {y : Except ε α} (hx : c → Ends Q E x)
    (hy : ¬ c → Ends Q E y) : Ends Q E (if c then x else y) := by
  split
  · next h => exact hx h
  · next h => exact hy h

end MiniLisp.Except
