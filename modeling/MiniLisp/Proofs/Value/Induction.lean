import MiniLisp.Value.Basic

/-! # Induction on values

A value holds other values in a list or in the body of a function. What holds of a value if it holds of
the values in it holds of every value (`Value.induction`). -/

namespace MiniLisp

@[elab_as_elim]
theorem Value.induction {P : Value → Prop} (atom : ∀ a, P (.atom a))
    (list : ∀ id items, (∀ v ∈ items, P v) → P (.list id items))
    (closure : ∀ id formals body frame name, (∀ v ∈ body, P v) →
      P (.closure id formals body frame name))
    (builtin : ∀ id b, P (.builtin id b)) (foreign : ∀ id type text, P (.foreign id type text))
    (v : Value) : P v := by
  refine @Value.rec P (fun vs => ∀ v ∈ vs, P v) atom list closure builtin foreign ?_ ?_ v
  · intro v hv
    cases hv
  · intro v vs hv hvs
    exact List.forall_mem_cons.2 ⟨hv, hvs⟩

end MiniLisp
