import MiniLisp.Proofs.Datum.Grammar
import MiniLisp.Proofs.Decimal.Finite

/-! # Values without infinities

The decimals of a value are those that stand in it: the value itself, or a decimal in a list or in the
body of a function (`Value.decimals`). A value is finite if all of them are. What is read from a text is
finite (`Datum.isFinite_of_readAll`), and a datum has the same decimals as the value made of it. -/

namespace MiniLisp

/-- The decimal that an atom is. -/
def Atom.decimals : Atom → List Decimal
  | .number (.decimal d) => [d]
  | _ => []

/-! ### Data -/

namespace Datum

mutual

/-- The decimals in a datum. -/
def decimals : Datum → List Decimal
  | .atom a => a.decimals
  | .list items => decimalsOfAll items

/-- The decimals in some data. -/
def decimalsOfAll : List Datum → List Decimal
  | [] => []
  | d :: ds => d.decimals ++ decimalsOfAll ds

end

/-- All decimals in the datum are finite. -/
def IsFinite (d : Datum) : Prop := ∀ x ∈ d.decimals, x.isFinite = true

theorem mem_decimalsOfAll {x : Decimal} {ds : List Datum} :
    x ∈ decimalsOfAll ds ↔ ∃ d ∈ ds, x ∈ d.decimals := by
  induction ds with
  | nil => simp [decimalsOfAll]
  | cons d ds ih =>
    rw [decimalsOfAll, List.mem_append, ih]
    simp

theorem isFinite_list {items : List Datum} :
    (list items).IsFinite ↔ ∀ d ∈ items, d.IsFinite := by
  simp only [IsFinite, decimals, mem_decimalsOfAll]
  refine ⟨fun h d hd x hx => h x ⟨d, hd, hx⟩, ?_⟩
  rintro h x ⟨d, hd, hx⟩
  exact h d hd x hx

end Datum

namespace Derivation

mutual

/-- What is derived from tokens is finite. -/
theorem isFinite_datum : ∀ d : Derivation, d.datum.IsFinite
  | .number t n _ reads => by
    have hn : n.IsFinite := (Number.finite_ofText t.value).of_ok reads
    intro x hx
    cases n with
    | int n => cases hx
    | decimal d =>
      rw [List.mem_singleton.1 hx]
      exact hn
  | .string .. => nofun
  | .date .. => nofun
  | .symbol t _ => by
    intro x hx
    have hnone : (Atom.ofName t.value).decimals = [] := by
      unfold Atom.ofName
      dsimp only
      split
      · rfl
      · split <;> rfl
    rw [datum, Datum.decimals, hnone] at hx
    cases hx
  | .list _ items _ _ _ => Datum.isFinite_list.2 (isFinite_data items)
  | .quote _ inner _ => by
    refine Datum.isFinite_list.2 ?_
    rw [List.forall_mem_cons, List.forall_mem_singleton]
    exact ⟨nofun, isFinite_datum inner⟩

theorem isFinite_data : ∀ ds : List Derivation, ∀ d ∈ data ds, d.IsFinite
  | [] => nofun
  | d :: ds => List.forall_mem_cons.2 ⟨isFinite_datum d, isFinite_data ds⟩

end

end Derivation

/-- **What is read from a text is finite.** -/
theorem Datum.isFinite_of_readAll {source : String} {ds : List Datum}
    (h : readAll source = .ok ds) : ∀ d ∈ ds, d.IsFinite := by
  obtain ⟨derivations, -, rfl⟩ := Derivation.ofTokens_eq_ok_iff.1 h
  exact Derivation.isFinite_data derivations

/-! ### Values -/

namespace Value

mutual

/-- The decimals in a value. -/
def decimals : Value → List Decimal
  | .atom a => a.decimals
  | .list _ items => decimalsOfAll items
  | .closure _ _ body _ _ => decimalsOfAll body
  | .builtin .. => []
  | .foreign .. => []

/-- The decimals in some values. -/
def decimalsOfAll : List Value → List Decimal
  | [] => []
  | v :: vs => v.decimals ++ decimalsOfAll vs

end

/-- **All decimals in the value are finite.** -/
def IsFinite (v : Value) : Prop := ∀ x ∈ v.decimals, x.isFinite = true

/-- A value without decimals is finite. -/
theorem isFinite_of_decimals {v : Value} (h : v.decimals = []) : v.IsFinite := by
  intro x hx
  rw [h] at hx
  cases hx

theorem mem_decimalsOfAll {x : Decimal} {vs : List Value} :
    x ∈ decimalsOfAll vs ↔ ∃ v ∈ vs, x ∈ v.decimals := by
  induction vs with
  | nil => simp [decimalsOfAll]
  | cons v vs ih =>
    rw [decimalsOfAll, List.mem_append, ih]
    simp

theorem isFinite_list {id : ObjectId} {items : List Value} :
    (list id items).IsFinite ↔ ∀ v ∈ items, v.IsFinite := by
  simp only [IsFinite, decimals, mem_decimalsOfAll]
  refine ⟨fun h v hv x hx => h x ⟨v, hv, hx⟩, ?_⟩
  rintro h x ⟨v, hv, hx⟩
  exact h v hv x hx

theorem isFinite_closure {id : ObjectId} {formals : List String} {body : List Value} {f : FrameId}
    {name : String} : (closure id formals body f name).IsFinite ↔ ∀ v ∈ body, v.IsFinite :=
  @isFinite_list id body

theorem isFinite_number {n : Number} : (number n).IsFinite ↔ n.IsFinite := by
  cases n with
  | int n => exact iff_of_true nofun trivial
  | decimal d => exact List.forall_mem_singleton

mutual

/-- A datum and the value made of it have the same decimals. -/
theorem decimals_ofDatum (next : ObjectId) : ∀ d : Datum, (ofDatum next d).1.decimals = d.decimals
  | .atom _ => rfl
  | .list items => decimals_ofData (next + 1) items

theorem decimals_ofData (next : ObjectId) :
    ∀ ds : List Datum, decimalsOfAll (ofData next ds).1 = Datum.decimalsOfAll ds
  | [] => rfl
  | d :: ds => by
    rw [ofData, decimalsOfAll, decimals_ofDatum next d, decimals_ofData _ ds]
    rfl

end

end Value

end MiniLisp
