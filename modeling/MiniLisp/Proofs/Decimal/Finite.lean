import MiniLisp.Decimal.Shortest
import MiniLisp.Number
import MiniLisp.Proofs.Except
import MiniLisp.Value.Order

/-! # Finite decimals stay finite

Rounding gives a finite number or none (`finite_round`), so the operations give finite numbers for finite
numbers, or a fault. A double that is finite has a finite decimal, and a literal is finite. Finite numbers
can always be compared (`exists_compare?`). -/

namespace MiniLisp

namespace Decimal

open MiniLisp.Except

variable {a b : Decimal}

/-- The operation gives a finite number or a fault. -/
abbrev GivesFinite (x : Except RangeFault Decimal) : Prop :=
  Ends (fun d => d.isFinite = true) (fun _ => True) x

theorem exists_of_isFinite (h : a.isFinite = true) : ∃ s c e, a = .finite s c e := by
  cases a with
  | finite s c e => exact ⟨s, c, e, rfl⟩
  | infinite s => cases h
  | nan => cases h

/-- **Rounding gives no infinity.** -/
theorem finite_round (s : Bool) (c : Nat) (e : Int) : GivesFinite (round s c e) := by
  unfold round
  refine ends_ite (fun _ => rfl) fun _ => ?_
  dsimp only
  refine ends_ite (fun _ => trivial) fun _ => rfl

theorem finite_add (ha : a.isFinite = true) (hb : b.isFinite = true) : GivesFinite (add a b) := by
  obtain ⟨s, c, e, rfl⟩ := exists_of_isFinite ha
  obtain ⟨t, d, f, rfl⟩ := exists_of_isFinite hb
  exact finite_round _ _ _

theorem isFinite_negate (h : a.isFinite = true) : (negate a).isFinite = true := by
  obtain ⟨s, c, e, rfl⟩ := exists_of_isFinite h
  rfl

theorem finite_sub (ha : a.isFinite = true) (hb : b.isFinite = true) : GivesFinite (sub a b) :=
  finite_add ha (isFinite_negate hb)

theorem finite_minus (h : a.isFinite = true) : GivesFinite (minus a) := by
  obtain ⟨s, c, e, rfl⟩ := exists_of_isFinite h
  exact finite_round _ _ _

theorem finite_mul (ha : a.isFinite = true) (hb : b.isFinite = true) : GivesFinite (mul a b) := by
  obtain ⟨s, c, e, rfl⟩ := exists_of_isFinite ha
  obtain ⟨t, d, f, rfl⟩ := exists_of_isFinite hb
  exact finite_round _ _ _

theorem finite_div (ha : a.isFinite = true) (hb : b.isFinite = true) : GivesFinite (div a b) := by
  obtain ⟨s, c, e, rfl⟩ := exists_of_isFinite ha
  obtain ⟨t, d, f, rfl⟩ := exists_of_isFinite hb
  refine ends_ite (fun _ => ?_) fun _ => ?_
  · exact finite_round _ _ _
  · exact finite_round _ _ _

/-- **Finite numbers can be compared.** -/
theorem exists_compare? (ha : a.isFinite = true) (hb : b.isFinite = true) :
    ∃ o, a.compare? b = some o := by
  obtain ⟨s, c, e, rfl⟩ := exists_of_isFinite ha
  obtain ⟨t, d, f, rfl⟩ := exists_of_isFinite hb
  exact ⟨_, rfl⟩

theorem isFinite_of_ofDouble? {x : Float} {d : Decimal} (h : ofDouble? x = some d) :
    d.isFinite = true := by
  obtain ⟨b, -, rfl⟩ := Option.map_eq_some_iff.1 h
  rfl

end Decimal

namespace Number

open MiniLisp.Except

/-- The number is whole or a finite decimal. -/
def IsFinite : Number → Prop
  | .int _ => True
  | .decimal d => d.isFinite = true

theorem isFinite_toDecimal {n : Number} (h : n.IsFinite) : n.toDecimal.isFinite = true := by
  cases n with
  | int n => rfl
  | decimal d => exact h

theorem exists_less? {m n : Number} (hm : m.IsFinite) (hn : n.IsFinite) :
    ∃ b, m.less? n = some b := by
  obtain ⟨o, ho⟩ :=
    Decimal.exists_compare? (isFinite_toDecimal hm) (isFinite_toDecimal hn)
  unfold less?
  split
  · exact ⟨_, rfl⟩
  · exact ⟨o == .lt, by rw [ho]; rfl⟩

theorem finite_ofParts (negative : Bool) (whole : List Char) (fraction : Option (List Char)) :
    Ends IsFinite (fun _ => True) (ofParts negative whole fraction) := by
  unfold ofParts
  split
  · exact rfl
  · exact ends_ite (fun _ => trivial) fun _ => trivial

theorem finite_ofUnsigned (negative : Bool) (cs : List Char) :
    Ends IsFinite (fun _ => True) (ofUnsigned negative cs) := by
  unfold ofUnsigned
  dsimp only
  refine ends_ite (fun _ => trivial) fun _ => ?_
  split
  · exact finite_ofParts _ _ _
  · exact ends_ite (fun _ => finite_ofParts _ _ _) fun _ => trivial
  · trivial

/-- **Reading a literal gives a finite number.** -/
theorem finite_ofText (s : String) : Ends IsFinite (fun _ => True) (ofText s) := by
  unfold ofText ofChars
  split
  · exact finite_ofUnsigned _ _
  · exact finite_ofUnsigned _ _

end Number

end MiniLisp
