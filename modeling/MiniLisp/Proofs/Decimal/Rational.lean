import Mathlib.Data.Rat.Lemmas
import Mathlib.Tactic.Linarith
import Mathlib.Tactic.NormNum
import Mathlib.Tactic.Ring
import MiniLisp.Proofs.Decimal.Finite

/-! # Decimals as exact numbers

A finite decimal stands for a rational number (`Decimal.toRat`), whatever its coefficient and exponent.
On a common exponent the coefficients are that number in units (`toRat_eq_scaled`), so comparing finite
decimals compares these numbers (`compare?_eq`, `eqv_iff_toRat`), and so does comparing whole numbers with
decimals (`Number.less?_eq`, `Number.same_iff`). -/

namespace MiniLisp

namespace Decimal

/-- The number that a finite decimal stands for. -/
def toRat : Decimal → ℚ
  | .finite s c e => (if s then -(c : ℚ) else c) * 10 ^ e
  | .infinite _ => 0
  | .nan => 0

theorem toRat_finite (s : Bool) (c : Nat) (e : Int) :
    (finite s c e).toRat = (if s then -(c : ℚ) else c) * 10 ^ e := rfl

@[simp] theorem toRat_finite_zero (s : Bool) (e : Int) : (finite s 0 e).toRat = 0 := by
  simp [toRat]

/-- A whole coefficient gives its sign and its digits. -/
theorem toRat_natAbs {s : Bool} {n : Int} (hs : n ≠ 0 → s = decide (n < 0)) (e : Int) :
    (finite s n.natAbs e).toRat = n * 10 ^ e := by
  rcases lt_trichotomy n 0 with hn | rfl | hn
  · have hsign : s = true := by simp [hs hn.ne, hn]
    have habs : (n.natAbs : ℚ) = -n := by rw [Nat.cast_natAbs, abs_of_neg hn, Int.cast_neg]
    rw [toRat_finite, hsign, if_pos rfl, habs, neg_neg]
  · simp
  · have hsign : s = false := by simp [hs hn.ne', hn.not_gt]
    have habs : (n.natAbs : ℚ) = n := by rw [Nat.cast_natAbs, abs_of_pos hn]
    rw [toRat_finite, hsign, if_neg Bool.false_ne_true, habs]

theorem toRat_ofInt (n : Int) : (ofInt n).toRat = n := by
  rw [ofInt, toRat_natAbs (fun _ => rfl), zpow_zero, mul_one]

theorem toRat_negate {a : Decimal} (h : a.isFinite = true) : (negate a).toRat = -a.toRat := by
  obtain ⟨s, c, e, rfl⟩ := exists_of_isFinite h
  cases s <;> simp [negate, toRat]

theorem toRat_eq_zero_iff {a : Decimal} (h : a.isFinite = true) : a.toRat = 0 ↔ a.isZero = true := by
  obtain ⟨s, c, e, rfl⟩ := exists_of_isFinite h
  have hpow : (10 : ℚ) ^ e ≠ 0 := zpow_ne_zero e (by norm_num)
  cases s <;> simp [toRat, isZero, hpow]

/-! ## On a common exponent -/

/-- **The coefficient on a lower exponent** counts units of that exponent. -/
theorem toRat_eq_scaled (s : Bool) (c : Nat) {e low : Int} (h : low ≤ e) :
    (finite s c e).toRat = scaled s c e low * 10 ^ low := by
  have hpow : (10 : ℚ) ^ e = 10 ^ (e - low).toNat * 10 ^ low := by
    rw [← zpow_natCast, ← zpow_add₀ (by norm_num)]
    congr 1
    omega
  rw [toRat_finite, hpow, ← mul_assoc]
  cases s <;> simp [scaled]

theorem scaled_lt_iff (s t : Bool) (c d : Nat) (e f : Int) :
    scaled s c e (min e f) < scaled t d f (min e f) ↔
      (finite s c e).toRat < (finite t d f).toRat := by
  have hpos : (0 : ℚ) < 10 ^ min e f := zpow_pos (by norm_num) _
  rw [toRat_eq_scaled s c (min_le_left e f), toRat_eq_scaled t d (min_le_right e f),
    mul_lt_mul_iff_left₀ hpos, Int.cast_lt]

/-- **Comparing finite decimals** compares the numbers that they stand for. -/
theorem compare?_eq {a b : Decimal} (ha : a.isFinite = true) (hb : b.isFinite = true) :
    a.compare? b = some (cmp a.toRat b.toRat) := by
  obtain ⟨s, c, e, rfl⟩ := exists_of_isFinite ha
  obtain ⟨t, d, f, rfl⟩ := exists_of_isFinite hb
  have hlt := scaled_lt_iff s t c d e f
  have hgt := scaled_lt_iff t s d c f e
  rw [min_comm f e] at hgt
  rw [compare?, ← cmp_eq_compare]
  simp only [cmp, cmpUsing, hlt, hgt]

theorem eqv_iff_toRat {a b : Decimal} (ha : a.isFinite = true) (hb : b.isFinite = true) :
    a.eqv b = true ↔ a.toRat = b.toRat := by
  rw [eqv, compare?_eq ha hb, beq_iff_eq, Option.some.injEq, cmp_eq_eq_iff]

end Decimal

namespace Number

/-- The number, exactly. -/
def toRat (n : Number) : ℚ := n.toDecimal.toRat

@[simp] theorem toRat_int (n : Int) : (int n).toRat = n := Decimal.toRat_ofInt n

@[simp] theorem toRat_decimal (d : Decimal) : (decimal d).toRat = d.toRat := rfl

variable {m n : Number}

/-- **Numbers are ordered as what they stand for**, whichever way they are compared. -/
theorem less?_eq (hm : m.IsFinite) (hn : n.IsFinite) :
    m.less? n = some (decide (m.toRat < n.toRat)) := by
  unfold less?
  split
  · next m n => simp
  · rw [Decimal.compare?_eq (isFinite_toDecimal hm) (isFinite_toDecimal hn), Option.map_some]
    congr 1
    rw [Bool.eq_iff_iff, beq_iff_eq, cmp_eq_lt_iff, decide_eq_true_iff]
    exact Iff.rfl

/-- **Numbers are the same if they stand for the same.** -/
theorem same_iff (hm : m.IsFinite) (hn : n.IsFinite) : m.same n = true ↔ m.toRat = n.toRat := by
  unfold same
  split
  · next m n => simp
  · exact Decimal.eqv_iff_toRat (isFinite_toDecimal hm) (isFinite_toDecimal hn)

end Number

end MiniLisp
