import Mathlib.Data.Int.Log
import Mathlib.Data.Rat.Floor
import Mathlib.Tactic.FieldSimp
import Mathlib.Tactic.Linarith
import Mathlib.Tactic.Positivity
import Mathlib.Tactic.Ring
import MiniLisp.Decimal.Arithmetic

/-! # Rounding exact numbers

What rounding means, said of rational numbers and without digits.

* `nearestEven y` is the whole number nearest to `y`, the even one of two that are as near; it is the
  only one (`nearestEven_eq_iff`), so it does not care for signs, and two numbers strictly between
  neighbouring halves have the same one (`nearestEven_eq_of_half`).
* `significant x` is `x` to as many significant digits as decimal arithmetic keeps: with
  `10 ^ k ≤ |x| < 10 ^ (k + 1)`, the nearest multiple of the unit `10 ^ (k + 1 - precision)`.
-/

namespace MiniLisp.Rounding

/-! ## To a whole number -/

/-- The whole number nearest to `y`, the even one of two that are as near. -/
def nearestEven (y : ℚ) : ℤ :=
  if Int.fract y < 1 / 2 then ⌊y⌋ else if 1 / 2 < Int.fract y then ⌊y⌋ + 1 else ⌊y⌋ + ⌊y⌋ % 2

/-- The number is nearest: no further than half a unit, and even if it is exactly that far. -/
def IsNearest (y : ℚ) (n : ℤ) : Prop := |y - n| < 1 / 2 ∨ (|y - n| = 1 / 2 ∧ n % 2 = 0)

theorem IsNearest.abs_sub_le {y : ℚ} {n : ℤ} (h : IsNearest y n) : |y - n| ≤ 1 / 2 :=
  h.elim le_of_lt fun h => h.1.le

theorem isNearest_nearestEven (y : ℚ) : IsNearest y (nearestEven y) := by
  have hfract : y = ⌊y⌋ + Int.fract y := (Int.floor_add_fract y).symm
  have hnonneg : 0 ≤ Int.fract y := Int.fract_nonneg y
  have hlt : Int.fract y < 1 := Int.fract_lt_one y
  unfold nearestEven
  by_cases hlow : Int.fract y < 1 / 2
  · rw [if_pos hlow]
    left
    rw [abs_lt]
    constructor <;> linarith
  · rw [if_neg hlow]
    by_cases hhigh : 1 / 2 < Int.fract y
    · rw [if_pos hhigh]
      left
      push_cast
      rw [abs_lt]
      constructor <;> linarith
    · rw [if_neg hhigh]
      have hhalf : Int.fract y = 1 / 2 := le_antisymm (not_lt.mp hhigh) (not_lt.mp hlow)
      right
      rcases Int.emod_two_eq_zero_or_one ⌊y⌋ with heven | hodd
      · rw [heven, add_zero]
        refine ⟨?_, heven⟩
        rw [show y - ⌊y⌋ = 1 / 2 by linarith, abs_of_pos (by norm_num)]
      · rw [hodd]
        refine ⟨?_, by omega⟩
        push_cast
        rw [show y - (⌊y⌋ + 1) = -(1 / 2) by linarith, abs_neg, abs_of_pos (by norm_num)]

/-- Two whole numbers that are both nearest are the same. -/
theorem IsNearest.unique {y : ℚ} {m n : ℤ} (hm : IsNearest y m) (hn : IsNearest y n) : m = n := by
  have hboth : |(m : ℚ) - n| ≤ |y - n| + |y - m| := by
    have h := abs_sub (y - n) (y - m)
    rwa [show y - n - (y - m) = m - n by ring] at h
  have hm' : |y - m| ≤ 1 / 2 := hm.abs_sub_le
  have hn' : |y - n| ≤ 1 / 2 := hn.abs_sub_le
  by_cases hfar : |(m : ℚ) - n| < 1
  · have hint : |m - n| < 1 := by exact_mod_cast hfar
    rw [abs_lt] at hint
    omega
  · -- a whole unit apart, both are half a unit away, so both are even
    have hone : |(m : ℚ) - n| = 1 := by linarith [not_lt.mp hfar]
    have heven : m % 2 = 0 ∧ n % 2 = 0 :=
      ⟨(hm.resolve_left (by linarith)).2, (hn.resolve_left (by linarith)).2⟩
    have hint : |m - n| = 1 := by exact_mod_cast hone
    rcases abs_eq (zero_le_one' ℤ) |>.mp hint with h | h <;> omega

/-- **The nearest whole number is the only one.** -/
theorem nearestEven_eq_iff {y : ℚ} {n : ℤ} : nearestEven y = n ↔ IsNearest y n :=
  ⟨fun h => h ▸ isNearest_nearestEven y, fun h => (isNearest_nearestEven y).unique h⟩

@[simp] theorem nearestEven_intCast (n : ℤ) : nearestEven n = n :=
  nearestEven_eq_iff.mpr (.inl (by simp))

@[simp] theorem nearestEven_zero : nearestEven 0 = 0 := by
  simpa using nearestEven_intCast 0

theorem nearestEven_neg (y : ℚ) : nearestEven (-y) = -nearestEven y := by
  rw [nearestEven_eq_iff]
  have hdist : |-y - ((-nearestEven y : ℤ) : ℚ)| = |y - nearestEven y| := by
    push_cast
    rw [neg_sub_neg, abs_sub_comm]
  rcases isNearest_nearestEven y with h | ⟨h, heven⟩
  · exact .inl (by rwa [hdist])
  · exact .inr ⟨by rw [hdist, h], by omega⟩

/-- Comparing twice the remainder with the divisor finds the nearest whole number of a quotient. -/
theorem isNearest_of_remainder {q r u : ℕ} (hr : r < u) :
    IsNearest (q + r / u)
      ((if 2 * r < u then q else if u < 2 * r then q + 1 else q + q % 2 : ℕ) : ℤ) := by
  have hu : (0 : ℚ) < u := by exact_mod_cast lt_of_le_of_lt (Nat.zero_le r) hr
  have hnonneg : (0 : ℚ) ≤ r / u := by positivity
  have hlt : (r : ℚ) / u < 1 := by
    rw [div_lt_one hu]
    exact_mod_cast hr
  by_cases hlow : 2 * r < u
  · have hlow' : (r : ℚ) / u < 1 / 2 := by
      rw [div_lt_div_iff₀ hu two_pos, one_mul, mul_comm]
      exact_mod_cast hlow
    rw [if_pos hlow]
    left
    rw [abs_lt]
    push_cast
    constructor <;> linarith
  · rw [if_neg hlow]
    by_cases hhigh : u < 2 * r
    · have hhigh' : 1 / 2 < (r : ℚ) / u := by
        rw [div_lt_div_iff₀ two_pos hu, one_mul, mul_comm]
        exact_mod_cast hhigh
      rw [if_pos hhigh]
      left
      rw [abs_lt]
      push_cast
      constructor <;> linarith
    · have hhalf : (r : ℚ) / u = 1 / 2 := by
        rw [div_eq_div_iff hu.ne' two_ne_zero, one_mul, mul_comm]
        exact_mod_cast (by omega : 2 * r = u)
      rw [if_neg hhigh, hhalf]
      right
      rcases Nat.mod_two_eq_zero_or_one q with heven | hodd
      · rw [heven]
        refine ⟨?_, by omega⟩
        push_cast
        rw [show (q : ℚ) + 1 / 2 - (q + 0) = 1 / 2 by ring, abs_of_pos (by norm_num)]
      · rw [hodd]
        refine ⟨?_, by omega⟩
        push_cast
        rw [show (q : ℚ) + 1 / 2 - (q + 1) = -(1 / 2) by ring, abs_neg, abs_of_pos (by norm_num)]

/-- Rounding does not go past a whole number. -/
theorem nearestEven_le {y : ℚ} {n : ℤ} (h : y ≤ n) : nearestEven y ≤ n := by
  by_contra hgt
  have hgt' : (n : ℚ) + 1 ≤ nearestEven y := by exact_mod_cast not_le.mp hgt
  have hnear : |y - nearestEven y| ≤ 1 / 2 := (isNearest_nearestEven y).abs_sub_le
  rw [abs_le] at hnear
  linarith

theorem le_nearestEven {y : ℚ} {n : ℤ} (h : (n : ℚ) ≤ y) : n ≤ nearestEven y := by
  have hneg : nearestEven (-y) ≤ -n := nearestEven_le (by push_cast; linarith)
  rw [nearestEven_neg] at hneg
  omega

/-- **Between neighbouring halves** there is only one nearest whole number. -/
theorem nearestEven_eq_of_half {y z : ℚ} {j : ℤ} (hy : (j : ℚ) / 2 < y ∧ y < (j + 1) / 2)
    (hz : (j : ℚ) / 2 < z ∧ z < (j + 1) / 2) : nearestEven z = nearestEven y := by
  have hnear : |y - nearestEven y| ≤ 1 / 2 := (isNearest_nearestEven y).abs_sub_le
  rw [abs_le] at hnear
  generalize nearestEven y = n at hnear ⊢
  have hlow : 2 * n - 1 ≤ j := by
    have h : ((2 * n - 1 : ℤ) : ℚ) < ((j + 1 : ℤ) : ℚ) := by push_cast; linarith
    have := Int.cast_lt.mp h
    omega
  have hhigh : j + 1 ≤ 2 * n + 1 := by
    have h : ((j : ℤ) : ℚ) < ((2 * n + 1 : ℤ) : ℚ) := by push_cast; linarith
    have := Int.cast_lt.mp h
    omega
  have hlow' : ((2 * n - 1 : ℤ) : ℚ) ≤ (j : ℤ) := Int.cast_le.mpr hlow
  have hhigh' : ((j + 1 : ℤ) : ℚ) ≤ ((2 * n + 1 : ℤ) : ℚ) := Int.cast_le.mpr hhigh
  push_cast at hlow' hhigh'
  refine nearestEven_eq_iff.mpr (.inl ?_)
  rw [abs_lt]
  constructor <;> linarith

/-! ## To significant digits -/

/-- The place of the last digit that is kept. -/
def unit (x : ℚ) : ℚ := 10 ^ (Int.log 10 |x| + 1 - Decimal.precision)

/-- **The number to as many significant digits as arithmetic keeps**, a tie to the even digit. -/
def significant (x : ℚ) : ℚ := nearestEven (x / unit x) * unit x

theorem ten_zpow_pos (k : ℤ) : (0 : ℚ) < 10 ^ k := zpow_pos (by norm_num) k

theorem unit_pos (x : ℚ) : 0 < unit x := ten_zpow_pos _

@[simp] theorem significant_zero : significant 0 = 0 := by
  simp [significant]

theorem unit_neg (x : ℚ) : unit (-x) = unit x := by
  rw [unit, unit, abs_neg]

theorem significant_neg (x : ℚ) : significant (-x) = -significant x := by
  rw [significant, significant, unit_neg, neg_div, nearestEven_neg, Int.cast_neg, neg_mul]

/-- A multiple of its unit is kept as it is. -/
theorem significant_of_multiple {x : ℚ} {n : ℤ} (h : x = n * unit x) : significant x = x := by
  have hdiv : x / unit x = n := by
    rw [div_eq_iff (unit_pos x).ne']
    exact h
  rw [significant, hdiv, nearestEven_intCast, ← h]

theorem log_eq {x : ℚ} {k : ℤ} (hlow : 10 ^ k ≤ x) (hhigh : x < 10 ^ (k + 1)) :
    Int.log 10 x = k := by
  have hpos : 0 < x := lt_of_lt_of_le (ten_zpow_pos k) hlow
  have hle : k ≤ Int.log 10 x := by
    rw [← Int.zpow_le_iff_le_log (by norm_num) hpos]
    exact_mod_cast hlow
  have hlt : Int.log 10 x < k + 1 := by
    rw [← Int.lt_zpow_iff_log_lt (by norm_num) hpos]
    exact_mod_cast hhigh
  omega

theorem zpow_log_le {x : ℚ} (hx : 0 < x) : 10 ^ Int.log 10 x ≤ x := by
  exact_mod_cast Int.zpow_log_le_self (by norm_num : 1 < 10) hx

theorem lt_zpow_log (x : ℚ) : x < 10 ^ (Int.log 10 x + 1) := by
  exact_mod_cast Int.lt_zpow_succ_log_self (by norm_num : 1 < 10) x

/-- Rounding does not go past a power of ten. -/
theorem significant_le_zpow {x : ℚ} {k : ℤ} (hx : 0 < x) (h : x ≤ 10 ^ k) :
    significant x ≤ 10 ^ k := by
  have hlog : Int.log 10 x ≤ k := by
    by_contra hgt
    have hpow : (10 : ℚ) ^ k < 10 ^ Int.log 10 x :=
      zpow_lt_zpow_right₀ (by norm_num) (not_le.mp hgt)
    linarith [zpow_log_le hx]
  -- the power is a whole number of units
  have hunits : (10 : ℚ) ^ k = ((10 ^ (k + Decimal.precision - 1 - Int.log 10 x).toNat : ℤ) : ℚ) *
      unit x := by
    have hnonneg : 0 ≤ k + Decimal.precision - 1 - Int.log 10 x := by
      simp only [Decimal.precision]
      omega
    push_cast
    rw [unit, abs_of_pos hx, ← zpow_natCast, ← zpow_add₀ (by norm_num), Int.toNat_of_nonneg hnonneg]
    congr 1
    ring
  rw [significant, hunits]
  refine mul_le_mul_of_nonneg_right ?_ (unit_pos x).le
  refine Int.cast_le.mpr (nearestEven_le ?_)
  rw [div_le_iff₀ (unit_pos x), ← hunits]
  exact h

/-! ## Numbers that round alike -/

/-- Rounding cannot tell the numbers apart: their leading digits are at the same place, and the same
digits are kept. -/
def Alike (x y : ℚ) : Prop := Int.log 10 |x| = Int.log 10 |y| ∧ significant x = significant y

theorem log_mul_zpow {x : ℚ} (hx : 0 < x) (k : ℤ) :
    Int.log 10 (x * 10 ^ k) = Int.log 10 x + k := by
  have hk := ten_zpow_pos k
  apply log_eq
  · rw [zpow_add₀ (by norm_num)]
    exact mul_le_mul_of_nonneg_right (zpow_log_le hx) hk.le
  · rw [show Int.log 10 x + k + 1 = Int.log 10 x + 1 + k by ring, zpow_add₀ (by norm_num)]
    exact mul_lt_mul_of_pos_right (lt_zpow_log x) hk

theorem log_abs_mul_zpow {x : ℚ} (hx : x ≠ 0) (k : ℤ) :
    Int.log 10 |x * 10 ^ k| = Int.log 10 |x| + k := by
  rw [abs_mul, abs_of_pos (ten_zpow_pos k)]
  exact log_mul_zpow (abs_pos.mpr hx) k

/-- Moving the point moves what is kept. -/
theorem significant_mul_zpow (x : ℚ) (k : ℤ) :
    significant (x * 10 ^ k) = significant x * 10 ^ k := by
  by_cases hx : x = 0
  · simp [hx]
  · have hk := ten_zpow_pos k
    have hunit : unit (x * 10 ^ k) = unit x * 10 ^ k := by
      rw [unit, unit, log_abs_mul_zpow hx, ← zpow_add₀ (by norm_num)]
      congr 1
      ring
    rw [significant, significant, hunit, mul_div_mul_right _ _ hk.ne', mul_assoc]

theorem Alike.mul_zpow {x y : ℚ} (h : Alike x y) (hx : x ≠ 0) (hy : y ≠ 0) (k : ℤ) :
    Alike (x * 10 ^ k) (y * 10 ^ k) := by
  refine ⟨?_, ?_⟩
  · rw [log_abs_mul_zpow hx, log_abs_mul_zpow hy, h.1]
  · rw [significant_mul_zpow, significant_mul_zpow, h.2]

/-- Halves of a unit `10 ^ (k + 1)` are multiples of five: a number between neighbouring multiples of
five is between neighbouring halves. -/
theorem half_of_fifth {z : ℚ} {i : ℕ} (k : ℕ) (hlow : 5 * (i : ℚ) < z) (hhigh : z < 5 * (i + 1)) :
    (((i / 10 ^ k : ℕ) : ℤ) : ℚ) / 2 < z / 10 ^ (k + 1) ∧
      z / 10 ^ (k + 1) < ((((i / 10 ^ k : ℕ) : ℤ) : ℚ) + 1) / 2 := by
  have hpos : (0 : ℚ) < 10 ^ k := by positivity
  have hfloor : (((i / 10 ^ k : ℕ) : ℚ)) * 10 ^ k ≤ i := by
    exact_mod_cast Nat.div_mul_le_self i (10 ^ k)
  have hceil : (i : ℚ) + 1 ≤ (((i / 10 ^ k : ℕ) : ℚ) + 1) * 10 ^ k := by
    have h : i < (i / 10 ^ k + 1) * 10 ^ k := by
      rw [mul_comm]
      exact Nat.lt_mul_div_succ i (by positivity)
    exact_mod_cast h
  rw [Int.cast_natCast, pow_succ]
  generalize ((i / 10 ^ k : ℕ) : ℚ) = j at hfloor hceil ⊢
  constructor
  · rw [lt_div_iff₀ (by positivity)]
    nlinarith
  · rw [div_lt_iff₀ (by positivity)]
    nlinarith

theorem log_abs_eq_natCast {x : ℚ} {k : ℕ} (hlow : 10 ^ k ≤ x) (hhigh : x < 10 ^ (k + 1)) :
    Int.log 10 |x| = k := by
  rw [abs_of_pos (lt_of_lt_of_le (by positivity) hlow)]
  apply log_eq
  · rwa [zpow_natCast]
  · rwa [← Nat.cast_add_one, zpow_natCast]

theorem unit_of_log {x : ℚ} {k : ℕ} (h : Int.log 10 |x| = (k + Decimal.precision : ℕ)) :
    unit x = 10 ^ (k + 1) := by
  have hexp : ((k + Decimal.precision : ℕ) : ℤ) + 1 - Decimal.precision = (k + 1 : ℕ) := by
    push_cast
    ring
  rw [unit, h, hexp, zpow_natCast]

/-- **A quotient with a remainder** rounds like its whole part, moved up by one where that might read as
a tie or as a number that is exact. -/
theorem alike_of_remainder {q : ℕ} {y : ℚ} (hq : 10 ^ Decimal.precision ≤ q) (hlow : (q : ℚ) < y)
    (hhigh : y < q + 1) : Alike y ((if q % 5 = 0 then q + 1 else q : ℕ) : ℚ) := by
  have hne : q ≠ 0 := by
    have : 0 < 10 ^ Decimal.precision := by positivity
    omega
  obtain ⟨k, hk⟩ : ∃ k, Nat.log 10 q = k + Decimal.precision :=
    ⟨_, (Nat.sub_add_cancel (Nat.le_log_of_pow_le (by norm_num) hq)).symm⟩
  have hpow : 10 ^ (k + Decimal.precision) ≤ q := hk ▸ Nat.pow_log_le_self 10 hne
  have hlt : q < 10 ^ (k + Decimal.precision + 1) :=
    hk ▸ Nat.lt_pow_succ_log_self (by norm_num) q
  -- the moved number stays below the next power of ten, which is a multiple of five
  have hfive : 10 ^ (k + Decimal.precision + 1) % 5 = 0 := by
    rw [pow_succ]
    omega
  obtain ⟨r, hr⟩ : ∃ r, (if q % 5 = 0 then q + 1 else q) = r := ⟨_, rfl⟩
  have hr5 : 5 * (q / 5) < r ∧ r < 5 * (q / 5 + 1) := by
    split at hr <;> omega
  have hrpow : 10 ^ (k + Decimal.precision) ≤ r ∧ r < 10 ^ (k + Decimal.precision + 1) := by
    split at hr <;> omega
  have hlogr : Int.log 10 |(r : ℚ)| = (k + Decimal.precision : ℕ) :=
    log_abs_eq_natCast (by exact_mod_cast hrpow.1) (by exact_mod_cast hrpow.2)
  have hy5 : 5 * ((q / 5 : ℕ) : ℚ) < y ∧ y < 5 * (((q / 5 : ℕ) : ℚ) + 1) := by
    have h : 5 * ((q / 5 : ℕ) : ℚ) ≤ q := by exact_mod_cast (by omega : 5 * (q / 5) ≤ q)
    have h' : (q : ℚ) + 1 ≤ 5 * (((q / 5 : ℕ) : ℚ) + 1) := by
      exact_mod_cast (by omega : q + 1 ≤ 5 * (q / 5 + 1))
    constructor <;> linarith
  have hlogy : Int.log 10 |y| = (k + Decimal.precision : ℕ) := by
    have h : (10 : ℚ) ^ (k + Decimal.precision) ≤ q := by exact_mod_cast hpow
    have h' : (q : ℚ) + 1 ≤ 10 ^ (k + Decimal.precision + 1) := by exact_mod_cast hlt
    exact log_abs_eq_natCast (by linarith) (by linarith)
  have hcell : nearestEven ((r : ℚ) / 10 ^ (k + 1)) = nearestEven (y / 10 ^ (k + 1)) :=
    nearestEven_eq_of_half (half_of_fifth k hy5.1 hy5.2)
      (half_of_fifth k (by exact_mod_cast hr5.1) (by exact_mod_cast hr5.2))
  rw [hr]
  refine ⟨by rw [hlogy, hlogr], ?_⟩
  rw [significant, significant, unit_of_log hlogy, unit_of_log hlogr, hcell]

end MiniLisp.Rounding
