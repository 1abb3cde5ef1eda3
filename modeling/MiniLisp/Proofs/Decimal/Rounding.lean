import MiniLisp.Proofs.Decimal.Nearest
import MiniLisp.Proofs.Decimal.Rational

/-! # Decimal arithmetic is correctly rounded

Each operation on finite decimals gives the exact result of the numbers that they stand for, rounded to
the significant digits that arithmetic keeps (`Rounds`), as long as that result is zero or its leading
digit stands between the exponents -999999 and 999999 (`InRange`).

* `round_alike`: rounding a coefficient and an exponent rounds every number that rounds like them;
* `rounds_add`, `rounds_sub`, `rounds_minus`, `rounds_mul`: the exact result has a coefficient and an
  exponent, which are rounded;
* `rounds_div`: the quotient is taken to so many digits that rounding cannot tell it from the exact one
  (`quotient_alike`).
-/

namespace MiniLisp.Decimal

open Rounding

/-- **The exact result is one that arithmetic can hold**: zero, or of a magnitude between the least and
the greatest power of ten. -/
def InRange (x : ℚ) : Prop := x = 0 ∨ (10 ^ (-maxExponent) ≤ |x| ∧ |x| ≤ 10 ^ maxExponent)

/-- **The computation gives the exact result, rounded.** -/
def Rounds (r : Except RangeFault Decimal) (x : ℚ) : Prop :=
  ∃ d, r = .ok d ∧ d.isFinite = true ∧ d.toRat = significant x

/-! ## Digits -/

theorem pow_le_of_lt_powerAbove {n d k : Nat} (hk : d ≤ k) (h : k < powerAbove n d) :
    10 ^ k ≤ n := by
  fun_induction powerAbove n d with
  | case1 d hlt => omega
  | case2 d hle ih =>
    by_cases hd : k = d
    · rw [hd]
      exact not_lt.mp hle
    · exact ih (by omega) h

/-- The search for the number of digits starts below it. -/
theorem pow_log2_le {n : Nat} (hn : n ≠ 0) : 10 ^ (n.log2 * 59 / 196) ≤ n := by
  have hexp : 196 * (n.log2 * 59 / 196) ≤ 59 * n.log2 := by omega
  have hpow : (10 ^ (n.log2 * 59 / 196)) ^ 196 ≤ n ^ 196 := calc
    (10 ^ (n.log2 * 59 / 196)) ^ 196 = 10 ^ (196 * (n.log2 * 59 / 196)) := by
      rw [← pow_mul, Nat.mul_comm]
    _ ≤ 10 ^ (59 * n.log2) := Nat.pow_le_pow_right (by norm_num) hexp
    _ = (10 ^ 59) ^ n.log2 := by rw [pow_mul]
    _ ≤ (2 ^ 196) ^ n.log2 := Nat.pow_le_pow_left (by norm_num) _
    _ = (2 ^ n.log2) ^ 196 := by rw [← pow_mul, ← pow_mul, Nat.mul_comm]
    _ ≤ n ^ 196 := Nat.pow_le_pow_left (Nat.log2_self_le hn) _
  exact (Nat.pow_le_pow_iff_left (by norm_num)).mp hpow

theorem digitCount_pos (n : Nat) : 0 < digitCount n := Nat.le_max_left 1 _

/-- **A number reaches the power of ten of its leading digit.** -/
theorem pow_le_of_digitCount {n : Nat} (hn : n ≠ 0) : 10 ^ (digitCount n - 1) ≤ n := by
  have hstart := pow_log2_le hn
  have hlt := lt_pow_powerAbove n (n.log2 * 59 / 196)
  have habove : n.log2 * 59 / 196 < powerAbove n (n.log2 * 59 / 196) := by
    refine (Nat.pow_lt_pow_iff_right (by norm_num : 1 < 10)).mp ?_
    exact lt_of_le_of_lt hstart hlt
  have hcount : digitCount n - 1 = powerAbove n (n.log2 * 59 / 196) - 1 := by
    unfold digitCount
    omega
  rw [hcount]
  exact pow_le_of_lt_powerAbove (Nat.le_sub_one_of_lt habove) (by omega)

variable {c : Nat} (e : Int)

theorem pow_adjusted_le (hc : c ≠ 0) : (10 : ℚ) ^ adjusted c e ≤ c * 10 ^ e := by
  have hpow : (10 : ℚ) ^ (digitCount c - 1 : ℕ) ≤ c := by exact_mod_cast pow_le_of_digitCount hc
  have hexp : adjusted c e = (digitCount c - 1 : ℕ) + e := by
    have := digitCount_pos c
    unfold adjusted
    omega
  rw [hexp, zpow_add₀ (by norm_num), zpow_natCast]
  exact mul_le_mul_of_nonneg_right hpow (ten_zpow_pos e).le

theorem lt_pow_adjusted (c : Nat) : (c : ℚ) * 10 ^ e < 10 ^ (adjusted c e + 1) := by
  have hpow : (c : ℚ) < 10 ^ digitCount c := by exact_mod_cast lt_pow_digitCount c
  have hexp : adjusted c e + 1 = (digitCount c : ℤ) + e := by
    unfold adjusted
    omega
  rw [hexp, zpow_add₀ (by norm_num), zpow_natCast]
  exact mul_lt_mul_of_pos_right hpow (ten_zpow_pos e)

theorem coefficient_mul_pos (hc : c ≠ 0) : (0 : ℚ) < c * 10 ^ e :=
  mul_pos (Nat.cast_pos.mpr (Nat.pos_of_ne_zero hc)) (ten_zpow_pos e)

/-- The exponent of the leading digit is the logarithm. -/
theorem log_abs_eq_adjusted (hc : c ≠ 0) : Int.log 10 |(c : ℚ) * 10 ^ e| = adjusted c e := by
  rw [abs_of_pos (coefficient_mul_pos e hc)]
  exact log_eq (pow_adjusted_le e hc) (lt_pow_adjusted e c)

theorem adjusted_le {e k : Int} (hc : c ≠ 0) (h : (c : ℚ) * 10 ^ e ≤ 10 ^ k) : adjusted c e ≤ k := by
  have hpow : (10 : ℚ) ^ adjusted c e ≤ 10 ^ k := le_trans (pow_adjusted_le e hc) h
  exact (zpow_le_zpow_iff_right₀ (by norm_num)).mp hpow

/-! ## Rounding -/

/-- Dropping digits rounds to the nearest whole number, a tie to the even one. -/
theorem roundHalfEven_eq (n k : Nat) :
    ((roundHalfEven n k : ℕ) : ℤ) = nearestEven ((n : ℚ) / 10 ^ k) := by
  have hu : 0 < 10 ^ k := by positivity
  have hfrac : (n : ℚ) / 10 ^ k = (n / 10 ^ k : ℕ) + (n % 10 ^ k : ℕ) / (10 ^ k : ℕ) := by
    have hsum : (n : ℚ) = (n / 10 ^ k : ℕ) * (10 ^ k : ℕ) + (n % 10 ^ k : ℕ) := by
      exact_mod_cast (Nat.div_add_mod' n (10 ^ k)).symm
    have hu' : ((10 ^ k : ℕ) : ℚ) ≠ 0 := by exact_mod_cast hu.ne'
    rw [hsum, Nat.cast_pow, Nat.cast_ofNat, add_div, mul_div_assoc]
    simp
  rw [hfrac, eq_comm, nearestEven_eq_iff]
  exact isNearest_of_remainder (Nat.mod_lt n hu)

/-- In range, as many digits are dropped as there are too many. -/
theorem dropped_eq {c : Nat} {e : Int} (h : -maxExponent ≤ adjusted c e) :
    dropped c e = digitCount c - precision := by
  simp only [dropped, adjusted, minExponent, maxExponent, precision] at h ⊢
  omega

/-- **Dropping digits keeps the significant ones.** -/
theorem rounded_eq_significant {c : Nat} (hc : c ≠ 0) (e : Int) :
    ((roundHalfEven c (digitCount c - precision) : ℕ) : ℚ) *
        10 ^ (e + (digitCount c - precision : ℕ)) = significant (c * 10 ^ e) := by
  have hcount := digitCount_pos c
  have hunit : unit ((c : ℚ) * 10 ^ e) = 10 ^ (adjusted c e + 1 - precision) := by
    rw [unit, log_abs_eq_adjusted e hc]
  by_cases hmany : precision ≤ digitCount c
  · have hexp : adjusted c e + 1 - precision = e + (digitCount c - precision : ℕ) := by
      unfold adjusted
      omega
    have hdiv : (c : ℚ) * 10 ^ e / 10 ^ (e + (digitCount c - precision : ℕ)) =
        c / 10 ^ (digitCount c - precision) := by
      rw [zpow_add₀ (by norm_num), zpow_natCast, mul_comm ((10 : ℚ) ^ e),
        mul_div_mul_right _ _ (ten_zpow_pos e).ne']
    rw [significant, hunit, hexp, hdiv, ← roundHalfEven_eq, Int.cast_natCast]
  · have hfew : digitCount c - precision = 0 := by omega
    have hself : roundHalfEven c 0 = c := by
      have h := roundHalfEven_eq c 0
      rw [pow_zero, div_one, ← Int.cast_natCast c, nearestEven_intCast] at h
      exact_mod_cast h
    have hmultiple : (c : ℚ) * 10 ^ e =
        ((c * 10 ^ (precision - digitCount c) : ℤ) : ℚ) * unit ((c : ℚ) * 10 ^ e) := by
      have hexp : e = (precision - digitCount c : ℕ) + (adjusted c e + 1 - precision) := by
        unfold adjusted
        omega
      rw [hunit]
      push_cast
      rw [mul_assoc, ← zpow_natCast, ← zpow_add₀ (by norm_num), ← hexp]
    rw [hfew, hself, significant_of_multiple hmultiple]
    simp

theorem roundHalfEven_ne_zero {c : Nat} (hc : c ≠ 0) :
    roundHalfEven c (digitCount c - precision) ≠ 0 := by
  have hpow : (10 ^ (digitCount c - precision) : ℚ) ≤ c := by
    have hfewer : digitCount c - precision ≤ digitCount c - 1 := by
      simp only [precision]
      omega
    exact_mod_cast le_trans (Nat.pow_le_pow_right (by norm_num) hfewer) (pow_le_of_digitCount hc)
  have hone : (1 : ℤ) ≤ nearestEven ((c : ℚ) / 10 ^ (digitCount c - precision)) := by
    refine le_nearestEven ?_
    rw [Int.cast_one, le_div_iff₀ (by positivity), one_mul]
    exact hpow
  rw [← roundHalfEven_eq] at hone
  omega

theorem neg_maxExponent_le_log {x : ℚ} (hx : x ≠ 0) (h : InRange x) :
    -maxExponent ≤ Int.log 10 |x| := by
  refine (Int.zpow_le_iff_le_log (by norm_num) (abs_pos.mpr hx)).mp ?_
  exact_mod_cast (h.resolve_left hx).1

/-- **Rounding a coefficient and an exponent** rounds every number in range that rounds like them. -/
theorem round_alike (s : Bool) {c : Nat} {e : Int} {x : ℚ} (hc : c ≠ 0) (hx : 0 < x)
    (halike : Alike x (c * 10 ^ e)) (hrange : InRange x) :
    ∃ c' e', round s c e = .ok (.finite s c' e') ∧ (c' : ℚ) * 10 ^ e' = significant x := by
  have hlog : -maxExponent ≤ adjusted c e := by
    have h := neg_maxExponent_le_log hx.ne' hrange
    rwa [halike.1, log_abs_eq_adjusted e hc] at h
  have hkept := rounded_eq_significant hc e
  rw [← halike.2] at hkept
  have hbound : significant x ≤ 10 ^ maxExponent := by
    have h := (hrange.resolve_left hx.ne').2
    rw [abs_of_pos hx] at h
    exact significant_le_zpow hx h
  have hne := roundHalfEven_ne_zero hc
  have hdigits : roundedCoefficient c (digitCount c - precision) =
      roundHalfEven c (digitCount c - precision) := if_neg (by omega)
  unfold round
  rw [if_neg hc, dropped_eq hlog]
  dsimp only
  rw [hdigits]
  generalize roundHalfEven c (digitCount c - precision) = n at hkept hne ⊢
  generalize e + (digitCount c - precision : ℕ) = f at hkept ⊢
  by_cases hcarry : n = Nat.pow 10 precision
  · rw [if_pos hcarry]
    have hsame : ((Nat.pow 10 (precision - 1) : ℕ) : ℚ) * 10 ^ (f + 1) = n * 10 ^ f := by
      rw [hcarry, zpow_add₀ (by norm_num)]
      simp only [Nat.pow_eq, precision]
      push_cast
      ring
    have hadjusted : adjusted (Nat.pow 10 (precision - 1)) (f + 1) ≤ maxExponent := by
      refine adjusted_le (by simp [precision]) ?_
      rw [hsame, hkept]
      exact hbound
    exact ⟨_, _, if_neg (not_lt.mpr hadjusted), hsame.trans hkept⟩
  · rw [if_neg hcarry]
    have hadjusted : adjusted n f ≤ maxExponent := adjusted_le hne (hkept.trans_le hbound)
    exact ⟨_, _, if_neg (not_lt.mpr hadjusted), hkept⟩

/-- **Rounding with a sign.** -/
theorem rounds_alike (s : Bool) {c : Nat} {e : Int} {x : ℚ} (hc : c ≠ 0) (hx : 0 < x)
    (halike : Alike x (c * 10 ^ e)) (hrange : InRange x) :
    Rounds (round s c e) (if s then -x else x) := by
  obtain ⟨c', e', hround, hvalue⟩ := round_alike s hc hx halike hrange
  refine ⟨_, hround, rfl, ?_⟩
  cases s with
  | false => simpa [toRat] using hvalue
  | true => simpa [toRat, significant_neg] using hvalue

theorem InRange.abs {x : ℚ} (h : InRange x) : InRange |x| := by
  unfold InRange
  rwa [abs_eq_zero, abs_abs]

theorem rounds_zero (s : Bool) (e : Int) : Rounds (round s 0 e) 0 := by
  rw [round, if_pos rfl]
  exact ⟨_, rfl, rfl, by simp⟩

theorem rounds_round {s : Bool} {c : Nat} {e : Int} (h : InRange (finite s c e).toRat) :
    Rounds (round s c e) (finite s c e).toRat := by
  by_cases hc : c = 0
  · rw [hc, toRat_finite_zero]
    exact rounds_zero s e
  · have hpos := coefficient_mul_pos e hc
    have hsign : (finite s c e).toRat = if s then -((c : ℚ) * 10 ^ e) else c * 10 ^ e := by
      cases s <;> simp [toRat]
    have habs : |(finite s c e).toRat| = c * 10 ^ e := by
      cases s <;> simp [hsign, abs_of_pos hpos]
    rw [hsign]
    exact rounds_alike s hc hpos ⟨rfl, rfl⟩ (habs ▸ h.abs)

/-! ## Sums and products -/

variable {a b : Decimal}

theorem rounds_add (ha : a.isFinite = true) (hb : b.isFinite = true)
    (h : InRange (a.toRat + b.toRat)) : Rounds (add a b) (a.toRat + b.toRat) := by
  obtain ⟨s, c, e, rfl⟩ := exists_of_isFinite ha
  obtain ⟨t, d, f, rfl⟩ := exists_of_isFinite hb
  have hsum : (finite s c e).toRat + (finite t d f).toRat =
      ((scaled s c e (min e f) + scaled t d f (min e f) : ℤ) : ℚ) * 10 ^ min e f := by
    rw [toRat_eq_scaled s c (min_le_left e f), toRat_eq_scaled t d (min_le_right e f)]
    push_cast
    ring
  rw [hsum, ← toRat_natAbs fun hne => if_neg hne] at h ⊢
  exact rounds_round h

theorem rounds_sub (ha : a.isFinite = true) (hb : b.isFinite = true)
    (h : InRange (a.toRat - b.toRat)) : Rounds (sub a b) (a.toRat - b.toRat) := by
  rw [sub_eq_add_neg, ← toRat_negate hb] at h ⊢
  exact rounds_add ha (isFinite_negate hb) h

theorem rounds_minus (ha : a.isFinite = true) (h : InRange (0 - a.toRat)) :
    Rounds (minus a) (0 - a.toRat) := by
  obtain ⟨s, c, e, rfl⟩ := exists_of_isFinite ha
  have hneg : 0 - (finite s c e).toRat = (finite (c != 0 && !s) c e).toRat := by
    by_cases hc : c = 0
    · simp [hc]
    · cases s <;> simp [toRat, hc]
  rw [hneg] at h ⊢
  exact rounds_round h

theorem rounds_mul (ha : a.isFinite = true) (hb : b.isFinite = true)
    (h : InRange (a.toRat * b.toRat)) : Rounds (mul a b) (a.toRat * b.toRat) := by
  obtain ⟨s, c, e, rfl⟩ := exists_of_isFinite ha
  obtain ⟨t, d, f, rfl⟩ := exists_of_isFinite hb
  have hprod : (finite s c e).toRat * (finite t d f).toRat =
      (finite (s != t) (c * d) (e + f)).toRat := by
    simp only [toRat_finite, zpow_add₀ (by norm_num : (10 : ℚ) ≠ 0)]
    cases s <;> cases t <;> simp <;> ring
  rw [hprod] at h ⊢
  exact rounds_round h

/-! ## Quotients -/

/-- Taking zeros off the end keeps the number. -/
theorem stripZeros_value (room c : Nat) (e : Int) :
    ((stripZeros room c e).1 : ℚ) * 10 ^ (stripZeros room c e).2 = c * 10 ^ e := by
  fun_induction stripZeros room c e with
  | case1 c e => rfl
  | case2 room c e hzero ih =>
    have hten : ((c / 10 : ℕ) : ℚ) * 10 = c := by
      exact_mod_cast Nat.div_mul_cancel (Nat.dvd_of_mod_eq_zero hzero)
    rw [ih, zpow_add₀ (by norm_num), ← hten]
    ring
  | case3 room c e hdigit => rfl

theorem stripZeros_ne_zero {room c : Nat} {e : Int} (hc : c ≠ 0) : (stripZeros room c e).1 ≠ 0 := by
  intro hzero
  have hvalue := stripZeros_value room c e
  rw [hzero, Nat.cast_zero, zero_mul] at hvalue
  exact (coefficient_mul_pos e hc).ne hvalue

/-- The quotient has more digits than are kept. -/
theorem le_quotient {c d : Nat} (hc : c ≠ 0) (hd : d ≠ 0) {up : Int}
    (hup : up = digitCount d + precision + 1 - digitCount c) :
    10 ^ precision ≤ c * 10 ^ up.toNat / (d * 10 ^ (-up).toNat) := by
  have hcount := digitCount_pos c
  have hm : 0 < d * 10 ^ (-up).toNat := Nat.mul_pos (Nat.pos_of_ne_zero hd) (by positivity)
  have hexp : digitCount c - 1 + up.toNat = precision + (digitCount d + (-up).toNat) := by
    omega
  rw [Nat.le_div_iff_mul_le hm]
  calc 10 ^ precision * (d * 10 ^ (-up).toNat)
      ≤ 10 ^ precision * (10 ^ digitCount d * 10 ^ (-up).toNat) :=
        Nat.mul_le_mul_left _ (Nat.mul_le_mul_right _ (lt_pow_digitCount d).le)
    _ = 10 ^ (digitCount c - 1) * 10 ^ up.toNat := by
        rw [← pow_add, ← pow_add, ← pow_add, hexp]
    _ ≤ c * 10 ^ up.toNat := Nat.mul_le_mul_right _ (pow_le_of_digitCount hc)

/-- Moving the point of a coefficient moves the point of the quotient. -/
theorem quotient_shift (c d : Nat) (up : Int) :
    ((c * 10 ^ up.toNat : ℕ) : ℚ) / (d * 10 ^ (-up).toNat : ℕ) * 10 ^ (-up) = c / d := by
  have hpow : (10 : ℚ) ^ (-up) = 10 ^ (-up).toNat / 10 ^ up.toNat := by
    rw [← zpow_natCast, ← zpow_natCast, ← zpow_sub₀ (by norm_num)]
    congr 1
    omega
  rw [hpow]
  generalize up.toNat = i, (-up).toNat = j
  have hi : (10 : ℚ) ^ i ≠ 0 := by positivity
  have hj : (10 : ℚ) ^ j ≠ 0 := by positivity
  push_cast
  by_cases hd : (d : ℚ) = 0
  · simp [hd]
  · field_simp

/-- A division with a remainder, its last digit moved off ties, rounds like the quotient. -/
theorem alike_of_division {n m : Nat} (hlarge : 10 ^ precision ≤ n / m) (hrest : n % m ≠ 0) :
    Alike ((n : ℚ) / m) ((if n / m % 5 = 0 then n / m + 1 else n / m : ℕ) : ℚ) := by
  have hm : 0 < m := by
    refine Nat.pos_of_ne_zero fun hzero => ?_
    rw [hzero, Nat.div_zero] at hlarge
    exact absurd hlarge (by simp [precision])
  have hlow : n / m * m < n := by
    have := Nat.div_add_mod' n m
    omega
  have hhigh : n < (n / m + 1) * m := by
    rw [mul_comm]
    exact Nat.lt_mul_div_succ n hm
  have hm' : (0 : ℚ) < m := by exact_mod_cast hm
  refine alike_of_remainder hlarge ?_ ?_
  · rw [lt_div_iff₀ hm']
    exact_mod_cast hlow
  · rw [div_lt_iff₀ hm']
    exact_mod_cast hhigh

/-- **Rounding cannot tell the quotient of coefficients from the exact one.** -/
theorem quotient_alike {c d : Nat} (hc : c ≠ 0) (hd : d ≠ 0) :
    (quotient c d).1 ≠ 0 ∧ Alike (c / d) ((quotient c d).1 * 10 ^ (quotient c d).2) := by
  obtain ⟨up, hup⟩ : ∃ up : Int, up = digitCount d + precision + 1 - digitCount c := ⟨_, rfl⟩
  have hlarge := le_quotient hc hd hup
  have hshift := quotient_shift c d up
  have hquotient : quotient c d =
      if c * 10 ^ up.toNat % (d * 10 ^ (-up).toNat) = 0 then
        stripZeros up.toNat (c * 10 ^ up.toNat / (d * 10 ^ (-up).toNat)) (-up)
      else (if c * 10 ^ up.toNat / (d * 10 ^ (-up).toNat) % 5 = 0 then
        c * 10 ^ up.toNat / (d * 10 ^ (-up).toNat) + 1
        else c * 10 ^ up.toNat / (d * 10 ^ (-up).toNat), -up) := by
    rw [hup]
    rfl
  rw [hquotient, ← hshift]
  generalize c * 10 ^ up.toNat = n, d * 10 ^ (-up).toNat = m at hlarge ⊢
  have hpos : n / m ≠ 0 := by
    have : 0 < 10 ^ precision := by positivity
    omega
  by_cases hexact : n % m = 0
  · have hvalue : (n : ℚ) / m = (n / m : ℕ) := by
      rw [div_eq_iff]
      · exact_mod_cast (Nat.div_mul_cancel (Nat.dvd_of_mod_eq_zero hexact)).symm
      · rintro hzero
        rw [Nat.cast_eq_zero.mp hzero, Nat.div_zero] at hpos
        exact hpos rfl
    rw [if_pos hexact, stripZeros_value, hvalue]
    exact ⟨stripZeros_ne_zero hpos, rfl, rfl⟩
  · have hn : n ≠ 0 := by
      rintro rfl
      exact hexact (Nat.zero_mod m)
    have hm : m ≠ 0 := by
      rintro rfl
      exact hpos (Nat.div_zero n)
    have hx : (n : ℚ) / m ≠ 0 := div_ne_zero (Nat.cast_ne_zero.mpr hn) (Nat.cast_ne_zero.mpr hm)
    have hmoved : (if n / m % 5 = 0 then n / m + 1 else n / m) ≠ 0 := by
      split <;> omega
    rw [if_neg hexact]
    refine ⟨hmoved, ?_⟩
    exact (alike_of_division hlarge hexact).mul_zpow hx (Nat.cast_ne_zero.mpr hmoved) (-up)

theorem rounds_div (ha : a.isFinite = true) (hb : b.isFinite = true) (hne : b.toRat ≠ 0)
    (h : InRange (a.toRat / b.toRat)) : Rounds (div a b) (a.toRat / b.toRat) := by
  obtain ⟨s, c, e, rfl⟩ := exists_of_isFinite ha
  obtain ⟨t, d, f, rfl⟩ := exists_of_isFinite hb
  have hd : d ≠ 0 := by
    rintro rfl
    exact hne (toRat_finite_zero t f)
  by_cases hc : c = 0
  · have hdiv : div (finite s c e) (finite t d f) = round (s != t) 0 (e - f) := by
      rw [div, if_pos hc]
    rw [hdiv, hc, toRat_finite_zero, zero_div]
    exact rounds_zero _ _
  · have hdiv : div (finite s c e) (finite t d f) =
        round (s != t) (quotient c d).1 (e - f + (quotient c d).2) := by
      rw [div, if_neg hc]
    have hc' : (c : ℚ) ≠ 0 := Nat.cast_ne_zero.mpr hc
    have hd' : (d : ℚ) ≠ 0 := Nat.cast_ne_zero.mpr hd
    have hpos : (0 : ℚ) < (c : ℚ) / d * 10 ^ (e - f) :=
      mul_pos (by positivity) (ten_zpow_pos (e - f))
    have hsign : (finite s c e).toRat / (finite t d f).toRat =
        if s != t then -((c : ℚ) / d * 10 ^ (e - f)) else (c : ℚ) / d * 10 ^ (e - f) := by
      have hf := (ten_zpow_pos f).ne'
      rw [zpow_sub₀ (by norm_num)]
      cases s <;> cases t <;> simp [toRat] <;> field_simp
    obtain ⟨hq, halike⟩ := quotient_alike hc hd
    have hscaled := halike.mul_zpow (div_ne_zero hc' hd') (coefficient_mul_pos _ hq).ne' (e - f)
    rw [mul_assoc, ← zpow_add₀ (by norm_num), add_comm (quotient c d).2] at hscaled
    have hrange : InRange ((c : ℚ) / d * 10 ^ (e - f)) := by
      have habs := h.abs
      rw [hsign] at habs
      cases hst : s != t <;> simpa [hst, abs_of_pos hpos] using habs
    rw [hsign, hdiv]
    exact rounds_alike (s != t) hq hpos hscaled hrange

end MiniLisp.Decimal
