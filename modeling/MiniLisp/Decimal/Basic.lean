/-!
# Decimal numbers

A decimal number keeps its sign, its coefficient and its exponent as they were written or computed, so
`1.50` and `1.5` are equal numbers with different texts, and so are `0.0` and `-0.0`. Infinities and
the number that is no number exist only where a host puts them: reading never yields one, and
arithmetic on finite numbers never yields one either.

Two finite numbers are compared on a common exponent (`scaled`), hence exactly.
-/

namespace MiniLisp

/-- A decimal number; the finite ones stand for `coefficient * 10 ^ exponent` with a sign. -/
inductive Decimal where
  | finite (negative : Bool) (coefficient : Nat) (exponent : Int)
  | infinite (negative : Bool)
  | nan
  deriving DecidableEq, Inhabited, Repr

namespace Decimal

/-- The whole number as a decimal. -/
def ofInt (n : Int) : Decimal := .finite (n < 0) n.natAbs 0

def isFinite : Decimal → Bool
  | .finite .. => true
  | _ => false

def isZero : Decimal → Bool
  | .finite _ c _ => c == 0
  | _ => false

/-- The coefficient with its sign, on a lower exponent; `low` must not be above `exponent`. -/
def scaled (negative : Bool) (coefficient : Nat) (exponent low : Int) : Int :=
  let n : Int := (coefficient * Nat.pow 10 (exponent - low).toNat : Nat)
  if negative then -n else n

/-- The order of two numbers; nothing compares with the number that is none. -/
def compare? : Decimal → Decimal → Option Ordering
  | .nan, _ => none
  | _, .nan => none
  | .infinite s, .infinite t => some (Ord.compare t.toNat s.toNat)
  | .infinite s, .finite .. => some (if s then .lt else .gt)
  | .finite .., .infinite s => some (if s then .gt else .lt)
  | .finite s c e, .finite t d f =>
    let low := min e f
    some (Ord.compare (scaled s c e low) (scaled t d f low))

/-- Equality of the numbers, whatever their texts. -/
def eqv (a b : Decimal) : Bool := compare? a b == some .eq

/-! ### Counting digits -/

/-- The least exponent from `d` on whose power of ten exceeds `n`. -/
def powerAbove (n d : Nat) : Nat :=
  if n < Nat.pow 10 d then d else powerAbove n (d + 1)
termination_by n - d
decreasing_by
  have : d < Nat.pow 10 d := Nat.lt_pow_self (by decide)
  omega

theorem lt_pow_powerAbove (n d : Nat) : n < Nat.pow 10 (powerAbove n d) := by
  fun_induction powerAbove n d with
  | case1 d h => exact h
  | case2 d h ih => exact ih

/-- The number of digits of `n`, one for zero. The search starts a little below the answer, since
`10 ^ 59 ≤ 2 ^ 196`. -/
def digitCount (n : Nat) : Nat := max 1 (powerAbove n (n.log2 * 59 / 196))

theorem lt_pow_digitCount (n : Nat) : n < Nat.pow 10 (digitCount n) :=
  Nat.lt_of_lt_of_le (lt_pow_powerAbove n _)
    (Nat.pow_le_pow_right (by decide) (Nat.le_max_right ..))

/-- The exponent of the leading digit of a finite number. -/
def adjusted (coefficient : Nat) (exponent : Int) : Int := exponent + digitCount coefficient - 1

/-! ### Whole part -/

/-- A finite number without its fraction. -/
def truncate (negative : Bool) (coefficient : Nat) (exponent : Int) : Int :=
  let n : Int := (coefficient * Nat.pow 10 exponent.toNat / Nat.pow 10 (-exponent).toNat : Nat)
  if negative then -n else n

end Decimal

end MiniLisp
