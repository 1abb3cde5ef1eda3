import MiniLisp.Decimal.Basic

/-!
# Decimal arithmetic

Each operation takes the exact result and rounds it once (`round`): to 28 significant digits, a tie
to the even neighbour, and to no digit below the exponent -1000026. A result whose leading digit
would stand above the exponent 999999 is no number at all but a fault.

The exact result of a sum or difference lives on the lower of the two exponents. A quotient is taken
to more digits than are kept; a last digit that might read as a tie is moved off it where the
division left a remainder, so that rounding sees on which side of the tie the quotient lies.
-/

namespace MiniLisp.Decimal

/-- Why an operation has no result. -/
inductive RangeFault where
  | overflow
  | invalid
  deriving DecidableEq, Repr

/-- The significant digits that a result keeps. -/
def precision : Nat := 28

/-- The highest exponent of a leading digit. -/
def maxExponent : Int := 999999

/-- The lowest exponent of a last digit. -/
def minExponent : Int := -1000026

/-- `n / 10 ^ k` to the nearest whole number, a tie to the even one. -/
def roundHalfEven (n k : Nat) : Nat :=
  let q := n / Nat.pow 10 k
  let r := n % Nat.pow 10 k
  if 2 * r < Nat.pow 10 k then q
  else if Nat.pow 10 k < 2 * r then q + 1
  else q + q % 2

/-- The digits that rounding drops at the end. -/
def dropped (coefficient : Nat) (exponent : Int) : Nat :=
  max (digitCount coefficient - precision) (minExponent - exponent).toNat

/-- The coefficient without the dropped digits. Where more digits are dropped than there are, the
number is below half a unit. -/
def roundedCoefficient (coefficient drop : Nat) : Nat :=
  if digitCount coefficient < drop then 0 else roundHalfEven coefficient drop

/-- Rounds an exact result to the numbers that arithmetic keeps. -/
def round (negative : Bool) (coefficient : Nat) (exponent : Int) : Except RangeFault Decimal :=
  if coefficient = 0 then
    .ok (.finite negative 0 (max minExponent (min exponent maxExponent)))
  else
    let drop := dropped coefficient exponent
    let c := roundedCoefficient coefficient drop
    let e := exponent + drop
    -- rounding up may carry into one digit more than is kept
    let (c, e) :=
      if c = Nat.pow 10 precision then (Nat.pow 10 (precision - 1), e + 1) else (c, e)
    if maxExponent < adjusted c e then .error .overflow else .ok (.finite negative c e)

/-- The number with the other sign, unrounded. -/
def negate : Decimal → Decimal
  | .finite s c e => .finite (!s) c e
  | .infinite s => .infinite (!s)
  | .nan => .nan

/-- The sum; an exact zero is negative only when both operands are. -/
def add : Decimal → Decimal → Except RangeFault Decimal
  | .nan, _ => .ok .nan
  | _, .nan => .ok .nan
  | .infinite s, .infinite t => if s = t then .ok (.infinite s) else .error .invalid
  | .infinite s, .finite .. => .ok (.infinite s)
  | .finite .., .infinite t => .ok (.infinite t)
  | .finite s c e, .finite t d f =>
    let low := min e f
    let sum := scaled s c e low + scaled t d f low
    round (if sum = 0 then s && t else sum < 0) sum.natAbs low

/-- The difference: the sum with the second operand's sign turned. -/
def sub (a b : Decimal) : Except RangeFault Decimal := add a (negate b)

/-- The number with its sign turned, rounded; a zero becomes positive. -/
def minus : Decimal → Except RangeFault Decimal
  | .finite s c e => round (c != 0 && !s) c e
  | .infinite s => .ok (.infinite (!s))
  | .nan => .ok .nan

/-- The product. -/
def mul : Decimal → Decimal → Except RangeFault Decimal
  | .nan, _ => .ok .nan
  | _, .nan => .ok .nan
  | .infinite s, .infinite t => .ok (.infinite (s != t))
  | .infinite s, .finite t d _ => if d = 0 then .error .invalid else .ok (.infinite (s != t))
  | .finite s c _, .infinite t => if c = 0 then .error .invalid else .ok (.infinite (s != t))
  | .finite s c e, .finite t d f => round (s != t) (c * d) (e + f)

/-- Takes zeros off the end, at most `room` of them, raising the exponent. -/
def stripZeros : Nat → Nat → Int → Nat × Int
  | 0, c, e => (c, e)
  | room + 1, c, e => if c % 10 = 0 then stripZeros room (c / 10) (e + 1) else (c, e)

/-- The quotient of the coefficients to two digits more than are kept, with its exponent relative to
the difference of the operands' exponents. An exact quotient keeps the exponent nearest to that
difference. -/
def quotient (c d : Nat) : Nat × Int :=
  let up : Int := digitCount d + precision + 1 - digitCount c
  let n := c * Nat.pow 10 up.toNat
  let m := d * Nat.pow 10 (-up).toNat
  let q := n / m
  if n % m = 0 then stripZeros up.toNat q (-up)
  else (if q % 5 = 0 then q + 1 else q, -up)

/-- The quotient by a number that is not zero. -/
def div : Decimal → Decimal → Except RangeFault Decimal
  | .nan, _ => .ok .nan
  | _, .nan => .ok .nan
  | .infinite _, .infinite _ => .error .invalid
  | .infinite s, .finite t _ _ => .ok (.infinite (s != t))
  | .finite s _ _, .infinite t => .ok (.finite (s != t) 0 minExponent)
  | .finite s c e, .finite t d f =>
    if c = 0 then round (s != t) 0 (e - f)
    else
      let (q, shift) := quotient c d
      round (s != t) q (e - f + shift)

end MiniLisp.Decimal
