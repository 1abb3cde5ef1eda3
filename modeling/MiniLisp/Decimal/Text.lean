import MiniLisp.Decimal.Basic

/-!
# The texts of a decimal number

A decimal number has two texts. The positional one, which programs see, never uses an exponent and
has a point in every finite number. The inspector's, `inspect`, keeps the exponent: it is positional
only for exponents up to zero with at most five zeros after the point.
-/

namespace MiniLisp.Decimal

def signText (negative : Bool) : List Char := if negative then ['-'] else []

/-- The digits of the coefficient. -/
def digits (coefficient : Nat) : List Char := Nat.toDigits 10 coefficient

/-- The digits with a point before the last `places` of them. -/
def pointed (ds : List Char) (places : Nat) : List Char :=
  if places < ds.length then
    ds.take (ds.length - places) ++ '.' :: ds.drop (ds.length - places)
  else
    '0' :: '.' :: (List.replicate (places - ds.length) '0' ++ ds)

/-- The digits of a number from the exponent zero on, without a point. -/
def wholeDigits (coefficient : Nat) (exponent : Nat) : List Char :=
  if coefficient = 0 then ['0'] else digits coefficient ++ List.replicate exponent '0'

/-- The positional text, always with a point. -/
def textChars : Decimal → List Char
  | .finite s c e =>
    signText s ++
      if e < 0 then pointed (digits c) (-e).toNat else wholeDigits c e.toNat ++ ['.', '0']
  | .infinite s => signText s ++ "Infinity".toList
  | .nan => "NaN".toList

/-- The positional text of a number. -/
def text (d : Decimal) : String := String.ofList d.textChars

/-- The digits with a point after the first, where there are more. -/
def leadPointed : List Char → List Char
  | [] => []
  | [d] => [d]
  | d :: ds => d :: '.' :: ds

/-- The text that keeps the exponent. -/
def inspectChars : Decimal → List Char
  | .finite s c e =>
    let ds := digits c
    let lead := e + ds.length - 1
    signText s ++
      if e ≤ 0 ∧ -6 ≤ lead then
        if e = 0 then ds else pointed ds (-e).toNat
      else
        leadPointed ds ++ 'E' :: (if lead < 0 then '-' else '+') :: digits lead.natAbs
  | .infinite s => signText s ++ "Infinity".toList
  | .nan => "NaN".toList

/-- The inspector's text of a number. -/
def inspect (d : Decimal) : String := String.ofList d.inspectChars

end MiniLisp.Decimal
