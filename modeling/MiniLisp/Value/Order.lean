import MiniLisp.Value.Basic

/-!
# Equality and order of values

Numbers are equal when they are the same number, whole or decimal, strings and dates by content, symbols
by name, and everything else only to itself. Numbers, strings and dates are ordered among their own
kind, and `nil` comes before everything but itself.
-/

namespace MiniLisp

namespace Number

/-- The number as a decimal, exactly. -/
def toDecimal : Number → Decimal
  | .int n => .ofInt n
  | .decimal d => d

/-- Whether two numbers are the same number. -/
def same : Number → Number → Bool
  | .int m, .int n => m = n
  | m, n => m.toDecimal.eqv n.toDecimal

/-- Whether one number is below the other, if they can be compared. -/
def less? : Number → Number → Option Bool
  | .int m, .int n => some (m < n)
  | m, n => (m.toDecimal.compare? n.toDecimal).map (· == .lt)

end Number

namespace Value

/-- Equality of values. -/
def equal : Value → Value → Bool
  | .number m, .number n => m.same n
  | .atom a, .atom b => a = b
  | a, b => a.id?.isSome && a.id? == b.id?

/-- Whether one value comes before the other. -/
def less : Value → Value → Except Failure Bool
  | .nil, b => .ok (!b.isNil)
  | _, .nil => .ok false
  | .number m, .number n =>
    match m.less? n with
    | some b => .ok b
    | none => .error .incomparableNumber
  | .string s, .string t => .ok (s < t)
  | .date d, .date e => .ok (d.key < e.key)
  | a, b => .error (.typeError (.incomparable a.type b.type))

end Value

end MiniLisp
