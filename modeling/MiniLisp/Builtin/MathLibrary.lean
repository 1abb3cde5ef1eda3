import MiniLisp.Builtin.Arithmetic
import MiniLisp.Decimal.Shortest

/-!
# The math library

The functions of the math library work on doubles. The argument goes to the nearest double and the
result comes back as the shortest decimal that reads as it, so every result is a finite decimal. A
result that is infinite or no number is a fault, which one depends on the argument.
-/

namespace MiniLisp.MathLibrary

open MiniLisp.Arithmetic

/-- The result of a function under its name. -/
def finish (name : String) (x : Float) : Except Failure Number :=
  match Decimal.ofDouble? x with
  | some d => .ok (.decimal d)
  | none => .error (.domainError (.math name .notFinite))

/-- Fails for a cause. -/
def fail (name : String) (fault : MathFault) : Except Failure α :=
  .error (.domainError (.math name fault))

/-- Applies a function to a double. A result that is no number where the argument is one is outside
the domain; an infinite result of a finite argument is outside the range where that can happen, and
outside the domain where not. -/
def apply (name : String) (f : Float → Float) (canOverflow : Bool) (x : Float) :
    Except Failure Float :=
  let y := f x
  if y.isNaN && !x.isNaN then fail name .domain
  else if y.isInf && x.isFinite then fail name (if canOverflow then .range else .domain)
  else .ok y

/-- A function of one number. -/
def unary (name : String) (f : Float → Float) (canOverflow : Bool) :
    List Value → Except Failure Number
  | [v] => do
    let d ← v.toDecimal name
    let y ← apply name f canOverflow d.toDouble
    finish name y
  | _ => .error (.arityError (.oneNumber name))

/-- Whether one decimal is below another; a number that is none cannot be asked. -/
def below (a b : Decimal) : Except Failure Bool :=
  match a.compare? b with
  | some o => .ok (o == .lt)
  | none => .error .incomparableNumber

def zero : Decimal := .finite false 0 0

/-- The square root. -/
def squareRoot : List Value → Except Failure Number
  | [v] => do
    let d ← v.toDecimal "sqrt"
    if ← below d zero then throw (.domainError .negativeRoot)
    let y ← apply "sqrt" Float.sqrt false d.toDouble
    finish "sqrt" y
  | _ => .error (.arityError (.oneNumber "sqrt"))

/-- Whether a decimal is not above zero. -/
def notPositive (d : Decimal) : Except Failure Bool := do
  let b ← below zero d
  return !b

/-- The natural logarithm of a double that was a positive decimal. -/
def naturalLog (x : Float) : Except Failure Float := apply "log" Float.log false x

/-- The logarithm, natural or to a base. -/
def logarithm : List Value → Except Failure Number
  | [v] => do
    let d ← v.toDecimal "log"
    if ← notPositive d then throw (.domainError .nonPositiveLogarithm)
    let y ← naturalLog d.toDouble
    finish "log" y
  | [v, w] => do
    let d ← v.toDecimal "log"
    let base ← w.toDecimal "log"
    if ← notPositive d then throw (.domainError .badLogarithm)
    if ← notPositive base then throw (.domainError .badLogarithm)
    if base.eqv (.finite false 1 0) then throw (.domainError .badLogarithm)
    let x ← naturalLog d.toDouble
    let y ← naturalLog base.toDouble
    if y == 0 then fail "log" .division
    finish "log" (x / y)
  | _ => .error (.arityError .logarithm)

end MiniLisp.MathLibrary
