import MiniLisp.Decimal.Arithmetic
import MiniLisp.Value.Order

/-!
# Arithmetic on values

The arithmetic functions take numbers and `nil`, which counts as zero. As soon as one argument is a
decimal the whole operation is decimal: it folds the arguments from the left and rounds each step.
Otherwise it is exact. A quotient is always decimal. A whole number enters decimal arithmetic only if
decimal arithmetic can hold all its digits.
-/

namespace MiniLisp

namespace Value

/-- The value as a whole number; a decimal loses its fraction. -/
def toInteger (name : String) : Value → Except Failure Int
  | .nil => .ok 0
  | .int n => .ok n
  | .decimal d =>
    match d with
    | .finite s c e => .ok (Decimal.truncate s c e)
    | .infinite _ => .error .infiniteIndex
    | .nan => .error .undefinedIndex
  | v => .error (.typeError (.expected name "number" v.type))

/-- The value as a decimal, without rounding. -/
def toDecimal (name : String) : Value → Except Failure Decimal
  | .nil => .ok (.finite false 0 0)
  | .decimal d => .ok d
  | .int n =>
    if n.natAbs < Nat.pow 10 Decimal.precision then .ok (.ofInt n)
    else .error (.domainError (.wideInteger name))
  | v => .error (.typeError (.expected name "number" v.type))

end Value

namespace Arithmetic

/-- The result of a decimal step under the operation's name. -/
def guarded (operation : String) : Except Decimal.RangeFault Decimal → Except Failure Decimal
  | .ok d => .ok d
  | .error fault => .error (.domainError (.arithmetic operation fault))

/-- Folds decimal steps over the arguments. -/
def foldDecimal (name operation : String)
    (step : Decimal → Decimal → Except Decimal.RangeFault Decimal) :
    Decimal → List Value → Except Failure Decimal
  | total, [] => .ok total
  | total, v :: vs => do
    let d ← v.toDecimal name
    let total ← guarded operation (step total d)
    foldDecimal name operation step total vs

/-- Folds exact steps over the arguments. -/
def foldInteger (name : String) (step : Int → Int → Int) : Int → List Value → Except Failure Int
  | total, [] => .ok total
  | total, v :: vs => do
    let n ← v.toInteger name
    foldInteger name step (step total n) vs

/-- Whether the arguments make an operation decimal. -/
def anyDecimal (args : List Value) : Bool := args.any Value.isDecimal

/-- The sum; of nothing it is 0. -/
def add (args : List Value) : Except Failure Number :=
  if anyDecimal args then
    .decimal <$> foldDecimal "+" "add" Decimal.add (.finite false 0 0) args
  else .int <$> foldInteger "+" (· + ·) 0 args

/-- The product; of nothing it is 1. -/
def multiply (args : List Value) : Except Failure Number :=
  if anyDecimal args then
    .decimal <$> foldDecimal "*" "mul" Decimal.mul (.finite false 1 0) args
  else .int <$> foldInteger "*" (· * ·) 1 args

/-- The first argument less the others; one argument is negated. -/
def subtract : List Value → Except Failure Number
  | [] => .error (.arityError (.operator "-"))
  | [v] =>
    if anyDecimal [v] then do
      let d ← v.toDecimal "-"
      .decimal <$> guarded "sub" d.minus
    else do
      let n ← v.toInteger "-"
      return .int (-n)
  | v :: vs =>
    if anyDecimal (v :: vs) then do
      let d ← v.toDecimal "-"
      .decimal <$> foldDecimal "-" "sub" Decimal.sub d vs
    else do
      let n ← v.toInteger "-"
      .int <$> foldInteger "-" (· - ·) n vs

/-- All values as decimals. -/
def toDecimals (name : String) : List Value → Except Failure (List Decimal)
  | [] => .ok []
  | v :: vs => do
    let d ← v.toDecimal name
    let ds ← toDecimals name vs
    return d :: ds

/-- Divides by some numbers in turn. -/
def quotients : Decimal → List Decimal → Except Failure Decimal
  | total, [] => .ok total
  | total, d :: ds => do
    if d.isZero then throw .divisionByZero
    let total ← guarded "div" (total.div d)
    quotients total ds

/-- The first argument divided by the others; of one argument it is the reciprocal. -/
def divide (args : List Value) : Except Failure Number := do
  if args.isEmpty then throw (.arityError (.operator "/"))
  let ds ← toDecimals "/" args
  match ds with
  | [d] => .decimal <$> quotients (.finite false 1 0) [d]
  | d :: ds => .decimal <$> quotients d ds
  | [] => throw (.arityError (.operator "/"))

/-! ### Extrema -/

/-- The argument as a number of the operation's kind. -/
def toKind (decimal : Bool) (name : String) (v : Value) : Except Failure Number :=
  if decimal then .decimal <$> v.toDecimal name else .int <$> v.toInteger name

/-- Whether the first number is better: less for a minimum, greater for a maximum. -/
def better (greatest : Bool) (m n : Number) : Except Failure Bool :=
  match if greatest then n.less? m else m.less? n with
  | some b => .ok b
  | none => .error .incomparableNumber

/-- The best of a number and some values. -/
def bestOf (greatest decimal : Bool) (name : String) :
    Number → List Value → Except Failure Number
  | best, [] => .ok best
  | best, v :: vs => do
    let n ← toKind decimal name v
    let wins ← better greatest n best
    bestOf greatest decimal name (if wins then n else best) vs

/-- The least or the greatest argument; the first of equal ones. -/
def extremum (greatest : Bool) (name : String) : List Value → Except Failure Number
  | [] => .error (.arityError (.extremum name))
  | v :: vs => do
    let decimal := anyDecimal (v :: vs)
    let best ← toKind decimal name v
    bestOf greatest decimal name best vs

end Arithmetic

end MiniLisp
