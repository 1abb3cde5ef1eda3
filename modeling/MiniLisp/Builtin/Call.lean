import MiniLisp.Builtin.Comparison
import MiniLisp.Builtin.MathLibrary
import MiniLisp.Builtin.Strings
import MiniLisp.Eval.Run

/-!
# Calling builtin functions

What each builtin function does with its arguments. Most compute a value from values (`pureCall`). The
rest do more: three build a new list, one prints and one reads the clock. No function changes a list
or a variable.
-/

namespace MiniLisp.Builtin

/-- Takes exactly one argument. -/
def one (name : String) (f : Value → Except Failure α) : List Value → Except Failure α
  | [a] => f a
  | args => .error (.arityError (.builtin name 1 args.length))

/-- Takes exactly two arguments. -/
def two (name : String) (f : Value → Value → Except Failure α) : List Value → Except Failure α
  | [a, b] => f a b
  | args => .error (.arityError (.builtin name 2 args.length))

/-- Takes exactly three arguments. -/
def three (name : String) (f : Value → Value → Value → Except Failure α) :
    List Value → Except Failure α
  | [a, b, c] => f a b c
  | args => .error (.arityError (.builtin name 3 args.length))

/-- Expects a string. -/
def expectString (name : String) : Value → Except Failure String
  | .string s => .ok s
  | v => .error (.typeError (.expected name "String" v.type))

/-- Expects a date. -/
def expectDate (name : String) : Value → Except Failure DateTime
  | .date d => .ok d
  | v => .error (.typeError (.expected name "Date" v.type))

/-- Expects a list. -/
def expectList (name : String) : Value → Except Failure (List Value)
  | .list _ items => .ok items
  | v => .error (.typeError (.expected name "List" v.type))

/-- Expects a number that says a position; here `nil` is none. -/
def expectIndex (name : String) : Value → Except Failure Int
  | .nil => .error (.typeError (.expected name "number" .nil))
  | v => v.toInteger name

/-- The item of a list at a position, `nil` outside the list. -/
def item (items : List Value) (i : Int) : Value :=
  if i < 0 then .nil else (items[i.toNat]?).getD .nil

/-- The functions that compute a value and do nothing else. -/
def pureCall (b : Builtin) (args : List Value) : Except Failure Value :=
  match b with
  | .add => .number <$> Arithmetic.add args
  | .subtract => .number <$> Arithmetic.subtract args
  | .multiply => .number <$> Arithmetic.multiply args
  | .divide => .number <$> Arithmetic.divide args
  | .minimum => .number <$> Arithmetic.extremum false "min" args
  | .maximum => .number <$> Arithmetic.extremum true "max" args
  | .sine => .number <$> MathLibrary.unary "sin" Float.sin false args
  | .cosine => .number <$> MathLibrary.unary "cos" Float.cos false args
  | .tangent => .number <$> MathLibrary.unary "tan" Float.tan false args
  | .squareRoot => .number <$> MathLibrary.squareRoot args
  | .exponential => .number <$> MathLibrary.unary "exp" Float.exp true args
  | .logarithm => .number <$> MathLibrary.logarithm args
  | .equal => .bool <$> Comparison.withTwo "=" Comparison.allEqual args
  | .less => .bool <$> Comparison.withTwo "<" (Comparison.neighbours Value.less) args
  | .greater =>
    .bool <$> Comparison.withTwo ">" (Comparison.neighbours fun a b => b.less a) args
  | .atMost => .bool <$> Comparison.withTwo "<=" (Comparison.neighbours Comparison.atMost) args
  | .atLeast => .bool <$> Comparison.withTwo ">=" (Comparison.neighbours Comparison.atLeast) args
  | .concat => .string <$> Strings.concat args
  | .stringLength => one "str-length" (fun v => do
      let s ← expectString "str-length" v
      return .int s.length) args
  | .substring => three "substr" (fun v start length => do
      let s ← expectString "substr" v
      let i ← expectIndex "substr" start
      let n ← expectIndex "substr" length
      return .string (String.ofList (Strings.part s.toList i n))) args
  | .indexOf => two "index-of" (fun v w => do
      let s ← expectString "index-of" v
      let needle ← expectString "index-of" w
      return .int (Strings.indexOf needle.toList s.toList)) args
  | .toLower => one "to-lower" (fun v => do
      let s ← expectString "to-lower" v
      return .string (Text.lower s)) args
  | .dateYear => one "date-year" (fun v => do
      let d ← expectDate "date-year" v
      return .int d.date.year) args
  | .dateMonth => one "date-month" (fun v => do
      let d ← expectDate "date-month" v
      return .int d.date.month) args
  | .dateDay => one "date-day" (fun v => do
      let d ← expectDate "date-day" v
      return .int d.date.day) args
  | .car => one "car" (fun v => do
      let items ← expectList "car" v
      return items.headD .nil) args
  | .nth => two "nth" (fun v w => do
      let items ← expectList "nth" v
      let i ← expectIndex "nth" w
      return item items i) args
  | .isEmpty => one "empty?" (fun v => .ok (.bool (match v with
      | .nil => true
      | .list _ items => items.isEmpty
      | _ => false))) args
  | .isList => one "list?" (fun v => .ok (.bool v.isList)) args
  | .isNumber => one "number?" (fun v => .ok (.bool v.isNumber)) args
  | .not => one "not" (fun v => .ok (.bool !v.isTruthy)) args
  | .xor => two "xor" (fun v w => .ok (.bool (v.isTruthy != w.isTruthy))) args
  | .toNumber => one "number" (fun v =>
      match v with
      | .number n => .ok (.number n)
      | v => do
        let s ← expectString "number" v
        .number <$> Strings.toNumber s) args
  | .toSymbol => one "symbol" (fun v =>
      match v with
      | .symbol name => .ok (.symbol name)
      | v => do
        let s ← expectString "symbol" v
        return .symbol s) args
  | .makeList | .cdr | .cons | .now | .print => .ok .nil

/-- The items after the first, if there is one. -/
def rest? : Value → Except Failure (Option (List Value))
  | v => do
    let items ← expectList "cdr" v
    match items with
    | [] => return none
    | _ :: items => return some items

/-- The items of a new list: a value before a list, or two values. -/
def consItems (head : Value) : Value → List Value
  | .list _ items => head :: items
  | tail => [head, tail]

/-- The printed forms of some values without anything between them. -/
def printAll : List Value → Except Failure String
  | [] => .ok ""
  | v :: vs => do
    let s ← v.print
    let rest ← printAll vs
    return s ++ rest

/-- Calls a function. -/
def call (b : Builtin) (args : List Value) : Run Value :=
  match b with
  | .makeList => Run.newList args
  | .cdr => do
    match ← Run.ofExcept (one "cdr" rest? args) with
    | some items => Run.newList items
    | none => return .nil
  | .cons => do
    let items ← Run.ofExcept (two "cons" (fun a b => .ok (consItems a b)) args)
    Run.newList items
  | .print => do
    let text ← Run.ofExcept (printAll args)
    Run.write (text ++ "\n")
    return .nil
  | .now =>
    match args with
    | [] => .date <$> Run.readClock
    | args => throw (.arityError (.builtin "now" 0 args.length))
  | b => Run.ofExcept (pureCall b args)

end MiniLisp.Builtin
