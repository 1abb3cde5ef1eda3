/-!
# The builtin functions

The names of the functions that every global environment starts with, in the order of their
installation.
-/

namespace MiniLisp

/-- A function that is not written in the language. -/
inductive Builtin where
  | add | subtract | multiply | divide | minimum | maximum
  | sine | cosine | tangent | squareRoot | exponential | logarithm
  | equal | less | greater | atMost | atLeast
  | concat | stringLength | substring | indexOf | toLower
  | now | dateYear | dateMonth | dateDay
  | makeList | car | cdr | cons | nth | isEmpty | isList | isNumber
  | not | xor | toNumber | toSymbol | print
  deriving DecidableEq, Inhabited, Repr

namespace Builtin

/-- The name of a function in programs. -/
def name : Builtin → String
  | .add => "+"
  | .subtract => "-"
  | .multiply => "*"
  | .divide => "/"
  | .minimum => "min"
  | .maximum => "max"
  | .sine => "sin"
  | .cosine => "cos"
  | .tangent => "tan"
  | .squareRoot => "sqrt"
  | .exponential => "exp"
  | .logarithm => "log"
  | .equal => "="
  | .less => "<"
  | .greater => ">"
  | .atMost => "<="
  | .atLeast => ">="
  | .concat => "concat"
  | .stringLength => "str-length"
  | .substring => "substr"
  | .indexOf => "index-of"
  | .toLower => "to-lower"
  | .now => "now"
  | .dateYear => "date-year"
  | .dateMonth => "date-month"
  | .dateDay => "date-day"
  | .makeList => "list"
  | .car => "car"
  | .cdr => "cdr"
  | .cons => "cons"
  | .nth => "nth"
  | .isEmpty => "empty?"
  | .isList => "list?"
  | .isNumber => "number?"
  | .not => "not"
  | .xor => "xor"
  | .toNumber => "number"
  | .toSymbol => "symbol"
  | .print => "print"

/-- All functions, in the order of their installation. -/
def all : List Builtin :=
  [.add, .subtract, .multiply, .divide, .minimum, .maximum, .sine, .cosine, .tangent, .squareRoot,
   .exponential, .logarithm, .equal, .less, .greater, .atMost, .atLeast, .concat, .stringLength,
   .substring, .indexOf, .toLower, .now, .dateYear, .dateMonth, .dateDay, .makeList, .car, .cdr,
   .cons, .nth, .isEmpty, .isList, .isNumber, .not, .xor, .toNumber, .toSymbol, .print]

/-- The function of a name. -/
def ofName? (name : String) : Option Builtin := all.find? (·.name == name)

end Builtin

end MiniLisp
