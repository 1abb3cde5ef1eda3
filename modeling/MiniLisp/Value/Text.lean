import MiniLisp.Value.Basic
import MiniLisp.Text.Quoted

/-!
# Values in print

Programs see the printed form of values (`Value.chars`), which for data reads back. The inspector shows
what is bound in an environment in a notation of its own, `Value.inspectChars`, in which no two types
look alike; `Value.displayChars` is the same without the marks of the outermost value.

A whole number with too many digits anywhere in a text makes the whole text fail.
-/

namespace MiniLisp.Value

/-- The printed form of a function. -/
def functionChars (name : String) : List Char := "#<function:".toList ++ name.toList ++ ['>']

mutual

/-- The printed form of a value. -/
def chars : Value → List Char
  | .atom a => a.chars
  | .list _ items => '(' :: (itemChars items ++ [')'])
  | .closure _ _ _ _ name => functionChars name
  | .builtin _ b => functionChars b.name
  | .foreign _ _ text => text.toList

/-- The printed forms of some values, a space between them. -/
def itemChars : List Value → List Char
  | [] => []
  | [v] => v.chars
  | v :: vs => v.chars ++ ' ' :: itemChars vs

end

mutual

/-- Whether the printed form would hold a number with too many digits. -/
def isOverlong : Value → Bool
  | .atom a => a.isOverlong
  | .list _ items => anyOverlong items
  | _ => false

/-- Whether one of the values has too many digits. -/
def anyOverlong : List Value → Bool
  | [] => false
  | v :: vs => v.isOverlong || anyOverlong vs

end

/-- The printed form of a value. -/
def text (v : Value) : String := String.ofList v.chars

/-- The printed form of a value, unless it has too many digits. -/
def print (v : Value) : Except Failure String :=
  if v.isOverlong then .error .overlongInteger else .ok v.text

/-! ### The inspector's notation -/

/-- A boolean for the inspector. -/
def inspectBool (b : Bool) : String := if b then "True" else "False"

/-- An atom for the inspector. -/
def inspectAtom : Atom → String
  | .nil => "nil"
  | .bool b => inspectBool b
  | .number (.int n) => String.ofList (Number.intChars n)
  | .number (.decimal d) => "Decimal('" ++ d.inspect ++ "')"
  | .string s => Text.quoted s
  | .symbol name => "Symbol(" ++ Text.quoted name ++ ")"
  | .date d => d.inspectText

mutual

/-- A value for the inspector. -/
def inspectChars : Value → List Char
  | .atom a => (inspectAtom a).toList
  | .list _ items => '[' :: (inspectItems items ++ [']'])
  | .closure _ formals body _ _ =>
    "(λ (".toList ++ (" ".intercalate formals).toList ++ ')' :: inspectBody body
  | .builtin _ b => ("Builtin(" ++ Text.quoted b.name ++ ")").toList
  | .foreign _ _ text => text.toList

/-- The items of a list for the inspector. -/
def inspectItems : List Value → List Char
  | [] => []
  | [v] => v.inspectChars
  | v :: vs => v.inspectChars ++ ',' :: ' ' :: inspectItems vs

/-- The body of a function for the inspector, up to the parenthesis that closes it. -/
def inspectBody : List Value → List Char
  | [] => [')']
  | v :: vs => ' ' :: v.inspectChars ++ inspectBody vs

end

mutual

/-- Whether the inspector would show a number with too many digits. -/
def hidesOverlong : Value → Bool
  | .atom a => a.isOverlong
  | .list _ items => anyHidesOverlong items
  | .closure _ _ body _ _ => anyHidesOverlong body
  | _ => false

/-- Whether the inspector would show such a number in one of the values. -/
def anyHidesOverlong : List Value → Bool
  | [] => false
  | v :: vs => v.hidesOverlong || anyHidesOverlong vs

end

/-- A value for the inspector, unless it has too many digits. -/
def inspect (v : Value) : Except Failure String :=
  if v.hidesOverlong then .error .overlongInteger else .ok (String.ofList v.inspectChars)

/-- A value for the inspector without the marks that tell its type. -/
def displayChars : Value → List Char
  | .string s => s.toList
  | .symbol name => name.toList
  | .decimal d => d.inspectChars
  | .date d => d.displayChars
  | .closure _ _ _ _ name => functionChars name
  | .builtin _ b => functionChars b.name
  | v => v.inspectChars

/-- Whether `displayChars` shows the parts of the value. -/
def showsParts : Value → Bool
  | .closure .. => false
  | _ => true

/-- The unmarked notation of a value, unless it has too many digits. -/
def display (v : Value) : Except Failure String :=
  if v.showsParts && v.hidesOverlong then .error .overlongInteger
  else .ok (String.ofList v.displayChars)

end MiniLisp.Value
