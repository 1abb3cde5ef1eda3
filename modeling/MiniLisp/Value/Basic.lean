import MiniLisp.Builtin.Basic
import MiniLisp.Datum.Basic
import MiniLisp.Failure

/-!
# Values

What programs compute with, and what they are made of: code is data. A value is an atom, a list, a
function, or an object of the host that the language cannot look into. Lists, functions and host
objects carry an identity, because two of them are equal only if they are the same object.

Evaluation starts from data; `Value.ofDatum` gives every list in a datum an identity of its own.
-/

namespace MiniLisp

/-- The identity of an object. -/
abbrev ObjectId := Nat

/-- The number of a frame of variables. -/
abbrev FrameId := Nat

/-- A value, or a form to be evaluated. -/
inductive Value where
  | atom (a : Atom)
  | list (id : ObjectId) (items : List Value)
  | closure (id : ObjectId) (formals : List String) (body : List Value) (frame : FrameId)
      (name : String)
  | builtin (id : ObjectId) (function : Builtin)
  | foreign (id : ObjectId) (type text : String)
  deriving Inhabited

namespace Value

@[match_pattern] abbrev nil : Value := .atom .nil
@[match_pattern] abbrev bool (b : Bool) : Value := .atom (.bool b)
@[match_pattern] abbrev int (n : Int) : Value := .atom (.number (.int n))
@[match_pattern] abbrev decimal (d : Decimal) : Value := .atom (.number (.decimal d))
@[match_pattern] abbrev number (n : Number) : Value := .atom (.number n)
@[match_pattern] abbrev string (s : String) : Value := .atom (.string s)
@[match_pattern] abbrev symbol (name : String) : Value := .atom (.symbol name)
@[match_pattern] abbrev date (d : DateTime) : Value := .atom (.date d)

/-- The type of a value. -/
def type : Value → ValueType
  | .nil => .nil
  | .bool _ => .boolean
  | .int _ => .integer
  | .decimal _ => .decimal
  | .string _ => .string
  | .symbol _ => .symbol
  | .date _ => .date
  | .list .. => .list
  | .closure .. => .function
  | .builtin .. => .function
  | .foreign _ type _ => .foreign type

def isFunction : Value → Bool
  | .closure .. => true
  | .builtin .. => true
  | _ => false

def isNumber : Value → Bool
  | .number _ => true
  | _ => false

def isInteger : Value → Bool
  | .int _ => true
  | _ => false

def isDecimal : Value → Bool
  | .decimal _ => true
  | _ => false

def isBoolean : Value → Bool
  | .bool _ => true
  | _ => false

def isNil : Value → Bool
  | .nil => true
  | _ => false

def isList : Value → Bool
  | .list .. => true
  | _ => false

/-- Only `nil` and false count as false. -/
def isTruthy : Value → Bool
  | .nil => false
  | .bool b => b
  | _ => true

/-- The name of a symbol. -/
def symbolName? : Value → Option String
  | .symbol name => some name
  | _ => none

/-- The identity of an object. -/
def id? : Value → Option ObjectId
  | .atom _ => none
  | .list id _ => some id
  | .closure id .. => some id
  | .builtin id _ => some id
  | .foreign id .. => some id

/-! ### Data as values -/

mutual

/-- A datum as a value, with identities from `next` on; also the next identity that is free. -/
def ofDatum (next : ObjectId) : Datum → Value × ObjectId
  | .atom a => (.atom a, next)
  | .list items =>
    let r := ofData (next + 1) items
    (.list next r.1, r.2)

/-- Some data as values. -/
def ofData (next : ObjectId) : List Datum → List Value × ObjectId
  | [] => ([], next)
  | d :: ds =>
    let r := ofDatum next d
    let rs := ofData r.2 ds
    (r.1 :: rs.1, rs.2)

end

end Value

end MiniLisp
