import MiniLisp.Number
import MiniLisp.DateTime.Text
import MiniLisp.Text.Lower

/-!
# Atoms and data

A datum is what source text denotes: an atom, or a list of data. Data are compared by their structure
and have no identity; evaluation gives them one. The printed form of a datum (`Datum.chars`) reads back
as the datum, with the exceptions that a reader can see: the false boolean prints as `nil`, and a date
loses its microseconds.
-/

namespace MiniLisp

/-- A value without parts. -/
inductive Atom where
  | nil
  | bool (b : Bool)
  | number (n : Number)
  | string (s : String)
  | symbol (name : String)
  | date (d : DateTime)
  deriving DecidableEq, Inhabited

namespace Atom

/-- The atom that a symbol's token denotes: `nil` and `t` are no symbols, in capitals or not. -/
def ofName (name : String) : Atom :=
  let name' := Text.lower name
  if name' = "nil" then .nil else if name' = "t" then .bool true else .symbol name

/-- A character of a printed string. -/
def printedChar (c : Char) : List Char :=
  if c = '\\' then ['\\', '\\']
  else if c = '"' then ['\\', '"']
  else if c = '\n' then ['\\', 'n']
  else if c = '\t' then ['\\', 't']
  else if c = '\r' then ['\\', 'r']
  else [c]

/-- A printed string, in quotation marks. -/
def stringChars (cs : List Char) : List Char := '"' :: cs.flatMap printedChar ++ ['"']

/-- The printed form of an atom. -/
def chars : Atom → List Char
  | .nil => ['n', 'i', 'l']
  | .bool b => if b then ['t'] else ['n', 'i', 'l']
  | .number n => n.textChars
  | .string s => stringChars s.toList
  | .symbol name => name.toList
  | .date d => d.textChars

/-- Whether the atom has too many digits to be printed. -/
def isOverlong : Atom → Bool
  | .number n => n.isOverlong
  | _ => false

end Atom

/-- What source text denotes. -/
inductive Datum where
  | atom (a : Atom)
  | list (items : List Datum)
  deriving Inhabited

namespace Datum

def symbol (name : String) : Datum := .atom (.symbol name)

/-- What the quote mark makes of the datum after it. -/
def quoted (d : Datum) : Datum := .list [symbol "quote", d]

def isAtom : Datum → Bool
  | .atom _ => true
  | .list _ => false

def isSymbol : Datum → Bool
  | .atom (.symbol _) => true
  | _ => false

mutual

/-- The printed form of a datum. -/
def chars : Datum → List Char
  | .atom a => a.chars
  | .list items => '(' :: (itemChars items ++ [')'])

/-- The printed forms of some data, a space between them. -/
def itemChars : List Datum → List Char
  | [] => []
  | [d] => d.chars
  | d :: ds => d.chars ++ ' ' :: itemChars ds

end

/-- The printed form of a datum. -/
def text (d : Datum) : String := String.ofList d.chars

end Datum

end MiniLisp
