import MiniLisp.Text.Blank
import MiniLisp.Value.Text

/-!
# Strings

Strings are counted in characters. A part of a string is asked for by its start and its length; what
lies outside the string is left out.
-/

namespace MiniLisp.Strings

/-- The characters from a start on, at most `length` of them, none if a number makes no sense. -/
def part (cs : List Char) (start length : Int) : List Char :=
  if start < 0 ∨ length < 0 ∨ (cs.length : Int) < start then []
  else (cs.drop start.toNat).take length.toNat

/-- The first position from `i` on at which the characters continue with `needle`. -/
def findFrom (needle : List Char) (i : Nat) : List Char → Option Nat
  | [] => if needle.isEmpty then some i else none
  | c :: cs => if needle.isPrefixOf (c :: cs) then some i else findFrom needle (i + 1) cs

/-- The first position of a string in another, -1 if there is none. -/
def indexOf (needle cs : List Char) : Int :=
  match findFrom needle 0 cs with
  | some i => i
  | none => -1

/-- Strings as they are and other values in print, one after the other. -/
def concat : List Value → Except Failure String
  | [] => .ok ""
  | .string s :: vs => (s ++ ·) <$> concat vs
  | v :: vs => do
    let s ← v.print
    let rest ← concat vs
    return s ++ rest

/-- The number that a string spells, blanks around it aside. -/
def toNumber (s : String) : Except Failure Number :=
  match Number.ofText (Text.strip s) with
  | .ok n => .ok n
  | .error _ => .error (.typeError (.notNumeric (Value.string s).text))

end MiniLisp.Strings
