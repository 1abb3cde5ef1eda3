/-!
# Tokens

Source text is cut into tokens. A token carries its kind, its value and the place where it starts. A
place counts three things at once, the bytes before it, the lines and the columns, and every character
moves all three (`Place.advance`).
-/

namespace MiniLisp

/-- A place in a text: the bytes before it, its line and its column, the latter two from 1. -/
structure Place where
  offset : Nat
  line : Nat
  column : Nat
  deriving DecidableEq, Inhabited, Repr

namespace Place

/-- Where every text starts. -/
def start : Place := ⟨0, 1, 1⟩

/-- The place after a character. -/
def advance (p : Place) (c : Char) : Place :=
  if c = '\n' then ⟨p.offset + c.utf8Size, p.line + 1, 1⟩
  else ⟨p.offset + c.utf8Size, p.line, p.column + 1⟩

/-- The place after some characters. -/
def advanceAll (p : Place) (cs : List Char) : Place := cs.foldl advance p

/-- The place `n` positions further on the same line. -/
def shift (p : Place) (n : Nat) : Place := ⟨p.offset + n, p.line, p.column + n⟩

theorem advanceAll_append (p : Place) (cs ds : List Char) :
    p.advanceAll (cs ++ ds) = (p.advanceAll cs).advanceAll ds := by
  simp [advanceAll]

end Place

/-- The kinds of tokens. -/
inductive Token.Kind where
  | leftParen
  | rightParen
  | number
  | string
  | symbol
  | date
  | quote
  | endOfInput
  deriving DecidableEq, Inhabited, Repr

/-- A token: for a string the value is unescaped, for a date the quoted text, and for the others what
stands in the source. -/
structure Token where
  kind : Token.Kind
  value : String
  place : Place
  deriving DecidableEq, Inhabited, Repr

namespace Token

/-- The end of a text. -/
def atEnd (place : Place) : Token := ⟨.endOfInput, "", place⟩

def isEnd (t : Token) : Bool := t.kind == .endOfInput

end Token

end MiniLisp
