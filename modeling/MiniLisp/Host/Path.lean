import MiniLisp.Text.Blank

/-!
# Paths

A path is a root and the names after it. Empty names and single dots say nothing and are left out,
names of two dots are kept. Two slashes at the start are a root of their own, three or more are one.
-/

namespace MiniLisp

/-- A path to a file or directory. -/
structure Path where
  root : String
  names : List String
  deriving DecidableEq, Repr

namespace Path

/-- The root that a text starts with. -/
def rootOf : List Char → String
  | '/' :: '/' :: '/' :: _ => "/"
  | '/' :: '/' :: _ => "//"
  | '/' :: _ => "/"
  | _ => ""

/-- The names between the slashes of a text. -/
def namesOf (cs : List Char) : List String :=
  ((Text.pieces (· == '/') cs).map String.ofList).filter fun name => name != "" && name != "."

/-- The path that a text names. -/
def ofText (s : String) : Path := ⟨rootOf s.toList, namesOf s.toList⟩

/-- The path as a text, a dot for the current directory. -/
def text (p : Path) : String :=
  if p.root = "" && p.names.isEmpty then "." else p.root ++ "/".intercalate p.names

/-- The last name, empty if there is none. -/
def name (p : Path) : String := p.names.getLastD ""

/-- The path without its last name. -/
def parent (p : Path) : Path := { p with names := p.names.dropLast }

/-- The path of a name inside a directory. -/
def child (p : Path) (name : String) : Path := { p with names := p.names ++ [name] }

/-! ### Limits -/

/-- Whether a name is longer than any file's name: it has more than 255 bytes. -/
def isOverlongName (name : String) : Bool := 255 < name.utf8ByteSize

/-- Whether a path is too long to be looked up: it has more than 4095 bytes. -/
def isOverlong (p : Path) : Bool := 4095 < p.text.utf8ByteSize

/-- Whether a path can be looked up at all: no name holds a null character. -/
def isValid (p : Path) : Bool := !p.text.toList.contains '\x00'

end Path

end MiniLisp
