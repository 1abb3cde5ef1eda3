import MiniLisp.Host.Basic
import MiniLisp.Text.Digit

/-!
# Settings

Two environment variables change how the interpreter starts. One names the directory of the standard
library, as the first of a list of paths; a path that is no directory stands for the directory it is
in. The other is a lower bound for the depth of nesting that the host allows.
-/

namespace MiniLisp.Settings

/-! ### Whole numbers in settings -/

/-- The value of digits of any script, with single underscores between them. `digit` tells that the
character before was a digit. -/
def digitsValue (digit : Bool) (value count : Nat) : List Char → Option Nat
  | [] => if digit && count ≤ 4300 then some value else none
  | c :: cs =>
    match Text.decimalValue? c with
    | some d => digitsValue true (value * 10 + d) (count + 1) cs
    | none => if c = '_' ∧ digit then digitsValue false value count cs else none

/-- Whether a character may stand before and after a number: a blank that is none of the four
information separators. -/
def isPadding (c : Char) : Bool := Text.isBlank c && !('\x1c' ≤ c && c ≤ '\x1f')

/-- The whole number that a text spells, with or without a sign, and padded or not. -/
def integer? (s : String) : Option Int :=
  match ((s.toList.dropWhile isPadding).reverse.dropWhile isPadding).reverse with
  | '-' :: cs => (digitsValue false 0 0 cs).map fun n => -(n : Int)
  | '+' :: cs => (digitsValue false 0 0 cs).map Int.ofNat
  | cs => (digitsValue false 0 0 cs).map Int.ofNat

/-- The nesting that is allowed where nothing else is set. -/
def defaultRecursionLimit : Int := 10000

/-- The most nesting that a host can be asked for. -/
def maxRecursionLimit : Int := 2147483647

/-- The depth of nesting that the setting asks for, at least 100. -/
def recursionLimit (h : Host) : Int :=
  match h.var? "ATTOLISP_RECURSION_LIMIT" with
  | none => defaultRecursionLimit
  | some raw =>
    match integer? raw with
    | some n => max n 100
    | none => defaultRecursionLimit

/-! ### Lists of paths -/

/-- The paths in a text, separated by colons, blanks around them aside. -/
def pathsOf (raw : String) : List Path :=
  ((Text.pieces (· == ':') raw.toList).map Text.trim).filterMap fun cs =>
    if cs.isEmpty then none else some (Path.ofText (String.ofList cs))

/-- The paths in an environment variable, or others if it is not set or empty. -/
def paths (h : Host) (name : String) (others : List Path) : List Path :=
  match h.var? name with
  | none => others
  | some raw => if raw.isEmpty then others else pathsOf raw

/-- The directory of the standard library that comes with the interpreter. -/
def ownLibrary : Path := Path.ofText "prelude"

/-- The file of the standard library in its directory. -/
def libraryFile : String := "stdlib.al"

/-- Where the standard library is. -/
inductive Library where
  | own
  | directory (p : Path)

/-- Finds the standard library. -/
def library (h : Host) : Except Failure Library :=
  let raw := (h.var? "ATTOLISP_PRELUDE_PATH").getD ""
  if raw.isEmpty then .ok .own
  else match pathsOf raw with
    | [] => .error .noSearchPath
    | p :: _ => (h.isDirectory p).map fun found => .directory (if found then p else p.parent)

/-- The directory of the standard library. -/
def libraryRoot (h : Host) : Except Failure Path :=
  library h |>.map fun
    | .own => ownLibrary
    | .directory p => p

/-- The file of the standard library, if it is there. -/
def libraryPath? (h : Host) : Except Failure (Option Path) := do
  match ← library h with
  | .own => return some (ownLibrary.child libraryFile)
  | .directory p =>
    let file := p.child libraryFile
    return if ← h.isFile file then some file else none

end MiniLisp.Settings
