import MiniLisp.DateTime.Basic
import MiniLisp.Text.Blank
import MiniLisp.Text.Digit

/-!
# Moments in everyday notation

The notations that people write: numbers between slashes, with a time of day or without, and the day
beside the name of the month. A pattern is a list of pieces. Each piece of a number lists the digits it
may have, longer choices first, and takes the first choice that fits.
-/

namespace MiniLisp.DateTime

/-- One piece of a pattern. -/
inductive Piece where
  | month
  | day
  | year
  | hour
  | minute
  | second
  | monthName (names : List String)
  | mark (c : Char)
  | gap

/-- The numbers that a pattern has read. -/
structure Fields where
  year : Nat := 1
  month : Nat := 1
  day : Nat := 1
  hour : Nat := 0
  minute : Nat := 0
  second : Nat := 0

def monthNames : List String :=
  ["january", "february", "march", "april", "may", "june", "july", "august", "september",
   "october", "november", "december"]

def shortMonthNames : List String :=
  ["jan", "feb", "mar", "apr", "may", "jun", "jul", "aug", "sep", "oct", "nov", "dec"]

/-- A character out of a run, a digit out of a run of ASCII digits in most uses. -/
def between (first last : Char) (c : Char) : Bool := first ≤ c && c ≤ last

/-- A decimal digit of any script. -/
def anyDigit (c : Char) : Bool := (Text.decimalValue? c).isSome

def monthChoices : List (List (Char → Bool)) :=
  [[between '1' '1', between '0' '2'], [between '0' '0', between '1' '9'], [between '1' '9']]

/-- The choices for days, the last of them with a space in place of a leading zero. -/
def dayChoices : List (List (Char → Bool)) :=
  [[between '3' '3', between '0' '1'], [between '1' '2', anyDigit],
   [between '0' '0', between '1' '9'], [between '1' '9'], [between ' ' ' ', between '1' '9']]

def yearChoices : List (List (Char → Bool)) := [[anyDigit, anyDigit, anyDigit, anyDigit]]

def hourChoices : List (List (Char → Bool)) :=
  [[between '2' '2', between '0' '3'], [between '0' '1', anyDigit], [anyDigit]]

/-- The choices for minutes and seconds. -/
def sixtyChoices : List (List (Char → Bool)) := [[between '0' '5', anyDigit], [anyDigit]]

/-- Reads one character of each class; the value so far is `n`. -/
def readClasses (n : Nat) : List (Char → Bool) → List Char → Option (Nat × List Char)
  | [], cs => some (n, cs)
  | class_ :: classes, c :: cs =>
    if class_ c then readClasses (n * 10 + (Text.decimalValue? c).getD 0) classes cs else none
  | _ :: _, [] => none

/-- Reads a number by the first choice that fits. -/
def readChoice (choices : List (List (Char → Bool))) (cs : List Char) : Option (Nat × List Char) :=
  choices.findSome? (readClasses 0 · cs)

/-- Drops a word written in any mixture of capitals and small letters; `word` has small ones. -/
def dropWord? : List Char → List Char → Option (List Char)
  | [], cs => some cs
  | w :: ws, c :: cs => if c.toLower = w then dropWord? ws cs else none
  | _ :: _, [] => none

/-- Reads one of the names; its number counts from one. -/
def readName (names : List String) (cs : List Char) : Option (Nat × List Char) :=
  names.zipIdx.findSome? fun (name, i) => (dropWord? name.toList cs).map (i + 1, ·)

/-- Reads one piece. -/
def Piece.read (f : Fields) (cs : List Char) : Piece → Option (Fields × List Char)
  | .month => (readChoice monthChoices cs).map fun (n, cs) => ({ f with month := n }, cs)
  | .day => (readChoice dayChoices cs).map fun (n, cs) => ({ f with day := n }, cs)
  | .year => (readChoice yearChoices cs).map fun (n, cs) => ({ f with year := n }, cs)
  | .hour => (readChoice hourChoices cs).map fun (n, cs) => ({ f with hour := n }, cs)
  | .minute => (readChoice sixtyChoices cs).map fun (n, cs) => ({ f with minute := n }, cs)
  | .second => (readChoice sixtyChoices cs).map fun (n, cs) => ({ f with second := n }, cs)
  | .monthName names => (readName names cs).map fun (n, cs) => ({ f with month := n }, cs)
  | .mark m => if cs.head? = some m then some (f, cs.drop 1) else none
  | .gap =>
    if (cs.head?.map Text.isBlank).getD false then some (f, cs.dropWhile Text.isBlank) else none

/-- Reads the pieces in order. -/
def readPieces (f : Fields) : List Piece → List Char → Option (Fields × List Char)
  | [], cs => some (f, cs)
  | piece :: pieces, cs =>
    match piece.read f cs with
    | some (f, cs) => readPieces f pieces cs
    | none => none

/-- Reads a moment that a pattern describes to its end. -/
def readPattern (pattern : List Piece) (cs : List Char) : Option DateTime :=
  match readPieces {} pattern cs with
  | some (f, []) => ofFields? f.year f.month f.day f.hour f.minute f.second 0
  | _ => none

/-- The everyday notations, in the order in which they are tried. -/
def patterns : List (List Piece) :=
  let numbers : List Piece := [.month, .mark '/', .day, .mark '/', .year]
  let clock : List Piece := [.gap, .hour, .mark ':', .minute]
  let dayFirst (names : List String) : List Piece := [.day, .gap, .monthName names, .gap, .year]
  let monthFirst (names : List String) : List Piece :=
    [.monthName names, .gap, .day, .mark ',', .gap, .year]
  [numbers, numbers ++ clock ++ [.mark ':', .second], numbers ++ clock,
   dayFirst monthNames, dayFirst shortMonthNames, monthFirst monthNames,
   monthFirst shortMonthNames]

end MiniLisp.DateTime
