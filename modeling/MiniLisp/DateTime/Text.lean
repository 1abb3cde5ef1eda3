import MiniLisp.DateTime.Iso
import MiniLisp.DateTime.Pattern

/-!
# Moments as text

Reading takes a text in the standard notation or in one of the everyday ones, blanks around it aside. A
moment with an offset is moved to the zone of the host (`ofCharsIn`). The hosts of this library keep
universal time (`ofChars`). Three notations are written: the printed one, to the
second and without leading zeros in the year, and the two of the inspector.
-/

namespace MiniLisp.DateTime

/-- Why a text gives no moment. -/
inductive Fault where
  | unreadable
  | outOfCalendar
  deriving DecidableEq, Repr

/-- The message about a text that gives no moment. -/
def Fault.message (text : String) : Fault → String
  | .unreadable => "Invalid date format: " ++ text
  | .outOfCalendar => "date value out of range"

/-- The moment that was written, if its time of day exists. -/
def Written.moment? (w : Written) : Option DateTime :=
  onDate? w.date w.hour w.minute w.second w.microsecond

/-- Reads a moment on a host of this zone. -/
def ofCharsIn (zone : Zone) (cs : List Char) : Except Fault DateTime :=
  let cs := Text.trim cs
  match (readIso cs).bind fun w => w.moment?.map (·, w.ahead) with
  | some (d, none) => .ok d
  | some (d, some ahead) =>
    match (d.toUniversal? ahead).bind (inZone? zone) with
    | some u => .ok u
    | none => .error .outOfCalendar
  | none =>
    match patterns.findSome? (readPattern · cs) with
    | some d => .ok d
    | none => .error .unreadable

/-- Reads a moment on a host that keeps universal time. -/
def ofChars (cs : List Char) : Except Fault DateTime := ofCharsIn .universal cs

/-- Reads a moment on a host that keeps universal time. -/
def ofText (s : String) : Except Fault DateTime := ofChars s.toList

/-- The digits of a number, with zeros in front up to the given width. -/
def padded (width n : Nat) : List Char := (Nat.toDigits 10 n).leftpad width '0'

/-- The day and the time to the second, with the given width of the year. -/
def fieldChars (yearWidth : Nat) (d : DateTime) : List Char :=
  padded yearWidth d.date.year ++ '-' :: padded 2 d.date.month ++ '-' :: padded 2 d.date.day ++
    ' ' :: padded 2 d.hour ++ ':' :: padded 2 d.minute ++ ':' :: padded 2 d.second

/-- The printed form, which the reader takes as a literal. -/
def textChars (d : DateTime) : List Char := "#d\"".toList ++ fieldChars 1 d ++ ['"']

/-- The fields to the microsecond where there are microseconds. -/
def displayChars (d : DateTime) : List Char :=
  fieldChars 4 d ++ if d.microsecond = 0 then [] else '.' :: padded 6 d.microsecond

/-- The inspector's fields: the seconds and microseconds only up to the last that is not zero. -/
def inspectFields (d : DateTime) : List Nat :=
  [d.date.year, d.date.month, d.date.day, d.hour, d.minute] ++
    if d.microsecond ≠ 0 then [d.second, d.microsecond]
    else if d.second ≠ 0 then [d.second] else []

/-- The inspector's notation. -/
def inspectText (d : DateTime) : String :=
  "datetime.datetime(" ++ ", ".intercalate (d.inspectFields.map toString) ++ ")"

end MiniLisp.DateTime
