import MiniLisp.DateTime.Basic
import MiniLisp.Text.Digit

/-!
# Standard notation of moments

The standard notation: a date, and after one separating character of any kind a time of day, and after
that a sign and the offset from universal time, or `Z`. The date is a calendar date or a week date,
with or without hyphens; time and offset are written with colons or without, and end after the hours,
minutes, seconds or a fraction of a second, of which six digits count.

Two liberties are part of the notation. Between the last number of a time and the offset that follows,
one more byte or, after a fraction, any text is skipped. A null character ends the text where a
time or its fraction may end.
-/

namespace MiniLisp.DateTime

/-- What a moment's text says: the fields, and the offset in microseconds where it has one. -/
structure Written where
  date : Date
  hour : Nat
  minute : Nat
  second : Nat
  microsecond : Nat
  ahead : Option Int

/-- Reads exactly `n` digits. -/
def readDigits : Nat → List Char → Option (List Char × List Char)
  | 0, cs => some ([], cs)
  | n + 1, c :: cs =>
    if c.isDigit then (readDigits n cs).map fun (ds, rest) => (c :: ds, rest) else none
  | _ + 1, [] => none

/-- Reads a number of exactly `n` digits. -/
def readNumber (n : Nat) (cs : List Char) : Option (Nat × List Char) :=
  (readDigits n cs).map fun (ds, rest) => (Nat.ofDigitChars 10 ds 0, rest)

/-- The next character, the null character at the end. -/
def peek (cs : List Char) : Char := cs.headD '\x00'

/-! ### Dates -/

/-- How many characters the date takes; the time starts after one more. A week date may leave its day
out, and then digits that follow belong to the time, unless an odd number of them says otherwise. -/
def dateLength (cs : List Char) : Nat :=
  let n := cs.length
  let digitAt i := (cs[i]?.map Char.isDigit).getD false
  if n = 7 then 7
  else if cs[4]? = some '-' then
    if cs[5]? = some 'W' then
      if cs[8]? = some '-' ∧ !digitAt 10 then 10 else 8
    else 10
  else if cs[4]? = some 'W' then
    let last := 7 + ((cs.drop 7).takeWhile Char.isDigit).length
    if last < 9 then last else if last % 2 = 0 then 7 else 8
  else 8

/-- Reads a hyphen where hyphens are used. -/
def readHyphen (hyphens : Bool) (cs : List Char) : Option (List Char) :=
  if hyphens then
    match cs with
    | '-' :: rest => some rest
    | _ => none
  else some cs

/-- Reads the rest of a week date after its `W`. -/
def readWeekDate (year : Nat) (hyphens : Bool) (withDay : Bool) (cs : List Char) : Option Date := do
  let (week, cs) ← readNumber 2 cs
  if withDay then
    let cs ← readHyphen hyphens cs
    let (day, _) ← readNumber 1 cs
    Date.ofWeek? year week day
  else Date.ofWeek? year week 1

/-- Reads a date of the given length. -/
def readDate (length : Nat) (cs : List Char) : Option Date := do
  let (year, cs) ← readNumber 4 cs
  let hyphens := peek cs == '-'
  let cs := if hyphens then cs.drop 1 else cs
  if peek cs = 'W' then
    readWeekDate year hyphens ((if hyphens then 8 else 7) < length) (cs.drop 1)
  else
    let (month, cs) ← readNumber 2 cs
    let cs ← readHyphen hyphens cs
    let (day, _) ← readNumber 2 cs
    Date.ofFields? year month day

/-! ### Times -/

/-- A time of day or an offset; `ended` tells that nothing follows it. -/
structure Clock where
  hour : Nat := 0
  minute : Nat := 0
  second : Nat := 0
  microsecond : Nat := 0
  ended : Bool := true

/-- Sets the field of a clock: 0 for the hour, 1 for the minute, 2 for the second. -/
def Clock.set (clock : Clock) (field value : Nat) : Clock :=
  match field with
  | 0 => { clock with hour := value }
  | 1 => { clock with minute := value }
  | _ => { clock with second := value }

/-- Reads the fraction of a second; `after` follows the part of the text that belongs to the clock. -/
def readFraction (clock : Clock) (cs after : List Char) : Option Clock := do
  let places := min cs.length 6
  let (ds, rest) ← readDigits places cs
  let rest := (rest ++ after).dropWhile Char.isDigit
  some { clock with
    microsecond := Nat.ofDigitChars 10 ds 0 * Nat.pow 10 (6 - places)
    ended := peek rest == '\x00' }

/-- The length of a text in bytes. -/
def byteLength (cs : List Char) : Nat := cs.foldr (fun c n => c.utf8Size + n) 0

/-- Reads the numbers of a clock, `fields` of them to come, from the part `cs` of the text, which
`after` follows. Colons are used everywhere or nowhere. -/
def readClock (colons : Bool) (after : List Char) : Nat → Clock → List Char → Option Clock
  | 0, clock, cs => readFraction clock cs after
  | fields + 1, clock, cs => do
    let (value, rest) ← readNumber 2 cs
    let field := 2 - fields
    let clock := clock.set field value
    let c := peek (rest ++ after)
    let colons := if field = 0 then c == ':' else colons
    if byteLength rest ≤ 1 then some { clock with ended := c == '\x00' }
    else if colons && c == ':' then readClock colons after fields clock (rest.drop 1)
    else if c = '.' ∨ c = ',' then readFraction clock (rest.drop 1) after
    else if colons then none
    else readClock colons after fields clock rest

/-- Whether an offset starts here. -/
def startsOffset (c : Char) : Bool := c == '+' || c == '-' || c == 'Z'

/-- The microseconds of an offset. One that is zero to the second is zero. -/
def Clock.offset (clock : Clock) (west : Bool) : Int :=
  let seconds := (clock.hour * 60 + clock.minute) * 60 + clock.second
  let micros : Int := if seconds = 0 then 0 else (seconds * 1000000 + clock.microsecond : Nat)
  if west then -micros else micros

/-- Reads an offset of less than a day from its sign on. -/
def readOffset : List Char → Option Int
  | 'Z' :: rest => if peek rest = '\x00' then some 0 else none
  | sign :: rest => do
    let clock ← readClock true [] 3 {} rest
    let ahead := clock.offset (sign == '-')
    if clock.ended && ahead.natAbs < microsPerDay then some ahead else none
  | [] => none

/-- Reads a time with or without an offset. -/
def readTime (cs : List Char) : Option (Clock × Option Int) := do
  let (own, offset) := cs.span fun c => !startsOffset c
  let clock ← readClock true offset 3 {} own
  if offset.isEmpty then
    if clock.ended then some (clock, none) else none
  else
    let ahead ← readOffset offset
    some (clock, some ahead)

/-- Reads the standard notation. -/
def readIso (cs : List Char) : Option Written :=
  if cs.length < 7 then none
  else do
    let length := dateLength cs
    let date ← readDate length cs
    match cs.drop length with
    | [] => some ⟨date, 0, 0, 0, 0, none⟩
    | _ :: rest =>
      let (clock, ahead) ← readTime rest
      some ⟨date, clock.hour, clock.minute, clock.second, clock.microsecond, ahead⟩

end MiniLisp.DateTime
