/-!
# Dates and times

A moment of the Gregorian calendar of the years 1 to 9999, to the microsecond. A `Date` is a day that
the calendar has, by its own proof; a `DateTime` adds the microseconds since midnight. Moments are
ordered by one number, `DateTime.key`.

Moving between time zones changes the day by at most one, so it needs only the next and the previous
day (`toUniversal?`, `inZone?`). Week dates are days counted from the first Monday of the year's first week, the
week that holds its first Thursday.
-/

namespace MiniLisp

def isLeapYear (year : Nat) : Bool := year % 4 == 0 && (year % 100 != 0 || year % 400 == 0)

/-- The number of days of a month, none for a number that names no month. -/
def daysInMonth (year month : Nat) : Nat :=
  if month = 2 then if isLeapYear year then 29 else 28
  else if month = 4 ∨ month = 6 ∨ month = 9 ∨ month = 11 then 30
  else if 1 ≤ month ∧ month ≤ 12 then 31
  else 0

def daysInYear (year : Nat) : Nat := if isLeapYear year then 366 else 365

/-- A day that the calendar has. -/
structure Date where
  year : Nat
  month : Nat
  day : Nat
  year_mem : 1 ≤ year ∧ year ≤ 9999
  day_mem : 1 ≤ day ∧ day ≤ daysInMonth year month
  deriving DecidableEq

namespace Date

/-- The day with these numbers, if the calendar has it. -/
def ofFields? (year month day : Nat) : Option Date :=
  if h : (1 ≤ year ∧ year ≤ 9999) ∧ 1 ≤ day ∧ day ≤ daysInMonth year month then
    some ⟨year, month, day, h.1, h.2⟩
  else none

/-- The day after. -/
def next? (d : Date) : Option Date :=
  ofFields? d.year d.month (d.day + 1) <|>
    ofFields? d.year (d.month + 1) 1 <|> ofFields? (d.year + 1) 1 1

/-- The day before. -/
def previous? (d : Date) : Option Date :=
  ofFields? d.year d.month (d.day - 1) <|>
    ofFields? d.year (d.month - 1) (daysInMonth d.year (d.month - 1)) <|>
    ofFields? (d.year - 1) 12 31

/-- The month and the day of the month `days` days after the first of the first listed month. -/
def inMonths (year days : Nat) : List Nat → Option Date
  | [] => none
  | month :: months =>
    if days < daysInMonth year month then ofFields? year month (days + 1)
    else inMonths year (days - daysInMonth year month) months

/-- The day `days` days after the first of January; it may fall in a neighbouring year. -/
def ofDayOfYear? (year : Nat) (days : Int) : Option Date :=
  let (year, days) :=
    if days < 0 then (year - 1, days + daysInYear (year - 1))
    else if (daysInYear year : Int) ≤ days then (year + 1, days - daysInYear year)
    else (year, days)
  inMonths year days.toNat [1, 2, 3, 4, 5, 6, 7, 8, 9, 10, 11, 12]

/-- The day `days` days after the first of January of a year, at most `years` years later. -/
def later? : Nat → Nat → Nat → Option Date
  | 0, _, _ => none
  | years + 1, year, days =>
    if days < daysInYear year then ofDayOfYear? year days
    else later? years (year + 1) (days - daysInYear year)

/-- The day of the week of the first of January, from Monday as 0. -/
def newYearWeekday (year : Nat) : Nat :=
  let y := year - 1
  (y * 365 + y / 4 - y / 100 + y / 400) % 7

/-- The number of weeks of a year of week dates. -/
def weeksInYear (year : Nat) : Nat :=
  let w := newYearWeekday year
  if w = 3 ∨ (w = 2 ∧ isLeapYear year) then 53 else 52

/-- The day of a week date, with Monday as day 1. -/
def ofWeek? (year week day : Nat) : Option Date :=
  if 1 ≤ year ∧ 1 ≤ week ∧ week ≤ weeksInYear year ∧ 1 ≤ day ∧ day ≤ 7 then
    let w := newYearWeekday year
    let firstMonday : Int := if w ≤ 3 then -(w : Int) else 7 - w
    ofDayOfYear? year (firstMonday + ((week - 1) * 7 + (day - 1) : Nat))
  else none

end Date

/-- The microseconds of a day. -/
def microsPerDay : Nat := 86400000000

/-- A moment: a day and the microseconds since its midnight. -/
structure DateTime where
  date : Date
  micros : Nat
  micros_lt : micros < microsPerDay
  deriving DecidableEq

namespace DateTime

def hour (d : DateTime) : Nat := d.micros / 3600000000
def minute (d : DateTime) : Nat := d.micros / 60000000 % 60
def second (d : DateTime) : Nat := d.micros / 1000000 % 60
def microsecond (d : DateTime) : Nat := d.micros % 1000000

/-- The moment on a day, if the time of day exists. -/
def onDate? (date : Date) (hour minute second microsecond : Nat) : Option DateTime :=
  if h : hour < 24 ∧ minute < 60 ∧ second < 60 ∧ microsecond < 1000000 then
    some ⟨date, ((hour * 60 + minute) * 60 + second) * 1000000 + microsecond, by
      simp only [microsPerDay]; omega⟩
  else none

/-- The moment with these numbers, if there is one. -/
def ofFields? (year month day hour minute second microsecond : Nat) : Option DateTime :=
  (Date.ofFields? year month day).bind (onDate? · hour minute second microsecond)

/-- A number that orders the moments. -/
def key (d : DateTime) : Nat :=
  ((d.date.year * 13 + d.date.month) * 32 + d.date.day) * microsPerDay + d.micros

/-- The moment in universal time, given the microseconds that its clock is ahead of it. Nothing if
that leaves the calendar. -/
def toUniversal? (d : DateTime) (ahead : Int) : Option DateTime :=
  let t : Int := d.micros - ahead
  let day? := if t < 0 then d.date.previous?
    else if (microsPerDay : Int) ≤ t then d.date.next? else some d.date
  day?.map fun day =>
    ⟨day, (t % microsPerDay).toNat, by
      have : (0 : Int) < microsPerDay := by decide
      have := Int.emod_nonneg t (Int.ne_of_gt this)
      have := Int.emod_lt_of_pos t ‹(0 : Int) < microsPerDay›
      omega⟩

end DateTime

/-- A time zone: the microseconds, less than those of a day, that its clocks are ahead of universal time at a
moment of it. -/
structure Zone where
  ahead : DateTime → Int
  natAbs_ahead_lt : ∀ u, (ahead u).natAbs < microsPerDay

/-- The zone whose clocks show universal time. -/
def Zone.universal : Zone := ⟨fun _ => 0, fun _ => by decide⟩

namespace DateTime

/-- What the clocks of a zone show at a moment of universal time. Nothing if that leaves the calendar. -/
def inZone? (zone : Zone) (u : DateTime) : Option DateTime := u.toUniversal? (-zone.ahead u)

/-- The moment some microseconds after the start of the year 1970. -/
def ofUnixMicros? (micros : Nat) : Option DateTime :=
  (Date.later? 8030 1970 (micros / microsPerDay)).map fun day =>
    ⟨day, micros % microsPerDay, Nat.mod_lt _ (by decide)⟩

/-- The moment one microsecond later, or the same at the end of the calendar. -/
def tick (d : DateTime) : DateTime :=
  (d.toUniversal? (-1)).getD d

end DateTime

end MiniLisp
