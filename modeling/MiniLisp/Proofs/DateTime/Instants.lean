import Mathlib.Order.Monotone.Basic
import MiniLisp.Proofs.DateTime.Calendar

/-! # Days and moments as numbers

The days of the calendar are numbered one after the other (`Date.number`): the next day has the next number,
and no two days have the same. So a moment is a number of microseconds (`DateTime.instant`), and moving it to
universal time subtracts what its clock is ahead (`toUniversal?_eq_some_iff`), over the ends of months and
years and the last days of February, and moving it on to a zone adds what the clocks there are ahead
(`inZone?_eq_some_iff`). -/

namespace MiniLisp

namespace Date

/-! ### The days before a month and before a year -/

/-- The days of a year before one of its months. -/
def daysBeforeMonth (year : Nat) : Nat → Nat
  | 0 => 0
  | month + 1 => daysBeforeMonth year month + daysInMonth year month

/-- The days before a year, from the start of the year 0 on. -/
def daysBeforeYear : Nat → Nat
  | 0 => 0
  | year + 1 => daysBeforeYear year + daysInYear year

/-- **The number of a day**: how many days have begun since the start of the year 0. -/
def number (d : Date) : Nat := daysBeforeYear d.year + daysBeforeMonth d.year d.month + d.day

theorem daysBeforeMonth_one (year : Nat) : daysBeforeMonth year 1 = 0 := by
  simp [daysBeforeMonth, daysInMonth]

/-- The months of a year have all of its days. -/
theorem daysBeforeMonth_thirteen (year : Nat) : daysBeforeMonth year 13 = daysInYear year := by
  simp only [daysBeforeMonth, daysInMonth, daysInYear]
  cases isLeapYear year <;> rfl

theorem daysBeforeMonth_mono (year : Nat) : Monotone (daysBeforeMonth year) :=
  monotone_nat_of_le_succ fun _ => Nat.le_add_right _ _

theorem daysBeforeYear_mono : Monotone daysBeforeYear :=
  monotone_nat_of_le_succ fun _ => Nat.le_add_right _ _

variable {d e : Date}

/-- The days of a year up to one of its days. -/
theorem daysBeforeMonth_add_day_le (d : Date) :
    daysBeforeMonth d.year d.month + d.day ≤ daysInYear d.year := by
  have hmonths : daysBeforeMonth d.year (d.month + 1) ≤ daysBeforeMonth d.year 13 :=
    daysBeforeMonth_mono d.year (by have := d.month_mem; omega)
  rw [daysBeforeMonth_thirteen, daysBeforeMonth] at hmonths
  exact Nat.le_trans (Nat.add_le_add_left d.day_mem.2 _) hmonths

theorem number_le (d : Date) : d.number ≤ daysBeforeYear (d.year + 1) := by
  have := d.daysBeforeMonth_add_day_le
  rw [number, daysBeforeYear]
  omega

theorem lt_number (d : Date) : daysBeforeYear d.year < d.number := by
  have := d.day_mem
  rw [number]
  omega

theorem number_newYear (hmonth : d.month = 1) (hday : d.day = 1) :
    d.number = daysBeforeYear d.year + 1 := by
  rw [number, hmonth, hday, daysBeforeMonth_one, Nat.add_zero]

theorem number_newYearsEve (hmonth : d.month = 12) (hday : d.day = 31) :
    d.number = daysBeforeYear (d.year + 1) := by
  have hall := daysBeforeMonth_thirteen d.year
  rw [daysBeforeMonth, daysInMonth_december] at hall
  rw [number, hmonth, hday, daysBeforeYear, Nat.add_assoc, hall]

/-! ### Neighbours and order -/

theorem number_lt_of_year_lt (h : d.year < e.year) : d.number < e.number :=
  calc d.number ≤ daysBeforeYear (d.year + 1) := d.number_le
    _ ≤ daysBeforeYear e.year := daysBeforeYear_mono h
    _ < e.number := e.lt_number

theorem number_lt_of_month_lt (hyear : d.year = e.year) (h : d.month < e.month) :
    d.number < e.number := by
  have hmonths : daysBeforeMonth e.year (d.month + 1) ≤ daysBeforeMonth e.year e.month :=
    daysBeforeMonth_mono e.year h
  have hd := d.day_mem
  have he := e.day_mem
  rw [daysBeforeMonth] at hmonths
  rw [hyear] at hd
  rw [number, number, hyear]
  omega

/-- **Days with the same number are the same day.** -/
theorem number_injective (h : d.number = e.number) : d = e := by
  have hyear : d.year = e.year := by
    rcases Nat.lt_trichotomy d.year e.year with hlt | heq | hlt
    · exact absurd h (Nat.ne_of_lt (number_lt_of_year_lt hlt))
    · exact heq
    · exact absurd h (Nat.ne_of_gt (number_lt_of_year_lt hlt))
  have hmonth : d.month = e.month := by
    rcases Nat.lt_trichotomy d.month e.month with hlt | heq | hlt
    · exact absurd h (Nat.ne_of_lt (number_lt_of_month_lt hyear hlt))
    · exact heq
    · exact absurd h (Nat.ne_of_gt (number_lt_of_month_lt hyear.symm hlt))
  have hday : d.day = e.day := by
    rw [number, number, hyear, hmonth] at h
    exact Nat.add_left_cancel h
  obtain ⟨year, month, day, _, _⟩ := d
  cases hyear
  cases hmonth
  cases hday
  rfl

theorem eq_of_ofFields? {year month day : Nat} (h : ofFields? year month day = some d) :
    d.year = year ∧ d.month = month ∧ d.day = day := by
  unfold ofFields? at h
  split at h
  · cases h
    exact ⟨rfl, rfl, rfl⟩
  · cases h

/-- **The next day has the next number.** -/
theorem number_next? (h : d.next? = some e) : e.number = d.number + 1 := by
  have hd := d.day_mem
  simp only [next?, Option.orElse_eq_orElse, Option.orElse_eq_or, Option.or_eq_some_iff,
    ofFields?_eq_none_iff] at h
  have hyear := d.year_mem
  have hmonth := d.month_mem
  rcases h with h | ⟨hlast, h | ⟨hlast', h⟩⟩
  · obtain ⟨hy, hm, hday⟩ := eq_of_ofFields? h
    rw [number, number, hy, hm, hday]
    omega
  · obtain ⟨hy, hm, hday⟩ := eq_of_ofFields? h
    rw [number, number, hy, hm, hday, daysBeforeMonth]
    omega
  · obtain ⟨hy, hm, hday⟩ := eq_of_ofFields? h
    have hdecember : d.month = 12 := by
      by_contra hne
      exact hlast' ⟨hyear, Nat.le_refl 1, daysInMonth_pos (by omega)⟩
    have hall := daysBeforeMonth_thirteen d.year
    rw [daysBeforeMonth] at hall
    rw [hdecember] at hlast hd
    rw [number, number, hy, hm, hday, daysBeforeYear, daysBeforeMonth_one, hdecember]
    omega

/-- **The day before has the number before.** -/
theorem number_previous? (h : d.previous? = some e) : e.number + 1 = d.number := by
  have hd := d.day_mem
  simp only [previous?, Option.orElse_eq_orElse, Option.orElse_eq_or, Option.or_eq_some_iff,
    ofFields?_eq_none_iff] at h
  have hyear := d.year_mem
  have hmonth := d.month_mem
  rcases h with h | ⟨hfirst, h | ⟨hfirst', h⟩⟩
  · obtain ⟨hy, hm, hday⟩ := eq_of_ofFields? h
    have hday' := e.day_mem
    rw [number, number, hy, hm, hday]
    omega
  · obtain ⟨hy, hm, hday⟩ := eq_of_ofFields? h
    have hsum : daysBeforeMonth d.year (d.month - 1 + 1) =
        daysBeforeMonth d.year (d.month - 1) + daysInMonth d.year (d.month - 1) := rfl
    rw [Nat.sub_add_cancel hmonth.1] at hsum
    rw [number, number, hy, hm, hday, hsum]
    omega
  · obtain ⟨hy, hm, hday⟩ := eq_of_ofFields? h
    have hjanuary : d.month = 1 := by
      by_contra hne
      exact hfirst' ⟨hyear, daysInMonth_pos (by omega), Nat.le_refl _⟩
    have hsum : daysBeforeYear (d.year - 1 + 1) =
        daysBeforeYear (d.year - 1) + daysInYear (d.year - 1) := rfl
    rw [Nat.sub_add_cancel hyear.1] at hsum
    have hall := daysBeforeMonth_thirteen (d.year - 1)
    rw [daysBeforeMonth, daysInMonth_december] at hall
    rw [number, number, hy, hm, hday, hsum, hjanuary, daysBeforeMonth_one]
    omega

end Date

namespace DateTime

/-! ### Moments -/

/-- **A moment as a number**: the microseconds since the start of the year 0. -/
def instant (d : DateTime) : Nat := d.date.number * microsPerDay + d.micros

theorem instant_injective {d e : DateTime} (h : d.instant = e.instant) : d = e := by
  have hd := d.micros_lt
  have he := e.micros_lt
  obtain ⟨date, micros, _⟩ := d
  obtain ⟨date', micros', _⟩ := e
  simp only [instant, microsPerDay] at h hd he
  have hmicros : micros = micros' := by omega
  have hnumber : date.number = date'.number := by omega
  cases hmicros
  cases Date.number_injective hnumber
  rfl

variable {d u : DateTime} {ahead : Int}

theorem instant_toUniversal? (hahead : ahead.natAbs < microsPerDay)
    (h : d.toUniversal? ahead = some u) : (u.instant : Int) = d.instant - ahead := by
  obtain ⟨day, hday, rfl⟩ := Option.map_eq_some_iff.mp h
  have hd := d.micros_lt
  simp only [instant]
  split at hday
  · have := Date.number_previous? hday
    simp only [microsPerDay] at *
    omega
  · split at hday
    · have := Date.number_next? hday
      simp only [microsPerDay] at *
      omega
    · cases hday
      simp only [microsPerDay] at *
      omega

/-- No moment is before the first or after the last. -/
theorem not_leavesCalendar (h : (u.instant : Int) = d.instant - ahead) :
    ¬ d.LeavesCalendar ahead := by
  have hu := u.micros_lt
  have hyears := u.date.year_mem
  rw [instant, instant] at h
  rintro (⟨⟨hyear, hmonth, hday⟩, hbefore⟩ | ⟨⟨hyear, hmonth, hday⟩, hbehind⟩)
  · have hnumber := Date.number_newYear hmonth hday
    have hfirst : Date.daysBeforeYear d.date.year < u.date.number :=
      Nat.lt_of_le_of_lt (Date.daysBeforeYear_mono (by omega)) u.date.lt_number
    simp only [microsPerDay] at *
    omega
  · have hnumber := Date.number_newYearsEve hmonth hday
    have hlast : u.date.number ≤ Date.daysBeforeYear (d.date.year + 1) :=
      Nat.le_trans u.date.number_le (Date.daysBeforeYear_mono (by omega))
    simp only [microsPerDay] at *
    omega

/-- **Moving to universal time subtracts** what the clock is ahead. -/
theorem toUniversal?_eq_some_iff (hahead : ahead.natAbs < microsPerDay) :
    d.toUniversal? ahead = some u ↔ (u.instant : Int) = d.instant - ahead := by
  refine ⟨instant_toUniversal? hahead, fun h => ?_⟩
  cases huniversal : d.toUniversal? ahead with
  | none => exact absurd ((toUniversal?_eq_none_iff d ahead).mp huniversal) (not_leavesCalendar h)
  | some u' =>
    have hinstant := instant_toUniversal? hahead huniversal
    rw [instant_injective (d := u') (e := u) (by omega)]

/-- **Moving on to a zone adds** what the clocks of the zone are ahead. -/
theorem inZone?_eq_some_iff {zone : Zone} {shown : DateTime} :
    u.inZone? zone = some shown ↔ (shown.instant : Int) = u.instant + zone.ahead u := by
  have hahead : (-zone.ahead u).natAbs < microsPerDay := by
    rw [Int.natAbs_neg]
    exact zone.natAbs_ahead_lt u
  rw [inZone?, toUniversal?_eq_some_iff hahead, Int.sub_neg]

/-- On a host that keeps universal time a moment of it stays as it is. -/
theorem bind_inZone?_universal (u? : Option DateTime) : u?.bind (inZone? .universal) = u? := by
  cases u? with
  | none => rfl
  | some u => exact inZone?_eq_some_iff.mpr (Int.add_zero _).symm

end DateTime

end MiniLisp
