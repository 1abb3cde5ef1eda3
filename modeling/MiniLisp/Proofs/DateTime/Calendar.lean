import MiniLisp.DateTime.Text

/-! # The ends of the calendar

Every day has a day before it and a day after it, but for the first day of the year 1 and the last day of
the year 9999. So moving a moment to universal time leaves the calendar only from these two days
(`toUniversal?_eq_none_iff`), and moving it on to a zone from these days as well. A text names a moment
outside the calendar only if one of the two moves leaves it (`ofCharsIn_eq_outOfCalendar_iff`). -/

namespace MiniLisp

theorem microsPerDay_pos : 0 < microsPerDay := by decide

namespace Date

theorem ofFields?_eq_none_iff {year month day : Nat} : ofFields? year month day = none ↔
    ¬ ((1 ≤ year ∧ year ≤ 9999) ∧ 1 ≤ day ∧ day ≤ daysInMonth year month) := by
  unfold ofFields?
  split <;> simp_all

/-- Every day is found by its numbers. -/
theorem ofFields?_self (d : Date) : ofFields? d.year d.month d.day = some d := by
  rw [ofFields?, dif_pos ⟨d.year_mem, d.day_mem⟩]

theorem daysInMonth_pos {year month : Nat} (h : 1 ≤ month ∧ month ≤ 12) :
    1 ≤ daysInMonth year month := by
  unfold daysInMonth
  repeat' split
  all_goals omega

theorem month_mem (d : Date) : 1 ≤ d.month ∧ d.month ≤ 12 := by
  have hday := d.day_mem
  unfold daysInMonth at hday
  repeat' split at hday
  all_goals omega

theorem daysInMonth_le (year month : Nat) : daysInMonth year month ≤ 31 := by
  unfold daysInMonth
  split
  · split <;> decide
  · split
    · decide
    · split <;> decide

theorem daysInMonth_december (year : Nat) : daysInMonth year 12 = 31 := by
  simp [daysInMonth]

/-- **Only the first day has no day before it.** -/
theorem previous?_eq_none_iff (d : Date) :
    d.previous? = none ↔ d.year = 1 ∧ d.month = 1 ∧ d.day = 1 := by
  have hyear := d.year_mem
  have hmonth := d.month_mem
  have hday := d.day_mem
  have hzero : daysInMonth d.year 0 = 0 := by simp [daysInMonth]
  have hbefore : 2 ≤ d.month → 1 ≤ daysInMonth d.year (d.month - 1) := fun h =>
    daysInMonth_pos (by omega)
  simp only [previous?, Option.orElse_eq_orElse, Option.orElse_eq_or, Option.or_eq_none_iff,
    ofFields?_eq_none_iff, daysInMonth_december]
  constructor
  · rintro ⟨h1, h2, h3⟩
    omega
  · rintro ⟨h1, h2, h3⟩
    rw [h2, h3, show 1 - 1 = 0 from rfl, hzero]
    omega

/-- **Only the last day has no day after it.** -/
theorem next?_eq_none_iff (d : Date) :
    d.next? = none ↔ d.year = 9999 ∧ d.month = 12 ∧ d.day = 31 := by
  have hyear := d.year_mem
  have hmonth := d.month_mem
  have hday := d.day_mem
  have hafter : d.month ≤ 11 → 1 ≤ daysInMonth d.year (d.month + 1) := fun h =>
    daysInMonth_pos (by omega)
  have hnone : daysInMonth d.year 13 = 0 := by simp [daysInMonth]
  have hjanuary : 1 ≤ daysInMonth (d.year + 1) 1 := daysInMonth_pos (by omega)
  have hdecember := daysInMonth_december d.year
  simp only [next?, Option.orElse_eq_orElse, Option.orElse_eq_or, Option.or_eq_none_iff,
    ofFields?_eq_none_iff]
  constructor
  · rintro ⟨h1, h2, h3⟩
    have hm : d.month = 12 := by omega
    rw [hm, hdecember] at h1 hday
    omega
  · rintro ⟨h1, h2, h3⟩
    rw [h2, hnone, hdecember]
    omega

end Date

namespace DateTime

/-- **Moments with the same key are the same**: no month or day reaches the next power in the key. -/
theorem key_injective {d e : DateTime} (h : d.key = e.key) : d = e := by
  obtain ⟨⟨year, month, day, hyear, hday⟩, micros, hmicros⟩ := d
  obtain ⟨⟨year', month', day', hyear', hday'⟩, micros', hmicros'⟩ := e
  have hmonth := Date.month_mem ⟨year, month, day, hyear, hday⟩
  have hmonth' := Date.month_mem ⟨year', month', day', hyear', hday'⟩
  have hlast := Date.daysInMonth_le year month
  have hlast' := Date.daysInMonth_le year' month'
  simp only [key, microsPerDay] at h hmicros hmicros' hmonth hmonth'
  obtain ⟨rfl, rfl, rfl, rfl⟩ : year = year' ∧ month = month' ∧ day = day' ∧ micros = micros' := by
    omega
  rfl

/-- **The moment leaves the calendar** on its way to universal time, if its clock is that much ahead. -/
def LeavesCalendar (d : DateTime) (ahead : Int) : Prop :=
  ((d.date.year = 1 ∧ d.date.month = 1 ∧ d.date.day = 1) ∧ d.micros < ahead) ∨
    ((d.date.year = 9999 ∧ d.date.month = 12 ∧ d.date.day = 31) ∧ microsPerDay ≤ d.micros - ahead)

theorem toUniversal?_eq_none_iff (d : DateTime) (ahead : Int) :
    d.toUniversal? ahead = none ↔ d.LeavesCalendar ahead := by
  unfold toUniversal? LeavesCalendar
  simp only [Option.map_eq_none_iff]
  have hmicros := d.micros_lt
  split
  · rw [Date.previous?_eq_none_iff]
    omega
  · split
    · rw [Date.next?_eq_none_iff]
      omega
    · simp only [reduceCtorEq, false_iff]
      omega

/-- The moment leaves the calendar on its way to a zone: before it comes to universal time, or after that. If the
zone is that of universal time it does not leave it after that. -/
def LeavesCalendarFor (zone : Zone) (d : DateTime) (ahead : Int) : Prop :=
  d.LeavesCalendar ahead ∨ ∃ u, d.toUniversal? ahead = some u ∧ u.LeavesCalendar (-zone.ahead u)

theorem bind_inZone?_eq_none_iff {zone : Zone} {d : DateTime} {ahead : Int} :
    (d.toUniversal? ahead).bind (inZone? zone) = none ↔ d.LeavesCalendarFor zone ahead := by
  rw [LeavesCalendarFor, ← toUniversal?_eq_none_iff]
  cases huniversal : d.toUniversal? ahead with
  | none => simp
  | some u => simp [inZone?, toUniversal?_eq_none_iff]

/-- **The text names a moment outside the calendar** for a zone: in standard notation, with an offset that moves
it out on its way to the zone. -/
def NamesOutside (zone : Zone) (cs : List Char) : Prop :=
  ∃ w d ahead, readIso (Text.trim cs) = some w ∧ w.moment? = some d ∧ w.ahead = some ahead ∧
    d.LeavesCalendarFor zone ahead

/-- **When reading leaves the calendar**, on a host of any zone. -/
theorem ofCharsIn_eq_outOfCalendar_iff {zone : Zone} {cs : List Char} :
    ofCharsIn zone cs = .error .outOfCalendar ↔ NamesOutside zone cs := by
  unfold ofCharsIn NamesOutside
  constructor
  · intro h
    simp only at h
    split at h
    · cases h
    · next d ahead hread =>
      obtain ⟨w, hw, hpair⟩ := Option.bind_eq_some_iff.1 hread
      obtain ⟨d', hd, hpair⟩ := Option.map_eq_some_iff.1 hpair
      obtain ⟨rfl, hahead⟩ := Prod.mk.inj hpair
      split at h
      · cases h
      · next hnone => exact ⟨w, d', ahead, hw, hd, hahead, bind_inZone?_eq_none_iff.1 hnone⟩
    · split at h <;> cases h
  · rintro ⟨w, d, ahead, hw, hd, hahead, hleaves⟩
    have hread : (readIso (Text.trim cs)).bind (fun w => w.moment?.map (·, w.ahead)) =
        some (d, some ahead) := by
      rw [hw, Option.bind_some, hd, Option.map_some, hahead]
    simp only [hread, bind_inZone?_eq_none_iff.2 hleaves]

end DateTime

end MiniLisp
