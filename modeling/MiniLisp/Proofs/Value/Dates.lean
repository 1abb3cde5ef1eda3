import MiniLisp.Datum.Reader
import MiniLisp.Proofs.DateTime.Patterns
import MiniLisp.Proofs.Token.Printed
import MiniLisp.Value.Text

/-! # The years whose dates read back

A printed date has no zeros in front of its year, and a year of fewer than four digits is not standard
notation (`readIso_fieldChars_of_lt`). Nor is it everyday notation, since every pattern has a slash or
the name of a month in it (`findSome?_patterns_eq_none`), and a printed date has neither. So of the
dates without microseconds just those from the year 1000 on read back (`readAll_print_date`). -/

namespace MiniLisp

namespace DateTime

/-! ### Printed dates -/

theorem length_padded_one_lt {n : Nat} (h : n < 1000) : (padded 1 n).length < 4 := by
  have hlength := (Nat.length_toDigits_le_iff (b := 10) (n := n) (k := 3) (by decide) (by decide)).2 h
  rw [padded, List.length_leftpad]
  omega

/-- **A year of fewer than four digits is not standard notation.** -/
theorem readIso_fieldChars_of_lt {d : DateTime} (h : d.date.year < 1000) :
    readIso (fieldChars 1 d) = none := by
  rw [fieldChars_eq]
  exact readIso_eq_none (readDigits_append_eq_none (length_padded_one_lt h) rfl)

/-- **A printed year of fewer than four digits cannot be read**, on a host of whatever zone. -/
theorem ofCharsIn_fieldChars_of_lt (zone : Zone) {d : DateTime} (h : d.date.year < 1000) :
    ofCharsIn zone (fieldChars 1 d) = .error .unreadable := by
  have hslash : '/' ∉ fieldChars 1 d := fun hc => absurd (of_mem_fieldChars hc) (by decide)
  have halpha : ∀ c ∈ fieldChars 1 d, c.isAlpha = false := by
    intro c hc
    rcases of_mem_fieldChars hc with hdigit | rfl | rfl | rfl
    · exact isAlpha_eq_false_of_isDigit hdigit
    · decide
    · decide
    · decide
  simp only [ofCharsIn, trim_fieldChars, readIso_fieldChars_of_lt h, Option.bind_none,
    findSome?_patterns_eq_none hslash halpha]

end DateTime

namespace Value

/-- A printed date is one token, so it reads as what its characters say. -/
theorem readAll_textChars (d : DateTime) : Datum.readAll (String.ofList d.textChars) =
    match DateTime.ofChars (d.fieldChars 1) with
    | .ok e => .ok [.atom (.date e)]
    | .error .unreadable => .error (.syntaxError (.badDate (String.ofList (d.fieldChars 1))) .start)
    | .error .outOfCalendar => .error .dateOutOfCalendar := by
  have htokens : Token.ofText (String.ofList d.textChars) =
      [⟨.date, String.ofList (d.fieldChars 1), .start⟩,
        .atEnd (Place.start.advanceAll d.textChars)] := by
    rw [Token.ofText, String.toList_ofList, ← List.append_nil d.textChars, Token.scanFrom_date,
      Token.scanFrom_nil, List.append_nil]
  have hbefore : Datum.beforeEnd [⟨.date, String.ofList (d.fieldChars 1), .start⟩,
      .atEnd (Place.start.advanceAll d.textChars)] =
      [⟨.date, String.ofList (d.fieldChars 1), .start⟩] := rfl
  rw [Datum.readAll, htokens, Datum.ofTokens, hbefore]
  simp only [Reading.steps, Reading.step, DateTime.ofText, String.toList_ofList]
  cases DateTime.ofChars (d.fieldChars 1) with
  | ok e => rfl
  | error fault => cases fault <;> rfl

/-- **Printed dates read back from the year 1000 on.** A date of an earlier year is printed as well, but
its printed form is a syntax error. -/
theorem readAll_print_date (d : DateTime) (h : d.microsecond = 0) :
    ∃ text, (Value.date d).print = .ok text ∧ Datum.readAll text =
      if 1000 ≤ d.date.year then .ok [.atom (.date d)]
      else .error (.syntaxError (.badDate (String.ofList (d.fieldChars 1))) .start) := by
  refine ⟨String.ofList d.textChars, rfl, ?_⟩
  rw [readAll_textChars]
  by_cases hy : 1000 ≤ d.date.year
  · rw [DateTime.ofChars, DateTime.ofCharsIn_fieldChars _ hy h, if_pos hy]
  · rw [DateTime.ofChars, DateTime.ofCharsIn_fieldChars_of_lt _ (Nat.lt_of_not_le hy), if_neg hy]

/-- The first second whose year has four digits. -/
def fourDigitYear : DateTime := ⟨⟨1000, 1, 1, by decide, by decide⟩, 0, microsPerDay_pos⟩

/-- The last second whose year has three digits. -/
def threeDigitYear : DateTime := ⟨⟨999, 12, 31, by decide, by decide⟩, 86399000000, by decide⟩

/-- A date of four digits and one of three: the second of them does not read back. -/
theorem readAll_print_date_ends : fourDigitYear.microsecond = 0 ∧ threeDigitYear.microsecond = 0 ∧
    (∃ text, (Value.date fourDigitYear).print = .ok text ∧
      Datum.readAll text = .ok [.atom (.date fourDigitYear)]) ∧
    ∃ text, (Value.date threeDigitYear).print = .ok text ∧ Datum.readAll text =
      .error (.syntaxError (.badDate (String.ofList (threeDigitYear.fieldChars 1))) .start) :=
  ⟨by decide, by decide, readAll_print_date fourDigitYear (by decide),
    readAll_print_date threeDigitYear (by decide)⟩

/-- **A printed date that does not read back.** -/
theorem not_readAll_print_threeDigitYear : threeDigitYear.microsecond = 0 ∧
    ∃ text, (Value.date threeDigitYear).print = .ok text ∧ text = "#d\"999-12-31 23:59:59\"" ∧
      Datum.readAll text ≠ .ok [.atom (.date threeDigitYear)] := by
  have hread := readAll_textChars threeDigitYear
  rw [DateTime.ofChars, DateTime.ofCharsIn_fieldChars_of_lt _ (by decide)] at hread
  refine ⟨by decide, String.ofList threeDigitYear.textChars, rfl, by decide +kernel, fun h => ?_⟩
  rw [hread] at h
  cases h

end Value

end MiniLisp
