import MiniLisp.Proofs.DateTime.Patterns

/-! # Everyday notation of days

A day can be written as numbers between slashes, or with the name of its month, in full or its first three
letters. Of the patterns that fit such a text all agree, so it is read as the day that it names, or it is not
read at all (`findSome?_slashChars`, `findSome?_dayFirstChars`, `findSome?_monthFirstChars`). None of these
texts is standard notation, and no text of standard notation, which starts with the four digits of a year, fits
a pattern (`findSome?_of_year`). -/

namespace MiniLisp

namespace DateTime

/-! ### Names of months -/

/-- The months as they are written. -/
def englishMonths : List String :=
  ["January", "February", "March", "April", "May", "June", "July", "August", "September", "October",
   "November", "December"]

/-- The name of a month, in full or its first three letters. -/
def monthWord (short : Bool) (month : Nat) : List Char :=
  let word := (englishMonths.getD (month - 1) "").toList
  if short then word.take 3 else word

/-- A month's name has letters, and no day is read of it. -/
theorem monthWord_letters : ∀ short, ∀ month < 13, 1 ≤ month →
    (monthWord short month).head?.all Char.isAlpha = true ∧ 2 < (monthWord short month).length ∧
      '/' ∉ monthWord short month ∧ readChoice dayChoices (monthWord short month) = none := by
  decide +kernel

/-- **A month's name is taken as a whole** where names of its length are looked for. Short names start the full
ones, and then letters are left; the full name of May is its short one. -/
theorem readName_monthWord_or : ∀ table short, ∀ month < 13, 1 ≤ month →
    readName (namesOf table) (monthWord short month) = some (month, []) ∨
      table ≠ short ∧ stops (readName (namesOf table) (monthWord short month)) = true := by
  decide +kernel

theorem readName_word (table short : Bool) (month : Nat) (rest : List Char) :
    readName (namesOf table) (monthWord short month ++ ' ' :: rest) =
      (readName (namesOf table) (monthWord short month)).map fun r => (r.1, r.2 ++ ' ' :: rest) := by
  have hall : ∀ table, ∀ name ∈ namesOf table, ' ' ∉ name.toList := by decide +kernel
  exact readName_append (hall table) _ _

section MonthWord

variable {month : Nat} (hmonth : 1 ≤ month ∧ month ≤ 12) (short : Bool)
include hmonth

theorem slash_notMem_monthWord : '/' ∉ monthWord short month :=
  (monthWord_letters short month (by omega) hmonth.1).2.2.1

theorem isAlpha_monthWord (rest : List Char) :
    ∀ c ∈ (monthWord short month ++ rest).head?, c.isAlpha = true := by
  obtain ⟨halpha, hlength, -⟩ := monthWord_letters short month (by omega) hmonth.1
  rw [List.head?_append_of_ne_nil _ (List.ne_nil_of_length_pos (by omega))]
  simpa [Option.all_eq_true] using halpha

theorem readName_monthWord (rest : List Char) :
    readName (namesOf short) (monthWord short month ++ ' ' :: rest) = some (month, ' ' :: rest) := by
  have hread := (readName_monthWord_or short short month (by omega) hmonth.1).resolve_right fun h => h.1 rfl
  rw [readName_word, hread]
  rfl

theorem readName_or_stops (rest : List Char) (table : Bool) :
    readName (namesOf table) (monthWord short month ++ ' ' :: rest) = some (month, ' ' :: rest) ∨
      stops (readName (namesOf table) (monthWord short month ++ ' ' :: rest)) = true := by
  rw [readName_word]
  rcases readName_monthWord_or table short month (by omega) hmonth.1 with h | ⟨-, h⟩
  · rw [h]
    exact .inl rfl
  · exact .inr (stops_append h _)

theorem readChoice_day_monthWord (rest : List Char) :
    readChoice dayChoices (monthWord short month ++ rest) = none := by
  obtain ⟨-, hlength, -, hnone⟩ := monthWord_letters short month (by omega) hmonth.1
  have hall : ∀ classes ∈ dayChoices, classes.length ≤ (monthWord short month).length :=
    fun classes hmem => Nat.le_trans (counts_days.two classes hmem) (Nat.le_of_lt hlength)
  rw [readChoice_append rest hall, hnone]
  rfl

end MonthWord

/-! ### The patterns -/

/-- Numbers between slashes, and more. -/
def slashed (more : List Piece) : List Piece :=
  .month :: .mark '/' :: .day :: .mark '/' :: .year :: more

/-- The hour and the minute after a day. -/
def clock : List Piece := [.gap, .hour, .mark ':', .minute]

def dayFirst (short : Bool) : List Piece := [.day, .gap, .monthName (namesOf short), .gap, .year]

def monthFirst (short : Bool) : List Piece :=
  [.monthName (namesOf short), .gap, .day, .mark ',', .gap, .year]

theorem patterns_eq : patterns =
    [slashed [], slashed (clock ++ [.mark ':', .second]), slashed clock, dayFirst false, dayFirst true,
     monthFirst false, monthFirst true] := rfl

theorem forall_patterns {P : List Piece → Prop} (hday : P (slashed []))
    (hsecond : P (slashed (clock ++ [.mark ':', .second]))) (hminute : P (slashed clock))
    (hdayFirst : ∀ short, P (dayFirst short)) (hmonthFirst : ∀ short, P (monthFirst short)) :
    ∀ p ∈ patterns, P p := by
  simp only [patterns_eq, List.forall_mem_cons]
  exact ⟨hday, hsecond, hminute, hdayFirst false, hdayFirst true, hmonthFirst false, hmonthFirst true,
    by simp⟩

/-- The first pattern that fits decides, and it does not matter which one if all that fit agree. -/
theorem findSome?_patterns {cs : List Char} {o : Option DateTime}
    (hall : ∀ p ∈ patterns, readPattern p cs = none ∨ readPattern p cs = o)
    (hex : ∃ p ∈ patterns, readPattern p cs = o) : patterns.findSome? (readPattern · cs) = o := by
  cases o with
  | none => exact List.findSome?_eq_none_iff.mpr fun p hp => (hall p hp).elim id id
  | some d =>
    cases hfind : patterns.findSome? (readPattern · cs) with
    | none =>
      obtain ⟨p, hp, hd⟩ := hex
      rw [List.findSome?_eq_none_iff.mp hfind p hp] at hd
      cases hd
    | some e =>
      obtain ⟨p, hp, he⟩ := List.exists_of_findSome?_eq_some hfind
      rcases hall p hp with hnone | hd
      · rw [he] at hnone
        cases hnone
      · rw [← he, hd]

theorem readPattern_eq_none {p : List Piece} {cs : List Char} (h : readPieces {} p cs = none) :
    readPattern p cs = none := by
  rw [readPattern, h]

/-- The name of a month is no number. -/
theorem readPattern_monthFirst_padded (short : Bool) (width n : Nat) (rest : List Char) :
    readPattern (monthFirst short) (padded width n ++ rest) = none :=
  readPattern_eq_none (readPieces_of_read_eq_none
    (read_monthName_eq_none (named_namesOf short) isAlpha_of_head?_padded _))

/-! ### Days and moments that are written -/

/-- Numbers that can be written as a day and a time of day: two digits for each, four for the year. The
calendar need not have the day. -/
structure Fields.Fit (f : Fields) : Prop where
  year_lt : f.year < 10 ^ 4
  month_lt : f.month < 100
  day_lt : f.day < 100
  hour_lt : f.hour < 24
  minute_lt : f.minute < 60
  second_lt : f.second < 60

theorem Fields.Fit.hour_mem {f : Fields} (hf : f.Fit) : 0 ≤ f.hour ∧ f.hour ≤ 23 :=
  ⟨Nat.zero_le _, Nat.le_of_lt_succ hf.hour_lt⟩

theorem Fields.Fit.minute_mem {f : Fields} (hf : f.Fit) : 0 ≤ f.minute ∧ f.minute ≤ 59 :=
  ⟨Nat.zero_le _, Nat.le_of_lt_succ hf.minute_lt⟩

theorem Fields.Fit.second_mem {f : Fields} (hf : f.Fit) : 0 ≤ f.second ∧ f.second ≤ 59 :=
  ⟨Nat.zero_le _, Nat.le_of_lt_succ hf.second_lt⟩

/-- A month of the year, and a day of some month. -/
def Fields.Plausible (f : Fields) : Prop := (1 ≤ f.month ∧ f.month ≤ 12) ∧ 1 ≤ f.day ∧ f.day ≤ 31

/-- The same day, without a time of day. -/
def Fields.midnight (f : Fields) : Fields := { year := f.year, month := f.month, day := f.day }

/-- The moment that the numbers name, if the calendar has it. -/
def Fields.moment? (f : Fields) : Option DateTime :=
  ofFields? f.year f.month f.day f.hour f.minute f.second 0

theorem Fields.moment?_eq_none {f : Fields} (h : Date.ofFields? f.year f.month f.day = none) :
    f.moment? = none := by
  rw [moment?, ofFields?, h, Option.bind_none]

theorem Fields.moment?_of_unlikely {f : Fields} (h : ¬ f.Plausible) : f.moment? = none := by
  refine moment?_eq_none (Date.ofFields?_eq_none_iff.mpr fun ⟨_, hday⟩ => h ?_)
  have hmonth : 1 ≤ f.month ∧ f.month ≤ 12 := by
    unfold daysInMonth at hday
    repeat' split at hday
    all_goals omega
  exact ⟨hmonth, hday.1, Nat.le_trans hday.2 (Date.daysInMonth_le _ _)⟩

/-- A day between slashes. -/
def slashChars (f : Fields) : List Char :=
  padded 2 f.month ++ '/' :: (padded 2 f.day ++ '/' :: padded 4 f.year)

/-- A day and then the name of its month. -/
def dayFirstChars (short : Bool) (f : Fields) : List Char :=
  padded 2 f.day ++ ' ' :: (monthWord short f.month ++ ' ' :: padded 4 f.year)

/-- The name of a month and then the day. -/
def monthFirstChars (short : Bool) (f : Fields) : List Char :=
  monthWord short f.month ++ ' ' :: (padded 2 f.day ++ ',' :: ' ' :: padded 4 f.year)

variable {f : Fields}

theorem readPieces_slashed (hf : f.Fit) (h : f.Plausible) (more : List Piece) (rest : List Char) :
    readPieces {} (slashed more) (slashChars f ++ rest) = readPieces f.midnight more rest := by
  simp only [slashed, slashChars, List.append_assoc, List.cons_append]
  rw [readPieces_of_read (by rw [Piece.read, counts_months.read h.1]; rfl),
    readPieces_of_read (read_mark _ _ _),
    readPieces_of_read (by rw [Piece.read, counts_days.read h.2]; rfl),
    readPieces_of_read (read_mark _ _ _),
    readPieces_of_read (by rw [Piece.read, readChoice_year hf.year_lt]; rfl)]
  rfl

theorem readPieces_slashed_eq_none (hf : f.Fit) (h : ¬ f.Plausible) (more : List Piece)
    (rest : List Char) : readPieces {} (slashed more) (slashChars f ++ rest) = none := by
  have hslash : Separates (.mark '/') := .mark (by decide)
  simp only [slashed, slashChars, List.append_assoc, List.cons_append]
  by_cases hmonth : 1 ≤ f.month ∧ f.month ≤ 12
  · have hday : ¬ (1 ≤ f.day ∧ f.day ≤ 31) := fun hday => h ⟨hmonth, hday⟩
    rw [readPieces_of_read (by rw [Piece.read, counts_months.read hmonth]; rfl),
      readPieces_of_read (read_mark _ _ _)]
    exact readPieces_day_of_stops (counts_days.stops_padded hf.day_lt hday _) hslash
  · exact readPieces_month_of_stops (counts_months.stops_padded hf.month_lt hmonth _) hslash

/-- Nothing but numbers fits a text of numbers between slashes. -/
theorem readPattern_slashChars_of_names (hf : f.Fit) (rest : List Char) (short : Bool) :
    readPattern (dayFirst short) (slashChars f ++ rest) = none ∧
      readPattern (monthFirst short) (slashChars f ++ rest) = none := by
  constructor
  · refine readPattern_eq_none ?_
    simp only [dayFirst, slashChars, List.append_assoc, List.cons_append]
    by_cases hmonth : 1 ≤ f.month ∧ f.month ≤ 31
    · rw [readPieces_of_read (by rw [Piece.read, counts_days.read hmonth]; rfl)]
      exact readPieces_of_read_eq_none rfl
    · exact readPieces_day_of_stops (counts_days.stops_padded hf.month_lt hmonth _) .gap
  · rw [slashChars, List.append_assoc]
    exact readPattern_monthFirst_padded short 2 f.month _

theorem readPattern_slashed (hf : f.Fit) (h : f.Plausible) (more : List Piece) (rest : List Char) :
    readPattern (slashed more) (slashChars f ++ rest) =
      match readPieces f.midnight more rest with
      | some (g, []) => g.moment?
      | _ => none := by
  rw [readPattern, readPieces_slashed hf h]
  rfl

/-- Numbers between slashes that no month or no day has fit no pattern. -/
theorem findSome?_of_unlikely (hf : f.Fit) (h : ¬ f.Plausible) (rest : List Char) :
    patterns.findSome? (readPattern · (slashChars f ++ rest)) = none := by
  have hslashed : ∀ more, readPattern (slashed more) (slashChars f ++ rest) = none := fun more =>
    readPattern_eq_none (readPieces_slashed_eq_none hf h more rest)
  have hnames := readPattern_slashChars_of_names hf rest
  exact List.findSome?_eq_none_iff.mpr (forall_patterns (hslashed _) (hslashed _) (hslashed _)
    (fun short => (hnames short).1) fun short => (hnames short).2)

/-- **A day between slashes** is read as the day that it names, or not at all. -/
theorem findSome?_slashChars (hf : f.Fit) :
    patterns.findSome? (readPattern · (slashChars f)) = f.midnight.moment? := by
  rw [← List.append_nil (slashChars f)]
  by_cases h : f.Plausible
  · have hnames := readPattern_slashChars_of_names hf []
    have hclock : ∀ more, readPattern (slashed (clock ++ more)) (slashChars f ++ []) = none :=
      fun more => by
        rw [readPattern_slashed hf h, clock, List.cons_append, readPieces_of_read_eq_none rfl]
    have hday : readPattern (slashed []) (slashChars f ++ []) = f.midnight.moment? :=
      readPattern_slashed hf h [] []
    have hminute := hclock []
    rw [List.append_nil clock] at hminute
    exact findSome?_patterns (forall_patterns (.inr hday) (.inl (hclock _)) (.inl hminute)
      (fun short => .inl (hnames short).1) fun short => .inl (hnames short).2)
      ⟨slashed [], by simp [patterns_eq], hday⟩
  · rw [findSome?_of_unlikely hf h, Fields.moment?_of_unlikely (f := f.midnight) h]

theorem readPieces_clock (hf : f.Fit) (g : Fields) (more : List Piece) (rest : List Char) :
    readPieces g (clock ++ more) (' ' :: (padded 2 f.hour ++ ':' :: (padded 2 f.minute ++ rest))) =
      readPieces { g with hour := f.hour, minute := f.minute } more rest := by
  rw [clock, List.cons_append, readPieces_of_read (read_gap isBlank_of_head?_padded g),
    List.cons_append, readPieces_of_read (by rw [Piece.read, counts_hours.read hf.hour_mem]; rfl),
    List.cons_append, readPieces_of_read (read_mark _ _ _),
    List.cons_append, readPieces_of_read (by rw [Piece.read, counts_sixty.read hf.minute_mem]; rfl),
    List.nil_append]

/-- **A day between slashes and a time of day** are read as the moment that they name, or not at all. -/
theorem findSome?_slashChars_timeChars (hf : f.Fit) :
    patterns.findSome?
        (readPattern · (slashChars f ++ ' ' :: timeChars f.hour f.minute f.second)) = f.moment? := by
  by_cases h : f.Plausible
  · have hnames := readPattern_slashChars_of_names hf (' ' :: timeChars f.hour f.minute f.second)
    have hday : readPattern (slashed [])
        (slashChars f ++ ' ' :: timeChars f.hour f.minute f.second) = none := by
      rw [readPattern_slashed hf h]
      rfl
    have hminute : readPattern (slashed clock)
        (slashChars f ++ ' ' :: timeChars f.hour f.minute f.second) = none := by
      have hread := readPieces_clock hf f.midnight [] (':' :: padded 2 f.second)
      rw [List.append_nil] at hread
      rw [readPattern_slashed hf h, timeChars, hread]
      rfl
    have hsecond : readPattern (slashed (clock ++ [.mark ':', .second]))
        (slashChars f ++ ' ' :: timeChars f.hour f.minute f.second) = f.moment? := by
      have hlast := counts_sixty.read hf.second_mem []
      rw [List.append_nil] at hlast
      rw [readPattern_slashed hf h, timeChars, readPieces_clock hf,
        readPieces_of_read (read_mark _ _ _),
        readPieces_of_read (by rw [Piece.read, hlast]; rfl)]
      rfl
    exact findSome?_patterns (forall_patterns (.inl hday) (.inr hsecond) (.inl hminute)
      (fun short => .inl (hnames short).1) fun short => .inl (hnames short).2)
      ⟨slashed (clock ++ [.mark ':', .second]), by simp [patterns_eq], hsecond⟩
  · rw [findSome?_of_unlikely hf h, Fields.moment?_of_unlikely h]

/-- Numbers between slashes do not fit a text without a slash. -/
theorem readPattern_slashed_eq_none {cs : List Char} (h : '/' ∉ cs) (more : List Piece) :
    readPattern (slashed more) cs = none := by
  have hmark : Piece.mark '/' ∈ slashed more := by simp [slashed]
  exact readPattern_eq_none (readPieces_eq_none hmark
    (fun f rest hrest => read_slash_eq_none (fun hc => h (hrest.subset hc)) f) {})

theorem slash_notMem_padded (width n : Nat) : '/' ∉ padded width n := fun h =>
  absurd (isDigit_of_mem_padded h) (by decide)

theorem isBlank_of_head?_monthWord (hmonth : 1 ≤ f.month ∧ f.month ≤ 12) (short : Bool)
    (rest : List Char) : ∀ c ∈ (monthWord short f.month ++ rest).head?, Text.isBlank c = false := by
  intro c hc
  refine Text.isBlank_eq_false_of_isAlphanum (Bool.or_eq_true_iff.mpr (.inl ?_))
  exact isAlpha_monthWord hmonth short rest c hc

theorem read_year (hf : f.Fit) (g : Fields) :
    Piece.year.read g (padded 4 f.year) = some ({ g with year := f.year }, []) := by
  have hyear := readChoice_year hf.year_lt []
  rw [List.append_nil] at hyear
  rw [Piece.read, hyear]
  rfl

theorem read_gap_year (g : Fields) :
    Piece.gap.read g (' ' :: padded 4 f.year) = some (g, padded 4 f.year) := by
  have hyear : ∀ c ∈ (padded 4 f.year ++ []).head?, Text.isBlank c = false := isBlank_of_head?_padded
  rw [List.append_nil] at hyear
  exact read_gap hyear g

theorem readPattern_monthFirst_of_name (hf : f.Fit) (short : Bool) {table : Bool}
    (h : readName (namesOf table)
        (monthWord short f.month ++ ' ' :: (padded 2 f.day ++ ',' :: ' ' :: padded 4 f.year)) =
      some (f.month, ' ' :: (padded 2 f.day ++ ',' :: ' ' :: padded 4 f.year))) :
    readPattern (monthFirst table) (monthFirstChars short f) = f.midnight.moment? := by
  by_cases hday : 1 ≤ f.day ∧ f.day ≤ 31
  · rw [readPattern, monthFirst, monthFirstChars,
      readPieces_of_read (by rw [Piece.read, h]; rfl),
      readPieces_of_read (read_gap isBlank_of_head?_padded _),
      readPieces_of_read (by rw [Piece.read, counts_days.read hday]; rfl),
      readPieces_of_read (read_mark _ _ _), readPieces_of_read (read_gap_year _),
      readPieces_of_read (read_year hf _)]
    rfl
  · rw [Fields.moment?_of_unlikely (f := f.midnight) fun h => hday h.2]
    refine readPattern_eq_none ?_
    rw [monthFirst, monthFirstChars, readPieces_of_read (by rw [Piece.read, h]; rfl),
      readPieces_of_read (read_gap isBlank_of_head?_padded _)]
    exact readPieces_day_of_stops (counts_days.stops_padded hf.day_lt hday _) (.mark (by decide))

section Names

variable (hf : f.Fit) (hmonth : 1 ≤ f.month ∧ f.month ≤ 12) (short : Bool)
include hf hmonth

theorem readPattern_dayFirst_of_name {table : Bool}
    (h : readName (namesOf table) (monthWord short f.month ++ ' ' :: padded 4 f.year) =
      some (f.month, ' ' :: padded 4 f.year)) :
    readPattern (dayFirst table) (dayFirstChars short f) = f.midnight.moment? := by
  by_cases hday : 1 ≤ f.day ∧ f.day ≤ 31
  · rw [readPattern, dayFirst, dayFirstChars,
      readPieces_of_read (by rw [Piece.read, counts_days.read hday]; rfl),
      readPieces_of_read (read_gap (isBlank_of_head?_monthWord hmonth short _) _),
      readPieces_of_read (by rw [Piece.read, h]; rfl), readPieces_of_read (read_gap_year _),
      readPieces_of_read (read_year hf _)]
    rfl
  · rw [Fields.moment?_of_unlikely (f := f.midnight) fun h => hday h.2]
    exact readPattern_eq_none (readPieces_day_of_stops (counts_days.stops_padded hf.day_lt hday _) .gap)

/-- The table that has the name gives the day. The other one gives it too, or nothing. -/
theorem readPattern_dayFirst (table : Bool) :
    readPattern (dayFirst table) (dayFirstChars short f) = none ∨
      readPattern (dayFirst table) (dayFirstChars short f) = f.midnight.moment? := by
  rcases readName_or_stops hmonth short (padded 4 f.year) table with h | h
  · exact .inr (readPattern_dayFirst_of_name hf hmonth short h)
  · refine .inl (readPattern_eq_none ?_)
    by_cases hday : 1 ≤ f.day ∧ f.day ≤ 31
    · rw [dayFirst, dayFirstChars,
        readPieces_of_read (by rw [Piece.read, counts_days.read hday]; rfl),
        readPieces_of_read (read_gap (isBlank_of_head?_monthWord hmonth short _) _)]
      exact readPieces_name_of_stops h .gap
    · exact readPieces_day_of_stops (counts_days.stops_padded hf.day_lt hday _) .gap

/-- **A day and then the name of its month** are read as the day that they name, or not at all. -/
theorem findSome?_dayFirstChars :
    patterns.findSome? (readPattern · (dayFirstChars short f)) = f.midnight.moment? := by
  have hslashed : ∀ more, readPattern (slashed more) (dayFirstChars short f) = none := fun more =>
    readPattern_slashed_eq_none (by
      simp [dayFirstChars, slash_notMem_padded, slash_notMem_monthWord hmonth]) more
  have hname : ∀ table, readPattern (monthFirst table) (dayFirstChars short f) = none := fun table =>
    readPattern_monthFirst_padded table 2 f.day _
  refine findSome?_patterns (forall_patterns (.inl (hslashed _)) (.inl (hslashed _))
    (.inl (hslashed _)) (readPattern_dayFirst hf hmonth short) fun table => .inl (hname table))
    ⟨dayFirst short, ?_, readPattern_dayFirst_of_name hf hmonth short
      (readName_monthWord hmonth short _)⟩
  cases short <;> simp [patterns_eq]

/-- **The name of a month and then the day** are read as the day that they name, or not at all. -/
theorem findSome?_monthFirstChars :
    patterns.findSome? (readPattern · (monthFirstChars short f)) = f.midnight.moment? := by
  have hslashed : ∀ more, readPattern (slashed more) (monthFirstChars short f) = none := fun more =>
    readPattern_slashed_eq_none (by
      simp [monthFirstChars, slash_notMem_padded, slash_notMem_monthWord hmonth]) more
  have hday : ∀ table, readPattern (dayFirst table) (monthFirstChars short f) = none := fun table =>
    readPattern_eq_none (readPieces_of_read_eq_none (by
      rw [Piece.read, monthFirstChars, readChoice_day_monthWord hmonth, Option.map_none]))
  have hname : ∀ table, readPattern (monthFirst table) (monthFirstChars short f) = none ∨
      readPattern (monthFirst table) (monthFirstChars short f) = f.midnight.moment? := fun table => by
    rcases readName_or_stops hmonth short (padded 2 f.day ++ ',' :: ' ' :: padded 4 f.year) table with
      h | h
    · exact .inr (readPattern_monthFirst_of_name hf short h)
    · exact .inl (readPattern_eq_none (readPieces_name_of_stops h .gap))
  refine findSome?_patterns (forall_patterns (.inl (hslashed _)) (.inl (hslashed _))
    (.inl (hslashed _)) (fun table => .inl (hday table)) hname)
    ⟨monthFirst short, ?_, readPattern_monthFirst_of_name hf short
      (readName_monthWord hmonth short _)⟩
  cases short <;> simp [patterns_eq]

end Names

/-! ### Standard notation is no everyday notation -/

/-- **The four digits of a year in front** fit no pattern. -/
theorem findSome?_of_year {year : Nat} (hyear : year < 10 ^ 4) (rest : List Char) :
    patterns.findSome? (readPattern · (padded 4 year ++ rest)) = none := by
  have hlength : 2 < (padded 4 year).length := by
    rw [length_padded (by decide) hyear]
    decide
  have hdigits : ∀ c ∈ padded 4 year, c.isDigit = true := fun c => isDigit_of_mem_padded
  have hslashed : ∀ more, readPattern (slashed more) (padded 4 year ++ rest) = none := fun more =>
    readPattern_eq_none (readPieces_month_of_stops (counts_months.stops_digits hlength hdigits rest)
      (.mark (by decide)))
  have hday : ∀ table, readPattern (dayFirst table) (padded 4 year ++ rest) = none := fun table =>
    readPattern_eq_none (readPieces_day_of_stops (counts_days.stops_digits hlength hdigits rest) .gap)
  exact List.findSome?_eq_none_iff.mpr (forall_patterns (hslashed _) (hslashed _) (hslashed _) hday
    fun table => readPattern_monthFirst_padded table 4 year rest)

/-! ### Everyday notation is no standard notation -/

theorem readIso_slashChars (hf : f.Fit) (rest : List Char) : readIso (slashChars f ++ rest) = none := by
  rw [slashChars, List.append_assoc, List.cons_append]
  refine readIso_eq_none (readDigits_append_eq_none ?_ rfl)
  rw [length_padded_two hf.month_lt]
  decide

theorem readIso_dayFirstChars (hf : f.Fit) (short : Bool) : readIso (dayFirstChars short f) = none := by
  refine readIso_eq_none (readDigits_append_eq_none ?_ rfl)
  rw [length_padded_two hf.day_lt]
  decide

theorem readIso_monthFirstChars (hmonth : 1 ≤ f.month ∧ f.month ≤ 12) (short : Bool) :
    readIso (monthFirstChars short f) = none := by
  have halpha := isAlpha_monthWord hmonth short
    (' ' :: (padded 2 f.day ++ ',' :: ' ' :: padded 4 f.year))
  rw [← monthFirstChars] at halpha
  cases hchars : monthFirstChars short f with
  | nil => rfl
  | cons c cs =>
    rw [hchars] at halpha
    have hc : c.isDigit = false := by
      cases hdigit : c.isDigit with
      | false => rfl
      | true =>
        have := halpha c rfl
        rw [isAlpha_eq_false_of_isDigit hdigit] at this
        cases this
    have hnone : readDigits 4 ([] ++ c :: cs) = none := readDigits_append_eq_none (by decide) hc
    exact readIso_eq_none hnone

end DateTime

end MiniLisp
