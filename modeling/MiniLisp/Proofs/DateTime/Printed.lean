import MiniLisp.Proofs.DateTime.Calendar
import Mathlib.Algebra.Group.Nat.Defs
import Mathlib.Data.List.Basic
import Mathlib.Data.List.TakeDrop
import Mathlib.Data.List.TakeWhile

/-! # Printed moments read back

The printed form of a moment is standard notation if the year has four digits: ten characters for the
day, a space, and the time to the second (`fieldChars_eq_dayChars`). So a moment without microseconds, of the
year 1000 or later, is read from its printed form (`ofCharsIn_fieldChars`). -/

namespace MiniLisp

namespace Text

theorem dropWhile_isBlank_eq_self {cs : List Char} (h : ∀ c ∈ cs.head?, isBlank c = false) :
    cs.dropWhile isBlank = cs := by
  cases cs with
  | nil => rfl
  | cons c cs => rw [List.dropWhile_cons_of_neg (by simp [h c rfl])]

/-- **Blanks around a text are dropped**, and nothing else if the text has none at its ends. -/
theorem trim_append {before cs after : List Char} (hbefore : ∀ c ∈ before, isBlank c = true)
    (hafter : ∀ c ∈ after, isBlank c = true) (hhead : ∀ c ∈ cs.head?, isBlank c = false)
    (hlast : ∀ c ∈ cs.getLast?, isBlank c = false) : trim (before ++ cs ++ after) = cs := by
  have hright : trimRight (cs ++ after) = cs := by
    rw [trimRight, List.reverse_append,
      List.dropWhile_append_of_pos fun c hc => hafter c (List.mem_reverse.mp hc),
      dropWhile_isBlank_eq_self (by rwa [List.head?_reverse]), List.reverse_reverse]
  rw [trim, List.append_assoc, List.dropWhile_append_of_pos hbefore]
  cases cs with
  | nil =>
    rw [List.nil_append, List.dropWhile_eq_nil_iff.mpr hafter]
    rfl
  | cons c cs =>
    rw [List.cons_append, List.dropWhile_cons_of_neg (by simp [hhead c rfl]), ← List.cons_append, hright]

theorem trim_eq_self {cs : List Char} (hhead : ∀ c ∈ cs.head?, isBlank c = false)
    (hlast : ∀ c ∈ cs.getLast?, isBlank c = false) : trim cs = cs := by
  have h : trim ([] ++ cs ++ []) = cs := trim_append (by simp) (by simp) hhead hlast
  rwa [List.nil_append, List.append_nil] at h

theorem isBlank_eq_false_of_isAlphanum {c : Char} (h : c.isAlphanum = true) : isBlank c = false := by
  have hcode : (65 ≤ c.toNat ∧ c.toNat ≤ 90) ∨ (97 ≤ c.toNat ∧ c.toNat ≤ 122) ∨
      (48 ≤ c.toNat ∧ c.toNat ≤ 57) := by
    rcases Bool.or_eq_true_iff.mp h with halpha | hdigit
    · rcases Bool.or_eq_true_iff.mp halpha with hupper | hlower
      · exact .inl (of_decide_eq_true hupper)
      · obtain ⟨hlow, hhigh⟩ := Bool.and_eq_true_iff.mp hlower
        exact .inr (.inl ⟨of_decide_eq_true hlow, of_decide_eq_true hhigh⟩)
    · obtain ⟨hlow, hhigh⟩ := Bool.and_eq_true_iff.mp hdigit
      exact .inr (.inr ⟨of_decide_eq_true hlow, of_decide_eq_true hhigh⟩)
  simp only [isBlank, Bool.or_eq_false_iff, Bool.and_eq_false_iff, decide_eq_false_iff_not,
    beq_eq_false_iff_ne]
  omega

theorem isBlank_eq_false_of_isDigit {c : Char} (h : c.isDigit = true) : isBlank c = false :=
  isBlank_eq_false_of_isAlphanum (Bool.or_eq_true_iff.mpr (.inr h))

end Text

namespace DateTime

/-! ### Numbers of a fixed width -/

theorem isDigit_of_mem_padded {width n : Nat} {c : Char} (h : c ∈ padded width n) :
    c.isDigit = true := by
  rw [padded, List.leftpad] at h
  rcases List.mem_append.1 h with h | h
  · rw [List.eq_of_mem_replicate h]
    decide
  · exact Nat.isDigit_of_mem_toDigits (by decide) (by decide) h

theorem padded_ne_nil (width n : Nat) : padded width n ≠ [] :=
  List.append_ne_nil_of_right_ne_nil _ Nat.toDigits_ne_nil

theorem length_padded {width n : Nat} (hw : 0 < width) (h : n < 10 ^ width) :
    (padded width n).length = width := by
  have := (Nat.length_toDigits_le_iff (b := 10) (by decide) hw).2 h
  rw [padded, List.length_leftpad]
  omega

theorem ofDigitChars_padded (width n : Nat) : Nat.ofDigitChars 10 (padded width n) 0 = n := by
  rw [padded, List.leftpad, Nat.ofDigitChars_append, Nat.ofDigitChars_replicate_zero, Nat.mul_zero,
    Nat.ofDigitChars_ten_toDigits]

/-- A number with enough digits needs no zeros in front. -/
theorem padded_eq_padded {n : Nat} (h : 1000 ≤ n) : padded 1 n = padded 4 n := by
  have hlength : 4 ≤ (Nat.toDigits 10 n).length := by
    have := Nat.length_toDigits_le_iff (b := 10) (n := n) (k := 3) (by decide) (by decide)
    omega
  simp only [padded, List.leftpad, Nat.sub_eq_zero_of_le hlength,
    Nat.sub_eq_zero_of_le (Nat.le_trans (by decide : 1 ≤ 4) hlength)]

theorem readDigits_append {rest : List Char} : ∀ {ds : List Char},
    (∀ c ∈ ds, c.isDigit = true) → readDigits ds.length (ds ++ rest) = some (ds, rest)
  | [], _ => rfl
  | d :: ds, h => by
    rw [List.forall_mem_cons] at h
    rw [List.length_cons, List.cons_append, readDigits, if_pos h.1, readDigits_append h.2]
    rfl

/-- Fewer digits than a number has are not read. -/
theorem readDigits_append_eq_none {n : Nat} {ds rest : List Char} {c : Char} (hn : ds.length < n)
    (hc : c.isDigit = false) : readDigits n (ds ++ c :: rest) = none := by
  induction ds generalizing n with
  | nil =>
    obtain ⟨n, rfl⟩ := Nat.exists_eq_succ_of_ne_zero (Nat.ne_zero_of_lt hn)
    rw [List.nil_append, readDigits, hc, if_neg (by decide)]
  | cons d ds ih =>
    obtain ⟨n, rfl⟩ := Nat.exists_eq_succ_of_ne_zero (Nat.ne_zero_of_lt hn)
    rw [List.cons_append, readDigits, ih (Nat.lt_of_succ_lt_succ hn), Option.map_none, ite_self]

/-- **A number of a fixed width reads back.** -/
theorem readNumber_padded {width n : Nat} (hw : 0 < width) (h : n < 10 ^ width) (rest : List Char) :
    readNumber width (padded width n ++ rest) = some (n, rest) := by
  have hread : readDigits (padded width n).length (padded width n ++ rest) =
      some (padded width n, rest) := readDigits_append fun _ => isDigit_of_mem_padded
  rw [length_padded hw h] at hread
  simp only [readNumber, hread, Option.map_some, ofDigitChars_padded]

theorem isDigit_peek_padded (width n : Nat) (rest : List Char) :
    (peek (padded width n ++ rest)).isDigit = true := by
  cases hp : padded width n with
  | nil => exact absurd hp (padded_ne_nil width n)
  | cons c cs =>
    have hc : c ∈ padded width n := by
      rw [hp]
      exact List.mem_cons_self
    exact isDigit_of_mem_padded hc

theorem isDigit_of_head?_padded {width n : Nat} {rest : List Char} :
    ∀ c ∈ (padded width n ++ rest).head?, c.isDigit = true := by
  intro c hc
  rw [List.head?_append_of_ne_nil _ (padded_ne_nil width n)] at hc
  exact isDigit_of_mem_padded (List.mem_of_head? hc)

/-- A number in front starts with no blank. -/
theorem isBlank_of_head?_padded {width n : Nat} {rest : List Char} :
    ∀ c ∈ (padded width n ++ rest).head?, Text.isBlank c = false := fun c hc =>
  Text.isBlank_eq_false_of_isDigit (isDigit_of_head?_padded c hc)

/-- A number at the end ends with no blank. -/
theorem isBlank_of_getLast?_padded {width n : Nat} {cs : List Char} (h : padded width n <:+ cs) :
    ∀ c ∈ cs.getLast?, Text.isBlank c = false := by
  obtain ⟨front, rfl⟩ := h
  intro c hc
  rw [List.getLast?_append_of_ne_nil _ (padded_ne_nil width n)] at hc
  exact Text.isBlank_eq_false_of_isDigit (isDigit_of_mem_padded (List.mem_of_getLast? hc))

theorem suffix_append_cons {cs more : List Char} (h : cs <:+ more) (front : List Char) (c : Char) :
    cs <:+ front ++ c :: more :=
  (h.trans (List.suffix_cons c more)).trans (List.suffix_append front _)

/-! ### The day -/

/-- The day of a moment as it is printed. -/
def dayChars (year month day : Nat) : List Char :=
  padded 4 year ++ '-' :: (padded 2 month ++ '-' :: padded 2 day)

theorem suffix_dayChars (year month day : Nat) : padded 2 day <:+ dayChars year month day :=
  suffix_append_cons (suffix_append_cons List.suffix_rfl _ _) _ _

theorem length_dayChars {year month day : Nat} (hy : year < 10 ^ 4) (hm : month < 10 ^ 2)
    (hd : day < 10 ^ 2) : (dayChars year month day).length = 10 := by
  simp only [dayChars, List.length_append, List.length_cons, length_padded (by decide) hy,
    length_padded (by decide) hm, length_padded (by decide) hd]

theorem dateLength_dayChars {year month day : Nat} (hy : year < 10 ^ 4) (hm : month < 10 ^ 2)
    (hd : day < 10 ^ 2) (rest : List Char) : dateLength (dayChars year month day ++ rest) = 10 := by
  have hlength : (dayChars year month day ++ rest).length ≠ 7 := by
    rw [List.length_append, length_dayChars hy hm hd]
    omega
  have hdrop : ∀ k, (dayChars year month day ++ rest)[4 + k]? =
      ('-' :: (padded 2 month ++ '-' :: padded 2 day) ++ rest)[k]? := by
    intro k
    rw [dayChars, List.append_assoc, List.getElem?_append_right (by
      rw [length_padded (by decide) hy]; omega), length_padded (by decide) hy, Nat.add_sub_cancel_left]
  have hfour : (dayChars year month day ++ rest)[4]? = some '-' := hdrop 0
  have hfive : (dayChars year month day ++ rest)[5]? ≠ some 'W' := by
    have hdigit := isDigit_peek_padded 2 month ('-' :: padded 2 day ++ rest)
    rw [show (5 : Nat) = 4 + 1 from rfl, hdrop 1]
    intro hW
    rw [List.cons_append, List.getElem?_cons_succ, List.append_assoc, ← List.head?_eq_getElem?] at hW
    rw [peek, List.headD_eq_head?_getD, hW] at hdigit
    exact absurd hdigit (by decide)
  unfold dateLength
  simp only [hlength, if_false, hfour, if_true, hfive]

theorem readDate_dayChars {year month day : Nat} (hy : year < 10 ^ 4) (hm : month < 10 ^ 2)
    (hd : day < 10 ^ 2) (length : Nat) (rest : List Char) :
    readDate length (dayChars year month day ++ rest) = Date.ofFields? year month day := by
  have hpeek : peek (padded 2 month ++ '-' :: (padded 2 day ++ rest)) ≠ 'W' := by
    intro hW
    have hdigit := isDigit_peek_padded 2 month ('-' :: (padded 2 day ++ rest))
    rw [hW] at hdigit
    exact absurd hdigit (by decide)
  have hhyphen : (peek ('-' :: (padded 2 month ++ '-' :: (padded 2 day ++ rest))) == '-') = true :=
    rfl
  unfold readDate
  simp only [dayChars, List.append_assoc, List.cons_append, readNumber_padded (by decide) hy,
    Option.bind_eq_bind, Option.bind_some, hhyphen, if_true, List.drop_succ_cons, List.drop_zero,
    if_neg hpeek, readNumber_padded (by decide) hm, readHyphen, readNumber_padded (by decide) hd]

/-! ### The time of day -/

/-- The time of day as it is printed. -/
def timeChars (hour minute second : Nat) : List Char :=
  padded 2 hour ++ ':' :: (padded 2 minute ++ ':' :: padded 2 second)

theorem suffix_timeChars (hour minute second : Nat) : padded 2 second <:+ timeChars hour minute second :=
  suffix_append_cons (suffix_append_cons List.suffix_rfl _ _) _ _

theorem startsOffset_of_mem_timeChars {hour minute second : Nat} {c : Char}
    (h : c ∈ timeChars hour minute second) : startsOffset c = false := by
  have hdigit : c.isDigit = true → startsOffset c = false := by
    intro hc
    simp only [startsOffset, Bool.or_eq_false_iff, beq_eq_false_iff_ne]
    refine ⟨⟨?_, ?_⟩, ?_⟩ <;> rintro rfl <;> exact absurd hc (by decide)
  simp only [timeChars, List.mem_append, List.mem_cons] at h
  rcases h with h | rfl | h | rfl | h
  · exact hdigit (isDigit_of_mem_padded h)
  · decide
  · exact hdigit (isDigit_of_mem_padded h)
  · decide
  · exact hdigit (isDigit_of_mem_padded h)

theorem not_byteLength_le_one (c : Char) (width n : Nat) (rest : List Char) :
    ¬ byteLength (c :: (padded width n ++ rest)) ≤ 1 := by
  cases hp : padded width n with
  | nil => exact absurd hp (padded_ne_nil width n)
  | cons d ds =>
    have := c.utf8Size_pos
    have := d.utf8Size_pos
    simp only [byteLength, List.cons_append, List.foldr_cons]
    omega

/-- Reading a time to the second comes to its end, or to the offset after it. -/
theorem readClock_timeChars {hour minute second : Nat} (hh : hour < 10 ^ 2) (hm : minute < 10 ^ 2)
    (hs : second < 10 ^ 2) (after : List Char) :
    readClock true after 3 {} (timeChars hour minute second) =
      some ⟨hour, minute, second, 0, peek after == '\x00'⟩ := by
  have hsecond : readNumber 2 (padded 2 second) = some (second, []) := by
    have := readNumber_padded (by decide) hs []
    rwa [List.append_nil] at this
  have hlast := not_byteLength_le_one ':' 2 second []
  rw [List.append_nil] at hlast
  simp only [timeChars, readClock, readNumber_padded (by decide) hh, readNumber_padded (by decide) hm,
    hsecond, Option.bind_eq_bind, Option.bind_some, if_neg (not_byteLength_le_one ':' 2 minute _),
    if_neg hlast, Clock.set, List.cons_append, List.append_assoc, List.drop_succ_cons, List.drop_zero,
    peek, List.headD_cons]
  rfl

theorem readTime_timeChars {hour minute second : Nat} (hh : hour < 10 ^ 2) (hm : minute < 10 ^ 2)
    (hs : second < 10 ^ 2) :
    readTime (timeChars hour minute second) = some (⟨hour, minute, second, 0, true⟩, none) := by
  have hspan : (timeChars hour minute second).span (fun c => !startsOffset c) =
      (timeChars hour minute second, []) := by
    rw [List.span_eq_takeWhile_dropWhile]
    have hall : ∀ c ∈ timeChars hour minute second, (!startsOffset c) = true := fun c hc => by
      rw [startsOffset_of_mem_timeChars hc]
      rfl
    rw [List.takeWhile_eq_self_iff.2 hall, List.dropWhile_eq_nil_iff.2 hall]
  unfold readTime
  rw [hspan]
  simp only [readClock_timeChars hh hm hs, Option.bind_eq_bind, Option.bind_some]
  rfl

/-- Standard notation starts with the four digits of a year. -/
theorem readIso_eq_none {cs : List Char} (h : readDigits 4 cs = none) : readIso cs = none := by
  have hdate : ∀ length, readDate length cs = none := fun length => by
    simp only [readDate, readNumber, h, Option.map_none, Option.bind_eq_bind, Option.bind_none]
  simp only [readIso, hdate, Option.bind_eq_bind, Option.bind_none, ite_self]

theorem readIso_dayChars {year month day : Nat} (hy : year < 10 ^ 4) (hm : month < 10 ^ 2)
    (hd : day < 10 ^ 2) : readIso (dayChars year month day) =
      (Date.ofFields? year month day).map (⟨·, 0, 0, 0, 0, none⟩) := by
  have hlength := length_dayChars hy hm hd
  have hdateLength := dateLength_dayChars hy hm hd []
  have hdate := readDate_dayChars hy hm hd 10 []
  rw [List.append_nil] at hdateLength hdate
  unfold readIso
  rw [if_neg (by omega), hdateLength]
  simp only [hdate, List.drop_eq_nil_of_le (Nat.le_of_eq hlength), Option.bind_eq_bind]
  cases Date.ofFields? year month day <;> rfl

/-- A day, any character and a time, with an offset or without. -/
theorem readIso_dayChars_cons {year month day : Nat} (hy : year < 10 ^ 4) (hm : month < 10 ^ 2)
    (hd : day < 10 ^ 2) (separator : Char) {time : List Char} {clock : Clock} {ahead : Option Int}
    (htime : readTime time = some (clock, ahead)) :
    readIso (dayChars year month day ++ separator :: time) = (Date.ofFields? year month day).map
      (⟨·, clock.hour, clock.minute, clock.second, clock.microsecond, ahead⟩) := by
  have hlength := length_dayChars hy hm hd
  unfold readIso
  rw [if_neg (by rw [List.length_append, hlength]; omega), dateLength_dayChars hy hm hd]
  simp only [readDate_dayChars hy hm hd, List.drop_left' hlength, Option.bind_eq_bind]
  cases Date.ofFields? year month day with
  | none => rfl
  | some date =>
    simp only [Option.bind_some, htime]
    rfl

/-! ### The moment -/

theorem fieldChars_eq (width : Nat) (d : DateTime) :
    fieldChars width d = padded width d.date.year ++ '-' :: (padded 2 d.date.month ++
      '-' :: (padded 2 d.date.day ++ ' ' :: timeChars d.hour d.minute d.second)) := by
  simp only [fieldChars, timeChars, List.append_assoc, List.cons_append]

theorem fieldChars_eq_dayChars {d : DateTime} (h : 1000 ≤ d.date.year) :
    fieldChars 1 d = dayChars d.date.year d.date.month d.date.day ++
      ' ' :: timeChars d.hour d.minute d.second := by
  simp only [fieldChars_eq, padded_eq_padded h, dayChars, List.append_assoc, List.cons_append]

/-- The characters of the notation. -/
theorem of_mem_fieldChars {width : Nat} {d : DateTime} {c : Char} (h : c ∈ fieldChars width d) :
    c.isDigit = true ∨ c = '-' ∨ c = ' ' ∨ c = ':' := by
  simp only [fieldChars_eq, timeChars, List.mem_append, List.mem_cons] at h
  rcases h with h | rfl | h | rfl | h | rfl | h | rfl | h | rfl | h
  all_goals first | exact .inl (isDigit_of_mem_padded h) | decide

theorem hour_lt (d : DateTime) : d.hour < 24 := by
  have := d.micros_lt
  simp only [hour, microsPerDay] at *
  omega

theorem minute_lt (d : DateTime) : d.minute < 60 := Nat.mod_lt _ (by decide)

theorem second_lt (d : DateTime) : d.second < 60 := Nat.mod_lt _ (by decide)

theorem year_lt (d : Date) : d.year < 10 ^ 4 := Nat.lt_succ_of_le d.year_mem.2

theorem month_lt (d : Date) : d.month < 10 ^ 2 := Nat.lt_of_le_of_lt d.month_mem.2 (by decide)

theorem day_lt (d : Date) : d.day < 10 ^ 2 :=
  Nat.lt_of_le_of_lt (Nat.le_trans d.day_mem.2 (Date.daysInMonth_le _ _)) (by decide)

/-- A moment without microseconds is found by its numbers. -/
theorem onDate?_self {d : DateTime} (h : d.microsecond = 0) :
    onDate? d.date d.hour d.minute d.second 0 = some d := by
  have hmicros := d.micros_lt
  simp only [microsPerDay] at hmicros
  simp only [microsecond] at h
  have htotal : ((d.hour * 60 + d.minute) * 60 + d.second) * 1000000 + 0 = d.micros := by
    simp only [hour, minute, second]
    omega
  rw [onDate?, dif_pos ⟨d.hour_lt, d.minute_lt, d.second_lt, by decide⟩]
  simp only [htotal]

/-- The standard notation of the printed form. -/
theorem readIso_fieldChars {d : DateTime} (h : 1000 ≤ d.date.year) :
    readIso (fieldChars 1 d) = some ⟨d.date, d.hour, d.minute, d.second, 0, none⟩ := by
  have htime := readTime_timeChars (Nat.lt_trans d.hour_lt (by decide))
    (Nat.lt_trans d.minute_lt (by decide)) (Nat.lt_trans d.second_lt (by decide))
  rw [fieldChars_eq_dayChars h, readIso_dayChars_cons (year_lt _) (month_lt _) (day_lt _) ' ' htime,
    Date.ofFields?_self, Option.map_some]

theorem trim_fieldChars (width : Nat) (d : DateTime) :
    Text.trim (fieldChars width d) = fieldChars width d := by
  refine Text.trim_eq_self ?_ ?_
  · rw [fieldChars_eq]
    exact isBlank_of_head?_padded
  · exact isBlank_of_getLast?_padded (suffix_append_cons List.suffix_rfl _ _)

/-- **A moment without microseconds reads back** from its printed form, on a host of any zone. -/
theorem ofCharsIn_fieldChars (zone : Zone) {d : DateTime} (hy : 1000 ≤ d.date.year) (hm : d.microsecond = 0) :
    ofCharsIn zone (fieldChars 1 d) = .ok d := by
  simp only [ofCharsIn, trim_fieldChars, readIso_fieldChars hy, Option.bind_some, Written.moment?,
    onDate?_self hm, Option.map_some]

end DateTime

end MiniLisp
