import MiniLisp.Proofs.DateTime.Everyday
import MiniLisp.Proofs.DateTime.Instants

/-! # One moment in every notation

A moment can be written in standard notation, with an offset or without, between slashes, and with the name of
its month. Each of these texts is read as the numbers that it says (`ofChars_style`, `ofChars_offset`), and the
numbers of one moment say that moment. An offset says how far a clock is ahead, so what a clock ahead shows is
later by the offset. The texts of one moment are therefore all read as this moment, and a text about a day that
the calendar does not have is not read in any of the notations (`ofText_notations`). -/

namespace MiniLisp.DateTime

/-! ### Offsets -/

/-- How far a clock is ahead of universal time, or behind it, in hours and minutes of less than a day. -/
structure Offset where
  west : Bool
  hours : Nat
  minutes : Nat
  hours_lt : hours < 24
  minutes_lt : minutes < 60

namespace Offset

def sign (o : Offset) : Char := if o.west then '-' else '+'

def chars (o : Offset) : List Char := o.sign :: (padded 2 o.hours ++ ':' :: padded 2 o.minutes)

/-- The microseconds that the clock is ahead. -/
def micros (o : Offset) : Int :=
  let micros : Int := ((o.hours * 60 + o.minutes) * 60 * 1000000 : Nat)
  if o.west then -micros else micros

variable (o : Offset)

theorem startsOffset_sign : startsOffset o.sign = true := by
  rw [sign]
  split <;> rfl

theorem natAbs_micros_lt : o.micros.natAbs < microsPerDay := by
  have := o.hours_lt
  have := o.minutes_lt
  simp only [micros, microsPerDay]
  split <;> omega

theorem dvd_micros : 1000000 ∣ o.micros := by
  simp only [micros]
  split <;> omega

theorem readClock_chars : readClock true [] 3 {} (padded 2 o.hours ++ ':' :: padded 2 o.minutes) =
    some ⟨o.hours, o.minutes, 0, 0, true⟩ := by
  have hhours : o.hours < 10 ^ 2 := Nat.lt_trans o.hours_lt (by decide)
  have hminutes : o.minutes < 10 ^ 2 := Nat.lt_trans o.minutes_lt (by decide)
  have hlast := readNumber_padded (by decide : 0 < 2) hminutes []
  have hlong := not_byteLength_le_one ':' 2 o.minutes []
  rw [List.append_nil] at hlast hlong
  simp only [readClock, readNumber_padded (by decide) hhours, hlast, Option.bind_eq_bind, Option.bind_some,
    if_neg hlong, Clock.set, List.cons_append, List.drop_succ_cons, List.drop_zero, peek, List.headD_cons]
  rfl

theorem readOffset_chars : readOffset o.chars = some o.micros := by
  have hahead : (⟨o.hours, o.minutes, 0, 0, true⟩ : Clock).offset (o.sign == '-') = o.micros := by
    have hwest : (o.sign == '-') = o.west := by
      rw [sign]
      cases o.west <;> rfl
    have hmicros : ∀ seconds : Nat, (if seconds = 0 then (0 : Int) else (seconds * 1000000 + 0 : Nat)) =
        (seconds * 1000000 : Nat) := by
      intro seconds
      split <;> omega
    unfold Clock.offset micros
    rw [hwest]
    exact congrArg (fun micros : Int => if o.west then -micros else micros) (hmicros _)
  have hsign : o.sign ≠ 'Z' := by
    rw [sign]
    split <;> decide
  unfold readOffset chars
  split
  · next heq => exact absurd (List.cons.inj heq).1 hsign
  · next heq =>
    obtain ⟨rfl, rfl⟩ := List.cons.inj heq
    simp only [readClock_chars, Option.bind_eq_bind, Option.bind_some, hahead, Bool.true_and,
      decide_eq_true_eq, if_pos o.natAbs_micros_lt]
  · next heq => cases heq

/-- **A time of day and an offset** are read as such. -/
theorem readTime_chars {hour minute second : Nat} (hh : hour < 10 ^ 2) (hm : minute < 10 ^ 2)
    (hs : second < 10 ^ 2) : readTime (timeChars hour minute second ++ o.chars) =
      some (⟨hour, minute, second, 0, false⟩, some o.micros) := by
  have hspan : (timeChars hour minute second ++ o.chars).span (fun c => !startsOffset c) =
      (timeChars hour minute second, o.chars) := by
    have hown : ∀ c ∈ timeChars hour minute second, (!startsOffset c) = true := fun c hc => by
      rw [startsOffset_of_mem_timeChars hc]
      rfl
    have hstop : ¬ (!startsOffset o.sign) = true := by simp [o.startsOffset_sign]
    rw [List.span_eq_takeWhile_dropWhile, List.takeWhile_append_of_pos hown,
      List.dropWhile_append_of_pos hown, chars, List.takeWhile_cons_of_neg (p := fun c => !startsOffset c) hstop,
      List.dropWhile_cons_of_neg (p := fun c => !startsOffset c) hstop, List.append_nil]
  have hended : (peek o.chars == '\x00') = false := by
    rw [chars, sign]
    split <;> rfl
  have hsome : o.chars.isEmpty = false := rfl
  unfold readTime
  rw [hspan]
  simp only [readClock_timeChars hh hm hs, Option.bind_eq_bind, Option.bind_some, hended, hsome,
    Bool.false_eq_true, if_false, o.readOffset_chars]

end Offset

/-! ### Numbers and moments -/

/-- What a text is read as that says these numbers and how far the clock is ahead, if it says that. -/
def Fields.reading (f : Fields) (ahead : Option Int) : Except Fault DateTime :=
  match f.moment?, ahead with
  | none, _ => .error .unreadable
  | some d, none => .ok d
  | some d, some ahead =>
    match d.toUniversal? ahead with
    | some u => .ok u
    | none => .error .outOfCalendar

theorem Fields.Fit.time_lt {f : Fields} (hf : f.Fit) :
    f.hour < 10 ^ 2 ∧ f.minute < 10 ^ 2 ∧ f.second < 10 ^ 2 :=
  ⟨Nat.lt_trans hf.hour_lt (by decide), Nat.lt_trans hf.minute_lt (by decide),
    Nat.lt_trans hf.second_lt (by decide)⟩

theorem Fields.Fit.midnight {f : Fields} (hf : f.Fit) : f.midnight.Fit :=
  ⟨hf.year_lt, hf.month_lt, hf.day_lt, Nat.succ_pos _, Nat.succ_pos _, Nat.succ_pos _⟩

/-- The numbers of a moment, to the second. -/
def fields (d : DateTime) : Fields :=
  ⟨d.date.year, d.date.month, d.date.day, d.hour, d.minute, d.second⟩

theorem fit_fields (d : DateTime) : d.fields.Fit :=
  ⟨year_lt d.date, month_lt d.date, day_lt d.date, d.hour_lt, d.minute_lt, d.second_lt⟩

theorem midnight_fields {d : DateTime} (h : d.micros = 0) : d.fields.midnight = d.fields := by
  simp only [fields, Fields.midnight, hour, minute, second, h]

theorem moment?_fields {d : DateTime} (h : d.microsecond = 0) : d.fields.moment? = some d := by
  rw [Fields.moment?, ofFields?, fields, Date.ofFields?_self, Option.bind_some]
  exact onDate?_self h

theorem reading_fields {d : DateTime} (h : d.microsecond = 0) : d.fields.reading none = .ok d := by
  simp only [Fields.reading, moment?_fields h]

/-- A clock that is ahead shows what universal time shows, and the offset on top. -/
theorem reading_fields_ahead {d e : DateTime} {o : Offset} (h : d.microsecond = 0)
    (heq : (e.instant : Int) = d.instant + o.micros) : e.fields.reading (some o.micros) = .ok d := by
  have hsecond : e.microsecond = 0 := by
    obtain ⟨seconds, hmicros⟩ := o.dvd_micros
    simp only [instant, microsecond, microsPerDay] at *
    omega
  have huniversal : e.toUniversal? o.micros = some d :=
    (toUniversal?_eq_some_iff o.natAbs_micros_lt).mpr (by omega)
  simp only [Fields.reading, moment?_fields hsecond, huniversal]

/-- A day that the calendar does not have gives no moment. -/
theorem Fields.reading_of_ofFields? {f : Fields} (h : Date.ofFields? f.year f.month f.day = none)
    (ahead : Option Int) : f.reading ahead = .error .unreadable := by
  simp only [reading, moment?_eq_none h]

/-- The standard notation of some numbers says these numbers. -/
theorem bind_moment?_eq {f : Fields} (ahead : Option Int) :
    ((Date.ofFields? f.year f.month f.day).map
        (⟨·, f.hour, f.minute, f.second, 0, ahead⟩ : Date → Written)).bind
      (fun w => w.moment?.map (·, w.ahead)) = f.moment?.map (·, ahead) := by
  rw [Fields.moment?, ofFields?]
  cases Date.ofFields? f.year f.month f.day <;> rfl

/-! ### Notations of a moment -/

/-- How the numbers of a moment are written. A standard notation with a time of day has some character
before it; a month has its full name or the first three letters of it. -/
inductive Style where
  | standard (separator : Char)
  | standardDay
  | slashed
  | slashedDay
  | dayFirst (short : Bool)
  | monthFirst (short : Bool)

namespace Style

/-- The text of some numbers. -/
def chars (f : Fields) : Style → List Char
  | .standard separator =>
    dayChars f.year f.month f.day ++ separator :: timeChars f.hour f.minute f.second
  | .standardDay => dayChars f.year f.month f.day
  | .slashed => slashChars f ++ ' ' :: timeChars f.hour f.minute f.second
  | .slashedDay => slashChars f
  | .dayFirst short => dayFirstChars short f
  | .monthFirst short => monthFirstChars short f

/-- Whether the time of day is written. -/
def HasTime : Style → Prop
  | .standard _ | .slashed => True
  | _ => False

/-- Whether the month is written as a name. -/
def HasName : Style → Prop
  | .dayFirst _ | .monthFirst _ => True
  | _ => False

/-- The numbers that are written. -/
def written (f : Fields) : Style → Fields
  | .standard _ | .slashed => f
  | _ => f.midnight

variable {f : Fields} {style : Style}

theorem written_fields {d : DateTime} (h : style.HasTime ∨ d.micros = 0) :
    style.written d.fields = d.fields := by
  cases style with
  | standard | slashed => rfl
  | standardDay | slashedDay | dayFirst | monthFirst =>
    rcases h with h | h
    · exact h.elim
    · exact midnight_fields h

/-- The day is written in every notation. -/
theorem ofFields?_written (style : Style) (f : Fields) :
    Date.ofFields? (style.written f).year (style.written f).month (style.written f).day =
      Date.ofFields? f.year f.month f.day := by
  cases style <;> rfl

theorem isBlank_of_head?_chars (hname : style.HasName → 1 ≤ f.month ∧ f.month ≤ 12) (rest : List Char) :
    ∀ c ∈ (style.chars f ++ rest).head?, Text.isBlank c = false := by
  cases style with
  | standard | standardDay =>
    simp only [chars, dayChars, List.append_assoc]
    exact isBlank_of_head?_padded
  | slashed | slashedDay =>
    simp only [chars, slashChars, List.append_assoc]
    exact isBlank_of_head?_padded
  | dayFirst short =>
    rw [chars, dayFirstChars, List.append_assoc]
    exact isBlank_of_head?_padded
  | monthFirst short =>
    rw [chars, monthFirstChars, List.append_assoc]
    exact isBlank_of_head?_monthWord (hname trivial) short _

/-- Every notation ends with a number. -/
theorem exists_suffix_chars (style : Style) (f : Fields) : ∃ width n, padded width n <:+ style.chars f := by
  cases style with
  | standard separator => exact ⟨2, f.second, suffix_append_cons (suffix_timeChars _ _ _) _ _⟩
  | standardDay => exact ⟨2, f.day, suffix_dayChars _ _ _⟩
  | slashed => exact ⟨2, f.second, suffix_append_cons (suffix_timeChars _ _ _) _ _⟩
  | slashedDay => exact ⟨4, f.year, suffix_append_cons (suffix_append_cons List.suffix_rfl _ _) _ _⟩
  | dayFirst short => exact ⟨4, f.year, suffix_append_cons (suffix_append_cons List.suffix_rfl _ _) _ _⟩
  | monthFirst short =>
    exact ⟨4, f.year, suffix_append_cons (suffix_append_cons
      (List.suffix_cons ' ' (padded 4 f.year)) (padded 2 f.day) ',') _ ' '⟩

end Style

/-! ### Reading -/

section

variable {f : Fields} {text cs : List Char}

/-- Everyday notation is what its patterns say. -/
theorem ofChars_of_everyday (htrim : Text.trim text = cs) (hiso : readIso cs = none)
    (hfound : patterns.findSome? (readPattern · cs) = f.moment?) : ofChars text = f.reading none := by
  unfold ofChars ofCharsIn Fields.reading
  rw [htrim]
  simp only [hiso, Option.bind_none, hfound]
  cases f.moment? <;> rfl

/-- Standard notation, which no pattern fits. -/
theorem ofChars_of_standard (htrim : Text.trim text = cs) {ahead : Option Int}
    (hiso : readIso cs = (Date.ofFields? f.year f.month f.day).map
      (⟨·, f.hour, f.minute, f.second, 0, ahead⟩))
    (hnone : patterns.findSome? (readPattern · cs) = none) : ofChars text = f.reading ahead := by
  unfold ofChars ofCharsIn Fields.reading
  rw [htrim]
  simp only [hiso, bind_moment?_eq, hnone, bind_inZone?_universal]
  cases f.moment? <;> cases ahead <;> rfl

variable {before after : List Char} (hbefore : ∀ c ∈ before, Text.isBlank c = true)
  (hafter : ∀ c ∈ after, Text.isBlank c = true) (hf : f.Fit)
include hbefore hafter hf

/-- **Every notation is read as the numbers that it says**, with blanks around it or without. -/
theorem ofChars_style {style : Style} (hname : style.HasName → 1 ≤ f.month ∧ f.month ≤ 12) :
    ofChars (before ++ style.chars f ++ after) = (style.written f).reading none := by
  have htrim : Text.trim (before ++ style.chars f ++ after) = style.chars f := by
    obtain ⟨width, n, hsuffix⟩ := style.exists_suffix_chars f
    have hhead := Style.isBlank_of_head?_chars hname []
    rw [List.append_nil] at hhead
    exact Text.trim_append hbefore hafter hhead (isBlank_of_getLast?_padded hsuffix)
  have hyear : ∀ rest, patterns.findSome? (readPattern · (dayChars f.year f.month f.day ++ rest)) = none :=
    fun rest => by
      rw [dayChars, List.append_assoc]
      exact findSome?_of_year hf.year_lt _
  obtain ⟨hhour, hminute, hsecond⟩ := hf.time_lt
  cases style with
  | standard separator =>
    exact ofChars_of_standard htrim (readIso_dayChars_cons hf.year_lt hf.month_lt hf.day_lt separator
      (readTime_timeChars hhour hminute hsecond)) (hyear _)
  | standardDay =>
    have hnone := hyear []
    rw [List.append_nil] at hnone
    exact ofChars_of_standard (f := f.midnight) htrim
      (readIso_dayChars hf.year_lt hf.month_lt hf.day_lt) hnone
  | slashed =>
    exact ofChars_of_everyday htrim (readIso_slashChars hf _) (findSome?_slashChars_timeChars hf)
  | slashedDay =>
    have hiso := readIso_slashChars hf []
    rw [List.append_nil] at hiso
    exact ofChars_of_everyday htrim hiso (findSome?_slashChars hf)
  | dayFirst short =>
    exact ofChars_of_everyday htrim (readIso_dayFirstChars hf short)
      (findSome?_dayFirstChars hf (hname trivial) short)
  | monthFirst short =>
    exact ofChars_of_everyday htrim (readIso_monthFirstChars (hname trivial) short)
      (findSome?_monthFirstChars hf (hname trivial) short)

/-- **Standard notation with an offset** is read as the numbers and the offset. -/
theorem ofChars_offset (separator : Char) (o : Offset) :
    ofChars (before ++ ((Style.standard separator).chars f ++ o.chars) ++ after) =
      f.reading (some o.micros) := by
  have hchars : (Style.standard separator).chars f ++ o.chars = dayChars f.year f.month f.day ++
      separator :: (timeChars f.hour f.minute f.second ++ o.chars) := by
    rw [Style.chars, List.append_assoc, List.cons_append]
  have htrim : Text.trim (before ++ ((Style.standard separator).chars f ++ o.chars) ++ after) =
      (Style.standard separator).chars f ++ o.chars := by
    have hname : (Style.standard separator).HasName → 1 ≤ f.month ∧ f.month ≤ 12 := False.elim
    refine Text.trim_append hbefore hafter (Style.isBlank_of_head?_chars hname _) ?_
    exact isBlank_of_getLast?_padded (suffix_append_cons (suffix_append_cons List.suffix_rfl _ _) _ _)
  obtain ⟨hhour, hminute, hsecond⟩ := hf.time_lt
  rw [hchars] at htrim ⊢
  refine ofChars_of_standard htrim (readIso_dayChars_cons hf.year_lt hf.month_lt hf.day_lt separator
    (o.readTime_chars hhour hminute hsecond)) ?_
  rw [dayChars, List.append_assoc]
  exact findSome?_of_year hf.year_lt _

end

/-- **Every notation of one moment is read as this moment**: the moment itself in all of them, without a time
of day at midnight, and with an offset what a clock that is so far ahead shows. A day that the calendar does
not have is read in none of them. -/
theorem ofText_notations {before after : List Char} (hbefore : ∀ c ∈ before, Text.isBlank c = true)
    (hafter : ∀ c ∈ after, Text.isBlank c = true) :
    (∀ d : DateTime, d.microsecond = 0 →
      (∀ style : Style, style.HasTime ∨ d.micros = 0 →
        ofText (String.ofList (before ++ style.chars d.fields ++ after)) = .ok d) ∧
      ∀ (separator : Char) (o : Offset) (e : DateTime), (e.instant : Int) = d.instant + o.micros →
        ofText (String.ofList (before ++ ((Style.standard separator).chars e.fields ++ o.chars) ++ after)) =
          .ok d) ∧
    ∀ f : Fields, f.Fit → Date.ofFields? f.year f.month f.day = none →
      (∀ style : Style, (style.HasName → 1 ≤ f.month ∧ f.month ≤ 12) →
        ofText (String.ofList (before ++ style.chars f ++ after)) = .error .unreadable) ∧
      ∀ (separator : Char) (o : Offset),
        ofText (String.ofList (before ++ ((Style.standard separator).chars f ++ o.chars) ++ after)) =
          .error .unreadable := by
  simp only [ofText, String.toList_ofList]
  constructor
  · intro d hsecond
    constructor
    · intro style htime
      rw [ofChars_style hbefore hafter d.fit_fields fun _ => d.date.month_mem, Style.written_fields htime,
        reading_fields hsecond]
    · intro separator o e heq
      rw [ofChars_offset hbefore hafter e.fit_fields, reading_fields_ahead hsecond heq]
  · intro f hf hday
    constructor
    · intro style hname
      have hwritten := (style.ofFields?_written f).trans hday
      rw [ofChars_style hbefore hafter hf hname, Fields.reading_of_ofFields? hwritten]
    · intro separator o
      rw [ofChars_offset hbefore hafter hf, Fields.reading_of_ofFields? hday]

/-- Half past midnight after a leap day. -/
def afterLeapDay : DateTime := ⟨⟨2020, 3, 1, by decide, by decide⟩, 1800000000, by decide⟩

/-- The same moment on a clock that is an hour behind. -/
def onLeapDay : DateTime := ⟨⟨2020, 2, 29, by decide, by decide⟩, 84600000000, by decide⟩

def hourWest : Offset := ⟨true, 1, 0, by decide, by decide⟩

/-- An hour to the west is still on the leap day, and a year without one has no such day. -/
theorem ofText_notations_leapDay : (∀ c ∈ [' ', '\t'], Text.isBlank c = true) ∧
    (∀ c ∈ ['\n'], Text.isBlank c = true) ∧ afterLeapDay.microsecond = 0 ∧
    (onLeapDay.instant : Int) = afterLeapDay.instant + hourWest.micros ∧
    ofText " \t03/01/2020 00:30:00\n" = .ok afterLeapDay ∧
    ofText " \t2020-02-29T23:30:00-01:00\n" = .ok afterLeapDay ∧
    Date.ofFields? 2021 2 29 = none ∧ ofText " \tFeb 29, 2021\n" = .error .unreadable := by
  have hbefore : ∀ c ∈ [' ', '\t'], Text.isBlank c = true :=
    List.forall_mem_cons.mpr ⟨by decide, List.forall_mem_singleton.mpr (by decide)⟩
  have hafter : ∀ c ∈ ['\n'], Text.isBlank c = true := List.forall_mem_singleton.mpr (by decide)
  have hnotations := ofText_notations hbefore hafter
  have hday : Date.ofFields? 2021 2 29 = none := by decide
  have hwest : (onLeapDay.instant : Int) = afterLeapDay.instant + hourWest.micros := by decide +kernel
  have hread := hnotations.1 afterLeapDay (by decide)
  have hslashed := hread.1 .slashed (.inl trivial)
  have hahead := hread.2 'T' hourWest onLeapDay hwest
  have hfit : ({ year := 2021, month := 2, day := 29 } : Fields).Fit := by constructor <;> decide
  have hmonth : 1 ≤ 2 ∧ 2 ≤ 12 := by decide
  have hnone := (hnotations.2 _ hfit hday).1 (.monthFirst true) fun _ => hmonth
  refine ⟨hbefore, hafter, by decide, hwest, ?_, ?_, hday, ?_⟩
  · exact (congrArg ofText (by decide +kernel)).trans hslashed
  · exact (congrArg ofText (by decide +kernel)).trans hahead
  · exact (congrArg ofText (by decide +kernel)).trans hnone

end MiniLisp.DateTime
