import MiniLisp.Builtin.Call
import MiniLisp.Proofs.Decimal.Rational
import MiniLisp.Proofs.Token.Spans
import MiniLisp.Proofs.Value.RoundTrip

/-! # What is a number

Three parts of the program recognise numbers: a text is cut into tokens character by character, a literal
is taken apart as a whole, and the function `number` reads a string. The cutting knows nothing of two
things that a literal asks for, ASCII digits and not too many of them in a whole number (`Admissible`).
They differ in nothing else (`recognisers_agree`):

* a number token of any text is a literal if and only if it is admissible, and reads as that literal;
* `number` gives a number for exactly the strings that are, blanks around them aside, one token of that
  number;
* what `concat` makes of a number that can be printed, `number` takes back. -/

namespace MiniLisp

namespace Number

/-! ### Literals -/

namespace Literal

theorem isDigit_of_mem_unsigned (l : Literal) {c : Char} (h : c ∈ l.unsigned) :
    c = '.' ∨ c.isDigit = true := by
  rcases List.mem_append.1 h with h | h
  · exact .inr (l.isDigit_whole c h)
  · cases hf : l.fraction with
    | none =>
      rw [hf] at h
      cases h
    | some ds =>
      rw [hf] at h
      exact (List.mem_cons.1 h).imp_right (l.isDigit_fraction ds hf c)

theorem isDigit_of_mem_chars (l : Literal) {c : Char} (h : c ∈ l.chars) :
    c = '-' ∨ c = '.' ∨ c.isDigit = true := by
  rcases List.mem_append.1 h with h | h
  · left
    cases hs : l.negative <;> simp_all [Decimal.signText]
  · exact .inr (l.isDigit_of_mem_unsigned h)

/-- Where there is a point there is a fraction. -/
theorem point_mem_chars (l : Literal) : '.' ∈ l.chars ↔ l.fraction.isSome = true := by
  have hsign : '.' ∉ Decimal.signText l.negative := by
    cases l.negative <;> decide
  have hwhole : '.' ∉ l.whole := fun h => absurd (l.isDigit_whole _ h) (by decide)
  cases hf : l.fraction <;> simp [chars, unsigned, fractionChars, hsign, hwhole, hf]

/-- The digits of a whole number are the characters after its sign. -/
theorem countP_isDigit_chars (l : Literal) (h : l.fraction = none) :
    l.chars.countP Text.isDigit = l.whole.length := by
  have hsign : (Decimal.signText l.negative).countP Text.isDigit = 0 := by
    cases l.negative <;> decide
  have hwhole : l.whole.countP Text.isDigit = l.whole.length :=
    List.countP_eq_length.2 fun c hc => Text.isDigit_of_ascii (l.isDigit_whole c hc)
  rw [chars, unsigned, h, fractionChars, List.append_nil, List.countP_append, hsign, hwhole,
    Nat.zero_add]

end Literal

/-! ### Number tokens -/

/-- The digits are ASCII digits, and they are not too many for a whole number if there is no point. -/
def Admissible (cs : List Char) : Prop :=
  (∀ c ∈ cs, Text.isDigit c = true → c.isDigit = true) ∧
    ('.' ∉ cs → cs.countP Text.isDigit ≤ maxDigits)

/-- **A literal is read if it is admissible.** Its digits are, so it is a matter of how many there are. -/
theorem Literal.exists_ofChars_iff (l : Literal) :
    (∃ n, ofChars l.chars = .ok n) ↔ Admissible l.chars := by
  have hascii : ∀ c ∈ l.chars, Text.isDigit c = true → c.isDigit = true := by
    intro c hc hdigit
    rcases l.isDigit_of_mem_chars hc with rfl | rfl | h
    · exact absurd hdigit (by decide)
    · exact absurd hdigit (by decide)
    · exact h
  rw [Admissible, and_iff_right hascii, l.point_mem_chars, l.ofChars_chars]
  cases hf : l.fraction with
  | some ds => simp [ofParts]
  | none =>
    rw [l.countP_isDigit_chars hf]
    by_cases hlong : maxDigits < l.whole.length
    · simp [ofParts, hlong]
    · simp [ofParts, hlong, Nat.le_of_not_lt hlong]

/-- What is cut off as a number is a literal if its digits are ASCII digits. -/
theorem exists_literal_of_numeral {rest cs : List Char} (h : Token.Numeral rest cs)
    (hascii : ∀ c ∈ cs, Text.isDigit c = true → c.isDigit = true) :
    ∃ l : Literal, l.chars = cs := by
  obtain ⟨minus, whole, fraction, rfl, hminus, hne, hwhole, -, hfraction⟩ := h
  have hsign : ∃ negative, Decimal.signText negative = minus := by
    rcases hminus with rfl | rfl
    · exact ⟨false, rfl⟩
    · exact ⟨true, rfl⟩
  have hwhole' : ∀ d ∈ whole, d.isDigit = true := fun d hd =>
    hascii d (List.mem_append_left _ (List.mem_append_right _ hd)) (hwhole d hd)
  obtain ⟨negative, rfl⟩ := hsign
  rcases hfraction with ⟨rfl, -⟩ | ⟨ds, rfl, hds⟩
  · refine ⟨⟨negative, whole, none, hne, hwhole', nofun⟩, ?_⟩
    rw [List.append_assoc]
    rfl
  · have hds' : ∀ es ∈ some ds, ∀ d ∈ es, d.isDigit = true := by
      rintro _ ⟨⟩ d hd
      exact hascii d (List.mem_append_right _ (List.mem_cons_of_mem _ hd)) (hds d hd)
    refine ⟨⟨negative, whole, some ds, hne, hwhole', hds'⟩, ?_⟩
    rw [List.append_assoc]
    rfl

/-- **What is cut off as a number is read if it is admissible.** -/
theorem exists_ofChars_iff_of_numeral {rest cs : List Char} (h : Token.Numeral rest cs) :
    (∃ n, ofChars cs = .ok n) ↔ Admissible cs := by
  constructor
  · rintro ⟨n, hn⟩
    obtain ⟨l, rfl⟩ := exists_literal_of_ofChars hn
    exact l.exists_ofChars_iff.1 ⟨n, hn⟩
  · intro hadmissible
    obtain ⟨l, rfl⟩ := exists_literal_of_numeral h hadmissible.1
    exact l.exists_ofChars_iff.2 hadmissible

end Number

namespace Token

/-- The value of a number token is what was cut off as a number. -/
theorem exists_numeral_of_mem {source : String} {t : Token} (ht : t ∈ ofText source)
    (hkind : t.kind = .number) : ∃ rest, Numeral rest t.value.toList := by
  have hend : t.isEnd = false := by simp [isEnd, hkind]
  obtain ⟨before, span, rest, -, -, hspells⟩ := exists_spells ht hend
  rw [hkind] at hspells
  cases hspells with
  | number h => exact ⟨rest, h⟩

/-- **The text of a number**: alone it is one token, a number that is all of the text, and it reads as
that number. -/
def IsNumber (text : String) (n : Number) : Prop :=
  ∃ t p, ofText text = [t, .atEnd p] ∧ t.kind = .number ∧ t.value = text ∧
    Datum.readAll text = .ok [.atom (.number n)]

end Token

/-! ### Reading number tokens -/

theorem Reading.step_number {t : Token} (hkind : t.kind = .number) (r : Reading) :
    r.step t = match Number.ofText t.value with
      | .ok n => .ok (r.atom (.number n))
      | .error _ => .error (.syntaxError (.badNumber t.value) t.place) := by
  cases h : Number.ofText t.value <;> simp only [Reading.step, hkind, h]

theorem Datum.ofTokens_number {t : Token} (hkind : t.kind = .number) (p : Place) :
    Datum.ofTokens [t, .atEnd p] = match Number.ofText t.value with
      | .ok n => .ok [.atom (.number n)]
      | .error _ => .error (.syntaxError (.badNumber t.value) t.place) := by
  have hbefore : Datum.beforeEnd [t, .atEnd p] = [t] := by
    simp [Datum.beforeEnd, Token.isEnd, Token.atEnd, hkind]
  rw [Datum.ofTokens, hbefore, Reading.steps, Reading.step_number hkind]
  cases Number.ofText t.value <;> rfl

namespace Number

/-- **What the reader makes of a number token**, whatever it has read before: the number that the value of
the token is a literal of, or an error at the token if it is not admissible. -/
structure ReadsToken (t : Token) : Prop where
  accepted : (∃ n, ofText t.value = .ok n) ↔ Admissible t.value.toList
  reads : ∀ n, ofText t.value = .ok n → ∀ r : Reading, r.step t = .ok (r.atom (.number n))
  refuses : ¬ Admissible t.value.toList → ∀ r : Reading,
    r.step t = .error (.syntaxError (.badNumber t.value) t.place)

theorem readsToken_of_mem {source : String} {t : Token} (ht : t ∈ Token.ofText source)
    (hkind : t.kind = .number) : ReadsToken t := by
  obtain ⟨rest, hnumeral⟩ := Token.exists_numeral_of_mem ht hkind
  have haccepted : (∃ n, ofText t.value = .ok n) ↔ Admissible t.value.toList :=
    exists_ofChars_iff_of_numeral hnumeral
  refine ⟨haccepted, fun n hn r => ?_, fun hrefused r => ?_⟩
  · rw [Reading.step_number hkind, hn]
  · rw [Reading.step_number hkind]
    cases hn : ofText t.value with
    | ok n => exact absurd (haccepted.1 ⟨n, hn⟩) hrefused
    | error _ => rfl

/-! ### The function `number` -/

/-- **A text is read as a number** if alone it is one token of that number. -/
theorem ofText_eq_ok_iff {text : String} {n : Number} :
    ofText text = .ok n ↔ Token.IsNumber text n := by
  constructor
  · intro h
    obtain ⟨l, hl⟩ := exists_literal_of_ofChars h
    have hscan := Token.scanFrom_literal .start l Token.separated_nil
    rw [List.append_nil, hl, String.ofList_toList, Token.scanFrom_nil] at hscan
    refine ⟨_, _, hscan, rfl, rfl, ?_⟩
    rw [Datum.readAll, Token.ofText, hscan, Datum.ofTokens_number rfl, h]
  · rintro ⟨t, p, htokens, hkind, hvalue, hread⟩
    rw [Datum.readAll, htokens, Datum.ofTokens_number hkind, hvalue] at hread
    cases hn : ofText text with
    | ok m =>
      rw [hn] at hread
      cases hread
      rfl
    | error e =>
      rw [hn] at hread
      cases hread

theorem pureCall_toNumber_string (s : String) :
    Builtin.pureCall .toNumber [.string s] = match ofText (Text.strip s) with
      | .ok n => .ok (.number n)
      | .error _ => .error (.typeError (.notNumeric (Value.string s).text)) := by
  change Value.number <$> Strings.toNumber s = _
  rw [Strings.toNumber]
  cases ofText (Text.strip s) <;> rfl

/-- **What `number` makes of a string**: the number that it is the text of, blanks around it aside, or a
type error that shows the string if there is none. -/
structure Converts (s : String) : Prop where
  gives : ∀ v, Builtin.pureCall .toNumber [.string s] = .ok v ↔
    ∃ n, v = .number n ∧ Token.IsNumber (Text.strip s) n
  refuses : (∀ n, ¬ Token.IsNumber (Text.strip s) n) →
    Builtin.pureCall .toNumber [.string s] = .error (.typeError (.notNumeric (Value.string s).text))

theorem converts (s : String) : Converts s := by
  constructor
  · intro v
    simp only [← ofText_eq_ok_iff, pureCall_toNumber_string]
    cases ofText (Text.strip s) with
    | ok m =>
      constructor
      · rintro ⟨⟩
        exact ⟨m, rfl, rfl⟩
      · rintro ⟨n, rfl, ⟨⟩⟩
        rfl
    | error e => simp
  · intro h
    simp only [← ofText_eq_ok_iff] at h
    rw [pureCall_toNumber_string]
    cases hn : ofText (Text.strip s) with
    | ok n => exact absurd hn (h n)
    | error _ => rfl

/-! ### The text of a number -/

/-- No literal has a blank at one of its ends. -/
theorem Literal.strip_chars (l : Literal) :
    Text.strip (String.ofList l.chars) = String.ofList l.chars := by
  have hblank : ∀ c ∈ l.chars, Text.isBlank c = false := by
    intro c hc
    rcases l.isDigit_of_mem_chars hc with rfl | rfl | h
    · decide
    · decide
    · exact Text.isBlank_eq_false_of_isDigit h
  rw [Text.strip, String.toList_ofList, Text.trim_eq_self]
  · exact fun c hc => hblank c (List.mem_of_mem_head? hc)
  · exact fun c hc => hblank c (List.mem_of_mem_getLast? hc)

/-- **What `concat` makes of a number, `number` takes back**: a number of the same type that is equal to
it. -/
def TakenBack (n : Number) : Prop :=
  ∃ s m, Builtin.pureCall .concat [.number n] = .ok (.string s) ∧
    Builtin.pureCall .toNumber [.string s] = .ok (.number m) ∧
    (Value.number m).type = (Value.number n).type ∧ m.IsFinite ∧ m.toRat = n.toRat

/-- A finite number that is the same atom has the same type and stands for the same. -/
theorem toRat_eq_of_same {m n : Number} (hn : (Atom.number n).Readable) (hm : m.IsFinite)
    (h : (Atom.number n).Same (.number m)) :
    (Value.number m).type = (Value.number n).type ∧ m.toRat = n.toRat := by
  cases n with
  | int k =>
    cases (h : Atom.number (.int k) = .number m)
    exact ⟨rfl, rfl⟩
  | decimal d =>
    cases m with
    | int k => cases (h : Atom.number (.decimal d) = .number (.int k))
    | decimal e => exact ⟨rfl, ((Decimal.eqv_iff_toRat hn hm).1 h).symm⟩

theorem takenBack_of_readable (n : Number) (h : (Atom.number n).Readable) : TakenBack n := by
  obtain ⟨l, m, hl, hm, hsame⟩ := Value.exists_literal h
  have htext : ofText (String.ofList l.chars) = .ok m := by
    rw [ofText, String.toList_ofList, hm]
  have hfinite : m.IsFinite := by
    have := finite_ofText (String.ofList l.chars)
    rwa [htext] at this
  obtain ⟨htype, hvalue⟩ := toRat_eq_of_same h hfinite hsame
  have hprint : (Value.number n).print = .ok (String.ofList l.chars) := by
    rw [Value.print, Value.isOverlong_of_readable (.number n) h, hl]
    rfl
  refine ⟨String.ofList l.chars, m, ?_, ?_, htype, hfinite, hvalue⟩
  · change Value.string <$> Strings.concat [.number n] = _
    rw [Strings.concat, hprint]
    · change Except.ok (Value.string (String.ofList l.chars ++ "")) = _
      rw [String.append_empty]
    · intro s hs
      cases hs
  · rw [pureCall_toNumber_string, l.strip_chars, htext]

/-- **All that recognises numbers agrees**: on the tokens of every text, on every string, and on the text
of every whole number that is not too long and of every finite decimal. -/
theorem recognisers_agree :
    (∀ source, ∀ t ∈ Token.ofText source, t.kind = .number → ReadsToken t) ∧
    (∀ s, Converts s) ∧
    (∀ n : Int, n.natAbs < 10 ^ maxDigits → TakenBack (.int n)) ∧
    (∀ d : Decimal, d.isFinite = true → TakenBack (.decimal d)) :=
  ⟨fun _ _ => readsToken_of_mem, converts, fun n => takenBack_of_readable (.int n),
    fun d => takenBack_of_readable (.decimal d)⟩

/-- A three of another script is a token and no number; one with a point, a minus and blanks around it is
a number; and the texts of two threes are taken back. -/
theorem recognisers_agree_threes :
    (∃ t ∈ Token.ofText "٣", ∀ r : Reading,
      r.step t = .error (.syntaxError (.badNumber "٣") .start)) ∧
    Builtin.pureCall .toNumber [.string " -3.\n"] = .ok (.decimal (.finite true 3 0)) ∧
    TakenBack (.int (-3)) ∧ TakenBack (.decimal (.finite false 3 2)) := by
  obtain ⟨htokens, hstrings, hints, hdecimals⟩ := recognisers_agree
  refine ⟨?_, ?_, ?_, hdecimals _ rfl⟩
  · have hcut : Token.ofText "٣" = ⟨.number, "٣", .start⟩ :: Token.scanFrom _ [] :=
      Token.scanFrom_cons (by decide) (by decide) .start []
    have hmem : ⟨.number, "٣", .start⟩ ∈ Token.ofText "٣" := by
      rw [hcut]
      exact List.mem_cons_self
    have hrefused : ¬ Admissible ['٣'] := fun h =>
      absurd (h.1 '٣' (by decide) (by decide)) (by decide)
    exact ⟨_, hmem, (htokens _ _ hmem rfl).refuses hrefused⟩
  · have hnumber : ofText (Text.strip " -3.\n") = .ok (.decimal (.finite true 3 0)) := by
      decide +kernel
    exact ((hstrings _).gives _).2 ⟨_, rfl, ofText_eq_ok_iff.1 hnumber⟩
  · have hshort : 3 < 10 ^ maxDigits :=
      Nat.lt_of_lt_of_le (by decide : 3 < 10 ^ 1) (Nat.pow_le_pow_right (by decide) (by decide))
    exact hints _ hshort

end Number

end MiniLisp
