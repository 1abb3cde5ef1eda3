import MiniLisp.Proofs.Token.Printed

/-! # Tokens and the characters they cover

Every token covers characters of the text from a start to a stop, one after the other, and stands at the
place of its first character. A place counts what is before it: the bytes in UTF-8, the line breaks, and
the characters since the last of these (`Place.after`). Between the tokens and after the last one are
blanks and comments only (`Filler`), and the characters that a token covers spell its kind and its value
(`Spells`). So the tokens of a text lose nothing of it but blanks, comments and how its strings are
spelled (`ofText_spans`). -/

namespace MiniLisp

/-! ### Places -/

/-- The place after some characters from the start of a text: the bytes that they take in UTF-8, one line
more than there are line breaks among them, and one column more than there are characters after the last
line break. -/
def Place.after (cs : List Char) : Place where
  offset := (String.ofList cs).utf8ByteSize
  line := 1 + cs.count '\n'
  column := 1 + (cs.reverse.takeWhile (· ≠ '\n')).length

/-- One character further, all three counts are in step. -/
theorem Place.advance_after (cs : List Char) (c : Char) :
    (after cs).advance c = after (cs ++ [c]) := by
  have hbytes : (String.ofList (cs ++ [c])).utf8ByteSize =
      (String.ofList cs).utf8ByteSize + c.utf8Size := by
    simp [String.ofList_append]
  by_cases hc : c = '\n'
  · have hcolumn : ((cs ++ [c]).reverse.takeWhile (· ≠ '\n')).length = 0 := by simp [hc]
    have hline : (cs ++ [c]).count '\n' = cs.count '\n' + 1 := by simp [hc]
    rw [advance, if_pos hc, after, after, hbytes, hcolumn, hline]
    rfl
  · have hcolumn : ((cs ++ [c]).reverse.takeWhile (· ≠ '\n')).length =
        (cs.reverse.takeWhile (· ≠ '\n')).length + 1 := by simp [hc]
    have hline : (cs ++ [c]).count '\n' = cs.count '\n' := by
      rw [List.count_append, List.count_singleton, if_neg (by simpa using hc), Nat.add_zero]
    rw [advance, if_neg hc, after, after, hbytes, hcolumn, hline]
    rfl

/-- **Advancing counts** the characters from the start of the text. -/
theorem Place.advanceAll_after (ds : List Char) : ∀ cs : List Char,
    (after cs).advanceAll ds = after (cs ++ ds) := by
  induction ds with
  | nil => intro cs; rw [List.append_nil]; rfl
  | cons d ds ih =>
    intro cs
    have hstep : (after cs).advanceAll (d :: ds) = ((after cs).advance d).advanceAll ds := rfl
    rw [hstep, advance_after, ih, List.append_assoc, List.singleton_append]

example : Place.after ['é', '\n', 'x'] = ⟨4, 2, 2⟩ := by decide

namespace Token

/-! ### Between tokens -/

/-- Blanks and comments, where `rest` follows. A comment goes up to a line break or to the end of the
text. -/
inductive Filler (rest : List Char) : List Char → Prop where
  | nil : Filler rest []
  | blank {c : Char} {cs : List Char} : Text.isBlank c = true → Filler rest cs → Filler rest (c :: cs)
  | comment {body cs : List Char} : '\n' ∉ body → (∀ c ∈ (cs ++ rest).head?, c = '\n') →
      Filler rest cs → Filler rest (';' :: (body ++ cs))

/-- The rest of a comment, and blanks and comments after it. -/
def InComment (rest cs : List Char) : Prop :=
  ∃ body cs', cs = body ++ cs' ∧ '\n' ∉ body ∧ (∀ c ∈ (cs' ++ rest).head?, c = '\n') ∧
    Filler rest cs'

theorem filler_skip (comment : Bool) (cs : List Char) :
    (comment = false → Filler (skip comment cs).2 (skip comment cs).1) ∧
      (comment = true → InComment (skip comment cs).2 (skip comment cs).1) := by
  fun_induction skip comment cs with
  | case1 comment => exact ⟨fun _ => .nil, fun _ => ⟨[], [], rfl, by simp, by simp, .nil⟩⟩
  | case2 c cs skipped rest hrec ih =>
    refine ⟨fun h => absurd h (by decide), fun _ => ?_⟩
    rw [hrec] at ih
    by_cases hc : c = '\n'
    · have hblank : Text.isBlank c = true := by rw [hc]; decide
      have hfiller : Filler rest skipped := ih.1 (by simp [hc])
      exact ⟨[], c :: skipped, rfl, by simp, by simp [hc], .blank hblank hfiller⟩
    · obtain ⟨body, cs', rfl, hbody, hends, hfiller⟩ := ih.2 (by simp [hc])
      refine ⟨c :: body, cs', rfl, ?_, hends, hfiller⟩
      rw [List.mem_cons, not_or]
      exact ⟨Ne.symm hc, hbody⟩
  | case3 comment c cs hcomment hblank skipped rest hrec ih =>
    rw [hrec] at ih
    exact ⟨fun _ => .blank hblank (ih.1 rfl), fun h => absurd h hcomment⟩
  | case4 comment cs hcomment skipped rest hrec hblank ih =>
    rw [hrec] at ih
    refine ⟨fun _ => ?_, fun h => absurd h hcomment⟩
    obtain ⟨body, cs', rfl, hbody, hends, hfiller⟩ := ih.2 rfl
    exact .comment hbody hends hfiller
  | case5 comment c cs hcomment => exact ⟨fun _ => .nil, fun h => absurd h hcomment⟩

/-! ### One token -/

/-- What follows the quotation mark of a string, where `rest` follows the string, and the characters that
it stands for. The string goes to a quotation mark or to the end of the text, where a last backslash
stands for itself. -/
inductive Contents (rest : List Char) : List Char → List Char → Prop where
  | closed : Contents rest ['"'] []
  | unclosed : rest = [] → Contents rest [] []
  | backslash : rest = [] → Contents rest ['\\'] ['\\']
  | escape {c : Char} {cs vs : List Char} : Contents rest cs vs →
      Contents rest ('\\' :: c :: cs) (escaped c :: vs)
  | plain {c : Char} {cs vs : List Char} : c ≠ '\\' → c ≠ '"' → Contents rest cs vs →
      Contents rest (c :: cs) (c :: vs)

theorem contents_stringBody (cs : List Char) :
    Contents (stringBody cs).2 (stringBody cs).1 (unescape (stringBody cs).1) := by
  fun_induction stringBody cs with
  | case1 => exact .unclosed rfl
  | case2 cs => exact .closed
  | case3 c cs body rest hrec ih =>
    rw [hrec] at ih
    exact .escape ih
  | case4 c cs hquote hslash body rest hrec ih =>
    rw [hrec] at ih
    by_cases hc : c = '\\'
    · -- a backslash takes the next character along, so this one is the last character of the text
      subst hc
      cases cs with
      | nil => cases hrec; exact .backslash rfl
      | cons d ds => exact absurd rfl (hslash d ds rfl)
    · change Contents rest (c :: body) (unescape (c :: body))
      rw [unescape_cons hc hquote]
      exact .plain hc hquote ih

/-- The rest of a date after its quotation mark, where `rest` follows the date: its value, and the next
quotation mark unless the text ends before it. -/
def DateContents (rest cs value : List Char) : Prop :=
  '"' ∉ value ∧ (cs = value ++ ['"'] ∨ cs = value ∧ rest = [])

theorem dateContents_dateBody (cs : List Char) :
    DateContents (dateBody cs).2 (dateBody cs).1 ((dateBody cs).1.takeWhile (· != '"')) := by
  fun_induction dateBody cs with
  | case1 => exact ⟨by simp, .inr ⟨rfl, rfl⟩⟩
  | case2 cs => exact ⟨by simp, .inl rfl⟩
  | case3 c cs hc body rest hrec ih =>
    rw [hrec] at ih
    have hvalue : (c :: body).takeWhile (· != '"') = c :: body.takeWhile (· != '"') := by
      simp [hc]
    obtain ⟨hquote, hcs⟩ := ih
    refine ⟨?_, ?_⟩
    · rw [hvalue, List.mem_cons, not_or]
      exact ⟨Ne.symm hc, hquote⟩
    · rw [hvalue]
      refine hcs.imp (fun h => ?_) (.imp_left fun h => ?_)
      · rw [List.cons_append, ← h]
      · exact congrArg (c :: ·) h

/-- A number as far as it goes, where `rest` follows: a minus or none, digits, and a point and the digits
after it or no point. -/
def Numeral (rest cs : List Char) : Prop :=
  ∃ minus whole fraction, cs = minus ++ whole ++ fraction ∧ (minus = [] ∨ minus = ['-']) ∧
    whole ≠ [] ∧ (∀ d ∈ whole, Text.isDigit d = true) ∧
    (∀ c ∈ rest.head?, Text.isDigit c = false) ∧
    ((fraction = [] ∧ ∀ c ∈ rest.head?, c ≠ '.') ∨
      ∃ digits, fraction = '.' :: digits ∧ ∀ d ∈ digits, Text.isDigit d = true)

theorem digits_numberBody (cs : List Char) :
    (∀ d ∈ (numberBody true cs).1, Text.isDigit d = true) ∧
      ∀ c ∈ (numberBody true cs).2.head?, Text.isDigit c = false := by
  induction cs with
  | nil => simp [numberBody]
  | cons c cs ih =>
    by_cases hc : Text.isDigit c = true
    · rw [numberBody, if_pos hc]
      exact ⟨List.forall_mem_cons.mpr ⟨hc, ih.1⟩, ih.2⟩
    · rw [numberBody, if_neg hc, if_neg (by simp)]
      simpa using hc

/-- Digits in front and what is cut off after them are a number. -/
theorem numeral_numberBody {minus : List Char} (hminus : minus = [] ∨ minus = ['-'])
    (cs : List Char) : ∀ digits : List Char, digits ≠ [] →
      (∀ d ∈ digits, Text.isDigit d = true) →
        Numeral (numberBody false cs).2 (minus ++ digits ++ (numberBody false cs).1) := by
  induction cs with
  | nil =>
    intro digits hne hdigits
    exact ⟨minus, digits, [], rfl, hminus, hne, hdigits, nofun, .inl ⟨rfl, nofun⟩⟩
  | cons c cs ih =>
    intro digits hne hdigits
    by_cases hc : Text.isDigit c = true
    · have hmore : ∀ d ∈ digits ++ [c], Text.isDigit d = true := by
        simpa [or_imp, forall_and] using ⟨hdigits, hc⟩
      have hnumeral := ih (digits ++ [c]) (by simp) hmore
      rw [numberBody, if_pos hc]
      simpa using hnumeral
    · by_cases hpoint : c = '.'
      · obtain ⟨hfraction, hrest⟩ := digits_numberBody cs
        rw [numberBody, if_neg hc, if_pos ⟨hpoint, rfl⟩, hpoint]
        exact ⟨minus, digits, '.' :: (numberBody true cs).1, rfl, hminus, hne, hdigits, hrest,
          .inr ⟨_, rfl, hfraction⟩⟩
      · rw [numberBody, if_neg hc, if_neg (by simp [hpoint])]
        refine ⟨minus, digits, [], rfl, hminus, hne, hdigits, ?_, .inl ⟨rfl, ?_⟩⟩
        · rintro d ⟨⟩
          simpa using hc
        · rintro d ⟨⟩
          exact hpoint

theorem numeral_of_startsNumber {c : Char} {cs : List Char} (h : startsNumber c cs = true) :
    Numeral (numberBody false cs).2 (c :: (numberBody false cs).1) := by
  by_cases hc : Text.isDigit c = true
  · exact numeral_numberBody (.inl rfl) cs [c] (by simp) (by simpa using hc)
  · match cs, h with
    | [], h => simp [startsNumber, hc] at h
    | d :: ds, h =>
      have hstarts : c = '-' ∧ Text.isDigit d = true := by simpa [startsNumber, hc] using h
      rw [hstarts.1, numberBody, if_pos hstarts.2]
      exact numeral_numberBody (.inr rfl) ds [d] (by simp) (by simpa using hstarts.2)

/-- **What characters spell**, where `rest` follows them: the kind and the value of their token. A symbol
starts where no other token does and goes as far as it can. -/
inductive Spells (rest : List Char) : Kind → List Char → List Char → Prop where
  | leftParen : Spells rest .leftParen ['('] ['(']
  | rightParen : Spells rest .rightParen [')'] [')']
  | quote : Spells rest .quote ['\x27'] ['\x27']
  | number {cs : List Char} : Numeral rest cs → Spells rest .number cs cs
  | symbol {c : Char} {cs : List Char} : StartsSymbol c (cs ++ rest) →
      (∀ d ∈ c :: cs, inSymbol d = true) → (∀ d ∈ rest.head?, inSymbol d = false) →
      Spells rest .symbol (c :: cs) (c :: cs)
  | string {cs value : List Char} : Contents rest cs value → Spells rest .string ('"' :: cs) value
  | date {cs value : List Char} : DateContents rest cs value →
      Spells rest .date ('#' :: 'd' :: '"' :: cs) value

theorem spells_scan {c : Char} (hblank : Text.isBlank c = false) (hcomment : c ≠ ';')
    (cs : List Char) :
    Spells (scan c cs).rest (scan c cs).kind (scan c cs).span (scan c cs).value := by
  unfold scan
  split
  · next h => rw [h]; exact .leftParen
  split
  · next h => rw [h]; exact .rightParen
  split
  · next h => rw [h]; exact .quote
  split
  · next h => rw [h]; exact .string (contents_stringBody cs)
  split
  · next text htext =>
    obtain ⟨rfl, -⟩ := List.cons.inj (eq_of_dateText? htext)
    exact .date (dateContents_dateBody text)
  · next hopen hclose hmark hquote _ hdate =>
    split
    · next h => exact .number (numeral_of_startsNumber h)
    · next hnumber =>
      have hstarts : StartsSymbol c cs :=
        ⟨hopen, hclose, hmark, hquote, hdate, by simpa using hnumber⟩
      have hc : inSymbol c = true := by simp [inSymbol, hblank, hcomment, hopen, hclose]
      refine .symbol ?_ (List.forall_mem_cons.mpr ⟨hc, fun d hd => ?_⟩) fun d hd => ?_
      · rwa [List.takeWhile_append_dropWhile]
      · exact List.all_eq_true.mp List.all_takeWhile d hd
      · have hhead := List.head?_dropWhile_not inSymbol cs
        rw [Option.mem_def.mp hd] at hhead
        simpa using hhead

/-! ### All tokens -/

/-- A token and the characters of the text that it covers, from `start` on and before `stop`. -/
structure Span where
  token : Token
  start : Nat
  stop : Nat

/-- **The spans cover the text** from a position on: they are not empty and follow each other, only
blanks and comments are between them and after them, and each token stands at the place of its first
character, with the kind and the value that its characters spell. -/
def Cover (text : List Char) : Nat → List Span → Prop
  | pos, [] => pos ≤ text.length ∧ Filler [] (text.drop pos)
  | pos, s :: spans =>
    (pos ≤ s.start ∧ s.start < s.stop ∧ s.stop ≤ text.length) ∧
    Filler (text.drop s.start) (text.extract pos s.start) ∧
    s.token.place = .after (text.take s.start) ∧
    Spells (text.drop s.stop) s.token.kind (text.extract s.start s.stop) s.token.value.toList ∧
    Cover text s.stop spans

theorem Spells.kind_ne {rest span value : List Char} {kind : Kind} (h : Spells rest kind span value) :
    kind ≠ .endOfInput := by
  rintro rfl
  cases h

/-- What is known of one of the spans that cover a text. -/
theorem Cover.of_mem {text : List Char} {s : Span} : ∀ {spans : List Span} {pos : Nat},
    Cover text pos spans → s ∈ spans →
      (s.start < s.stop ∧ s.stop ≤ text.length) ∧ s.token.place = .after (text.take s.start) ∧
        Spells (text.drop s.stop) s.token.kind (text.extract s.start s.stop) s.token.value.toList
  | [], _, _, h => nomatch h
  | _ :: _, _, ⟨⟨_, hstart, hstop⟩, _, hplace, hspells, hspans⟩, h => by
    rcases List.mem_cons.mp h with rfl | h
    · exact ⟨⟨hstart, hstop⟩, hplace, hspells⟩
    · exact hspans.of_mem h

theorem Cover.isEnd {text : List Char} {spans : List Span} {pos : Nat} (h : Cover text pos spans) :
    ∀ s ∈ spans, s.token.isEnd = false := fun s hs => by
  simpa [Token.isEnd] using (h.of_mem hs).2.2.kind_ne

theorem extract_append (before middle after : List Char) :
    (before ++ middle ++ after).extract before.length (before ++ middle).length = middle := by
  simp [List.append_assoc]

theorem take_append_extract (text : List Char) {start stop : Nat} (h : start ≤ stop) :
    text.take start ++ text.extract start stop = text.take stop := by
  rw [List.extract_eq_take_drop, ← List.take_add, Nat.add_sub_cancel' h]

theorem extract_append_drop (text : List Char) {start stop : Nat} (h : start ≤ stop) :
    text.extract start stop ++ text.drop stop = text.drop start := by
  have hstop : text.drop stop = (text.drop start).drop (stop - start) := by
    rw [List.drop_drop, Nat.add_sub_cancel' h]
  rw [List.extract_eq_take_drop, hstop, List.take_append_drop]

/-- **Cutting the rest of a text** gives tokens that cover it. -/
theorem exists_cover (cs : List Char) : ∀ before : List Char,
    ∃ spans, scanFrom (.after before) cs =
        spans.map Span.token ++ [.atEnd (.after (before ++ cs))] ∧
      Cover (before ++ cs) before.length spans := by
  induction cs using cutting with
  | blank cs h =>
    intro before
    have hall : (skip false cs).1 = cs := by
      have := skip_append false cs
      rwa [h, List.append_nil] at this
    have hfiller : Filler [] cs := by
      have := (filler_skip false cs).1 rfl
      rwa [h, hall] at this
    refine ⟨[], ?_, by simp, ?_⟩
    · rw [scanFrom_of_skip_nil h, hall, Place.advanceAll_after]
      rfl
    · rwa [List.drop_left]
  | token cs c rest h ih =>
    intro before
    let gap := (skip false cs).1
    let t := scan c rest
    obtain ⟨spans, htokens, hcover⟩ := ih (before ++ gap ++ t.span)
    have htext : before ++ cs = before ++ gap ++ t.span ++ t.rest := by
      rw [← cut_append h]
      simp only [List.append_assoc, gap, t]
    have hfiller : Filler (t.span ++ t.rest) gap := by
      have := (filler_skip false cs).1 rfl
      rwa [h, ← scan_append] at this
    obtain ⟨hblank, hcomment⟩ := not_isBlank_of_skip h
    have hspells : Spells t.rest t.kind t.span t.value := spells_scan hblank hcomment rest
    have hpos : 0 < t.span.length := List.length_pos_iff.mpr (scan_span_ne_nil c rest)
    refine ⟨⟨⟨t.kind, String.ofList t.value, .after (before ++ gap)⟩, (before ++ gap).length,
      (before ++ gap ++ t.span).length⟩ :: spans, ?_, ?_⟩
    · rw [scanFrom_of_skip_cons h, Place.advanceAll_after, Place.advanceAll_after, htokens, htext]
      rfl
    · rw [htext]
      refine ⟨?_, ?_, ?_, ?_, hcover⟩
      · simp only [List.length_append]
        omega
      · rw [List.append_assoc (before ++ gap), List.drop_left, extract_append]
        exact hfiller
      · rw [List.append_assoc (before ++ gap), List.take_left]
      · rw [List.drop_left, extract_append, String.toList_ofList]
        exact hspells

/-- **A token in its text**: what it covers spells it, and it stands at the place after what is before. -/
theorem exists_spells {source : String} {t : Token} (ht : t ∈ ofText source) (hend : t.isEnd = false) :
    ∃ before span rest, source.toList = before ++ span ++ rest ∧ t.place = .after before ∧
      Spells rest t.kind span t.value.toList := by
  obtain ⟨spans, htokens, hcover⟩ := exists_cover source.toList []
  rw [List.nil_append] at htokens hcover
  have hmem : t ∈ spans.map Span.token ++ [.atEnd (.after source.toList)] := htokens ▸ ht
  rcases List.mem_append.mp hmem with hmem | hmem
  · obtain ⟨s, hs, rfl⟩ := List.mem_map.mp hmem
    obtain ⟨⟨hstart, hstop⟩, hplace, hspells⟩ := hcover.of_mem hs
    refine ⟨_, _, _, ?_, hplace, hspells⟩
    rw [List.append_assoc, extract_append_drop _ hstart.le, List.take_append_drop]
  · rw [List.mem_singleton.mp hmem] at hend
    cases hend

/-- **The tokens of a text cover it.** They are the tokens of spans that follow each other in the text
with nothing but blanks and comments between them, then one end, which stands at the place after the
whole text. -/
theorem ofText_spans (source : String) :
    ∃ spans : List Span,
      ofText source = spans.map Span.token ++ [.atEnd (.after source.toList)] ∧
      (∀ s ∈ spans, s.token.isEnd = false) ∧ Cover source.toList 0 spans := by
  obtain ⟨spans, htokens, hcover⟩ := exists_cover source.toList []
  exact ⟨spans, htokens, hcover.isEnd, hcover⟩

end Token

end MiniLisp
