import MiniLisp.Proofs.Editor.Outline

/-! # The word at a symbol

The word at a place of a text is the longest run of characters around it that break no word (`wordAt?_append`).
A symbol ends where the reader's blanks, parentheses and comments start, and all of these but comments break a
word; in front of it is the start of the text, a blank, or another token that ends there (`Token.Cover.before`),
and all of these but numbers break a word. So the word at a symbol is the symbol, unless a number ends where it
starts or a comment starts where it ends (`wordAt?_symbol`). -/

namespace MiniLisp

/-! ### Lines -/

namespace Text

theorem isBlank_of_isLineBreak {c : Char} (h : isLineBreak c = true) : isBlank c = true := by
  simp only [isLineBreak, isBlank, Bool.or_eq_true, Bool.and_eq_true, decide_eq_true_eq,
    beq_iff_eq] at h ⊢
  omega

theorem splitLines_newline (cs : List Char) : splitLines ('\n' :: cs) = ['\n'] :: splitLines cs := by
  rw [splitLines]
  · rfl
  · simp

theorem splitLines_cons {c : Char} (hc : isLineBreak c = false) (cs : List Char) :
    splitLines (c :: cs) = (c :: (splitLines cs).headD []) :: (splitLines cs).tail := by
  rw [splitLines]
  · rw [hc]
    cases splitLines cs <;> rfl
  · rintro _ rfl
    exact absurd hc (by decide)

/-- Where only line feeds end lines, splitting keeps these, and otherwise gives what is between them. -/
theorem getD_splitLines : ∀ {cs : List Char}, (∀ c ∈ cs, isLineBreak c = true → c = '\n') → ∀ n : Nat,
    ∃ ending : List Char, (ending = [] ∨ ending = ['\n']) ∧
      (splitLines cs)[n]?.getD [] = (cs.splitOn '\n')[n]?.getD [] ++ ending
  | [], _, n => ⟨[], .inl rfl, by cases n <;> simp [splitLines]⟩
  | c :: cs, hcs, n => by
    rw [List.forall_mem_cons] at hcs
    obtain ⟨hc, hcs⟩ := hcs
    rw [List.splitOn_cons_eq_if_modifyHead]
    by_cases hnewline : c = '\n'
    · rw [hnewline, splitLines_newline, if_pos (by decide)]
      cases n with
      | zero => exact ⟨['\n'], .inr rfl, rfl⟩
      | succ n => exact getD_splitLines hcs n
    · have hbreak : isLineBreak c = false := Bool.eq_false_iff.mpr fun h => hnewline (hc h)
      rw [splitLines_cons hbreak, if_neg (by simpa using hnewline)]
      obtain ⟨ending, hending, hline⟩ := getD_splitLines hcs n
      refine ⟨ending, hending, ?_⟩
      cases n with
      | zero =>
        have hfirst : ∃ line, (cs.splitOn '\n')[0]? = some line := by
          rw [← List.head?_eq_getElem?]
          exact ⟨_, Place.head?_splitOn cs⟩
        obtain ⟨line, hfirst⟩ := hfirst
        rw [List.getElem?_modifyHead_zero, hfirst]
        rw [hfirst, ← List.head?_eq_getElem?, ← List.headD_eq_head?_getD] at hline
        exact congrArg (c :: ·) hline
      | succ n =>
        rw [List.getElem?_modifyHead_succ, ← hline]
        cases splitLines cs <;> rfl

end Text

namespace Editor

/-! ### Runs of characters that break no word -/

/-- The end of a text, as far as no character breaks the word. -/
def wordBefore (cs : List Char) : List Char := (cs.reverse.takeWhile (!breaksWord ·)).reverse

/-- The start of a text, as far as no character breaks the word. -/
def wordAfter (cs : List Char) : List Char := cs.takeWhile (!breaksWord ·)

theorem wordBefore_append {cs : List Char} (hcs : ∀ c ∈ cs, breaksWord c = false) (before : List Char) :
    wordBefore (before ++ cs) = wordBefore before ++ cs := by
  rw [wordBefore, List.reverse_append, List.takeWhile_append_of_pos, List.reverse_append,
    List.reverse_reverse, wordBefore]
  intro c hc
  simpa using hcs c (List.mem_reverse.mp hc)

theorem wordAfter_append {cs : List Char} (hcs : ∀ c ∈ cs, breaksWord c = false) (rest : List Char) :
    wordAfter (cs ++ rest) = cs ++ wordAfter rest := by
  rw [wordAfter, List.takeWhile_append_of_pos, wordAfter]
  simpa using hcs

theorem wordBefore_eq_nil {cs : List Char} (h : ∀ c ∈ cs.getLast?, breaksWord c = true) :
    wordBefore cs = [] := by
  rw [← List.head?_reverse] at h
  rw [wordBefore]
  cases hcs : cs.reverse with
  | nil => rfl
  | cons c rest =>
    rw [List.takeWhile_cons_of_neg (by simp [h c (by rw [hcs]; rfl)])]
    rfl

theorem wordAfter_eq_nil {cs : List Char} (h : ∀ c ∈ cs.head?, breaksWord c = true) :
    wordAfter cs = [] := by
  cases cs with
  | nil => rfl
  | cons c rest => exact List.takeWhile_cons_of_neg (by simp [h c rfl])

/-- A word does not go beyond its line. -/
theorem takeWhile_line (cs : List Char) :
    (cs.takeWhile (· ≠ '\n')).takeWhile (!breaksWord ·) = cs.takeWhile (!breaksWord ·) := by
  rw [List.takeWhile_takeWhile]
  congr 1
  funext c
  by_cases hc : c = '\n'
  · rw [hc]
    rfl
  · simp [hc]

theorem wordBefore_lastLine (cs : List Char) : wordBefore (Place.lastLine cs) = wordBefore cs := by
  rw [wordBefore, Place.lastLine, List.reverse_reverse, takeWhile_line, wordBefore]

theorem wordAfter_line {ending : List Char} (hending : ending = [] ∨ ending = ['\n']) (cs : List Char) :
    wordAfter (cs.takeWhile (· ≠ '\n') ++ ending) = wordAfter cs := by
  have hnone : ending.takeWhile (!breaksWord ·) = [] := by
    rcases hending with rfl | rfl <;> rfl
  rw [wordAfter, wordAfter, ← takeWhile_line cs, List.takeWhile_append, hnone, List.append_nil]
  split
  · next h => exact ((List.takeWhile_prefix _).eq_of_length h).symm
  · rfl

/-! ### The word at a place -/

theorem wordAt?_eq (text : String) (p : Position) : wordAt? text p =
    let word := wordChars ((lineAt? text p).getD []) p.character
    if word = [] then none else some (String.ofList word) := by
  unfold wordAt?
  split
  · next line hline => simp [hline]
  · next hline => simp [hline, wordChars]

/-- The only blanks are spaces, tabs and line feeds. -/
def PlainBlanks (cs : List Char) : Prop := ∀ c ∈ cs, Text.isBlank c = true → c = ' ' ∨ c = '\t' ∨ c = '\n'

instance (cs : List Char) : Decidable (PlainBlanks cs) := List.decidableBAll _ cs

/-- **The word at a place** is what is around it up to characters that break a word. -/
theorem wordAt?_append {text : String} {before rest : List Char} {p : Position}
    (htext : text.toList = before ++ rest) (hblanks : PlainBlanks text.toList)
    (hline : p.line = before.count '\n') (hcharacter : p.character = (Place.lastLine before).length) :
    wordAt? text p =
      if wordBefore before ++ wordAfter rest = [] then none
      else some (String.ofList (wordBefore before ++ wordAfter rest)) := by
  have hbreaks : ∀ c ∈ text.toList, Text.isLineBreak c = true → c = '\n' := fun c hc hbreak => by
    rcases hblanks c hc (Text.isBlank_of_isLineBreak hbreak) with rfl | rfl | rfl
    · exact absurd hbreak (by decide)
    · exact absurd hbreak (by decide)
    · rfl
  obtain ⟨ending, hending, hlines⟩ := Text.getD_splitLines hbreaks p.line
  have hat : (lineAt? text p).getD [] =
      Place.lastLine before ++ (rest.takeWhile (· ≠ '\n') ++ ending) := by
    rw [lineAt?, hlines, htext, hline, Place.getElem?_splitOn_count, Option.getD_some, List.append_assoc]
  have hword : wordChars ((lineAt? text p).getD []) p.character = wordBefore before ++ wordAfter rest := by
    rw [wordChars, hat, hcharacter, List.take_left, List.drop_left, ← wordBefore_lastLine,
      ← wordAfter_line hending, wordBefore, wordAfter]
  rw [wordAt?_eq, hword]

/-! ### Characters -/

theorem mem_of_breaksWord {c : Char} (h : breaksWord c = true) :
    c ∈ [' ', '\t', '(', ')', '\n', '\r', '\x27', '"'] := List.contains_iff_mem.mp h

theorem breaksWord_eq_false_of_inSymbol {c : Char} (hc : Token.inSymbol c = true)
    (hquotes : c ≠ '\x27' ∧ c ≠ '"') : breaksWord c = false := by
  refine Bool.eq_false_iff.mpr fun h => ?_
  have hmem := mem_of_breaksWord h
  simp only [List.mem_cons, List.not_mem_nil, or_false] at hmem
  rcases hmem with rfl | rfl | rfl | rfl | rfl | rfl | rfl | rfl
  · exact absurd hc (by decide)
  · exact absurd hc (by decide)
  · exact absurd hc (by decide)
  · exact absurd hc (by decide)
  · exact absurd hc (by decide)
  · exact absurd hc (by decide)
  · exact hquotes.1 rfl
  · exact hquotes.2 rfl

theorem breaksWord_eq_false_of_isDigit {c : Char} (hc : Text.isDigit c = true) : breaksWord c = false := by
  refine Bool.eq_false_iff.mpr fun h => ?_
  have hmem := mem_of_breaksWord h
  simp only [List.mem_cons, List.not_mem_nil, or_false] at hmem
  rcases hmem with rfl | rfl | rfl | rfl | rfl | rfl | rfl | rfl <;> exact absurd hc (by decide)

/-- What a symbol does not go on with breaks a word, unless it starts a comment. -/
theorem breaksWord_of_inSymbol_eq_false {c : Char} (hc : Token.inSymbol c = false)
    (hblank : Text.isBlank c = true → c = ' ' ∨ c = '\t' ∨ c = '\n') (hcomment : c ≠ ';') :
    breaksWord c = true := by
  simp only [Token.inSymbol, Bool.not_eq_false', Bool.or_eq_true, beq_iff_eq] at hc
  rcases hc with ((hc | rfl) | rfl) | rfl
  · rcases hblank hc with rfl | rfl | rfl <;> rfl
  · rfl
  · rfl
  · exact absurd rfl hcomment

end Editor

/-! ### What is in front of a token -/

namespace Token

open Editor

/-- Blanks and comments in front of a token end with a blank. -/
theorem Filler.isBlank_of_getLast? {rest cs : List Char} (h : Filler rest cs)
    (hrest : ∃ c ∈ rest.head?, c ≠ '\n') : ∀ c ∈ cs.getLast?, Text.isBlank c = true := by
  induction h with
  | nil => simp
  | @blank c cs hc _ ih =>
    intro d hd
    rw [List.getLast?_cons] at hd
    cases hlast : cs.getLast? with
    | none =>
      rw [hlast] at hd
      cases hd
      exact hc
    | some e =>
      rw [hlast] at hd
      exact ih d (hlast.trans hd)
  | @comment body cs _ hends _ ih =>
    obtain ⟨r, hr, hne⟩ := hrest
    -- the comment ends before what follows, so it is not the last of the blanks and comments
    have hcs : cs ≠ [] := by
      rintro rfl
      exact hne (hends r hr)
    have hlast : (';' :: (body ++ cs)).getLast? = cs.getLast? := by
      rw [List.getLast?_cons, List.getLast?_append, List.getLast?_eq_some_getLast hcs]
      rfl
    rwa [hlast]

/-- **What is in front of a token**: the start of the text, a blank, or another token. -/
theorem Cover.before {text : List Char} {s : Span} (hs : ∃ c ∈ text[s.start]?, c ≠ '\n') :
    ∀ {spans : List Span} {pos : Nat}, Cover text pos spans → s ∈ spans →
      s.start = pos ∨ (∃ c ∈ (text.take s.start).getLast?, Text.isBlank c = true) ∨
        ∃ r ∈ spans, r.stop = s.start
  | [], _, _, h => nomatch h
  | r :: spans, pos, ⟨⟨hpos, hstart, hstop⟩, hfiller, _, _, hspans⟩, h => by
    rcases List.mem_cons.mp h with rfl | h
    · obtain ⟨c, hc, hne⟩ := hs
      have hgap := hfiller.isBlank_of_getLast? ⟨c, by rwa [List.head?_drop], hne⟩
      have htake := take_append_extract text hpos
      rw [← htake]
      by_cases hempty : text.extract pos s.start = []
      · have hlength := congrArg List.length htake
        rw [hempty, List.append_nil, List.length_take_of_le, List.length_take_of_le] at hlength
        · exact .inl hlength.symm
        · omega
        · omega
      · have hlast := List.getLast?_eq_some_getLast hempty
        refine .inr (.inl ⟨_, ?_, hgap _ hlast⟩)
        rw [List.getLast?_append, hlast]
        rfl
    · rcases Cover.before hs hspans h with hr | hblank | ⟨r', hr', hstop'⟩
      · exact .inr (.inr ⟨r, List.mem_cons_self, hr.symm⟩)
      · exact .inr (.inl hblank)
      · exact .inr (.inr ⟨r', List.mem_cons_of_mem _ hr', hstop'⟩)

/-- **The text in front of a token** is empty, ends with a blank, or ends with the spelling of another token. -/
theorem Cover.front {text : List Char} {spans : List Span} {s : Span} (h : Cover text 0 spans) (hs : s ∈ spans)
    (hfirst : ∃ c ∈ text[s.start]?, c ≠ '\n') :
    text.take s.start = [] ∨ (∃ c ∈ (text.take s.start).getLast?, Text.isBlank c = true) ∨
      ∃ r ∈ spans, ∃ front span, text.take s.start = front ++ span ∧ r.token.place = .after front ∧
        Spells (text.drop s.start) r.token.kind span r.token.value.toList := by
  rcases h.before hfirst hs with hzero | hblank | ⟨r, hr, hadjacent⟩
  · exact .inl (by rw [hzero, List.take_zero])
  · exact .inr (.inl hblank)
  · obtain ⟨⟨hstart, -⟩, hplace, hspells⟩ := h.of_mem hr
    rw [hadjacent] at hstart hspells
    exact .inr (.inr ⟨r, hr, _, _, (take_append_extract text hstart.le).symm, hplace, hspells⟩)

theorem Contents.getLast?_eq {rest cs value : List Char} (h : Contents rest cs value) (hrest : rest ≠ []) :
    cs.getLast? = some '"' := by
  induction h with
  | closed => rfl
  | unclosed h => exact absurd h hrest
  | backslash h => exact absurd h hrest
  | escape h ih => rw [List.getLast?_cons, List.getLast?_cons, ih]; rfl
  | plain _ _ h ih => rw [List.getLast?_cons, ih]; rfl

theorem DateContents.getLast?_eq {rest cs value : List Char} (h : DateContents rest cs value)
    (hrest : rest ≠ []) : cs.getLast? = some '"' := by
  rcases h.2 with rfl | ⟨-, h⟩
  · simp
  · exact absurd h hrest

/-- A number breaks no word. -/
theorem Numeral.breaksWord {rest cs : List Char} (h : Numeral rest cs) :
    cs ≠ [] ∧ ∀ c ∈ cs, breaksWord c = false := by
  obtain ⟨minus, whole, fraction, rfl, hminus, hne, hwhole, -, hfraction⟩ := h
  refine ⟨by simp [hne], fun c hc => ?_⟩
  rcases List.mem_append.mp hc with hc | hc
  · rcases List.mem_append.mp hc with hc | hc
    · rcases hminus with rfl | rfl
      · cases hc
      · rw [List.mem_singleton.mp hc]
        rfl
    · exact breaksWord_eq_false_of_isDigit (hwhole c hc)
  · rcases hfraction with ⟨rfl, -⟩ | ⟨digits, rfl, hdigits⟩
    · cases hc
    · rcases List.mem_cons.mp hc with rfl | hc
      · rfl
      · exact breaksWord_eq_false_of_isDigit (hdigits c hc)

/-- **A token in front of a symbol breaks the word**, unless it is a number. -/
theorem Spells.exists_breaksWord {rest span value : List Char} {kind : Kind}
    (h : Spells rest kind span value) (hrest : ∃ c ∈ rest.head?, inSymbol c = true) (hkind : kind ≠ .number) :
    ∃ c ∈ span.getLast?, breaksWord c = true := by
  obtain ⟨d, hd, hsymbol⟩ := hrest
  have hne : rest ≠ [] := by
    rintro rfl
    cases hd
  cases h with
  | leftParen => exact ⟨'(', rfl, rfl⟩
  | rightParen => exact ⟨')', rfl, rfl⟩
  | quote => exact ⟨'\x27', rfl, rfl⟩
  | number => exact absurd rfl hkind
  | symbol _ _ hends =>
    rw [hends d hd] at hsymbol
    cases hsymbol
  | string h =>
    refine ⟨'"', ?_, rfl⟩
    rw [List.getLast?_cons, h.getLast?_eq hne]
    rfl
  | date h =>
    refine ⟨'"', ?_, rfl⟩
    rw [List.getLast?_cons, List.getLast?_cons, List.getLast?_cons, h.getLast?_eq hne]
    rfl

/-! ### A symbol in its text -/

/-- **Where a symbol is in a text**: what is before it and what follows. Before it is nothing, a blank, or another
token. -/
structure SymbolAt (source : String) (t : Token) (before rest : List Char) : Prop where
  text_eq : source.toList = before ++ (t.value.toList ++ rest)
  place_eq : t.place = .after before
  ne_nil : t.value.toList ≠ []
  chars : ∀ c ∈ t.value.toList, inSymbol c = true
  ends : ∀ c ∈ rest.head?, inSymbol c = false
  front : before = [] ∨ (∃ c ∈ before.getLast?, Text.isBlank c = true) ∨
    ∃ u ∈ ofText source, ∃ front span, before = front ++ span ∧ u.place = .after front ∧
      Spells (t.value.toList ++ rest) u.kind span u.value.toList

theorem exists_symbolAt {source : String} {t : Token} (ht : t ∈ ofText source) (hkind : t.kind = .symbol) :
    ∃ before rest, SymbolAt source t before rest := by
  obtain ⟨spans, htokens, hcover⟩ := exists_cover source.toList []
  rw [List.nil_append] at htokens hcover
  have htokens : ofText source = spans.map Span.token ++ [.atEnd (.after source.toList)] := htokens
  have hmem := htokens ▸ ht
  rcases List.mem_append.mp hmem with hmem | hmem
  · obtain ⟨s, hs, rfl⟩ := List.mem_map.mp hmem
    obtain ⟨⟨hstart, hstop⟩, hplace, hspells⟩ := hcover.of_mem hs
    rw [hkind] at hspells
    have hdrop : source.toList.drop s.start =
        source.toList.extract s.start s.stop ++ source.toList.drop s.stop :=
      (extract_append_drop _ hstart.le).symm
    generalize source.toList.extract s.start s.stop = span at hspells hdrop
    generalize hvalue : s.token.value.toList = value at hspells
    cases hspells with
    | @symbol c cs _ hchars hends =>
      refine ⟨source.toList.take s.start, source.toList.drop s.stop, ?_, hplace, ?_, ?_, hends, ?_⟩
      · rw [hvalue, ← hdrop, List.take_append_drop]
      · rw [hvalue]
        exact List.cons_ne_nil _ _
      · rwa [hvalue]
      · have hfirst : ∃ c ∈ source.toList[s.start]?, c ≠ '\n' := by
          refine ⟨c, ?_, ?_⟩
          · rw [← List.head?_drop, hdrop]
            rfl
          · rintro rfl
            exact absurd (hchars _ List.mem_cons_self) (by decide)
        rcases hcover.front hs hfirst with hnil | hblank | ⟨r, hr, front, span, hfront, hplace', hspells⟩
        · exact .inl hnil
        · exact .inr (.inl hblank)
        · have hmem' : r.token ∈ ofText source := by
            rw [htokens]
            exact List.mem_append_left _ (List.mem_map_of_mem hr)
          refine .inr (.inr ⟨r.token, hmem', front, span, hfront, hplace', ?_⟩)
          rwa [hvalue, ← hdrop]
  · rw [List.mem_singleton.mp hmem] at hkind
    cases hkind

end Token

theorem Place.eq_nil_of_after_append {cs ds : List Char} (h : after (cs ++ ds) = after cs) : ds = [] := by
  have hoffset := congrArg Place.offset h
  have hsize : (String.ofList ds).utf8ByteSize = 0 := by
    simp only [after, String.ofList_append, String.utf8ByteSize_append] at hoffset
    omega
  rw [String.utf8ByteSize_eq_zero_iff] at hsize
  simpa using hsize

/-- At most one start of a text goes up to a place. -/
theorem Place.eq_of_after_eq {text cs ds : List Char} (hcs : cs <+: text) (hds : ds <+: text)
    (h : after cs = after ds) : cs = ds := by
  rcases List.prefix_or_prefix_of_prefix hcs hds with ⟨more, rfl⟩ | ⟨more, rfl⟩
  · rw [eq_nil_of_after_append h.symm, List.append_nil]
  · rw [eq_nil_of_after_append h, List.append_nil]

namespace Token

open Editor

variable {source : String} {t : Token} {before rest : List Char}

/-- A number ends where the token starts. -/
def FollowsNumber (source : String) (t : Token) : Prop :=
  ∃ u ∈ ofText source, u.kind = .number ∧ u.place.advanceAll u.value.toList = t.place

/-- A comment starts where the value of the token ends. -/
def PrecedesComment (source : String) (t : Token) : Prop :=
  ∃ before rest, source.toList = before ++ (t.value.toList ++ ';' :: rest) ∧ t.place = .after before

theorem SymbolAt.before_eq (h : SymbolAt source t before rest) {before' rest' : List Char}
    (htext : source.toList = before' ++ rest') (hplace : t.place = .after before') : before = before' :=
  Place.eq_of_after_eq ⟨_, h.text_eq.symm⟩ ⟨_, htext.symm⟩ (h.place_eq.symm.trans hplace)

theorem SymbolAt.wordAfter_eq_nil_iff (h : SymbolAt source t before rest)
    (hblanks : PlainBlanks source.toList) : wordAfter rest = [] ↔ ¬ PrecedesComment source t := by
  constructor
  · rintro hrest ⟨before', rest', htext, hplace⟩
    have hsame := h.text_eq.symm.trans htext
    rw [h.before_eq htext hplace, List.append_cancel_left_eq, List.append_cancel_left_eq] at hsame
    rw [hsame] at hrest
    cases hrest
  · refine fun hcomment => wordAfter_eq_nil fun c hc => ?_
    obtain ⟨more, rfl⟩ : ∃ more, rest = c :: more := List.head?_eq_some_iff.mp hc
    refine breaksWord_of_inSymbol_eq_false (h.ends c hc) (hblanks c (by simp [h.text_eq])) ?_
    rintro rfl
    exact hcomment ⟨before, more, h.text_eq, h.place_eq⟩

theorem SymbolAt.wordBefore_eq_nil_iff (h : SymbolAt source t before rest)
    (hblanks : PlainBlanks source.toList) : wordBefore before = [] ↔ ¬ FollowsNumber source t := by
  constructor
  · rintro hbefore ⟨u, hu, hkind, hplace⟩
    obtain ⟨front, span, rest', htext, hu', hspells⟩ := exists_spells hu (by rw [isEnd, hkind]; rfl)
    rw [hkind] at hspells
    generalize hvalue : u.value.toList = value at hspells hplace
    cases hspells with
    | number hnumeral =>
      rw [hu', Place.advanceAll_after] at hplace
      rw [h.before_eq htext hplace.symm, wordBefore_append hnumeral.breaksWord.2, List.append_eq_nil_iff]
        at hbefore
      exact hnumeral.breaksWord.1 hbefore.2
  · refine fun hnumber => wordBefore_eq_nil fun c hc => ?_
    rcases h.front with rfl | ⟨d, hd, hblank⟩ | ⟨u, hu, front, span, rfl, hplace, hspells⟩
    · cases hc
    · obtain rfl : d = c := Option.some.inj (hd.symm.trans hc)
      have hmem : d ∈ source.toList := by
        rw [h.text_eq]
        exact List.mem_append_left _ (List.mem_of_getLast? hd)
      rcases hblanks d hmem hblank with rfl | rfl | rfl <;> rfl
    · obtain ⟨first, more, hvalue⟩ := List.exists_cons_of_ne_nil h.ne_nil
      have hfirst : inSymbol first = true := h.chars first (by simp [hvalue])
      have hkind : u.kind ≠ .number := fun hkind => by
        rw [hkind] at hspells
        generalize hu' : u.value.toList = value at hspells
        cases hspells with
        | number _ => exact hnumber ⟨u, hu, hkind, by rw [hplace, hu', Place.advanceAll_after, h.place_eq]⟩
      obtain ⟨d, hd, hbreak⟩ := hspells.exists_breaksWord ⟨first, by simp [hvalue], hfirst⟩ hkind
      rw [List.getLast?_append, Option.mem_def.mp hd] at hc
      cases hc
      exact hbreak

end Token

/-! ### The word at a symbol -/

theorem Place.lastLine_append {cs : List Char} (hcs : '\n' ∉ cs) (before : List Char) :
    lastLine (before ++ cs) = lastLine before ++ cs := by
  rw [lastLine, List.reverse_append, List.takeWhile_append_of_pos, List.reverse_append, List.reverse_reverse,
    lastLine]
  intro c hc
  simpa using ne_of_mem_of_not_mem (List.mem_reverse.mp hc) hcs

namespace Editor

open Token

variable {source : String} {t : Token} {p : Position}

/-- The word at a symbol is the symbol with what the word goes on with on both sides. -/
theorem wordAt?_symbolAt {before rest : List Char} (h : SymbolAt source t before rest)
    (hblanks : PlainBlanks source.toList) (hquotes : '\x27' ∉ t.value.toList ∧ '"' ∉ t.value.toList)
    (hline : p.line + 1 = t.place.line) (hstart : t.place.column ≤ p.character + 1)
    (hstop : p.character + 1 ≤ t.place.column + t.value.length) :
    wordAt? source p = some (String.ofList (wordBefore before ++ (t.value.toList ++ wordAfter rest))) := by
  have hvalue : ∀ c ∈ t.value.toList, breaksWord c = false := fun c hc =>
    breaksWord_eq_false_of_inSymbol (h.chars c hc)
      ⟨ne_of_mem_of_not_mem hc hquotes.1, ne_of_mem_of_not_mem hc hquotes.2⟩
  have hnewline : '\n' ∉ t.value.toList := fun hc => absurd (h.chars _ hc) (by decide)
  obtain ⟨n, hn⟩ := Nat.exists_eq_add_of_le hstart
  have hcolumn : t.place.column = 1 + (Place.lastLine before).length := by
    rw [h.place_eq, Place.column_after]
  have hline' : t.place.line = 1 + before.count '\n' := by rw [h.place_eq]; rfl
  have hlength : n ≤ t.value.toList.length := by
    rw [String.length_toList]
    omega
  have htake : '\n' ∉ t.value.toList.take n := fun hc => hnewline (List.mem_of_mem_take hc)
  have htext : source.toList = (before ++ t.value.toList.take n) ++ (t.value.toList.drop n ++ rest) := by
    rw [List.append_assoc, ← List.append_assoc (t.value.toList.take n), List.take_append_drop, h.text_eq]
  have hword := wordAt?_append (p := p) htext hblanks
    (by rw [List.count_append, List.count_eq_zero_of_not_mem htake]; omega)
    (by rw [Place.lastLine_append htake, List.length_append, List.length_take_of_le hlength]; omega)
  rw [wordBefore_append fun c hc => hvalue c (List.mem_of_mem_take hc),
    wordAfter_append fun c hc => hvalue c (List.mem_of_mem_drop hc), List.append_assoc,
    ← List.append_assoc (t.value.toList.take n), List.take_append_drop] at hword
  rw [hword, if_neg]
  simp [h.ne_nil]

/-- **The word at a symbol is the symbol**, at each place from its start to its end, exactly if no number ends
where it starts and no comment starts where it ends; so what is shown there is what there is to be shown of the
symbol. The blanks of the text are spaces, tabs and line feeds, and the symbol has no quotes in it. -/
theorem wordAt?_symbol (hblanks : PlainBlanks source.toList) (ht : t ∈ ofText source)
    (hkind : t.kind = .symbol) (hquotes : '\x27' ∉ t.value.toList ∧ '"' ∉ t.value.toList)
    (hline : p.line + 1 = t.place.line) (hstart : t.place.column ≤ p.character + 1)
    (hstop : p.character + 1 ≤ t.place.column + t.value.length) :
    (wordAt? source p = some t.value ↔ ¬ FollowsNumber source t ∧ ¬ PrecedesComment source t) ∧
    (¬ FollowsNumber source t → ¬ PrecedesComment source t →
      ∀ idx, hover? source idx p = describe? idx t.value) := by
  obtain ⟨before, rest, h⟩ := exists_symbolAt ht hkind
  have hword := wordAt?_symbolAt h hblanks hquotes hline hstart hstop
  have hsides : wordAt? source p = some t.value ↔ wordBefore before = [] ∧ wordAfter rest = [] := by
    rw [hword, Option.some_inj, ← String.toList_inj, String.toList_ofList]
    refine ⟨fun heq => ?_, fun ⟨hbefore, hafter⟩ => by rw [hbefore, hafter, List.nil_append, List.append_nil]⟩
    have hlength := congrArg List.length heq
    simp only [List.length_append] at hlength
    exact ⟨List.length_eq_zero_iff.mp (by omega), List.length_eq_zero_iff.mp (by omega)⟩
  have hiff : wordAt? source p = some t.value ↔ ¬ FollowsNumber source t ∧ ¬ PrecedesComment source t := by
    rw [hsides, h.wordBefore_eq_nil_iff hblanks, h.wordAfter_eq_nil_iff hblanks]
  refine ⟨hiff, fun hnumber hcomment idx => ?_⟩
  rw [hover?, hiff.mpr ⟨hnumber, hcomment⟩, Option.bind_some]

/-- A symbol right after a string of two lines, and one right after a number. -/
def adjoining : String := "\"a\nb\"car 1cdr"

theorem ofText_adjoining : ofText adjoining =
    [⟨.string, "a\nb", ⟨0, 1, 1⟩⟩, ⟨.symbol, "car", ⟨5, 2, 3⟩⟩, ⟨.number, "1", ⟨9, 2, 7⟩⟩,
      ⟨.symbol, "cdr", ⟨10, 2, 8⟩⟩, .atEnd ⟨13, 2, 11⟩] := by decide +kernel

/-- The first symbol is found from the place just after it, and the other one is not found. -/
theorem wordAt?_symbol_adjoining :
    (PlainBlanks adjoining.toList ∧ ⟨.symbol, "car", ⟨5, 2, 3⟩⟩ ∈ ofText adjoining ∧
      ⟨.symbol, "cdr", ⟨10, 2, 8⟩⟩ ∈ ofText adjoining) ∧
    (∀ idx, hover? adjoining idx ⟨1, 5⟩ = describe? idx "car") ∧ wordAt? adjoining ⟨1, 7⟩ ≠ some "cdr" := by
  have hblanks : PlainBlanks adjoining.toList := by decide
  have hcar : ⟨.symbol, "car", ⟨5, 2, 3⟩⟩ ∈ ofText adjoining := by rw [ofText_adjoining]; decide
  have hcdr : ⟨.symbol, "cdr", ⟨10, 2, 8⟩⟩ ∈ ofText adjoining := by rw [ofText_adjoining]; decide
  have hfirst := wordAt?_symbol (p := ⟨1, 5⟩) hblanks hcar rfl (by decide) rfl (by decide) (by decide)
  have hsecond := wordAt?_symbol (p := ⟨1, 7⟩) hblanks hcdr rfl (by decide) rfl (by decide) (by decide)
  obtain ⟨hnumber, hcomment⟩ := hfirst.1.mp (by decide +kernel)
  refine ⟨⟨hblanks, hcar, hcdr⟩, hfirst.2 hnumber hcomment, fun hword => (hsecond.1.mp hword).1 ?_⟩
  exact ⟨⟨.number, "1", ⟨9, 2, 7⟩⟩, by rw [ofText_adjoining]; decide, rfl, rfl⟩

/-- A symbol and right after it a comment. -/
def commented : String := "(car;head\n xs)"

/-- **The comment goes into the word**, so nothing is shown for the symbol. -/
theorem wordAt?_of_precedesComment :
    (PlainBlanks commented.toList ∧ ⟨.symbol, "car", ⟨1, 1, 2⟩⟩ ∈ ofText commented ∧
      PrecedesComment commented ⟨.symbol, "car", ⟨1, 1, 2⟩⟩) ∧
    wordAt? commented ⟨0, 1⟩ = some "car;head" ∧ some "car;head" ≠ some "car" ∧
    hover? commented .empty ⟨0, 1⟩ = none ∧ describe? .empty "car" = some "(car xs)" := by
  have htokens : ⟨.symbol, "car", ⟨1, 1, 2⟩⟩ ∈ ofText commented := by
    have hall : ofText commented = [⟨.leftParen, "(", ⟨0, 1, 1⟩⟩, ⟨.symbol, "car", ⟨1, 1, 2⟩⟩,
        ⟨.symbol, "xs", ⟨11, 2, 2⟩⟩, ⟨.rightParen, ")", ⟨13, 2, 4⟩⟩, .atEnd ⟨14, 2, 5⟩] := by decide +kernel
    rw [hall]
    decide
  have hcomment : PrecedesComment commented ⟨.symbol, "car", ⟨1, 1, 2⟩⟩ :=
    ⟨['('], "head\n xs)".toList, by decide, by decide⟩
  refine ⟨⟨by decide, htokens, hcomment⟩, ?_, by decide, ?_, ?_⟩
  all_goals decide +kernel

end Editor

end MiniLisp
