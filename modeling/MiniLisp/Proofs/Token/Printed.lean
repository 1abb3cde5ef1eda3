import MiniLisp.Proofs.DateTime.Printed
import MiniLisp.Proofs.Number.Literal
import MiniLisp.Proofs.Token.Cutting
import MiniLisp.Datum.Basic

/-! # The tokens of printed atoms

What stands after a printed form is nothing, a space, a line break or a closing parenthesis (`Separated`).
Each printed atom in front of such a text is cut off as one token, and the rest is cut as if it stood alone
(`scanFrom_string`, `scanFrom_literal`, `scanFrom_date`, `scanFrom_symbol`); so cutting a text is
compositional over printed forms. -/

namespace MiniLisp.Token

/-- What may follow a printed form. -/
def Separated (rest : List Char) : Prop := ∀ c ∈ rest.head?, c = ' ' ∨ c = ')' ∨ c = '\n'

theorem separated_nil : Separated [] := by
  intro c hc
  cases hc

theorem separated_cons {c : Char} (h : c = ' ' ∨ c = ')' ∨ c = '\n') (rest : List Char) :
    Separated (c :: rest) := by
  intro d hd
  cases hd
  exact h

theorem Separated.cases {rest : List Char} (h : Separated rest) :
    rest = [] ∨ ∃ c cs, rest = c :: cs ∧ (c = ' ' ∨ c = ')' ∨ c = '\n') := by
  cases rest with
  | nil => exact .inl rfl
  | cons c cs => exact .inr ⟨c, cs, rfl, h c rfl⟩

/-! ### Cutting off one token -/

/-- **A token at the start** of a text is cut off. -/
theorem scanFrom_cons {c : Char} (hblank : Text.isBlank c = false) (hcomment : c ≠ ';') (p : Place)
    (cs : List Char) :
    scanFrom p (c :: cs) = ⟨(scan c cs).kind, String.ofList (scan c cs).value, p⟩ ::
      scanFrom (p.advanceAll (scan c cs).span) (scan c cs).rest := by
  have hskip : skip false (c :: cs) = ([], c :: cs) := by simp [skip, hblank, hcomment]
  rw [scanFrom_of_skip_cons (by rw [hskip]), hskip]
  rfl

/-- A blank in front only moves the place. -/
theorem scanFrom_blank {c : Char} (hblank : Text.isBlank c = true) (p : Place) (cs : List Char) :
    scanFrom p (c :: cs) = scanFrom (p.advance c) cs := by
  have hskip : skip false (c :: cs) = (c :: (skip false cs).1, (skip false cs).2) := by
    simp [skip, hblank]
  cases h : (skip false cs).2 with
  | nil =>
    rw [scanFrom_of_skip_nil h, scanFrom_of_skip_nil (by rw [hskip, h]), hskip]
    rfl
  | cons d rest =>
    rw [scanFrom_of_skip_cons h, scanFrom_of_skip_cons (by rw [hskip, h]), hskip]
    rfl

theorem scanFrom_nil (p : Place) : scanFrom p [] = [.atEnd p] := scanFrom_of_skip_nil rfl

theorem scanFrom_leftParen (p : Place) (cs : List Char) :
    scanFrom p ('(' :: cs) = ⟨.leftParen, "(", p⟩ :: scanFrom (p.advanceAll ['(']) cs :=
  scanFrom_cons (by decide) (by decide) p cs

theorem scanFrom_rightParen (p : Place) (cs : List Char) :
    scanFrom p (')' :: cs) = ⟨.rightParen, ")", p⟩ :: scanFrom (p.advanceAll [')']) cs :=
  scanFrom_cons (by decide) (by decide) p cs

/-- What is left after blanks and comments starts with neither. -/
theorem not_isBlank_of_skip {comment : Bool} {cs rest : List Char} {c : Char}
    (h : (skip comment cs).2 = c :: rest) : Text.isBlank c = false ∧ c ≠ ';' := by
  fun_induction skip comment cs with
  | case1 => cases h
  | case2 d ds skipped left hrec ih => exact ih (by rw [hrec]; exact h)
  | case3 comment d ds hcomment hblank skipped left hrec ih => exact ih (by rw [hrec]; exact h)
  | case4 comment ds hcomment skipped left hrec hblank ih => exact ih (by rw [hrec]; exact h)
  | case5 comment d ds hcomment hblank hsemicolon =>
    cases h
    exact ⟨by simpa using hblank, hsemicolon⟩

/-! ### Strings -/

/-- A printed character is an escape, or the character itself where it needs none. -/
theorem printedChar_cases (c : Char) :
    (∃ e, Atom.printedChar c = ['\\', e] ∧ escaped e = c) ∨
      (Atom.printedChar c = [c] ∧ c ≠ '\\' ∧ c ≠ '"') := by
  unfold Atom.printedChar
  split
  · next h => exact .inl ⟨_, rfl, by rw [h]; decide⟩
  split
  · next h => exact .inl ⟨_, rfl, by rw [h]; decide⟩
  split
  · next h => exact .inl ⟨_, rfl, by rw [h]; decide⟩
  split
  · next h => exact .inl ⟨_, rfl, by rw [h]; decide⟩
  split
  · next h => exact .inl ⟨_, rfl, by rw [h]; decide⟩
  · exact .inr ⟨rfl, by assumption, by assumption⟩

theorem unescape_cons {c : Char} (hslash : c ≠ '\\') (hquote : c ≠ '"') (cs : List Char) :
    unescape (c :: cs) = c :: unescape cs := by
  rw [unescape]
  · exact hquote
  · exact fun _ _ h _ => hslash h

/-- A printed string goes to the quotation mark that ends it. -/
theorem stringBody_printed (rest : List Char) : ∀ s : List Char,
    stringBody (s.flatMap Atom.printedChar ++ '"' :: rest) =
      (s.flatMap Atom.printedChar ++ ['"'], rest)
  | [] => rfl
  | c :: s => by
    rw [List.flatMap_cons, List.append_assoc, List.append_assoc]
    rcases printedChar_cases c with ⟨e, he, -⟩ | ⟨hc, hslash, hquote⟩
    · rw [he, List.cons_append, List.cons_append, List.nil_append, stringBody,
        stringBody_printed rest s]
      rfl
    · rw [hc, List.singleton_append, stringBody_cons hslash hquote, stringBody_printed rest s]
      rfl

/-- The escapes of a printed string stand for its characters. -/
theorem unescape_printed : ∀ s : List Char, unescape (s.flatMap Atom.printedChar ++ ['"']) = s
  | [] => rfl
  | c :: s => by
    rw [List.flatMap_cons, List.append_assoc]
    rcases printedChar_cases c with ⟨e, he, hescaped⟩ | ⟨hc, hslash, hquote⟩
    · rw [he, List.cons_append, List.cons_append, List.nil_append, unescape, hescaped,
        unescape_printed s]
    · rw [hc, List.singleton_append, unescape_cons hslash hquote, unescape_printed s]

theorem scanFrom_string (p : Place) (s rest : List Char) :
    scanFrom p (Atom.stringChars s ++ rest) =
      ⟨.string, String.ofList s, p⟩ :: scanFrom (p.advanceAll (Atom.stringChars s)) rest := by
  have hbody : Atom.stringChars s ++ rest =
      '"' :: (s.flatMap Atom.printedChar ++ '"' :: rest) := by
    simp only [Atom.stringChars, List.cons_append, List.append_assoc, List.nil_append]
  have hscan : scan '"' (s.flatMap Atom.printedChar ++ '"' :: rest) =
      ⟨.string, s, Atom.stringChars s, rest⟩ := by
    rw [scan, if_neg (by decide), if_neg (by decide), if_neg (by decide), if_pos rfl]
    simp only [stringBody_printed, unescape_printed, Atom.stringChars, List.cons_append]
  rw [hbody, scanFrom_cons (by decide) (by decide), hscan]

/-! ### Numbers -/

theorem numberBody_digits (point : Bool) (rest : List Char) : ∀ {ds : List Char},
    (∀ d ∈ ds, d.isDigit = true) →
      numberBody point (ds ++ rest) = (ds ++ (numberBody point rest).1, (numberBody point rest).2)
  | [], _ => rfl
  | d :: ds, h => by
    rw [List.forall_mem_cons] at h
    rw [List.cons_append, numberBody, if_pos (Text.isDigit_of_ascii h.1),
      numberBody_digits point rest h.2]
    rfl

/-- A number ends where a printed form may end. -/
theorem numberBody_separated (point : Bool) {rest : List Char} (h : Separated rest) :
    numberBody point rest = ([], rest) := by
  rcases h.cases with rfl | ⟨c, cs, rfl, rfl | rfl | rfl⟩
  · rfl
  · rw [numberBody, if_neg (by decide), if_neg (fun h => absurd h.1 (by decide))]
  · rw [numberBody, if_neg (by decide), if_neg (fun h => absurd h.1 (by decide))]
  · rw [numberBody, if_neg (by decide), if_neg (fun h => absurd h.1 (by decide))]

theorem numberBody_unsigned (l : Number.Literal) {rest : List Char} (h : Separated rest) :
    numberBody false (l.unsigned ++ rest) = (l.unsigned, rest) := by
  rw [Number.Literal.unsigned, List.append_assoc, numberBody_digits _ _ l.isDigit_whole]
  cases hf : l.fraction with
  | none =>
    rw [Number.Literal.fractionChars, List.nil_append, numberBody_separated _ h]
  | some ds =>
    rw [Number.Literal.fractionChars, List.cons_append, numberBody, if_neg (by decide),
      if_pos ⟨rfl, rfl⟩, numberBody_digits _ _ (l.isDigit_fraction ds hf), numberBody_separated _ h,
      List.append_nil]

theorem scan_of_startsNumber {c : Char} (hc : c = '-' ∨ c.isDigit = true) {cs : List Char}
    (h : startsNumber c cs = true) :
    scan c cs = ⟨.number, c :: (numberBody false cs).1, c :: (numberBody false cs).1,
      (numberBody false cs).2⟩ := by
  have hne : ∀ d : Char, d ≠ '-' → d.isDigit = false → c ≠ d := by
    rintro d hminus hdigit rfl
    rcases hc with rfl | hc
    · exact hminus rfl
    · rw [hdigit] at hc
      cases hc
  have hdate : dateText? c cs = none := by
    unfold dateText?
    split
    · exact absurd rfl (hne '#' (by decide) (by decide))
    · rfl
  rw [scan, if_neg (hne '(' (by decide) (by decide)), if_neg (hne ')' (by decide) (by decide)),
    if_neg (hne '\x27' (by decide) (by decide)), if_neg (hne '"' (by decide) (by decide)), hdate]
  simp only [h, if_true]

/-- **A literal is cut off as one number.** -/
theorem scanFrom_literal (p : Place) (l : Number.Literal) {rest : List Char} (h : Separated rest) :
    scanFrom p (l.chars ++ rest) =
      ⟨.number, String.ofList l.chars, p⟩ :: scanFrom (p.advanceAll l.chars) rest := by
  obtain ⟨d, ds, hd, hdigit⟩ := l.exists_unsigned_eq_cons
  have hbody := numberBody_unsigned l h
  have hstarts : Text.isDigit d = true := Text.isDigit_of_ascii hdigit
  cases hn : l.negative with
  | true =>
    have hchars : l.chars = '-' :: l.unsigned := by
      rw [Number.Literal.chars, hn]
      rfl
    have hminus : startsNumber '-' (l.unsigned ++ rest) = true := by
      rw [hd]
      simp [startsNumber, hstarts]
    rw [hchars, List.cons_append, scanFrom_cons (by decide) (by decide),
      scan_of_startsNumber (.inl rfl) hminus, hbody]
  | false =>
    have hchars : l.chars = d :: ds := by
      rw [Number.Literal.chars, hn, ← hd]
      rfl
    have hrest : numberBody false (ds ++ rest) = (ds, rest) := by
      rw [hd, List.cons_append, numberBody, if_pos hstarts] at hbody
      have hpair := Prod.mk.inj hbody
      exact Prod.ext (List.cons.inj hpair.1).2 hpair.2
    have hcomment : d ≠ ';' := by
      rintro rfl
      exact absurd hdigit (by decide)
    rw [hchars, List.cons_append,
      scanFrom_cons (Text.isBlank_eq_false_of_isDigit hdigit) hcomment,
      scan_of_startsNumber (.inr hdigit) (by rw [startsNumber, hstarts, Bool.true_or]), hrest]

/-! ### Moments -/

/-- A text without a quotation mark goes to the next one. -/
theorem dateBody_append_quote (rest : List Char) : ∀ {cs : List Char}, '"' ∉ cs →
    dateBody (cs ++ '"' :: rest) = (cs ++ ['"'], rest)
  | [], _ => rfl
  | c :: cs, h => by
    rw [List.mem_cons, not_or] at h
    rw [List.cons_append, dateBody, if_neg (Ne.symm h.1), dateBody_append_quote rest h.2]
    rfl

theorem quote_notMem_fieldChars (width : Nat) (d : DateTime) :
    '"' ∉ DateTime.fieldChars width d := fun h =>
  absurd (DateTime.of_mem_fieldChars h) (by decide)

/-- **A printed moment is cut off as one date.** -/
theorem scanFrom_date (p : Place) (d : DateTime) (rest : List Char) :
    scanFrom p (d.textChars ++ rest) =
      ⟨.date, String.ofList (DateTime.fieldChars 1 d), p⟩ ::
        scanFrom (p.advanceAll d.textChars) rest := by
  have hquote := quote_notMem_fieldChars 1 d
  have htext : d.textChars ++ rest =
      '#' :: 'd' :: '"' :: (DateTime.fieldChars 1 d ++ '"' :: rest) := by
    rw [DateTime.textChars, List.append_assoc, List.append_assoc]
    rfl
  have htake : (DateTime.fieldChars 1 d ++ ['"']).takeWhile (· != '"') = DateTime.fieldChars 1 d := by
    rw [List.takeWhile_append_of_pos (fun c hc => by
      simp only [bne_iff_ne, ne_eq]
      rintro rfl
      exact hquote hc)]
    simp
  have hscan : scan '#' ('d' :: '"' :: (DateTime.fieldChars 1 d ++ '"' :: rest)) =
      ⟨.date, DateTime.fieldChars 1 d, d.textChars, rest⟩ := by
    rw [scan, if_neg (by decide), if_neg (by decide), if_neg (by decide), if_neg (by decide)]
    simp only [dateText?, dateBody_append_quote rest hquote, htake, DateTime.textChars]
    rfl
  rw [htext, scanFrom_cons (by decide) (by decide), hscan]

/-! ### Symbols -/

/-- Whether a symbol starts with this character. -/
def StartsSymbol (c : Char) (cs : List Char) : Prop :=
  c ≠ '(' ∧ c ≠ ')' ∧ c ≠ '\x27' ∧ c ≠ '"' ∧ dateText? c cs = none ∧ startsNumber c cs = false

instance (c : Char) (cs : List Char) : Decidable (StartsSymbol c cs) := by
  unfold StartsSymbol
  infer_instance

theorem scan_of_startsSymbol {c : Char} {cs : List Char} (h : StartsSymbol c cs) :
    scan c cs = ⟨.symbol, c :: cs.takeWhile inSymbol, c :: cs.takeWhile inSymbol,
      cs.dropWhile inSymbol⟩ := by
  obtain ⟨hopen, hclose, hmark, hquote, hdate, hnumber⟩ := h
  rw [scan, if_neg hopen, if_neg hclose, if_neg hmark, if_neg hquote, hdate]
  simp [hnumber]

theorem startsSymbol_of_kind {c : Char} {cs : List Char} (h : (scan c cs).kind = .symbol) :
    StartsSymbol c cs := by
  unfold scan at h
  split at h; · cases h
  split at h; · cases h
  split at h; · cases h
  split at h; · cases h
  split at h
  · cases h
  · next hopen hclose hmark hquote _ hdate =>
    split at h
    · cases h
    · next hnumber => exact ⟨hopen, hclose, hmark, hquote, hdate, by simpa using hnumber⟩

theorem StartsSymbol.append {c : Char} {cs rest : List Char} (h : StartsSymbol c cs)
    (hrest : Separated rest) : StartsSymbol c (cs ++ rest) := by
  obtain ⟨hopen, hclose, hmark, hquote, hdate, hnumber⟩ := h
  refine ⟨hopen, hclose, hmark, hquote, ?_, ?_⟩
  · refine dateText?_append_of_none hdate fun r hr => ?_
    rcases hrest r hr with rfl | rfl | rfl <;> decide
  · rcases hrest.cases with rfl | ⟨r, rs, rfl, hr⟩
    · rwa [List.append_nil]
    · cases cs with
      | nil =>
        have hr : Text.isDigit r = false := by rcases hr with rfl | rfl | rfl <;> decide
        simp only [startsNumber, Bool.or_eq_false_iff] at hnumber ⊢
        simp [hnumber.1, hr]
      | cons d cs => exact hnumber

/-- A symbol ends where a printed form may end. -/
theorem span_inSymbol {body rest : List Char} (hbody : ∀ c ∈ body, inSymbol c = true)
    (hrest : Separated rest) :
    (body ++ rest).takeWhile inSymbol = body ∧ (body ++ rest).dropWhile inSymbol = rest := by
  rw [List.takeWhile_append_of_pos hbody, List.dropWhile_append_of_pos hbody]
  rcases hrest.cases with rfl | ⟨c, cs, rfl, hc⟩
  · exact ⟨List.append_nil _, rfl⟩
  · have hc : inSymbol c = false := by rcases hc with rfl | rfl | rfl <;> decide
    simp [hc]

/-- The characters of one symbol. -/
def SymbolShaped (cs : List Char) : Prop :=
  ∃ c body, cs = c :: body ∧ Text.isBlank c = false ∧ c ≠ ';' ∧ StartsSymbol c body ∧
    ∀ d ∈ body, inSymbol d = true

/-- **Characters of a symbol are cut off as one symbol.** -/
theorem scanFrom_symbol (p : Place) {cs rest : List Char} (h : SymbolShaped cs)
    (hrest : Separated rest) :
    scanFrom p (cs ++ rest) = ⟨.symbol, String.ofList cs, p⟩ :: scanFrom (p.advanceAll cs) rest := by
  obtain ⟨c, body, rfl, hblank, hcomment, hstarts, hbody⟩ := h
  obtain ⟨htake, hdrop⟩ := span_inSymbol hbody hrest
  rw [List.cons_append, scanFrom_cons hblank hcomment, scan_of_startsSymbol (hstarts.append hrest),
    htake, hdrop]

/-- **The name of a symbol**: alone it is one token, a symbol of that name. -/
def IsSymbolName (name : String) : Prop :=
  ∃ t e, ofText name = [t, e] ∧ t.kind = .symbol ∧ t.value = name

theorem isSymbolName_of_symbolShaped {name : String} (h : SymbolShaped name.toList) :
    IsSymbolName name := by
  have hscan := scanFrom_symbol .start h separated_nil
  rw [List.append_nil, scanFrom_nil, String.ofList_toList] at hscan
  exact ⟨_, _, hscan, rfl, rfl⟩

theorem IsSymbolName.symbolShaped {name : String} (h : IsSymbolName name) :
    SymbolShaped name.toList := by
  obtain ⟨t, e, htokens, hkind, hvalue⟩ := h
  cases hskip : (skip false name.toList).2 with
  | nil =>
    rw [ofText, scanFrom_of_skip_nil hskip] at htokens
    cases htokens
  | cons c rest =>
    rw [ofText, scanFrom_of_skip_cons hskip] at htokens
    obtain ⟨rfl, -⟩ := List.cons.inj htokens
    have hstarts := startsSymbol_of_kind hkind
    have hname : name.toList = c :: rest.takeWhile inSymbol := by
      rw [← hvalue, scan_of_startsSymbol hstarts, String.toList_ofList]
    have hlength := congrArg List.length (skip_append false name.toList)
    rw [hskip, hname, List.length_append, List.length_cons, List.length_cons] at hlength
    -- the symbol is the whole name, so nothing was skipped and nothing is left over
    have hall : rest.takeWhile inSymbol = rest :=
      (List.takeWhile_prefix _).eq_of_length_le (by omega)
    obtain ⟨hblank, hcomment⟩ := not_isBlank_of_skip hskip
    exact ⟨c, rest, by rw [hname, hall], hblank, hcomment, hstarts,
      List.takeWhile_eq_self_iff.1 hall⟩

end MiniLisp.Token
