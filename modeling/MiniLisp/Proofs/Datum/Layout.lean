import MiniLisp.Datum.Layout
import MiniLisp.Proofs.Datum.Seam
import MiniLisp.Proofs.Value.RoundTrip

/-! # Data laid out over lines read back

What the tokens of a printed datum are can be said without the text (`Datum.contents`):
- the printed form has these tokens, and so have the lines of a layout, which only move blanks around
  (`contents_chars`, `contents_lines`);
- they are the tokens of a derivation of one datum (`exists_derivation`), so both texts read as it;
- no line holds a line break, and a deeper level puts the same margin in front of every line
  (`splitOn_layout`, `lines_add`).

So a layout reads as the printed form does, and its level shows in the margins only
(`layout_reads`). -/

namespace MiniLisp

/-! ### Contents of texts -/

namespace Token

/-- What the tokens of some characters are, wherever these stand. -/
def contents (cs : List Char) : List (Kind × String) := (scanFrom .start cs).map content

theorem contents_eq (p : Place) (cs : List Char) : (scanFrom p cs).map content = contents cs :=
  content_scanFrom cs p .start

theorem contents_blank {c : Char} (hblank : Text.isBlank c = true) (cs : List Char) :
    contents (c :: cs) = contents cs := by
  rw [contents, scanFrom_blank hblank, contents_eq]

theorem contents_spaces (n : Nat) (cs : List Char) :
    contents (List.replicate n ' ' ++ cs) = contents cs := by
  induction n with
  | zero => rfl
  | succ n ih => rw [List.replicate_succ, List.cons_append, contents_blank (by decide), ih]

theorem contents_leftParen (cs : List Char) :
    contents ('(' :: cs) = (.leftParen, "(") :: contents cs := by
  rw [contents, scanFrom_leftParen, List.map_cons, contents_eq]
  rfl

theorem contents_rightParen (cs : List Char) :
    contents (')' :: cs) = (.rightParen, ")") :: contents cs := by
  rw [contents, scanFrom_rightParen, List.map_cons, contents_eq]
  rfl

/-- Lines that each start with a line break separate what is before them. -/
theorem separated_lines (ls : List (List Char)) {rest : List Char} (hrest : Separated rest) :
    Separated (ls.flatMap ('\n' :: ·) ++ rest) := by
  cases ls with
  | nil => exact hrest
  | cons l ls => exact separated_cons (.inr (.inr rfl)) _

end Token

open Token

/-! ### Contents of data -/

/-- **The atoms whose printed form is one token** that says all of them. A symbol may be spelled like a
constant: its token is one of its name all the same. -/
def Atom.Spelled : Atom → Prop
  | .symbol name => IsSymbolName name
  | a => a.Readable

/-- What a printed atom reads as: the same atom, or what its name denotes. -/
def Atom.ReadsAs : Atom → Atom → Prop
  | .symbol name, b => b = Atom.ofName name
  | a, b => a.Same b

/-- The one token of a printed atom. -/
def Atom.content : Atom → Kind × String
  | .nil => (.symbol, "nil")
  | .bool b => (.symbol, if b then "t" else "nil")
  | .number n => (.number, String.ofList n.textChars)
  | .string s => (.string, s)
  | .symbol name => (.symbol, name)
  | .date d => (.date, String.ofList (DateTime.fieldChars 1 d))

/-- The printed form is that token. -/
theorem Atom.contents_chars {a : Atom} (h : a.Spelled) {rest : List Char}
    (hrest : Separated rest) : contents (a.chars ++ rest) = a.content :: contents rest := by
  have hsymbol : ∀ cs, SymbolShaped cs →
      contents (cs ++ rest) = (.symbol, String.ofList cs) :: contents rest := by
    intro cs hcs
    rw [contents, scanFrom_symbol .start hcs hrest, List.map_cons, contents_eq]
    rfl
  cases a with
  | nil => exact hsymbol _ Value.symbolShaped_nil
  | bool b =>
    cases (h : b = true)
    exact hsymbol _ Value.symbolShaped_true
  | number n =>
    obtain ⟨l, m, hl, -, -⟩ := Value.exists_literal h
    rw [Atom.chars, Atom.content, ← hl, contents, scanFrom_literal .start l hrest, List.map_cons,
      contents_eq]
    rfl
  | string s =>
    rw [Atom.chars, contents, scanFrom_string, List.map_cons, contents_eq, String.ofList_toList]
    rfl
  | symbol name =>
    have hname := hsymbol _ (IsSymbolName.symbolShaped h)
    rwa [String.ofList_toList] at hname
  | date d =>
    rw [Atom.chars, contents, scanFrom_date .start d, List.map_cons, contents_eq]
    rfl

/-- That token is one of a derivation of what the atom reads as. -/
theorem Atom.exists_derivation {a : Atom} (h : a.Spelled) :
    ∃ (p : Derivation) (b : Atom), p.tokens.map Token.content = [a.content] ∧ p.datum = .atom b ∧
      a.ReadsAs b := by
  cases a with
  | nil =>
    have hnil : Atom.ofName "nil" = .nil := by decide +kernel
    exact ⟨.symbol ⟨.symbol, "nil", .start⟩ rfl, .nil, rfl, congrArg Datum.atom hnil, rfl⟩
  | bool b =>
    have ht : Atom.ofName "t" = .bool true := by decide +kernel
    cases (h : b = true)
    exact ⟨.symbol ⟨.symbol, "t", .start⟩ rfl, .bool true, rfl, congrArg Datum.atom ht, rfl⟩
  | number n =>
    obtain ⟨l, m, hl, hm, hsame⟩ := Value.exists_literal h
    have hreads : Number.ofText (String.ofList n.textChars) = .ok m := by
      rw [Number.ofText, String.toList_ofList, ← hl, hm]
    exact ⟨.number ⟨.number, _, .start⟩ m rfl hreads, .number m, rfl, rfl, hsame⟩
  | string s => exact ⟨.string ⟨.string, s, .start⟩ rfl, .string s, rfl, rfl, rfl⟩
  | symbol name => exact ⟨.symbol ⟨.symbol, name, .start⟩ rfl, .ofName name, rfl, rfl, rfl⟩
  | date d =>
    obtain ⟨hyear, hmicros⟩ := h
    have hreads : DateTime.ofText (String.ofList (DateTime.fieldChars 1 d)) = .ok d := by
      rw [DateTime.ofText, String.toList_ofList, DateTime.ofChars, DateTime.ofCharsIn_fieldChars _ hyear hmicros]
    exact ⟨.date ⟨.date, _, .start⟩ d rfl hreads, .date d, rfl, rfl, rfl⟩

namespace Datum

mutual

/-- **The data built of lists and of atoms that are spelled.** -/
def Spelled : Datum → Prop
  | .atom a => a.Spelled
  | .list items => AllSpelled items

/-- All of the data are spelled. -/
def AllSpelled : List Datum → Prop
  | [] => True
  | d :: ds => d.Spelled ∧ AllSpelled ds

end

mutual

/-- What a printed datum reads as: the same lists, of what its atoms read as. -/
def ReadsAs : Datum → Datum → Prop
  | .atom a, .atom b => a.ReadsAs b
  | .list items, .list items' => AllReadAs items items'
  | _, _ => False

/-- The data read as the others, one by one. -/
def AllReadAs : List Datum → List Datum → Prop
  | [], [] => True
  | d :: ds, e :: es => d.ReadsAs e ∧ AllReadAs ds es
  | _, _ => False

end

mutual

/-- The tokens of a printed datum. -/
def contents : Datum → List (Kind × String)
  | .atom a => [a.content]
  | .list items => (.leftParen, "(") :: (contentsOfAll items ++ [(.rightParen, ")")])

/-- The tokens of printed data, one after the other. -/
def contentsOfAll : List Datum → List (Kind × String)
  | [] => []
  | d :: ds => d.contents ++ contentsOfAll ds

end

mutual

/-- **The tokens of the printed form.** -/
theorem contents_chars : ∀ (d : Datum), d.Spelled → ∀ {rest : List Char}, Separated rest →
    Token.contents (d.chars ++ rest) = d.contents ++ Token.contents rest
  | .atom a, h, _, hrest => a.contents_chars h hrest
  | .list items, h, rest, hrest => by
    have hclose : Separated (')' :: rest) := separated_cons (.inr (.inl rfl)) rest
    have hitems := contents_itemChars items h hclose
    have hchars : (Datum.list items).chars ++ rest = '(' :: (itemChars items ++ ')' :: rest) := by
      simp only [chars, List.cons_append, List.append_assoc, List.nil_append]
    rw [hchars, contents_leftParen, hitems, contents_rightParen, contents]
    simp only [List.cons_append, List.append_assoc, List.nil_append]

theorem contents_itemChars : ∀ (ds : List Datum), AllSpelled ds → ∀ {rest : List Char},
    Separated rest → Token.contents (itemChars ds ++ rest) = contentsOfAll ds ++ Token.contents rest
  | [], _, _, _ => rfl
  | [d], h, rest, hrest => by
    rw [itemChars, contents_chars d h.1 hrest, contentsOfAll, contentsOfAll, List.append_nil]
  | d :: e :: ds, h, rest, hrest => by
    have hspace : Separated (' ' :: (itemChars (e :: ds) ++ rest)) := separated_cons (.inl rfl) _
    have hd := contents_chars d h.1 hspace
    have hds := contents_itemChars (e :: ds) h.2 hrest
    have hchars : itemChars (d :: e :: ds) = d.chars ++ ' ' :: itemChars (e :: ds) := rfl
    have hall : contentsOfAll (d :: e :: ds) = d.contents ++ contentsOfAll (e :: ds) := rfl
    rw [hchars, List.append_assoc, List.cons_append, hd, contents_blank (by decide), hds, hall,
      List.append_assoc]

end

mutual

/-- **The tokens of a datum are derived.** -/
theorem exists_derivation : ∀ d : Datum, d.Spelled →
    ∃ p : Derivation, p.tokens.map content = d.contents ∧ d.ReadsAs p.datum
  | .atom a, h => by
    obtain ⟨p, b, htokens, hdatum, hreads⟩ := Atom.exists_derivation h
    refine ⟨p, htokens, ?_⟩
    rw [hdatum]
    exact hreads
  | .list items, h => by
    obtain ⟨ps, htokens, hreads⟩ := exists_derivations items h
    refine ⟨.list ⟨.leftParen, "(", .start⟩ ps ⟨.rightParen, ")", .start⟩ rfl rfl, ?_, hreads⟩
    rw [Derivation.tokens, List.map_cons, List.map_append, htokens]
    rfl

theorem exists_derivations : ∀ ds : List Datum, AllSpelled ds → ∃ ps : List Derivation,
    (Derivation.tokensOfAll ps).map content = contentsOfAll ds ∧
      AllReadAs ds (Derivation.data ps)
  | [], _ => ⟨[], rfl, trivial⟩
  | d :: ds, h => by
    obtain ⟨p, htokens, hreads⟩ := exists_derivation d h.1
    obtain ⟨ps, htokens', hreads'⟩ := exists_derivations ds h.2
    refine ⟨p :: ps, ?_, hreads, hreads'⟩
    rw [Derivation.tokensOfAll, List.map_append, htokens, htokens', contentsOfAll]

end

/-! ### Contents of lines -/

/-- The items that do not stand on the first line of their list. -/
def following (skip : Bool) (items : List Datum) : List Datum :=
  if skip then items.dropWhile isAtom else items

theorem contentsOfAll_append (ds es : List Datum) :
    contentsOfAll (ds ++ es) = contentsOfAll ds ++ contentsOfAll es := by
  induction ds with
  | nil => rfl
  | cons d ds ih => rw [List.cons_append, contentsOfAll, contentsOfAll, ih, List.append_assoc]

/-- **No item is lost or repeated** where a list is cut into lines. -/
theorem leading_append_following (items : List Datum) :
    leading items ++ following (startsWithSymbol items) items = items := by
  unfold leading following
  cases startsWithSymbol items with
  | false => rfl
  | true => exact List.takeWhile_append_dropWhile

theorem allSpelled_iff {ds : List Datum} : AllSpelled ds ↔ ∀ d ∈ ds, d.Spelled := by
  induction ds with
  | nil => exact iff_of_true trivial nofun
  | cons d ds ih => rw [AllSpelled, ih, List.forall_mem_cons]

theorem allSpelled_leading {items : List Datum} (h : AllSpelled items) :
    AllSpelled (leading items) := by
  rw [allSpelled_iff] at h ⊢
  intro d hd
  refine h d ?_
  rw [← leading_append_following items]
  exact List.mem_append_left _ hd

theorem joinLines_cons (l : List Char) (ls : List (List Char)) :
    joinLines (l :: ls) = l ++ ls.flatMap ('\n' :: ·) := by
  induction ls generalizing l with
  | nil => simp [joinLines]
  | cons l' ls ih => rw [joinLines, ih, List.flatMap_cons, List.cons_append]; exact nofun

mutual

/-- **The tokens of the lines** are those of the printed form. -/
theorem contents_lines : ∀ (d : Datum), d.Spelled → ∀ (level : Int) {rest : List Char},
    Separated rest →
      Token.contents ((d.lines level).flatMap ('\n' :: ·) ++ rest) = d.contents ++ Token.contents rest
  | .atom a, h, level, rest, hrest => by
    have hatom := a.contents_chars h hrest
    rw [lines, List.flatMap_singleton, List.cons_append, List.append_assoc,
      contents_blank (by decide), margin, contents_spaces, hatom]
    rfl
  | .list items, h, level, rest, hrest => by
    by_cases hatoms : items.all isAtom = true
    · have hlist := contents_chars (.list items) h hrest
      rw [lines, if_pos hatoms, List.flatMap_singleton, List.cons_append, List.append_assoc,
        contents_blank (by decide), margin, contents_spaces, hlist]
    · have hclose : Separated ('\n' :: (margin level ++ ')' :: rest)) :=
        separated_cons (.inr (.inr rfl)) _
      have hopen := separated_lines (itemLines (level + 1) (startsWithSymbol items) items) hclose
      have hfirst := contents_itemChars (leading items) (allSpelled_leading h) hopen
      have hitems := contents_itemLines items h (level + 1) (startsWithSymbol items) hclose
      have hall : contentsOfAll (leading items) ++
          contentsOfAll (following (startsWithSymbol items) items) = contentsOfAll items := by
        rw [← contentsOfAll_append, leading_append_following]
      have hlines : (lines level (.list items)).flatMap ('\n' :: ·) ++ rest =
          '\n' :: (margin level ++ '(' :: (itemChars (leading items) ++
            ((itemLines (level + 1) (startsWithSymbol items) items).flatMap ('\n' :: ·) ++
              '\n' :: (margin level ++ ')' :: rest)))) := by
        rw [lines, if_neg hatoms]
        simp only [List.flatMap_cons, List.flatMap_append, List.flatMap_nil, List.cons_append,
          List.append_assoc, List.nil_append, List.append_nil]
      rw [hlines, contents_blank (by decide), margin, contents_spaces, contents_leftParen,
        ← margin, hfirst, hitems, contents_blank (by decide), margin, contents_spaces,
        contents_rightParen, contents, ← hall]
      simp only [List.cons_append, List.append_assoc, List.nil_append]

theorem contents_itemLines : ∀ (items : List Datum), AllSpelled items → ∀ (level : Int)
    (skip : Bool) {rest : List Char}, Separated rest →
      Token.contents ((itemLines level skip items).flatMap ('\n' :: ·) ++ rest) =
        contentsOfAll (following skip items) ++ Token.contents rest
  | [], _, _, skip, _, _ => by cases skip <;> rfl
  | d :: ds, h, level, skip, rest, hrest => by
    by_cases hskip : (skip && d.isAtom) = true
    · obtain ⟨rfl, hatom⟩ := Bool.and_eq_true_iff.1 hskip
      have hds := contents_itemLines ds h.2 level true hrest
      rw [itemLines, if_pos hskip, hds]
      simp only [following, if_true, List.dropWhile_cons, hatom]
    · have hd := contents_lines d h.1 level
        (separated_lines (itemLines level false ds) hrest)
      have hds := contents_itemLines ds h.2 level false hrest
      have hfollowing : following skip (d :: ds) = d :: ds := by
        unfold following
        cases skip <;> simp_all
      have hfalse : following false ds = ds := rfl
      rw [itemLines, if_neg hskip, List.flatMap_append, List.append_assoc, hd, hds, hfollowing,
        hfalse, contentsOfAll, List.append_assoc]

end

/-- The lines that follow the first one start with a line break each. -/
theorem contents_joinLines {ls : List (List Char)} (hls : ls ≠ []) (rest : List Char) :
    Token.contents (joinLines ls ++ rest) =
      Token.contents (ls.flatMap ('\n' :: ·) ++ rest) := by
  obtain ⟨l, ls, rfl⟩ := List.exists_cons_of_ne_nil hls
  rw [joinLines_cons, List.flatMap_cons, List.cons_append, List.cons_append,
    contents_blank (by decide)]

theorem lines_ne_nil (level : Int) (d : Datum) : d.lines level ≠ [] := by
  cases d with
  | atom a => exact List.cons_ne_nil _ _
  | list items =>
    rw [lines]
    split <;> exact List.cons_ne_nil _ _

/-- The tokens of the printed form, read off its text. -/
theorem contents_text {d : Datum} (h : d.Spelled) :
    (Token.ofText d.text).map content = d.contents ++ Token.contents [] := by
  have hchars := contents_chars d h separated_nil
  rwa [List.append_nil, Token.contents, ← String.toList_ofList (l := d.chars)] at hchars

/-- **A layout has the tokens of the printed form**, at every level. -/
theorem contents_layout {d : Datum} (h : d.Spelled) (level : Int) :
    (Token.ofText (d.layout level)).map content = (Token.ofText d.text).map content := by
  have hjoin := contents_joinLines (lines_ne_nil level d) []
  have hlines := contents_lines d h level separated_nil
  rw [List.append_nil] at hjoin
  rw [contents_text h, ← hlines, ← hjoin, layout, Token.ofText, String.toList_ofList,
    Token.contents]

/-! ### Line breaks and margins -/

end Datum

theorem Atom.newline_notMem_chars {a : Atom} (h : a.Spelled) : '\n' ∉ a.chars := by
  have hdigits : ∀ {cs : List Char}, (∀ c ∈ cs, c.isDigit = true) → '\n' ∉ cs :=
    fun hcs hmem => absurd (hcs _ hmem) (by decide)
  have hsymbol : ∀ {cs : List Char}, SymbolShaped cs → '\n' ∉ cs := by
    rintro cs ⟨c, body, rfl, hblank, -, -, hbody⟩ hmem
    rcases List.mem_cons.1 hmem with rfl | hmem
    · exact absurd hblank (by decide)
    · exact absurd (hbody _ hmem) (by decide)
  cases a with
  | nil => decide
  | bool b => cases b <;> decide
  | number n =>
    obtain ⟨l, -, hl, -, -⟩ := Value.exists_literal h
    have hwhole := hdigits l.isDigit_whole
    have hfraction : '\n' ∉ Number.Literal.fractionChars l.fraction := by
      cases hf : l.fraction with
      | none => exact List.not_mem_nil
      | some ds =>
        have hds := hdigits (l.isDigit_fraction ds hf)
        simp [Number.Literal.fractionChars, hds]
    have hsign : '\n' ∉ Decimal.signText l.negative := by cases l.negative <;> decide
    rw [Atom.chars, ← hl, Number.Literal.chars, Number.Literal.unsigned]
    simp only [List.mem_append, hsign, hwhole, hfraction, or_self, not_false_eq_true]
  | string s =>
    have hchar : ∀ c, '\n' ∉ Atom.printedChar c := by
      intro c
      unfold Atom.printedChar
      repeat' split
      all_goals simp
      exact Ne.symm ‹¬c = '\n'›
    simp [Atom.chars, Atom.stringChars, hchar]
  | symbol name => exact hsymbol (IsSymbolName.symbolShaped h)
  | date d =>
    have hpadded : ∀ width n, '\n' ∉ DateTime.padded width n :=
      fun width n => hdigits fun c hc => DateTime.isDigit_of_mem_padded hc
    simp [Atom.chars, DateTime.textChars, DateTime.fieldChars, hpadded]

namespace Datum

mutual

theorem newline_notMem_chars : ∀ d : Datum, d.Spelled → '\n' ∉ d.chars
  | .atom _, h => Atom.newline_notMem_chars h
  | .list items, h => by
    have hitems := newline_notMem_itemChars items h
    simp [chars, hitems]

theorem newline_notMem_itemChars : ∀ ds : List Datum, AllSpelled ds → '\n' ∉ itemChars ds
  | [], _ => List.not_mem_nil
  | [d], h => newline_notMem_chars d h.1
  | d :: e :: ds, h => by
    have hd := newline_notMem_chars d h.1
    have hds := newline_notMem_itemChars (e :: ds) h.2
    have hchars : itemChars (d :: e :: ds) = d.chars ++ ' ' :: itemChars (e :: ds) := rfl
    simp [hchars, hd, hds]

end

theorem newline_notMem_margin (level : Int) : '\n' ∉ margin level := by
  intro h
  exact absurd (List.eq_of_mem_replicate h) (by decide)

mutual

/-- No line holds a line break. -/
theorem newline_notMem_lines : ∀ (d : Datum), d.Spelled → ∀ (level : Int),
    ∀ l ∈ d.lines level, '\n' ∉ l
  | .atom a, h, level, l, hl => by
    have hatom := Atom.newline_notMem_chars h
    have hmargin := newline_notMem_margin level
    rw [lines, List.mem_singleton] at hl
    simp [hl, hmargin, hatom]
  | .list items, h, level, l, hl => by
    have hmargin := newline_notMem_margin level
    rw [lines] at hl
    split at hl
    · have hlist := newline_notMem_chars (.list items) h
      rw [List.mem_singleton] at hl
      simp [hl, hmargin, hlist]
    · have hleading := newline_notMem_itemChars (leading items) (allSpelled_leading h)
      rcases List.mem_cons.1 hl with rfl | hl
      · simp [hmargin, hleading]
      · rcases List.mem_append.1 hl with hl | hl
        · exact newline_notMem_itemLines items h _ _ l hl
        · rw [List.mem_singleton.1 hl]
          simp [hmargin]

theorem newline_notMem_itemLines : ∀ (items : List Datum), AllSpelled items → ∀ (level : Int)
    (skip : Bool), ∀ l ∈ itemLines level skip items, '\n' ∉ l
  | [], _, _, _, _, hl => nomatch hl
  | d :: ds, h, level, skip, l, hl => by
    rw [itemLines] at hl
    split at hl
    · exact newline_notMem_itemLines ds h.2 level true l hl
    · rcases List.mem_append.1 hl with hl | hl
      · exact newline_notMem_lines d h.1 level l hl
      · exact newline_notMem_itemLines ds h.2 level false l hl

end

theorem joinLines_eq_intercalate (ls : List (List Char)) :
    joinLines ls = ['\n'].intercalate ls := by
  induction ls with
  | nil => rfl
  | cons l ls ih =>
    cases ls with
    | nil => simp [joinLines]
    | cons l' ls => rw [joinLines, ih] <;> simp [List.intercalate]

/-- **The lines of a layout**, read off its text. -/
theorem splitOn_layout {d : Datum} (h : d.Spelled) (level : Int) :
    (d.layout level).toList.splitOn '\n' = d.lines level := by
  rw [layout, String.toList_ofList, joinLines_eq_intercalate,
    List.splitOn_intercalate '\n' (newline_notMem_lines d h level) (lines_ne_nil level d)]

theorem margin_add (m n : Nat) : margin ((m + n : Nat) : Int) = List.replicate (2 * n) ' ' ++ margin m := by
  rw [margin, margin, Int.toNat_natCast, Int.toNat_natCast, List.replicate_append_replicate]
  congr 1
  omega

mutual

/-- **A deeper level** puts the same margin in front of every line. -/
theorem lines_add (n : Nat) : ∀ (d : Datum) (m : Nat),
    d.lines ((m + n : Nat) : Int) = (d.lines m).map (List.replicate (2 * n) ' ' ++ ·)
  | .atom a, m => by
    rw [lines, lines, margin_add]
    simp only [List.map_cons, List.map_nil, List.append_assoc]
  | .list items, m => by
    have hlevel : ((m + n : Nat) : Int) + 1 = ((m + 1 + n : Nat) : Int) := by omega
    have hlevel' : (m : Int) + 1 = ((m + 1 : Nat) : Int) := by omega
    have hitems := itemLines_add n items (m + 1) (startsWithSymbol items)
    rw [lines, lines, margin_add, hlevel, hlevel', hitems]
    split
    · simp only [List.map_cons, List.map_nil, List.append_assoc]
    · simp only [List.map_cons, List.map_append, List.map_nil, List.append_assoc]

theorem itemLines_add (n : Nat) : ∀ (items : List Datum) (m : Nat) (skip : Bool),
    itemLines ((m + n : Nat) : Int) skip items =
      (itemLines m skip items).map (List.replicate (2 * n) ' ' ++ ·)
  | [], _, _ => rfl
  | d :: ds, m, skip => by
    rw [itemLines, itemLines, itemLines_add n ds m true, itemLines_add n ds m false,
      lines_add n d m]
    split
    · rfl
    · rw [List.map_append]

end

/-! ### Reading -/

/-- The printed form of a datum that is spelled reads as one datum. -/
theorem exists_readAll_text {d : Datum} (h : d.Spelled) :
    ∃ f, readAll d.text = .ok [f] ∧ d.ReadsAs f := by
  obtain ⟨p, htokens, hreads⟩ := exists_derivation d h
  have hone : Derivation.tokensOfAll [p] = p.tokens := List.append_nil _
  have hderived : ofTokens (p.tokens ++ [Token.atEnd .start]) = .ok [p.datum] := by
    have hbefore := Derivation.beforeEnd_tokensOfAll [p] .start
    rw [← hone]
    exact Derivation.ofTokens_eq_ok_iff.2 ⟨[p], hbefore.symm, rfl⟩
  have hcontent : (p.tokens ++ [Token.atEnd .start]).map content = (Token.ofText d.text).map content := by
    rw [contents_text h, List.map_append, htokens, Token.contents, Token.scanFrom_nil]
  exact ⟨p.datum, ofTokens_of_content hcontent hderived, hreads⟩

/-- **A layout reads back.** For a datum that is spelled, the layout at every level has the tokens of
the printed form, the two read as the same one datum, and `n` levels down every line has `2 * n` more
spaces in front. -/
theorem layout_reads {d : Datum} (h : d.Spelled) :
    (∀ level : Int,
      (Token.ofText (d.layout level)).map content = (Token.ofText d.text).map content) ∧
    (∃ f, d.ReadsAs f ∧ readAll d.text = .ok [f] ∧
      ∀ level : Int, readAll (d.layout level) = .ok [f]) ∧
    ∀ n : Nat, (d.layout n).toList.splitOn '\n' =
      ((d.layout 0).toList.splitOn '\n').map (List.replicate (2 * n) ' ' ++ ·) := by
  refine ⟨contents_layout h, ?_, ?_⟩
  · obtain ⟨f, hf, hreads⟩ := exists_readAll_text h
    refine ⟨f, hreads, hf, fun level => ?_⟩
    exact ofTokens_of_content (contents_layout h level).symm hf
  · intro n
    have hlines := lines_add n d 0
    rw [Nat.zero_add] at hlines
    rw [splitOn_layout h, splitOn_layout h]
    exact hlines

/-- The datum `(define (NIL "a\n)") (((-12) nil) ()))`. -/
def deep : Datum :=
  .list [symbol "define", .list [symbol "NIL", .atom (.string "a\n)")],
    .list [.list [.list [.atom (.number (.int (-12)))], .atom .nil], .list []]]

/-- Lists in lists, a list without items, a string with a line break and a symbol spelled like `nil`,
three levels down. -/
theorem layout_reads_deep : deep.Spelled ∧
    (∃ f, deep.ReadsAs f ∧ readAll deep.text = .ok [f] ∧ readAll (deep.layout 3) = .ok [f]) ∧
    (deep.layout 3).toList.splitOn '\n' =
      ((deep.layout 0).toList.splitOn '\n').map (List.replicate 6 ' ' ++ ·) := by
  have hdefine : IsSymbolName "define" := isSymbolName_of_symbolShaped
    ⟨'d', ['e', 'f', 'i', 'n', 'e'], rfl, by decide, by decide, by decide, List.all_eq_true.1 rfl⟩
  have hname : IsSymbolName "NIL" := isSymbolName_of_symbolShaped
    ⟨'N', ['I', 'L'], rfl, by decide, by decide, by decide, List.all_eq_true.1 rfl⟩
  have hint : (-12 : Int).natAbs < 10 ^ Number.maxDigits :=
    Nat.lt_of_lt_of_le (by decide : 12 < 10 ^ 2) (Nat.pow_le_pow_right (by decide) (by decide))
  have h : deep.Spelled :=
    ⟨hdefine, ⟨hname, trivial, trivial⟩, ⟨⟨⟨hint, trivial⟩, trivial, trivial⟩, trivial, trivial⟩,
      trivial⟩
  obtain ⟨-, ⟨f, hf, hprinted, hlaid⟩, hlines⟩ := layout_reads h
  exact ⟨h, ⟨f, hf, hprinted, hlaid 3⟩, hlines 3⟩

end Datum

end MiniLisp
