import MiniLisp.Proofs.Datum.Grammar
import MiniLisp.Proofs.Token.Printed
import MiniLisp.Value.Text

/-! # Printed values read back

A value is readable if its printed form says all of it: it is built of lists and of atoms that the
reader can spell (`Atom.Readable`). In front of anything that may follow a printed form, the tokens of
a readable value are those of a derivation of the same datum (`cutInto_chars`). So reading the
printed form gives one datum, and it is the value that was printed, up to the exponents of decimals
(`readAll_print`). -/

namespace MiniLisp

/-- **The atoms that can be read back.** -/
def Atom.Readable : Atom → Prop
  | .nil => True
  | .bool b => b = true
  | .number (.int n) => n.natAbs < 10 ^ Number.maxDigits
  | .number (.decimal d) => d.isFinite = true
  | .string _ => True
  | .symbol name => Token.IsSymbolName name ∧ Text.lower name ≠ "nil" ∧ Text.lower name ≠ "t"
  | .date d => 1000 ≤ d.date.year ∧ d.microsecond = 0

/-- Equal atoms of one kind; decimals are compared as numbers. -/
def Atom.Same : Atom → Atom → Prop
  | .number (.decimal d), .number (.decimal e) => Decimal.eqv d e = true
  | a, b => a = b

namespace Value

mutual

/-- **The values that can be read back.** -/
def Readable : Value → Prop
  | .atom a => a.Readable
  | .list _ items => AllReadable items
  | _ => False

/-- All of the values can be read back. -/
def AllReadable : List Value → Prop
  | [] => True
  | v :: vs => v.Readable ∧ AllReadable vs

end

mutual

/-- A value and a datum of the same structure with the same atoms. -/
def SameForm : Value → Datum → Prop
  | .atom a, .atom b => a.Same b
  | .list _ items, .list data => SameForms items data
  | _, _ => False

/-- Values and data that are the same one by one. -/
def SameForms : List Value → List Datum → Prop
  | [], [] => True
  | v :: vs, d :: ds => v.SameForm d ∧ SameForms vs ds
  | _, _ => False

end

/-! ### The tokens of readable values -/

/-- In front of the rest of a text, the characters are cut into the tokens of a derivation that gives
the same form. -/
def CutInto (v : Value) (p : Place) (cs rest : List Char) : Prop :=
  ∃ d : Derivation, Token.scanFrom p (cs ++ rest) =
    d.tokens ++ Token.scanFrom (p.advanceAll cs) rest ∧ v.SameForm d.datum

theorem cutInto_symbol {a b : Atom} {p : Place} {cs rest : List Char} (hcs : Token.SymbolShaped cs)
    (hrest : Token.Separated rest) (hb : Atom.ofName (String.ofList cs) = b) (hsame : a.Same b) :
    CutInto (.atom a) p cs rest := by
  refine ⟨.symbol ⟨.symbol, String.ofList cs, p⟩ rfl, ?_, ?_⟩
  · rw [Token.scanFrom_symbol p hcs hrest]
    rfl
  · rw [Derivation.datum, hb]
    exact hsame

theorem cutInto_literal {a : Atom} {p : Place} {rest : List Char} {l : Number.Literal} {n : Number}
    (hrest : Token.Separated rest) (hn : Number.ofChars l.chars = .ok n)
    (hsame : a.Same (.number n)) : CutInto (.atom a) p l.chars rest := by
  have hreads : Number.ofText (String.ofList l.chars) = .ok n := by
    rw [Number.ofText, String.toList_ofList, hn]
  refine ⟨.number ⟨.number, String.ofList l.chars, p⟩ n rfl hreads, ?_, hsame⟩
  rw [Token.scanFrom_literal p l hrest]
  rfl

/-- The name that `nil` is printed as. -/
theorem symbolShaped_nil : Token.SymbolShaped ['n', 'i', 'l'] :=
  ⟨'n', ['i', 'l'], rfl, by decide, by decide, by decide, List.all_eq_true.1 rfl⟩

/-- The name that the true boolean is printed as. -/
theorem symbolShaped_true : Token.SymbolShaped ['t'] :=
  ⟨'t', [], rfl, by decide, by decide, by decide, List.all_eq_true.1 rfl⟩

/-- A readable number is printed as a literal of the same number. -/
theorem exists_literal {n : Number} (h : (Atom.number n).Readable) :
    ∃ (l : Number.Literal) (m : Number), l.chars = n.textChars ∧
      Number.ofChars l.chars = .ok m ∧ (Atom.number n).Same (.number m) := by
  cases n with
  | int n =>
    exact ⟨Number.literalOfInt n, .int n, Number.chars_literalOfInt n,
      Number.ofChars_literalOfInt h, rfl⟩
  | decimal d =>
    cases d with
    | finite s c e =>
      obtain ⟨l, d, hl, hd, heqv⟩ := Number.exists_literal_decimal s c e
      exact ⟨l, .decimal d, hl, hd, heqv⟩
    | infinite s => cases h
    | nan => cases h

/-- A readable atom is cut into a token that reads as the same atom. -/
theorem cutInto_atom {a : Atom} (h : a.Readable) (p : Place) {rest : List Char}
    (hrest : Token.Separated rest) : CutInto (.atom a) p a.chars rest := by
  cases a with
  | nil => exact cutInto_symbol symbolShaped_nil hrest (by decide +kernel) rfl
  | bool b =>
    cases (h : b = true)
    exact cutInto_symbol symbolShaped_true hrest (by decide +kernel) rfl
  | number n =>
    obtain ⟨l, m, hl, hm, hsame⟩ := exists_literal h
    rw [Atom.chars, ← hl]
    exact cutInto_literal hrest hm hsame
  | string s =>
    refine ⟨.string ⟨.string, s, p⟩ rfl, ?_, rfl⟩
    rw [Atom.chars, Token.scanFrom_string, String.ofList_toList]
    rfl
  | symbol name =>
    obtain ⟨hname, hnil, ht⟩ := h
    refine cutInto_symbol hname.symbolShaped hrest ?_ rfl
    rw [Atom.chars, String.ofList_toList, Atom.ofName]
    simp only [hnil, ht, if_false]
  | date d =>
    obtain ⟨hyear, hmicros⟩ := h
    have hreads : DateTime.ofText (String.ofList (DateTime.fieldChars 1 d)) = .ok d := by
      rw [DateTime.ofText, String.toList_ofList, DateTime.ofChars, DateTime.ofCharsIn_fieldChars _ hyear hmicros]
    refine ⟨.date ⟨.date, String.ofList (DateTime.fieldChars 1 d), p⟩ d rfl hreads, ?_, rfl⟩
    rw [Atom.chars, Token.scanFrom_date p d]
    rfl

mutual

/-- **The tokens of a readable value** are those of a derivation of the same datum. -/
theorem cutInto_chars : ∀ (v : Value), v.Readable → ∀ (p : Place) {rest : List Char},
    Token.Separated rest → v.CutInto p v.chars rest
  | .atom a, h, p, _, hrest => cutInto_atom h p hrest
  | .list id items, h, p, rest, hrest => by
    obtain ⟨ds, hds, hsame⟩ := exists_derivations items h (p.advanceAll ['('])
      (Token.separated_cons (.inr (.inl rfl)) rest)
    refine ⟨.list ⟨.leftParen, "(", p⟩ ds
      ⟨.rightParen, ")", (p.advanceAll ['(']).advanceAll (itemChars items)⟩ rfl rfl, ?_, hsame⟩
    have hchars : (Value.list id items).chars ++ rest = '(' :: (itemChars items ++ ')' :: rest) := by
      rw [chars, List.cons_append, List.append_assoc]
      rfl
    have hplace : ((p.advanceAll ['(']).advanceAll (itemChars items)).advanceAll [')'] =
        p.advanceAll (Value.list id items).chars := by
      rw [← Place.advanceAll_append, ← Place.advanceAll_append, chars]
      rfl
    rw [hchars, Token.scanFrom_leftParen, hds, Token.scanFrom_rightParen, hplace, Derivation.tokens,
      List.cons_append, List.append_assoc]
    rfl

/-- The tokens of readable values with spaces between them. -/
theorem exists_derivations : ∀ (vs : List Value), AllReadable vs → ∀ (p : Place) {rest : List Char},
    Token.Separated rest → ∃ ds : List Derivation,
      Token.scanFrom p (itemChars vs ++ rest) =
        Derivation.tokensOfAll ds ++ Token.scanFrom (p.advanceAll (itemChars vs)) rest ∧
          SameForms vs (Derivation.data ds)
  | [], _, _, _, _ => ⟨[], rfl, trivial⟩
  | [v], h, p, rest, hrest => by
    obtain ⟨d, hd, hsame⟩ := cutInto_chars v h.1 p hrest
    refine ⟨[d], ?_, hsame, trivial⟩
    rw [itemChars, hd, Derivation.tokensOfAll, Derivation.tokensOfAll, List.append_nil]
  | v :: w :: vs, h, p, rest, hrest => by
    obtain ⟨d, hd, hsame⟩ := cutInto_chars v h.1 p
      (Token.separated_cons (.inl rfl) (itemChars (w :: vs) ++ rest))
    obtain ⟨ds, hds, hsames⟩ := exists_derivations (w :: vs) h.2 ((p.advanceAll v.chars).advance ' ')
      hrest
    have hchars : itemChars (v :: w :: vs) = v.chars ++ ' ' :: itemChars (w :: vs) := rfl
    have hplace : ((p.advanceAll v.chars).advance ' ').advanceAll (itemChars (w :: vs)) =
        p.advanceAll (itemChars (v :: w :: vs)) := by
      rw [hchars, Place.advanceAll_append]
      rfl
    refine ⟨d :: ds, ?_, hsame, hsames⟩
    rw [hplace] at hds
    rw [hchars, List.append_assoc, List.cons_append, hd, Token.scanFrom_blank (by decide), hds,
      ← hchars, Derivation.tokensOfAll, List.append_assoc]

end

/-! ### Readable values are printed -/

theorem isOverlong_atom_of_readable {a : Atom} (h : a.Readable) : a.isOverlong = false := by
  cases a with
  | number n =>
    cases n with
    | int n =>
      rw [Atom.isOverlong]
      exact Number.isOverlong_int (n := n) h
    | decimal d => rfl
  | _ => rfl

mutual

theorem isOverlong_of_readable : ∀ v : Value, v.Readable → v.isOverlong = false
  | .atom _, h => isOverlong_atom_of_readable h
  | .list _ items, h => anyOverlong_of_readable items h

theorem anyOverlong_of_readable : ∀ vs : List Value, AllReadable vs → anyOverlong vs = false
  | [], _ => rfl
  | v :: vs, h => by
    rw [anyOverlong, isOverlong_of_readable v h.1, anyOverlong_of_readable vs h.2]
    rfl

end

/-- **Reading a printed value gives it back**: one datum, of the same structure with the same atoms. -/
theorem readAll_print {v : Value} (h : v.Readable) :
    ∃ text f, v.print = .ok text ∧ Datum.readAll text = .ok [f] ∧ v.SameForm f := by
  obtain ⟨d, hd, hsame⟩ := cutInto_chars v h .start Token.separated_nil
  rw [List.append_nil, Token.scanFrom_nil] at hd
  refine ⟨v.text, d.datum, ?_, ?_, hsame⟩
  · rw [print, isOverlong_of_readable v h]
    rfl
  · have htokens : Derivation.tokensOfAll [d] =
        Datum.beforeEnd (Derivation.tokensOfAll [d] ++ [.atEnd (Place.start.advanceAll v.chars)]) :=
      (Derivation.beforeEnd_tokensOfAll [d] _).symm
    have hone : Derivation.tokensOfAll [d] = d.tokens := List.append_nil _
    rw [Datum.readAll, Token.ofText, text, String.toList_ofList, hd, ← hone]
    exact Derivation.ofTokens_eq_ok_iff.2 ⟨[d], htokens, rfl⟩

/-- The value `(quote "a\"\n" (-12 -15000.0 nil t) () #d"2000-02-29 01:00:00")`. -/
def assorted : Value :=
  .list 1 [.symbol "quote", .string "a\"\n",
    .list 2 [.int (-12), .decimal (.finite true 15 3), .nil, .bool true], .list 3 [],
    .date ⟨⟨2000, 2, 29, by decide, by decide⟩, 3600000000, by decide⟩]

/-- A list of a symbol, escapes, a negative number, a decimal with an exponent, a list without items and
a leap day reads back. -/
theorem readAll_print_assorted : assorted.Readable ∧
    ∃ text f, assorted.print = .ok text ∧ Datum.readAll text = .ok [f] ∧ assorted.SameForm f := by
  have hquote : Token.IsSymbolName "quote" := Token.isSymbolName_of_symbolShaped
    ⟨'q', ['u', 'o', 't', 'e'], rfl, by decide, by decide, by decide, List.all_eq_true.1 rfl⟩
  have hint : (-12 : Int).natAbs < 10 ^ Number.maxDigits :=
    Nat.lt_of_lt_of_le (by decide : 12 < 10 ^ 2) (Nat.pow_le_pow_right (by decide) (by decide))
  have h : assorted.Readable :=
    ⟨⟨hquote, by decide +kernel, by decide +kernel⟩, trivial, ⟨hint, rfl, trivial, rfl, trivial⟩,
      trivial, ⟨by decide, by decide⟩, trivial⟩
  exact ⟨h, readAll_print h⟩

end Value

end MiniLisp
