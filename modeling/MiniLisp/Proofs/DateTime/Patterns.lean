import Mathlib.Data.List.Infix
import MiniLisp.Proofs.DateTime.Printed

/-! # What the patterns of everyday notation take

Every pattern of everyday notation has a slash or the name of a month in it, so a text with neither fits none
of them (`findSome?_patterns_eq_none`). What a piece takes is seen without what follows it. A number of two
digits is taken as a whole if it counts months or days; of any other, a digit is left where the pattern goes on
with a blank, a slash or a comma (`readPieces_of_stops`). -/

namespace MiniLisp

namespace DateTime

/-! ### Everyday notation has a slash or a name -/

theorem isAlpha_eq_false_of_isDigit {c : Char} (h : c.isDigit = true) : c.isAlpha = false := by
  simp only [Char.isDigit, ge_iff_le, Bool.and_eq_true, decide_eq_true_eq] at h
  have hhigh : c.toNat ≤ 57 := h.2
  have hupper : c.isUpper = false := by
    refine decide_eq_false fun h => ?_
    have hlow : 65 ≤ c.toNat := h.1
    omega
  have hlower : c.isLower = false := by
    refine Bool.and_eq_false_iff.2 (.inl (decide_eq_false fun h => ?_))
    have hlow : 97 ≤ c.toNat := h
    omega
  exact Bool.or_eq_false_iff.2 ⟨hupper, hlower⟩

/-- A number has no letter in front. -/
theorem isAlpha_of_head?_padded {width n : Nat} {rest : List Char} :
    ∀ c ∈ (padded width n ++ rest).head?, c.isAlpha = false := fun c hc =>
  isAlpha_eq_false_of_isDigit (isDigit_of_head?_padded c hc)

theorem eq_drop_of_readClasses {classes : List (Char → Bool)} {n k : Nat} {cs rest : List Char}
    (h : readClasses n classes cs = some (k, rest)) : rest = cs.drop classes.length := by
  fun_induction readClasses n classes cs with
  | case1 => cases h; rfl
  | case2 _ _ _ _ _ _ ih => exact ih h
  | case3 => cases h
  | case4 => cases h

theorem suffix_of_readChoice {choices : List (List (Char → Bool))} {k : Nat} {cs rest : List Char}
    (h : readChoice choices cs = some (k, rest)) : rest <:+ cs := by
  obtain ⟨classes, -, hread⟩ := List.exists_of_findSome?_eq_some h
  exact eq_drop_of_readClasses hread ▸ List.drop_suffix _ _

theorem suffix_of_dropWord? {word cs rest : List Char} (h : dropWord? word cs = some rest) :
    rest <:+ cs := by
  fun_induction dropWord? word cs with
  | case1 => cases h; exact List.suffix_rfl
  | case2 _ c _ ih => exact (ih h).trans (List.suffix_cons c _)
  | case3 => cases h
  | case4 => cases h

/-- A name that was read begins the text, in letters of either case. -/
theorem dropWord?_of_readName {names : List String} {k : Nat} {cs rest : List Char}
    (h : readName names cs = some (k, rest)) :
    ∃ name ∈ names, dropWord? name.toList cs = some rest := by
  obtain ⟨⟨name, i⟩, hmem, hread⟩ := List.exists_of_findSome?_eq_some h
  obtain ⟨rest', hrest, heq⟩ := Option.map_eq_some_iff.1 hread
  cases heq
  exact ⟨name, (List.mem_zipIdx' hmem).2 ▸ List.getElem_mem _, hrest⟩

/-- A piece takes characters from the front. -/
theorem Piece.suffix_of_read {piece : Piece} {f g : Fields} {cs rest : List Char}
    (h : piece.read f cs = some (g, rest)) : rest <:+ cs := by
  cases piece with
  | month | day | year | hour | minute | second =>
    obtain ⟨⟨n, rest'⟩, hread, heq⟩ := Option.map_eq_some_iff.1 h
    cases heq
    exact suffix_of_readChoice hread
  | monthName names =>
    obtain ⟨⟨n, rest'⟩, hread, heq⟩ := Option.map_eq_some_iff.1 h
    cases heq
    obtain ⟨name, -, hdrop⟩ := dropWord?_of_readName hread
    exact suffix_of_dropWord? hdrop
  | mark m =>
    simp only [read, Option.ite_none_right_eq_some, Option.some.injEq, Prod.mk.injEq] at h
    exact h.2.2 ▸ List.drop_suffix 1 cs
  | gap =>
    simp only [read, Option.ite_none_right_eq_some, Option.some.injEq, Prod.mk.injEq] at h
    exact h.2.2 ▸ List.dropWhile_suffix _

/-- A pattern does not fit if one of its pieces fits nowhere in the text. -/
theorem readPieces_eq_none {pattern : List Piece} {piece : Piece} {cs : List Char}
    (hmem : piece ∈ pattern) (h : ∀ f rest, rest <:+ cs → piece.read f rest = none) (f : Fields) :
    readPieces f pattern cs = none := by
  induction pattern generalizing f cs with
  | nil => cases hmem
  | cons p pieces ih =>
    rw [readPieces]
    cases hp : p.read f cs with
    | none => rfl
    | some read =>
      rcases List.mem_cons.1 hmem with rfl | hmem
      · rw [h f cs List.suffix_rfl] at hp
        cases hp
      · exact ih hmem (fun f rest hrest => h f rest (hrest.trans (Piece.suffix_of_read hp))) read.1

theorem read_slash_eq_none {cs : List Char} (h : '/' ∉ cs) (f : Fields) :
    (Piece.mark '/').read f cs = none := by
  rw [Piece.read, if_neg fun hhead => h (List.mem_of_head? hhead)]

/-- Names that start with a letter. -/
def Named (names : List String) : Prop :=
  ∀ name ∈ names, name.toList.head?.any Char.isAlpha = true

/-- No name starts with a character that is no letter. -/
theorem readName_eq_none {names : List String} (hnames : Named names) {cs : List Char}
    (h : ∀ c ∈ cs.head?, c.isAlpha = false) : readName names cs = none := by
  cases hread : readName names cs with
  | none => rfl
  | some read =>
    obtain ⟨name, hmem, hdrop⟩ := dropWord?_of_readName hread
    have halpha := hnames name hmem
    cases hname : name.toList with
    | nil =>
      rw [hname] at halpha
      cases halpha
    | cons w ws =>
      rw [hname] at halpha hdrop
      cases cs with
      | nil => cases hdrop
      | cons c cs =>
        have hc : c.isAlpha = false := h c rfl
        have hupper : c.isUpper = false := (Bool.or_eq_false_iff.1 hc).1
        have hlower : c.toLower = c := dif_neg (of_decide_eq_false hupper)
        have hne : c ≠ w := by
          rintro rfl
          rw [List.head?_cons, Option.any_some, hc] at halpha
          cases halpha
        rw [dropWord?, hlower, if_neg hne] at hdrop
        cases hdrop

theorem read_monthName_eq_none {names : List String} (hnames : Named names) {cs : List Char}
    (h : ∀ c ∈ cs.head?, c.isAlpha = false) (f : Fields) :
    (Piece.monthName names).read f cs = none := by
  rw [Piece.read, readName_eq_none hnames h, Option.map_none]

/-- The names that a pattern looks for. -/
def namesOf (short : Bool) : List String := if short then shortMonthNames else monthNames

theorem named_namesOf (short : Bool) : Named (namesOf short) := by
  have hall : ∀ short, ∀ name ∈ namesOf short, name.toList.head?.any Char.isAlpha = true := by
    decide +kernel
  exact hall short

/-- Every pattern has a slash or the name of a month. -/
theorem slash_or_monthName {pattern : List Piece} (h : pattern ∈ patterns) :
    .mark '/' ∈ pattern ∨ ∃ names, Named names ∧ .monthName names ∈ pattern := by
  simp only [patterns, List.mem_cons, List.not_mem_nil, or_false] at h
  rcases h with rfl | rfl | rfl | rfl | rfl | rfl | rfl
  · exact .inl (by simp)
  · exact .inl (by simp)
  · exact .inl (by simp)
  · exact .inr ⟨_, named_namesOf false, by simp [namesOf]⟩
  · exact .inr ⟨_, named_namesOf true, by simp [namesOf]⟩
  · exact .inr ⟨_, named_namesOf false, by simp [namesOf]⟩
  · exact .inr ⟨_, named_namesOf true, by simp [namesOf]⟩

/-- **Everyday notation has a slash or a letter in it.** -/
theorem findSome?_patterns_eq_none {cs : List Char} (hslash : '/' ∉ cs)
    (halpha : ∀ c ∈ cs, c.isAlpha = false) : patterns.findSome? (readPattern · cs) = none := by
  refine List.findSome?_eq_none_iff.2 fun pattern hmem => ?_
  have hpieces : readPieces {} pattern cs = none := by
    rcases slash_or_monthName hmem with hmark | ⟨names, hnames, hname⟩
    · exact readPieces_eq_none hmark
        (fun f rest hrest => read_slash_eq_none (fun hc => hslash (hrest.subset hc)) f) {}
    · exact readPieces_eq_none hname (fun f rest hrest =>
        read_monthName_eq_none hnames (fun c hc => halpha c (hrest.subset (List.mem_of_head? hc))) f) {}
  rw [readPattern, hpieces]

/-! ### Numbers and names in front of a text -/

theorem readClasses_append {rest : List Char} : ∀ {classes : List (Char → Bool)} {cs : List Char}
    {n : Nat}, classes.length ≤ cs.length → readClasses n classes (cs ++ rest) =
      (readClasses n classes cs).map fun r => (r.1, r.2 ++ rest)
  | [], _, _, _ => rfl
  | p :: ps, c :: cs, n, h => by
    rw [List.cons_append, readClasses, readClasses]
    split
    · exact readClasses_append (Nat.le_of_succ_le_succ h)
    · rfl

/-- What is read of a text that goes on is what is read of the text, if it is long enough. -/
theorem readChoice_append {cs : List Char} (rest : List Char) :
    ∀ {choices : List (List (Char → Bool))}, (∀ classes ∈ choices, classes.length ≤ cs.length) →
      readChoice choices (cs ++ rest) = (readChoice choices cs).map fun r => (r.1, r.2 ++ rest)
  | [], _ => rfl
  | classes :: choices, h => by
    rw [List.forall_mem_cons] at h
    have ih := readChoice_append rest h.2
    rw [readChoice] at ih
    rw [readChoice, readChoice, List.findSome?_cons, List.findSome?_cons, readClasses_append h.1, ih]
    cases readClasses 0 classes cs <;> rfl

theorem dropWord?_append (rest : List Char) : ∀ {word : List Char}, ' ' ∉ word →
    ∀ cs : List Char, dropWord? word (cs ++ ' ' :: rest) =
      (dropWord? word cs).map (· ++ ' ' :: rest)
  | [], _, _ => rfl
  | w :: ws, h, [] => by
    rw [List.mem_cons, not_or] at h
    have hspace : ' '.toLower ≠ w := h.1
    rw [List.nil_append, dropWord?, if_neg hspace]
    rfl
  | w :: ws, h, c :: cs => by
    rw [List.mem_cons, not_or] at h
    rw [List.cons_append, dropWord?, dropWord?]
    split
    · exact dropWord?_append rest h.2 cs
    · rfl

/-- A name is read up to the space after it, since no name has a space in it. -/
theorem readName_append {names : List String} (h : ∀ name ∈ names, ' ' ∉ name.toList)
    (cs rest : List Char) : readName names (cs ++ ' ' :: rest) =
      (readName names cs).map fun r => (r.1, r.2 ++ ' ' :: rest) := by
  have hall : ∀ p ∈ names.zipIdx, ' ' ∉ p.1.toList := fun p hp =>
    h _ ((List.mem_zipIdx' hp).2 ▸ List.getElem_mem _)
  rw [readName, readName]
  generalize names.zipIdx = table at hall
  induction table with
  | nil => rfl
  | cons p table ih =>
    obtain ⟨name, i⟩ := p
    rw [List.forall_mem_cons] at hall
    simp only [List.findSome?_cons, dropWord?_append rest hall.1, ih hall.2]
    cases dropWord? name.toList cs <;> rfl

/-! ### What numbers and names leave -/

/-- Reading takes nothing, or it leaves a letter or a digit at once, with which no pattern goes on. -/
def stops : Option (Nat × List Char) → Bool
  | none => true
  | some (_, c :: _) => c.isAlphanum
  | some (_, []) => false

/-- A piece that is neither a number nor a name. -/
inductive Separates : Piece → Prop
  | gap : Separates .gap
  | mark {c : Char} (h : c.isAlphanum = false) : Separates (.mark c)

theorem stops_append {r : Option (Nat × List Char)} (h : stops r = true) (rest : List Char) :
    stops (r.map fun r => (r.1, r.2 ++ rest)) = true := by
  rcases r with _ | ⟨n, _ | ⟨c, cs⟩⟩
  · rfl
  · cases h
  · exact h

theorem Separates.read_eq_none {p : Piece} (hp : Separates p) {c : Char} (h : c.isAlphanum = true)
    (f : Fields) (cs : List Char) : p.read f (c :: cs) = none := by
  cases hp with
  | gap =>
    have hblank : ((c :: cs).head?.map Text.isBlank).getD false = false :=
      Text.isBlank_eq_false_of_isAlphanum h
    rw [Piece.read, hblank]
    rfl
  | @mark m hm =>
    have hne : (c :: cs).head? ≠ some m := by
      rintro ⟨⟩
      rw [h] at hm
      cases hm
    rw [Piece.read, if_neg hne]

theorem readPieces_of_read {p : Piece} {pieces : List Piece} {f g : Fields} {cs rest : List Char}
    (h : p.read f cs = some (g, rest)) : readPieces f (p :: pieces) cs = readPieces g pieces rest := by
  rw [readPieces, h]

theorem readPieces_of_read_eq_none {p : Piece} {pieces : List Piece} {f : Fields} {cs : List Char}
    (h : p.read f cs = none) : readPieces f (p :: pieces) cs = none := by
  rw [readPieces, h]

/-- A pattern does not fit if its number or name stops before a separator. -/
theorem readPieces_of_stops {p q : Piece} {pieces : List Piece} {f : Fields} {cs : List Char}
    {r : Option (Nat × List Char)} {g : Nat → Fields} (hread : p.read f cs = r.map fun r => (g r.1, r.2))
    (hr : stops r = true) (hq : Separates q) : readPieces f (p :: q :: pieces) cs = none := by
  rcases r with _ | ⟨n, _ | ⟨c, rest⟩⟩
  · exact readPieces_of_read_eq_none hread
  · cases hr
  · rw [readPieces_of_read hread]
    exact readPieces_of_read_eq_none (hq.read_eq_none hr _ _)

section

variable {q : Piece} {pieces : List Piece} {f : Fields} {cs : List Char}

theorem readPieces_month_of_stops (h : stops (readChoice monthChoices cs) = true) (hq : Separates q) :
    readPieces f (.month :: q :: pieces) cs = none :=
  readPieces_of_stops (g := fun n => { f with month := n }) rfl h hq

theorem readPieces_day_of_stops (h : stops (readChoice dayChoices cs) = true) (hq : Separates q) :
    readPieces f (.day :: q :: pieces) cs = none :=
  readPieces_of_stops (g := fun n => { f with day := n }) rfl h hq

theorem readPieces_name_of_stops {names : List String} (h : stops (readName names cs) = true)
    (hq : Separates q) : readPieces f (.monthName names :: q :: pieces) cs = none :=
  readPieces_of_stops (g := fun n => { f with month := n }) rfl h hq

end

/-- A gap takes a space, where no further blank follows. -/
theorem read_gap {cs : List Char} (h : ∀ c ∈ cs.head?, Text.isBlank c = false) (f : Fields) :
    Piece.gap.read f (' ' :: cs) = some (f, cs) := by
  have hspace : Text.isBlank ' ' = true := by decide
  rw [Piece.read, List.head?_cons, Option.map_some, hspace, Option.getD_some, if_pos rfl,
    List.dropWhile_cons_of_pos hspace, Text.dropWhile_isBlank_eq_self h]

theorem read_mark (c : Char) (cs : List Char) (f : Fields) :
    (Piece.mark c).read f (c :: cs) = some (f, cs) := by
  rw [Piece.read, List.head?_cons, if_pos rfl, List.drop_succ_cons, List.drop_zero]

/-! ### Numbers of two and of four digits -/

theorem length_padded_two {n : Nat} (h : n < 100) : (padded 2 n).length = 2 :=
  length_padded (by decide) h

/-- **What choices count.** They take the numbers of two digits from a first to a last one as a whole, and of
the other numbers they leave a digit. -/
structure Counts (choices : List (List (Char → Bool))) (first last : Nat) : Prop where
  two : ∀ classes ∈ choices, classes.length ≤ 2
  last_lt : last < 100
  table : ∀ n < 100, (first ≤ n ∧ n ≤ last → readChoice choices (padded 2 n) = some (n, [])) ∧
    (¬ (first ≤ n ∧ n ≤ last) → stops (readChoice choices (padded 2 n)) = true)

theorem counts_months : Counts monthChoices 1 12 := ⟨by decide, by decide, by decide +kernel⟩

theorem counts_days : Counts dayChoices 1 31 := ⟨by decide, by decide, by decide +kernel⟩

theorem counts_hours : Counts hourChoices 0 23 := ⟨by decide, by decide, by decide +kernel⟩

theorem counts_sixty : Counts sixtyChoices 0 59 := ⟨by decide, by decide, by decide +kernel⟩

namespace Counts

variable {choices : List (List (Char → Bool))} {first last n : Nat} (hcounts : Counts choices first last)
include hcounts

/-- Whether a number of two digits is taken as a whole is seen without what follows it. -/
theorem readChoice_padded (hn : n < 100) (rest : List Char) : readChoice choices (padded 2 n ++ rest) =
    (readChoice choices (padded 2 n)).map fun r => (r.1, r.2 ++ rest) :=
  readChoice_append rest fun classes hmem => (length_padded_two hn).symm ▸ hcounts.two classes hmem

theorem read (hn : first ≤ n ∧ n ≤ last) (rest : List Char) :
    readChoice choices (padded 2 n ++ rest) = some (n, rest) := by
  have hlt : n < 100 := Nat.lt_of_le_of_lt hn.2 hcounts.last_lt
  rw [hcounts.readChoice_padded hlt, (hcounts.table n hlt).1 hn]
  rfl

theorem stops_padded (hlt : n < 100) (hn : ¬ (first ≤ n ∧ n ≤ last)) (rest : List Char) :
    stops (readChoice choices (padded 2 n ++ rest)) = true := by
  rw [hcounts.readChoice_padded hlt]
  exact stops_append ((hcounts.table n hlt).2 hn) rest

/-- A number takes two digits at most, so of more digits one is left. -/
theorem stops_digits {ds : List Char} (hlength : 2 < ds.length) (hds : ∀ c ∈ ds, c.isDigit = true)
    (rest : List Char) : stops (readChoice choices (ds ++ rest)) = true := by
  have hall : ∀ classes ∈ choices, classes.length ≤ ds.length := fun classes hmem =>
    Nat.le_trans (hcounts.two classes hmem) (Nat.le_of_lt hlength)
  rw [readChoice_append rest hall]
  refine stops_append ?_ rest
  cases hread : readChoice choices ds with
  | none => rfl
  | some r =>
    obtain ⟨n, rest⟩ := r
    obtain ⟨classes, hmem, hclasses⟩ := List.exists_of_findSome?_eq_some hread
    have hrest := eq_drop_of_readClasses hclasses
    have hle := hcounts.two classes hmem
    cases rest with
    | nil =>
      have := congrArg List.length hrest
      rw [List.length_drop, List.length_nil] at this
      omega
    | cons c rest =>
      have hc : c ∈ ds := List.mem_of_mem_drop (hrest ▸ List.mem_cons_self)
      exact Bool.or_eq_true_iff.mpr (.inr (hds c hc))

end Counts

theorem decimalValue?_of_isDigit {c : Char} (h : c.isDigit = true) :
    Text.decimalValue? c = some (c.toNat - 48) := by
  simp only [Char.isDigit, ge_iff_le, Bool.and_eq_true, decide_eq_true_eq] at h
  change 48 ≤ c.toNat ∧ c.toNat ≤ 57 at h
  obtain ⟨more, hmore⟩ : ∃ more, Text.digitZeros = 48 :: more := ⟨_, rfl⟩
  have hfound : (Text.digitZeros.find? fun z => z ≤ c.toNat && c.toNat < z + 10) = some 48 := by
    rw [hmore]
    refine List.find?_cons_of_pos ?_
    simp only [Bool.and_eq_true, decide_eq_true_eq]
    omega
  rw [Text.decimalValue?, hfound]
  rfl

theorem readClasses_digits : ∀ {ds : List Char} (n : Nat), (∀ c ∈ ds, c.isDigit = true) →
    readClasses n (List.replicate ds.length anyDigit) ds = some (Nat.ofDigitChars 10 ds n, [])
  | [], _, _ => rfl
  | d :: ds, n, h => by
    rw [List.forall_mem_cons] at h
    have hvalue := decimalValue?_of_isDigit h.1
    have hdigit : anyDigit d = true := by rw [anyDigit, hvalue]; rfl
    rw [List.length_cons, List.replicate_succ, readClasses, if_pos hdigit, hvalue,
      readClasses_digits _ h.2, Nat.ofDigitChars_cons, Nat.mul_comm n]
    rfl

theorem readChoice_year {n : Nat} (h : n < 10 ^ 4) (rest : List Char) :
    readChoice yearChoices (padded 4 n ++ rest) = some (n, rest) := by
  have hlength : ∀ classes ∈ yearChoices, classes.length ≤ (padded 4 n).length := fun classes hmem => by
    rw [List.mem_singleton.mp hmem, length_padded (by decide) h]
    rfl
  have hdigits := readClasses_digits 0 fun c (hc : c ∈ padded 4 n) => isDigit_of_mem_padded hc
  rw [length_padded (by decide) h, ofDigitChars_padded] at hdigits
  have hclasses : List.replicate 4 anyDigit = [anyDigit, anyDigit, anyDigit, anyDigit] := rfl
  rw [readChoice_append rest hlength, readChoice, yearChoices, ← hclasses, List.findSome?_cons, hdigits]
  rfl

end DateTime

end MiniLisp
