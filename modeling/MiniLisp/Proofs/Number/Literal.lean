import MiniLisp.Number
import Mathlib.Algebra.Group.Nat.Defs

/-! # Literals of numbers

A literal is an optional minus, digits, and possibly a point with further digits, and nothing else is read
as a number (`exists_literal_of_ofChars`). Every number that is not too long is printed as a literal, and
reading the literal gives the number back: a whole number itself (`ofChars_literalOfInt`), a finite
decimal up to the digits after the point that a positive exponent gains (`exists_literal_decimal`). -/

namespace MiniLisp.Number

/-- **The literal of a number.** -/
structure Literal where
  negative : Bool
  whole : List Char
  fraction : Option (List Char)
  whole_ne_nil : whole ≠ []
  isDigit_whole : ∀ c ∈ whole, c.isDigit = true
  isDigit_fraction : ∀ ds ∈ fraction, ∀ c ∈ ds, c.isDigit = true

namespace Literal

/-- The point and the digits after it. -/
def fractionChars : Option (List Char) → List Char
  | none => []
  | some ds => '.' :: ds

/-- The characters after the sign. -/
def unsigned (l : Literal) : List Char := l.whole ++ fractionChars l.fraction

/-- The characters of a literal. -/
def chars (l : Literal) : List Char := Decimal.signText l.negative ++ l.unsigned

/-- A literal without its sign starts with a digit. -/
theorem exists_unsigned_eq_cons (l : Literal) :
    ∃ c cs, l.unsigned = c :: cs ∧ c.isDigit = true := by
  obtain ⟨c, cs, hc⟩ := List.exists_cons_of_ne_nil l.whole_ne_nil
  refine ⟨c, cs ++ fractionChars l.fraction, ?_, l.isDigit_whole c ?_⟩
  · rw [unsigned, hc, List.cons_append]
  · rw [hc]
    exact List.mem_cons_self

/-! ### Reading -/

theorem takeWhile_isDigit (l : Literal) : l.unsigned.takeWhile Char.isDigit = l.whole := by
  rw [unsigned, List.takeWhile_append_of_pos l.isDigit_whole]
  cases l.fraction <;> simp [fractionChars]

theorem dropWhile_isDigit (l : Literal) :
    l.unsigned.dropWhile Char.isDigit = fractionChars l.fraction := by
  rw [unsigned, List.dropWhile_append_of_pos l.isDigit_whole]
  cases l.fraction <;> simp [fractionChars]

theorem ofUnsigned_unsigned (l : Literal) :
    ofUnsigned l.negative l.unsigned = ofParts l.negative l.whole l.fraction := by
  have hne : l.whole.isEmpty = false := by simpa using l.whole_ne_nil
  unfold ofUnsigned
  simp only [takeWhile_isDigit, dropWhile_isDigit, hne]
  cases h : l.fraction with
  | none => rfl
  | some ds =>
    have hds : ds.all Char.isDigit = true := List.all_eq_true.2 (l.isDigit_fraction ds h)
    simp [fractionChars, hds]

/-- **Reading a literal** combines its parts. -/
theorem ofChars_chars (l : Literal) : ofChars l.chars = ofParts l.negative l.whole l.fraction := by
  rw [← ofUnsigned_unsigned]
  unfold chars
  cases h : l.negative with
  | true => rfl
  | false =>
    obtain ⟨c, cs, hcs, hc⟩ := l.exists_unsigned_eq_cons
    have hne : c ≠ '-' := by
      rintro rfl
      exact absurd hc (by decide)
    rw [hcs, Decimal.signText]
    unfold ofChars
    split
    · next heq => exact absurd (List.cons.inj heq).1 hne
    · rfl

end Literal

theorem exists_literal_of_ofUnsigned {negative : Bool} {cs : List Char} {n : Number}
    (h : ofUnsigned negative cs = .ok n) :
    ∃ l : Literal, l.negative = negative ∧ l.unsigned = cs := by
  have hsplit : cs.takeWhile Char.isDigit ++ cs.dropWhile Char.isDigit = cs :=
    List.takeWhile_append_dropWhile
  have hwhole : ∀ c ∈ cs.takeWhile Char.isDigit, c.isDigit = true :=
    List.all_eq_true.1 List.all_takeWhile
  simp only [ofUnsigned] at h
  split at h
  · cases h
  · next hempty =>
    have hne : cs.takeWhile Char.isDigit ≠ [] := by simpa using hempty
    split at h
    · next hrest =>
      rw [hrest] at hsplit
      exact ⟨⟨negative, _, none, hne, hwhole, nofun⟩, rfl, hsplit⟩
    · next ds hrest =>
      rw [hrest] at hsplit
      split at h
      · next hds =>
        have hfraction : ∀ es ∈ some ds, ∀ c ∈ es, c.isDigit = true := by
          rintro _ ⟨⟩
          exact List.all_eq_true.1 hds
        exact ⟨⟨negative, _, some ds, hne, hwhole, hfraction⟩, rfl, hsplit⟩
      · cases h
    · cases h

/-- **Only literals are read.** -/
theorem exists_literal_of_ofChars {cs : List Char} {n : Number} (h : ofChars cs = .ok n) :
    ∃ l : Literal, l.chars = cs := by
  unfold ofChars at h
  split at h
  · next ds =>
    obtain ⟨l, hsign, hl⟩ := exists_literal_of_ofUnsigned h
    exact ⟨l, by rw [Literal.chars, hsign, hl]; rfl⟩
  · obtain ⟨l, hsign, hl⟩ := exists_literal_of_ofUnsigned h
    exact ⟨l, by rw [Literal.chars, hsign, hl]; rfl⟩

/-! ### Whole numbers -/

/-- The literal of a whole number. -/
def literalOfInt (n : Int) : Literal where
  negative := decide (n < 0)
  whole := Nat.toDigits 10 n.natAbs
  fraction := none
  whole_ne_nil := Nat.toDigits_ne_nil
  isDigit_whole _ := Nat.isDigit_of_mem_toDigits (by decide) (by decide)
  isDigit_fraction _ h := by cases h

theorem chars_literalOfInt (n : Int) : (literalOfInt n).chars = intChars n := by
  simp only [Literal.chars, Literal.unsigned, Literal.fractionChars, literalOfInt, List.append_nil,
    intChars]

/-- **A whole number reads back** from its literal, if that is not too long. -/
theorem ofChars_literalOfInt {n : Int} (h : n.natAbs < 10 ^ maxDigits) :
    ofChars (literalOfInt n).chars = .ok (.int n) := by
  have hlength : ¬ maxDigits < (Nat.toDigits 10 n.natAbs).length :=
    Nat.not_lt.2 ((Nat.length_toDigits_le_iff (by decide) (by decide)).2 h)
  rw [Literal.ofChars_chars]
  simp only [literalOfInt, ofParts, if_neg hlength, Nat.ofDigitChars_ten_toDigits,
    decide_eq_true_eq]
  congr 2
  split <;> omega

/-- The exponent is a variable here, so that the bound of the readable numbers is not computed. -/
theorem lt_natPow_iff {n k : Nat} : n < Nat.pow 10 k ↔ n < 10 ^ k := Iff.rfl

/-- A whole number that is not too long is printed. -/
theorem isOverlong_int {n : Int} (h : n.natAbs < 10 ^ maxDigits) : isOverlong (.int n) = false := by
  rw [isOverlong, decide_eq_false_iff_not, Nat.not_le]
  exact lt_natPow_iff.2 h

/-! ### Decimal numbers -/

theorem isDigit_of_mem_digits {n : Nat} {c : Char} (h : c ∈ Decimal.digits n) : c.isDigit = true :=
  Nat.isDigit_of_mem_toDigits (by decide) (by decide) h

/-- A point among digits has digits on both sides, which together stand for the same number. -/
theorem exists_pointed_eq {ds : List Char} (hds : ∀ c ∈ ds, c.isDigit = true) (places : Nat) :
    ∃ whole fraction, Decimal.pointed ds places = whole ++ '.' :: fraction ∧ whole ≠ [] ∧
      (∀ c ∈ whole, c.isDigit = true) ∧ (∀ c ∈ fraction, c.isDigit = true) ∧
      fraction.length = places ∧
      Nat.ofDigitChars 10 (whole ++ fraction) 0 = Nat.ofDigitChars 10 ds 0 := by
  unfold Decimal.pointed
  by_cases h : places < ds.length
  · rw [if_pos h]
    refine ⟨ds.take (ds.length - places), ds.drop (ds.length - places), rfl, ?_,
      fun c hc => hds c (List.mem_of_mem_take hc), fun c hc => hds c (List.mem_of_mem_drop hc), ?_, ?_⟩
    · intro hnil
      have := congrArg List.length hnil
      rw [List.length_take, List.length_nil] at this
      omega
    · rw [List.length_drop]
      omega
    · rw [List.take_append_drop]
  · rw [if_neg h]
    refine ⟨['0'], List.replicate (places - ds.length) '0' ++ ds, rfl, List.cons_ne_nil _ _, ?_, ?_,
      ?_, ?_⟩
    · intro c hc
      rw [List.mem_singleton.1 hc]
      decide
    · intro c hc
      rcases List.mem_append.1 hc with hc | hc
      · rw [List.eq_of_mem_replicate hc]
        decide
      · exact hds c hc
    · rw [List.length_append, List.length_replicate]
      omega
    · rw [Nat.ofDigitChars_append, Nat.ofDigitChars_append, Nat.ofDigitChars_replicate_zero]
      rfl

/-- The digits of a number from the exponent zero on are digits of that number. -/
theorem wholeDigits_spec (c e : Nat) :
    Decimal.wholeDigits c e ≠ [] ∧ (∀ d ∈ Decimal.wholeDigits c e, d.isDigit = true) ∧
      Nat.ofDigitChars 10 (Decimal.wholeDigits c e) 0 = c * 10 ^ e := by
  unfold Decimal.wholeDigits
  by_cases h : c = 0
  · rw [if_pos h, h, Nat.zero_mul]
    refine ⟨List.cons_ne_nil _ _, ?_, rfl⟩
    intro d hd
    rw [List.mem_singleton.1 hd]
    decide
  · rw [if_neg h]
    refine ⟨List.append_ne_nil_of_left_ne_nil Nat.toDigits_ne_nil _, ?_, ?_⟩
    · intro d hd
      rcases List.mem_append.1 hd with hd | hd
      · exact isDigit_of_mem_digits hd
      · rw [List.eq_of_mem_replicate hd]
        decide
    · rw [Nat.ofDigitChars_append, Decimal.digits, Nat.ofDigitChars_ten_toDigits,
        Nat.ofDigitChars_replicate_zero, Nat.mul_comm]

theorem eqv_self (s : Bool) (c : Nat) (e : Int) :
    Decimal.eqv (.finite s c e) (.finite s c e) = true := by
  simp [Decimal.eqv, Decimal.compare?, Ord.compare, compareOfLessAndEq]

/-- Writing the zeros of a positive exponent, and one more after the point, keeps the number. -/
theorem eqv_shifted (s : Bool) (c e : Nat) :
    Decimal.eqv (.finite s c e) (.finite s (c * 10 ^ e * 10) (-1)) = true := by
  have hlow : min (e : Int) (-1) = -1 := by omega
  have hexp : ((e : Int) - -1).toNat = e + 1 := by omega
  have h : Decimal.scaled s c e (-1) = Decimal.scaled s (c * 10 ^ e * 10) (-1) (-1) := by
    have hcoefficient : c * Nat.pow 10 (e + 1) = c * 10 ^ e * 10 := (Nat.mul_assoc c _ 10).symm
    simp only [Decimal.scaled, hexp, hcoefficient]
    simp
  simp only [Decimal.eqv, Decimal.compare?, hlow, h]
  simp [Ord.compare, compareOfLessAndEq]

/-- **A finite decimal is printed as a literal**, which reads as a decimal that is equal to it. -/
theorem exists_literal_decimal (s : Bool) (c : Nat) (e : Int) :
    ∃ (l : Literal) (d : Decimal), l.chars = (Decimal.finite s c e).textChars ∧
      ofChars l.chars = .ok (.decimal d) ∧ Decimal.eqv (.finite s c e) d = true := by
  by_cases h : e < 0
  · obtain ⟨whole, fraction, heq, hne, hwhole, hfraction, hlength, hvalue⟩ :=
      exists_pointed_eq (fun _ => isDigit_of_mem_digits (n := c)) (-e).toNat
    let l : Literal := ⟨s, whole, some fraction, hne, hwhole, fun ds hds => by cases hds; exact hfraction⟩
    refine ⟨l, .finite s c e, ?_, ?_, eqv_self s c e⟩
    · rw [Decimal.textChars, if_pos h, heq]
      rfl
    · rw [l.ofChars_chars]
      simp only [l, ofParts, hvalue, hlength, Decimal.digits, Nat.ofDigitChars_ten_toDigits]
      congr 3
      omega
  · obtain ⟨hne, hwhole, hvalue⟩ := wholeDigits_spec c e.toNat
    have hzero : ∀ c ∈ ['0'], c.isDigit = true := List.all_eq_true.1 rfl
    let l : Literal := ⟨s, Decimal.wholeDigits c e.toNat, some ['0'], hne, hwhole,
      fun ds hds => by cases hds; exact hzero⟩
    refine ⟨l, .finite s (c * 10 ^ e.toNat * 10) (-1), ?_, ?_, ?_⟩
    · rw [Decimal.textChars, if_neg h]
      rfl
    · rw [l.ofChars_chars]
      simp only [l, ofParts, Nat.ofDigitChars_append, hvalue]
      congr 3
      simp [Nat.ofDigitChars_cons, Nat.mul_comm]
    · have heq := eqv_shifted s c e.toNat
      rwa [Int.toNat_of_nonneg (Int.not_lt.1 h)] at heq

end MiniLisp.Number
