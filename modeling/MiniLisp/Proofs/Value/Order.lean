import Mathlib.Data.String.Basic
import Mathlib.Order.WithBot
import MiniLisp.Proofs.DateTime.Calendar
import MiniLisp.Proofs.Decimal.Rational
import MiniLisp.Proofs.Value.Finite

/-! # The order of values

Numbers, strings and dates are three families of values that can be compared, each with `nil` as its least
member (`Family.Has`). In each, comparing is comparing ranks in a linear order (`Ranks`): numbers rank
as what they stand for, whole or decimal, strings by their characters and dates by their key. So the laws
of a total order hold in each (`Ordered`), and equality is the equality of ranks. Beyond the families,
equality is an equivalence of all finite values (`equal_equivalence`). -/

namespace MiniLisp.Value

variable {a b c : Value}

/-! ## Families -/

/-- The families of values that can be compared with one another. -/
inductive Family where
  | numbers
  | strings
  | dates

/-- The members of a family; `nil` belongs to each. -/
def Family.Has : Family → Value → Prop
  | _, .nil => True
  | .numbers, .number n => n.IsFinite
  | .strings, .string _ => True
  | .dates, .date _ => True
  | _, _ => False

/-- **Comparing the values is comparing their ranks.** -/
def Ranks {α : Type} [LinearOrder α] (P : Value → Prop) (rank : Value → α) : Prop :=
  ∀ a b, P a → P b →
    a.less b = .ok (decide (rank a < rank b)) ∧ (a.equal b = true ↔ rank a = rank b)

/-- The rank of a number; `nil` is below all. -/
def numberRank : Value → WithBot ℚ
  | .number n => (n.toRat : ℚ)
  | _ => ⊥

/-- The rank of a string; `nil` is below all. -/
def stringRank : Value → WithBot String
  | .string s => (s : String)
  | _ => ⊥

/-- The rank of a date; `nil` is below all. -/
def dateRank : Value → WithBot Nat
  | .date d => (d.key : Nat)
  | _ => ⊥

theorem ranks_numbers : Ranks Family.numbers.Has numberRank := by
  intro a b ha hb
  match a, b, ha, hb with
  | .nil, .nil, _, _ => exact ⟨by simp [less, numberRank, isNil], by simp [equal, numberRank]⟩
  | .nil, .number n, _, _ => exact ⟨by simp [less, numberRank, isNil], by simp [equal, numberRank]⟩
  | .number m, .nil, _, _ => exact ⟨by simp [less, numberRank], by simp [equal, numberRank]⟩
  | .number m, .number n, hm, hn =>
    constructor
    · rw [less, Number.less?_eq hm hn]
      simp [numberRank]
    · rw [equal, Number.same_iff hm hn]
      simp [numberRank]

theorem ranks_strings : Ranks Family.strings.Has stringRank := by
  intro a b ha hb
  match a, b, ha, hb with
  | .nil, .nil, _, _ => exact ⟨by simp [less, stringRank, isNil], by simp [equal, stringRank]⟩
  | .nil, .string t, _, _ => exact ⟨by simp [less, stringRank, isNil], by simp [equal, stringRank]⟩
  | .string s, .nil, _, _ => exact ⟨by simp [less, stringRank], by simp [equal, stringRank]⟩
  | .string s, .string t, _, _ => exact ⟨by simp [less, stringRank], by simp [equal, stringRank]⟩

theorem ranks_dates : Ranks Family.dates.Has dateRank := by
  intro a b ha hb
  match a, b, ha, hb with
  | .nil, .nil, _, _ => exact ⟨by simp [less, dateRank, isNil], by simp [equal, dateRank]⟩
  | .nil, .date e, _, _ => exact ⟨by simp [less, dateRank, isNil], by simp [equal, dateRank]⟩
  | .date d, .nil, _, _ => exact ⟨by simp [less, dateRank], by simp [equal, dateRank]⟩
  | .date d, .date e, _, _ =>
    refine ⟨by simp [less, dateRank], ?_⟩
    have hkey : d.key = e.key ↔ d = e := ⟨DateTime.key_injective, fun h => h ▸ rfl⟩
    simp [equal, dateRank, hkey]

/-! ## The laws -/

/-- **The values are totally ordered**, with `nil` as the least of them. -/
structure Ordered (P : Value → Prop) : Prop where
  /-- Comparing never fails, and exactly one of less, equal and greater holds. -/
  trichotomy : ∀ a b, P a → P b →
    (a.less b = .ok true ∧ a.equal b = false ∧ b.less a = .ok false) ∨
    (a.less b = .ok false ∧ a.equal b = true ∧ b.less a = .ok false) ∨
    (a.less b = .ok false ∧ a.equal b = false ∧ b.less a = .ok true)
  trans : ∀ a b c, P a → P b → P c → a.less b = .ok true → b.less c = .ok true →
    a.less c = .ok true
  /-- Equal values can stand for one another. -/
  replace : ∀ a a' b, P a → P a' → P b → a.equal a' = true →
    a.less b = a'.less b ∧ b.less a = b.less a'
  least : P .nil ∧ ∀ a, P a → a = .nil ∨ less .nil a = .ok true

/-- **What is ranked is totally ordered.** -/
theorem Ranks.ordered {α : Type} [LinearOrder α] {P : Value → Prop} {rank : Value → α}
    (h : Ranks P rank) (hnil : P .nil) : Ordered P where
  trichotomy a b ha hb := by
    obtain ⟨hless, hequal⟩ := h a b ha hb
    obtain ⟨hgreater, -⟩ := h b a hb ha
    rw [hless, hgreater, ← Bool.not_eq_true, hequal]
    rcases lt_trichotomy (rank a) (rank b) with hlt | heq | hgt
    · simp [hlt, hlt.ne, hlt.not_gt]
    · simp [heq]
    · simp [hgt, hgt.ne', hgt.not_gt]
  trans a b c ha hb hc hab hbc := by
    rw [(h a b ha hb).1] at hab
    rw [(h b c hb hc).1] at hbc
    rw [(h a c ha hc).1]
    simp only [Except.ok.injEq, decide_eq_true_eq] at hab hbc ⊢
    exact hab.trans hbc
  replace a a' b ha ha' hb heq := by
    have hrank : rank a = rank a' := (h a a' ha ha').2.mp heq
    rw [(h a b ha hb).1, (h a' b ha' hb).1, (h b a hb ha).1, (h b a' hb ha').1, hrank]
    exact ⟨rfl, rfl⟩
  least := by
    refine ⟨hnil, fun a _ => ?_⟩
    by_cases hn : a.isNil = true
    · left
      unfold isNil at hn
      split at hn
      · rfl
      · cases hn
    · right
      rw [less, Bool.not_eq_true _ |>.mp hn]
      rfl

theorem Family.ordered (family : Family) : Ordered family.Has := by
  cases family with
  | numbers => exact ranks_numbers.ordered trivial
  | strings => exact ranks_strings.ordered trivial
  | dates => exact ranks_dates.ordered trivial

/-! ## Equality -/

/-- What equality looks at: the number that a number stands for, any other atom itself, and of an object
which one it is. -/
def identity : Value → ℚ ⊕ Atom ⊕ Option ObjectId
  | .number n => .inl n.toRat
  | .atom a => .inr (.inl a)
  | v => .inr (.inr v.id?)

/-- **An object is equal to itself alone.** -/
theorem equal_object {i : ObjectId} (h : a.id? = some i) : a.equal b = true ↔ b.id? = some i := by
  have hequal : a.equal b = (a.id? == b.id?) := by
    cases a with
    | atom x => cases h
    | _ => rfl
  rw [hequal, h, beq_iff_eq, eq_comm]

/-- **An atom that is no number is equal to itself alone.** -/
theorem equal_atom {x : Atom} (hx : ∀ n, x ≠ .number n) : equal (.atom x) b = true ↔ b = .atom x := by
  cases x with
  | number n => exact absurd rfl (hx n)
  | _ =>
    cases b with
    | atom y => cases y <;> simp [equal, eq_comm]
    | _ => simp [equal, id?]

theorem identity_eq_object_iff {i : ObjectId} :
    a.identity = .inr (.inr (some i)) ↔ a.id? = some i := by
  cases a with
  | atom x => cases x <;> simp [identity, id?]
  | _ => simp [identity, id?]

theorem identity_eq_atom_iff {x : Atom} (hx : ∀ n, x ≠ .number n) :
    a.identity = .inr (.inl x) ↔ a = .atom x := by
  cases a with
  | atom y =>
    cases y with
    | number n => simp [identity, (hx n).symm]
    | _ => simp [identity]
  | _ => simp [identity]

/-- A value is a number, another atom or an object. -/
theorem kinds (a : Value) : (∃ n, a = .number n) ∨ (∃ x, a = .atom x ∧ ∀ n, x ≠ .number n) ∨
    ∃ i, a.id? = some i := by
  cases a with
  | atom x =>
    cases x with
    | number n => exact .inl ⟨n, rfl⟩
    | _ => exact .inr (.inl ⟨_, rfl, nofun⟩)
  | _ => exact .inr (.inr ⟨_, rfl⟩)

/-- **Finite values are equal if equality sees the same of them.** -/
theorem equal_iff_identity (ha : a.IsFinite) (hb : b.IsFinite) :
    a.equal b = true ↔ a.identity = b.identity := by
  rcases a.kinds with ⟨m, rfl⟩ | ⟨x, rfl, hx⟩ | ⟨i, hi⟩
  · cases b with
    | atom y =>
      cases y with
      | number n =>
        rw [equal, Number.same_iff (isFinite_number.1 ha) (isFinite_number.1 hb)]
        simp [identity]
      | _ => simp [equal, identity]
    | _ => simp [equal, identity, id?]
  · rw [equal_atom hx, (identity_eq_atom_iff hx).mpr rfl, eq_comm (b := b.identity),
      identity_eq_atom_iff hx]
  · rw [equal_object hi, identity_eq_object_iff.mpr hi, eq_comm (b := b.identity),
      identity_eq_object_iff]

theorem equal_equivalence :
    Equivalence fun a b : {v : Value // v.IsFinite} => a.1.equal b.1 = true := by
  have h : (fun a b : {v : Value // v.IsFinite} => a.1.equal b.1 = true) =
      fun a b => a.1.identity = b.1.identity := by
    funext a b
    exact propext (equal_iff_identity a.2 b.2)
  rw [h]
  exact ⟨fun _ => rfl, fun h => h.symm, fun h h' => h.trans h'⟩

/-- **Comparing is a total order compatible with equality** on numbers, on strings and on dates, each with
`nil` as the least; and equality is an equivalence of all finite values, of lists, functions and other
objects by what they are, of other atoms but numbers by what they say. -/
theorem order_laws :
    (∀ family : Family, Ordered family.Has) ∧
    (Equivalence fun a b : {v : Value // v.IsFinite} => a.1.equal b.1 = true) ∧
    (∀ (a b : Value) (i : ObjectId), a.id? = some i → (a.equal b = true ↔ b.id? = some i)) ∧
    (∀ (x : Atom) (b : Value), (∀ n, x ≠ .number n) → (equal (.atom x) b = true ↔ b = .atom x)) :=
  ⟨Family.ordered, equal_equivalence, fun _ _ _ h => equal_object h, fun _ _ hx => equal_atom hx⟩

/-- The whole number 1 and the decimal 1.0 are equal, so both are below 1.5. -/
theorem order_laws_oneAndHalf :
    (int 1).equal (.decimal (.finite false 10 (-1))) = true ∧
    (int 1).less (.decimal (.finite false 15 (-1))) = .ok true ∧
    (decimal (.finite false 10 (-1))).less (.decimal (.finite false 15 (-1))) = .ok true := by
  have hequal : (int 1).equal (.decimal (.finite false 10 (-1))) = true := by decide
  have hless : (int 1).less (.decimal (.finite false 15 (-1))) = .ok true := by decide
  have hreplace := (order_laws.1 .numbers).replace (int 1) (.decimal (.finite false 10 (-1)))
    (.decimal (.finite false 15 (-1))) trivial rfl rfl hequal
  exact ⟨hequal, hless, hreplace.1 ▸ hless⟩

end MiniLisp.Value
