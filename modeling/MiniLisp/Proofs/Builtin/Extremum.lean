import MiniLisp.Proofs.Builtin.Rounded

/-! # The least and the greatest argument

An extremum turns its arguments into numbers of one kind, decimals if one of them is a decimal, and keeps
the best one so far. Turning an argument into such a number rounds nothing (`StandsFor`), or fails
(`toKind_outcome`); and numbers are compared as what they stand for (`better_eq`). So the number that is
kept stands for one of the arguments, and none is better (`bestOf_outcome`, by induction on the
arguments). -/

namespace MiniLisp

namespace Value

/-- The argument can be compared in a call of this kind: it is `nil` or a finite number, and no whole number
that is too wide where decimals are compared. -/
def Competes (decimal : Bool) (v : Value) : Prop :=
  v.IsOperand ∧ (decimal = true → v.isWide = false)

/-- **The number stands for the argument** in a call of this kind: it is the same number, and a decimal is
the argument itself, digit by digit. -/
structure StandsFor (decimal : Bool) (v : Value) (n : Number) : Prop where
  isFinite : n.IsFinite
  toRat_eq : n.toRat = v.toRat
  kind : (number n).isDecimal = decimal
  unrounded : v.isDecimal = true → v = number n

/-- The failure about an argument that cannot be compared. -/
def RefusedAs (name : String) (v : Value) (e : Failure) : Prop :=
  (v.isWide = true ∧ e = tooWide name) ∨
    (¬ v.IsOperand ∧ e = .typeError (.expected name "number" v.type))

end Value

namespace Arithmetic

open Value

variable {greatest decimal : Bool} {name : String}

/-! ### One argument -/

/-- What is no number and not `nil` is refused. -/
theorem toKind_of_not_isOperand {v : Value} (hfinite : ∀ d, v = .decimal d → d.isFinite = true)
    (hv : ¬ v.IsOperand) :
    toKind decimal name v = .error (.typeError (.expected name "number" v.type)) := by
  cases v with
  | atom a =>
    cases a with
    | nil => exact absurd trivial hv
    | number n =>
      cases n with
      | int n => exact absurd trivial hv
      | decimal d => exact absurd (hfinite d rfl) hv
    | _ => cases decimal <;> rfl
  | _ => cases decimal <;> rfl

/-- An operand becomes a decimal, unless it is too wide. -/
theorem toKind_decimal {v : Value} (hv : v.IsOperand) :
    (v.Competes true ∧ ∃ n, toKind true name v = .ok n ∧ v.StandsFor true n) ∨
      (¬ v.Competes true ∧ ∃ e, toKind true name v = .error e ∧ v.RefusedAs name e) := by
  rcases v.toDecimal_outcome name hv with ⟨hwide, hd⟩ | ⟨hnarrow, d, hd, hfinite, hvalue⟩
  · refine .inr ⟨fun h => ?_, tooWide name, ?_, .inl ⟨hwide, rfl⟩⟩
    · rw [h.2 rfl] at hwide
      cases hwide
    · rw [toKind, if_pos rfl, hd]
      rfl
  · refine .inl ⟨⟨hv, fun _ => hnarrow⟩, .decimal d, ?_, hfinite, hvalue, rfl, fun hdecimal => ?_⟩
    · rw [toKind, if_pos rfl, hd]
      rfl
    · match v, hdecimal with
      | .decimal d', _ =>
        cases hd
        rfl

/-- An operand that is no decimal becomes a whole number. -/
theorem toKind_integer {v : Value} (hv : v.IsOperand) (hdecimal : v.isDecimal = false) :
    v.Competes false ∧ ∃ n, toKind false name v = .ok n ∧ v.StandsFor false n := by
  have hcompetes : v.Competes false := ⟨hv, fun h => absurd h Bool.false_ne_true⟩
  refine ⟨hcompetes, ?_⟩
  match v, hv, hdecimal with
  | .nil, _, _ => exact ⟨.int 0, rfl, trivial, by simp [Value.toRat], rfl, fun h' => by cases h'⟩
  | .int n, _, _ => exact ⟨.int n, rfl, trivial, rfl, rfl, fun h' => by cases h'⟩

/-- **An argument becomes the number that stands for it**, or is refused. -/
theorem toKind_outcome (name : String) {v : Value}
    (hfinite : ∀ d, v = .decimal d → d.isFinite = true)
    (hdecimal : v.isDecimal = true → decimal = true) :
    (v.Competes decimal ∧ ∃ n, toKind decimal name v = .ok n ∧ v.StandsFor decimal n) ∨
      (¬ v.Competes decimal ∧ ∃ e, toKind decimal name v = .error e ∧ v.RefusedAs name e) := by
  by_cases hv : v.IsOperand
  · cases decimal with
    | true => exact toKind_decimal hv
    | false =>
      have hwhole : v.isDecimal = false := by
        rw [← Bool.not_eq_true]
        exact fun h => Bool.false_ne_true (hdecimal h)
      exact .inl (toKind_integer hv hwhole)
  · exact .inr ⟨fun h => hv h.1, _, toKind_of_not_isOperand hfinite hv, .inr ⟨hv, rfl⟩⟩

/-! ### The best so far -/

/-- What makes a number better: to be greater for a maximum, less for a minimum. -/
def merit (greatest : Bool) (x : ℚ) : ℚ := if greatest then x else -x

/-- **Numbers are compared as what they stand for.** -/
theorem better_eq (greatest : Bool) {m n : Number} (hm : m.IsFinite) (hn : n.IsFinite) :
    better greatest m n = .ok (decide (merit greatest n.toRat < merit greatest m.toRat)) := by
  unfold better merit
  cases greatest with
  | true =>
    simp only [if_true]
    rw [Number.less?_eq hn hm]
  | false =>
    simp only [Bool.false_eq_true, if_false, neg_lt_neg_iff]
    rw [Number.less?_eq hm hn]

/-- The better one of a new number and the best so far, the latter if they are equally good. -/
def winner (greatest : Bool) (n best : Number) : Number :=
  if merit greatest best.toRat < merit greatest n.toRat then n else best

theorem winner_eq_or (greatest : Bool) (n best : Number) :
    winner greatest n best = n ∨ winner greatest n best = best := by
  unfold winner
  split_ifs
  · exact .inl rfl
  · exact .inr rfl

theorem merit_le_winner (greatest : Bool) (n best : Number) :
    merit greatest best.toRat ≤ merit greatest (winner greatest n best).toRat ∧
      merit greatest n.toRat ≤ merit greatest (winner greatest n best).toRat := by
  unfold winner
  split_ifs with h
  · exact ⟨h.le, le_refl _⟩
  · exact ⟨le_refl _, not_lt.mp h⟩

/-- One argument further, the winner is the best so far. -/
theorem bestOf_cons {v : Value} {vs : List Value} {n best : Number} (hn : toKind decimal name v = .ok n)
    (hfinite : n.IsFinite) (hbest : best.IsFinite) :
    bestOf greatest decimal name best (v :: vs) =
      bestOf greatest decimal name (winner greatest n best) vs := by
  rw [bestOf, hn]
  change (better greatest n best >>= _) = _
  rw [better_eq greatest hfinite hbest]
  unfold winner
  split_ifs with hlt
  · rw [decide_eq_true hlt]
    rfl
  · rw [decide_eq_false hlt]
    rfl

/-- **The best of a number and some arguments** is that number or stands for one of the arguments, and none
is better; or one of the arguments is refused. -/
theorem bestOf_outcome (greatest decimal : Bool) (name : String) :
    ∀ {vs : List Value} {best : Number}, best.IsFinite →
      (∀ v ∈ vs, (∀ d, v = .decimal d → d.isFinite = true) ∧ (v.isDecimal = true → decimal = true)) →
      ((∀ v ∈ vs, v.Competes decimal) ∧ ∃ r, bestOf greatest decimal name best vs = .ok r ∧
        (r = best ∨ ∃ v ∈ vs, v.StandsFor decimal r) ∧
        merit greatest best.toRat ≤ merit greatest r.toRat ∧
        ∀ v ∈ vs, merit greatest v.toRat ≤ merit greatest r.toRat) ∨
      ∃ v ∈ vs, ¬ v.Competes decimal ∧ ∃ e, bestOf greatest decimal name best vs = .error e ∧
        v.RefusedAs name e
  | [], best, _, _ => .inl ⟨nofun, best, rfl, .inl rfl, le_refl _, nofun⟩
  | v :: vs, best, hbest, hvs => by
    rw [List.forall_mem_cons] at hvs
    rcases toKind_outcome name hvs.1.1 hvs.1.2 with
      ⟨hv, n, hn, hstands⟩ | ⟨hv, e, he, hrefused⟩
    · rw [bestOf_cons hn hstands.isFinite hbest]
      obtain ⟨hold, hnew⟩ := merit_le_winner greatest n best
      have hwinner : (winner greatest n best).IsFinite := by
        rcases winner_eq_or greatest n best with h | h
        · rw [h]
          exact hstands.isFinite
        · rwa [h]
      rcases bestOf_outcome greatest decimal name hwinner hvs.2 with
        ⟨hall, r, hr, hmem, hle, hothers⟩ | ⟨w, hw, hrest⟩
      · refine .inl ⟨List.forall_mem_cons.mpr ⟨hv, hall⟩, r, hr, ?_, hold.trans hle, ?_⟩
        · rcases hmem with rfl | ⟨w, hw, hwr⟩
          · rcases winner_eq_or greatest n best with h | h
            · rw [h]
              exact .inr ⟨v, List.mem_cons_self, hstands⟩
            · exact .inl h
          · exact .inr ⟨w, List.mem_cons_of_mem _ hw, hwr⟩
        · refine List.forall_mem_cons.mpr ⟨?_, hothers⟩
          rw [← hstands.toRat_eq]
          exact hnew.trans hle
      · exact .inr ⟨w, List.mem_cons_of_mem _ hw, hrest⟩
    · right
      refine ⟨v, List.mem_cons_self, hv, e, ?_, hrefused⟩
      rw [bestOf, he]
      rfl

/-! ### All arguments -/

/-- **The extremum of some arguments** stands for one of them, and none is better; or one of them is
refused. -/
theorem extremum_outcome (greatest : Bool) (name : String) {args : List Value} (hne : args ≠ [])
    (hfinite : ∀ d, Value.decimal d ∈ args → d.isFinite = true) :
    ((∀ v ∈ args, v.Competes (anyDecimal args)) ∧ ∃ r, extremum greatest name args = .ok r ∧
      (∃ v ∈ args, v.StandsFor (anyDecimal args) r) ∧
      ∀ v ∈ args, merit greatest v.toRat ≤ merit greatest r.toRat) ∨
    ∃ v ∈ args, ¬ v.Competes (anyDecimal args) ∧ ∃ e, extremum greatest name args = .error e ∧
      v.RefusedAs name e := by
  have hargs : ∀ v ∈ args, (∀ d, v = .decimal d → d.isFinite = true) ∧
      (v.isDecimal = true → anyDecimal args = true) := fun v hv =>
    ⟨fun d hd => hfinite d (hd ▸ hv), fun h => List.any_eq_true.mpr ⟨v, hv, h⟩⟩
  obtain ⟨v, vs, rfl⟩ := List.exists_cons_of_ne_nil hne
  generalize hkind : anyDecimal (v :: vs) = decimal at hargs ⊢
  rw [List.forall_mem_cons] at hargs
  rcases toKind_outcome name hargs.1.1 hargs.1.2 with
    ⟨hv, n, hn, hstands⟩ | ⟨hv, e, he, hrefused⟩
  · have hcall : extremum greatest name (v :: vs) = bestOf greatest decimal name n vs := by
      rw [extremum, hkind, hn]
      rfl
    rw [hcall]
    rcases bestOf_outcome greatest decimal name hstands.isFinite hargs.2 with
      ⟨hall, r, hr, hmem, hfirst, hothers⟩ | ⟨w, hw, hrest⟩
    · refine .inl ⟨List.forall_mem_cons.mpr ⟨hv, hall⟩, r, hr, ?_, ?_⟩
      · rcases hmem with rfl | ⟨w, hw, hwr⟩
        · exact ⟨v, List.mem_cons_self, hstands⟩
        · exact ⟨w, List.mem_cons_of_mem _ hw, hwr⟩
      · rw [hstands.toRat_eq] at hfirst
        exact List.forall_mem_cons.mpr ⟨hfirst, hothers⟩
    · exact .inr ⟨w, List.mem_cons_of_mem _ hw, hrest⟩
  · right
    refine ⟨v, List.mem_cons_self, hv, e, ?_, hrefused⟩
    rw [extremum, hkind, he]
    rfl

/-! ### The two functions -/

/-- The function that gives the greatest or the least argument. -/
def extremumOf (greatest : Bool) : Builtin := if greatest then .maximum else .minimum

theorem pureCall_extremumOf (greatest : Bool) (args : List Value) :
    (extremumOf greatest).pureCall args =
      .number <$> extremum greatest (extremumOf greatest).name args := by
  cases greatest <;> rfl

/-- **The arguments can be compared**: all are whole numbers, finite decimals or `nil`, and either none is
a decimal or no whole number has more digits than decimals hold. -/
def Comparable (args : List Value) : Prop :=
  (∀ v ∈ args, v.IsOperand) ∧
    ((∀ v ∈ args, v.isDecimal = false) ∨ ∀ v ∈ args, v.isWide = false)

theorem competes_iff {args : List Value} :
    (∀ v ∈ args, v.Competes (anyDecimal args)) ↔ Comparable args := by
  unfold Comparable Competes
  cases hkind : anyDecimal args with
  | true =>
    obtain ⟨w, hw, hdecimal⟩ := List.any_eq_true.mp hkind
    have hsome : ¬ ∀ v ∈ args, v.isDecimal = false := fun h => by
      rw [h w hw] at hdecimal
      cases hdecimal
    simp only [forall_const, hsome, false_or, forall_and]
  | false =>
    have hnone : ∀ v ∈ args, v.isDecimal = false := by simpa [anyDecimal] using hkind
    simp only [Bool.false_eq_true, false_imp_iff, and_true]
    exact ⟨fun h => ⟨h, .inl hnone⟩, fun h => h.1⟩

theorem isOperand_of_isWide {v : Value} (h : v.isWide = true) : v.IsOperand := by
  unfold isWide at h
  split at h
  · trivial
  · cases h

theorem merit_le_iff {x y : ℚ} :
    merit greatest x ≤ merit greatest y ↔ if greatest then x ≤ y else y ≤ x := by
  cases greatest <;> simp [merit]

/-- **The number is the extremum of the arguments.** -/
structure Selected (greatest : Bool) (args : List Value) (n : Number) : Prop where
  /-- It equals one of them; if that is a decimal, it is that decimal, digit by digit. -/
  source : ∃ v ∈ args, n.toRat = v.toRat ∧ (v.isDecimal = true → v = .number n)
  best : ∀ v ∈ args, if greatest then v.toRat ≤ n.toRat else n.toRat ≤ v.toRat
  kind : (Value.number n).isDecimal = true ↔ ∃ v ∈ args, v.isDecimal = true

/-- The extremum does not depend on the order of the arguments. -/
theorem Selected.toRat_eq {args args' : List Value} {n n' : Number} (h : Selected greatest args n)
    (h' : Selected greatest args' n') (hperm : args'.Perm args) : n'.toRat = n.toRat := by
  obtain ⟨v, hv, hn, -⟩ := h.source
  obtain ⟨v', hv', hn', -⟩ := h'.source
  have hle := h.best v' (hperm.subset hv')
  have hle' := h'.best v (hperm.symm.subset hv)
  rw [← hn'] at hle
  rw [← hn] at hle'
  cases greatest with
  | true => exact le_antisymm hle hle'
  | false => exact le_antisymm hle' hle

variable {args : List Value}

/-- Arguments that can be compared have an extremum. -/
theorem exists_selected (greatest : Bool) (hne : args ≠ []) (h : Comparable args) :
    ∃ n, (extremumOf greatest).pureCall args = .ok (.number n) ∧ Selected greatest args n := by
  have hfinite : ∀ d, Value.decimal d ∈ args → d.isFinite = true := fun d hd => h.1 _ hd
  rcases extremum_outcome greatest (extremumOf greatest).name hne hfinite with
    ⟨-, n, hn, ⟨v, hv, hstands⟩, hbest⟩ | ⟨v, hv, hnot, -⟩
  · refine ⟨n, ?_, ⟨v, hv, hstands.toRat_eq, hstands.unrounded⟩, fun w hw => ?_, ?_⟩
    · rw [pureCall_extremumOf, hn]
      rfl
    · exact merit_le_iff.mp (hbest w hw)
    · rw [hstands.kind, anyDecimal, List.any_eq_true]
  · exact absurd (competes_iff.mpr h v hv) hnot

/-- Arguments that cannot be compared are refused. -/
theorem exists_refusal (greatest : Bool) (hne : args ≠ [])
    (hfinite : ∀ d, Value.decimal d ∈ args → d.isFinite = true) (h : ¬ Comparable args) :
    ∃ v ∈ args, ¬ v.Competes (anyDecimal args) ∧
      ∃ e, (extremumOf greatest).pureCall args = .error e ∧
        v.RefusedAs (extremumOf greatest).name e := by
  rcases extremum_outcome greatest (extremumOf greatest).name hne hfinite with
    ⟨hall, -⟩ | ⟨v, hv, hnot, e, he, hrefused⟩
  · exact absurd (competes_iff.mp hall) h
  · refine ⟨v, hv, hnot, e, ?_, hrefused⟩
    rw [pureCall_extremumOf, he]
    rfl

/-- **Extrema select without rounding.** Of arguments that can be compared, the call gives the greatest or
the least, and the value that it stands for does not depend on their order. Arguments that cannot be
compared are refused: for a whole number that is too wide beside a decimal, or for the type of one that
is no number. -/
theorem extremum_selects (greatest : Bool) (hne : args ≠ [])
    (hfinite : ∀ d, Value.decimal d ∈ args → d.isFinite = true) :
    (Comparable args → ∃ n, (extremumOf greatest).pureCall args = .ok (.number n) ∧
      Selected greatest args n ∧
      ∀ args', args'.Perm args → ∃ n', (extremumOf greatest).pureCall args' = .ok (.number n') ∧
        n'.toRat = n.toRat) ∧
    (¬ Comparable args → ∃ e, (extremumOf greatest).pureCall args = .error e ∧
      (((∃ v ∈ args, v.isWide = true) ∧ (∃ v ∈ args, v.isDecimal = true) ∧
          e = .domainError (.wideInteger (extremumOf greatest).name)) ∨
        ∃ v ∈ args, ¬ v.IsOperand ∧
          e = .typeError (.expected (extremumOf greatest).name "number" v.type))) := by
  constructor
  · intro h
    obtain ⟨n, hcall, hn⟩ := exists_selected greatest hne h
    refine ⟨n, hcall, hn, fun args' hperm => ?_⟩
    have hne' : args' ≠ [] := fun hnil => hne (hnil ▸ hperm).nil_eq.symm
    have h' : Comparable args' := by
      simpa only [Comparable, hperm.mem_iff] using h
    obtain ⟨n', hcall', hn'⟩ := exists_selected greatest hne' h'
    exact ⟨n', hcall', hn.toRat_eq hn' hperm⟩
  · intro h
    obtain ⟨v, hv, hnot, e, he, hrefused⟩ := exists_refusal greatest hne hfinite h
    refine ⟨e, he, ?_⟩
    rcases hrefused with ⟨hwide, rfl⟩ | ⟨hoperand, rfl⟩
    · left
      refine ⟨⟨v, hv, hwide⟩, ?_, rfl⟩
      -- where no argument is a decimal, a whole number of any size can be compared
      by_contra hnone
      refine hnot ⟨isOperand_of_isWide hwide, fun hkind => absurd ?_ hnone⟩
      exact List.any_eq_true.mp hkind
    · exact .inr ⟨v, hv, hoperand, rfl⟩

/-- A decimal that is ahead of one by its thirtieth digit. -/
def longDecimal : Decimal := .finite false 100000000000000000000000000001 (-29)

/-- The long decimal is the greatest, and is given with all of its digits. -/
theorem extremum_selects_longDecimal :
    Builtin.pureCall .maximum [.int 1, .decimal longDecimal, .nil] = .ok (.decimal longDecimal) := by
  have hlong : longDecimal.toRat = 100000000000000000000000000001 / 10 ^ 29 := by
    norm_num [longDecimal, Decimal.toRat]
  have hfinite : ∀ d, Value.decimal d ∈ [Value.int 1, .decimal longDecimal, .nil] →
      d.isFinite = true := by
    simp [longDecimal, Decimal.isFinite]
  have hcomparable : Comparable [.int 1, .decimal longDecimal, .nil] := by
    refine ⟨?_, .inr ?_⟩
    · simp [IsOperand, Number.IsFinite, longDecimal, Decimal.isFinite]
    · simp [isWide, Decimal.precision]
  obtain ⟨n, hcall, hn, -⟩ := (extremum_selects true (by simp) hfinite).1 hcomparable
  have hbest : longDecimal.toRat ≤ n.toRat := hn.best (.decimal longDecimal) (by simp)
  obtain ⟨v, hv, hvalue, hsame⟩ := hn.source
  simp only [List.mem_cons, List.not_mem_nil, or_false] at hv
  rcases hv with rfl | rfl | rfl
  · rw [hlong, hvalue] at hbest
    norm_num [Value.toRat] at hbest
  · cases hsame rfl
    exact hcall
  · rw [hlong, hvalue] at hbest
    norm_num [Value.toRat] at hbest

end Arithmetic

end MiniLisp
