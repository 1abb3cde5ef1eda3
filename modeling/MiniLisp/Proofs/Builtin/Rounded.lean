import MiniLisp.Builtin.Call
import MiniLisp.Proofs.Decimal.Rounding

/-! # Arithmetic on values is correctly rounded, step by step

Sums, differences, products and quotients that are decimal fold their arguments from the left
(`Operation.start`): a step takes the exact result of what there is so far and the next argument
(`Operation.exact`) and rounds it. `Operation.reached` lists the exact results that a call comes to; as
long as arithmetic can hold all of these, the call gives the folded number, unless a whole number among
the arguments has too many digits or a divisor is zero, and then it fails for that reason
(`rounds_stepwise`).

* `foldDecimal_outcome`: the fold of sums, differences and products, by induction on the arguments;
* `quotients_outcome`: the same for quotients, whose arguments are all converted before the first step. -/

namespace MiniLisp

open Rounding Decimal

/-! ## Arguments as numbers -/

namespace Value

/-- The number that an argument counts as; `nil` counts as zero. -/
def toRat : Value → ℚ
  | .number n => n.toRat
  | _ => 0

/-- The value is `nil`, a whole number or a finite decimal. -/
def IsOperand : Value → Prop
  | .nil => True
  | .number n => n.IsFinite
  | _ => False

/-- The value is a whole number with more digits than decimal arithmetic holds. -/
def isWide : Value → Bool
  | .int n => Nat.pow 10 precision ≤ n.natAbs
  | _ => false

/-- The failure about a whole number that is too wide. -/
def tooWide (name : String) : Failure := .domainError (.wideInteger name)

/-- **An argument enters decimal arithmetic exactly**, or not at all. -/
theorem toDecimal_outcome (name : String) {v : Value} (hv : v.IsOperand) :
    (v.isWide = true ∧ v.toDecimal name = .error (tooWide name)) ∨
      (v.isWide = false ∧ ∃ d, v.toDecimal name = .ok d ∧ d.isFinite = true ∧ d.toRat = v.toRat) := by
  match v, hv with
  | .nil, _ => exact .inr ⟨rfl, _, rfl, rfl, toRat_finite_zero _ _⟩
  | .decimal d, hd => exact .inr ⟨rfl, d, rfl, hd, rfl⟩
  | .int n, _ =>
    by_cases hn : n.natAbs < Nat.pow 10 precision
    · have hnarrow : isWide (.int n) = false := decide_eq_false (not_le.mpr hn)
      exact .inr ⟨hnarrow, .ofInt n, if_pos hn, rfl, rfl⟩
    · exact .inl ⟨decide_eq_true (not_lt.mp hn), if_neg hn⟩

end Value

namespace Arithmetic

/-! ## Folds of exact steps -/

/-- The exact results of the steps of a fold; each is rounded before the next step. -/
def exacts (f : ℚ → ℚ → ℚ) : ℚ → List ℚ → List ℚ
  | _, [] => []
  | x, y :: ys => f x y :: exacts f (significant (f x y)) ys

/-- The fold: each step takes the exact result and rounds it. -/
def rounded (f : ℚ → ℚ → ℚ) (x : ℚ) (ys : List ℚ) : ℚ :=
  ys.foldl (fun x y => significant (f x y)) x

/-- The decimal step gives the rounded result of the exact step. -/
def StepRounds (step : Decimal → Decimal → Except RangeFault Decimal) (f : ℚ → ℚ → ℚ) : Prop :=
  ∀ {a b : Decimal}, a.isFinite = true → b.isFinite = true → InRange (f a.toRat b.toRat) →
    Rounds (step a b) (f a.toRat b.toRat)

/-- The computation gives a finite decimal that stands for the number. -/
def Gives (r : Except Failure Decimal) (x : ℚ) : Prop :=
  ∃ d, r = .ok d ∧ d.isFinite = true ∧ d.toRat = x

variable {f : ℚ → ℚ → ℚ} {step : Decimal → Decimal → Except RangeFault Decimal}

/-- **Folding decimal steps** gives the fold of the rounded exact steps, unless it comes to a whole
number that is too wide. -/
theorem foldDecimal_outcome (name operation : String) (hstep : StepRounds step f) :
    ∀ {vs : List Value} {total : Decimal}, total.isFinite = true → (∀ v ∈ vs, v.IsOperand) →
      (∀ x ∈ exacts f total.toRat ((vs.takeWhile (!·.isWide)).map Value.toRat), InRange x) →
      (vs.any Value.isWide = true ∧
        foldDecimal name operation step total vs = .error (Value.tooWide name)) ∨
      (vs.any Value.isWide = false ∧
        Gives (foldDecimal name operation step total vs)
          (rounded f total.toRat (vs.map Value.toRat)))
  | [], total, htotal, _, _ => .inr ⟨rfl, total, rfl, htotal, rfl⟩
  | v :: vs, total, htotal, hvs, hrange => by
    rw [List.forall_mem_cons] at hvs
    rcases v.toDecimal_outcome name hvs.1 with ⟨hwide, hd⟩ | ⟨hnarrow, d, hd, hfinite, hvalue⟩
    · left
      refine ⟨by rw [List.any_cons, hwide, Bool.true_or], ?_⟩
      rw [foldDecimal, hd]
      rfl
    · have htake : (v :: vs).takeWhile (!·.isWide) = v :: vs.takeWhile (!·.isWide) := by
        rw [List.takeWhile_cons, hnarrow]
        rfl
      rw [htake, List.map_cons, exacts, List.forall_mem_cons, ← hvalue] at hrange
      obtain ⟨total', hround, hfinite', hvalue'⟩ := hstep htotal hfinite hrange.1
      rw [← hvalue'] at hrange
      have hfold : foldDecimal name operation step total (v :: vs) =
          foldDecimal name operation step total' vs := by
        rw [foldDecimal, hd]
        change (guarded operation (step total d) >>= _) = _
        rw [hround]
        rfl
      have hrounded : rounded f total.toRat ((v :: vs).map Value.toRat) =
          rounded f total'.toRat (vs.map Value.toRat) := by
        rw [hvalue', hvalue]
        rfl
      rw [hfold, hrounded, List.any_cons, hnarrow, Bool.false_or]
      exact foldDecimal_outcome name operation hstep hfinite' hvs.2 hrange.2

/-- All arguments become decimals exactly, unless one is a whole number that is too wide. -/
theorem toDecimals_outcome (name : String) : ∀ {vs : List Value}, (∀ v ∈ vs, v.IsOperand) →
    (vs.any Value.isWide = true ∧ toDecimals name vs = .error (Value.tooWide name)) ∨
      (vs.any Value.isWide = false ∧ ∃ ds, toDecimals name vs = .ok ds ∧
        (∀ d ∈ ds, d.isFinite = true) ∧ ds.map Decimal.toRat = vs.map Value.toRat)
  | [], _ => .inr ⟨rfl, [], rfl, nofun, rfl⟩
  | v :: vs, hvs => by
    rw [List.forall_mem_cons] at hvs
    rcases v.toDecimal_outcome name hvs.1 with ⟨hwide, hd⟩ | ⟨hnarrow, d, hd, hfinite, hvalue⟩
    · left
      refine ⟨by rw [List.any_cons, hwide, Bool.true_or], ?_⟩
      rw [toDecimals, hd]
      rfl
    · rw [toDecimals, hd, List.any_cons, hnarrow, Bool.false_or]
      rcases toDecimals_outcome name hvs.2 with ⟨hwide, hds⟩ | ⟨hnarrow', ds, hds, hfinite', hvalues⟩
      · left
        refine ⟨hwide, ?_⟩
        rw [hds]
        rfl
      · right
        refine ⟨hnarrow', d :: ds, ?_, List.forall_mem_cons.mpr ⟨hfinite, hfinite'⟩, ?_⟩
        · rw [hds]
          rfl
        · rw [List.map_cons, List.map_cons, hvalue, hvalues]

/-- **Dividing in turn** gives the fold of the rounded exact quotients, unless it comes to a zero. -/
theorem quotients_outcome : ∀ {ds : List Decimal} {total : Decimal}, total.isFinite = true →
    (∀ d ∈ ds, d.isFinite = true) →
    (∀ x ∈ exacts (· / ·) total.toRat ((ds.map Decimal.toRat).takeWhile (· ≠ 0)), InRange x) →
      (0 ∈ ds.map Decimal.toRat ∧ quotients total ds = .error .divisionByZero) ∨
      (0 ∉ ds.map Decimal.toRat ∧
        Gives (quotients total ds) (rounded (· / ·) total.toRat (ds.map Decimal.toRat)))
  | [], total, htotal, _, _ => .inr ⟨nofun, total, rfl, htotal, rfl⟩
  | d :: ds, total, htotal, hds, hrange => by
    rw [List.forall_mem_cons] at hds
    by_cases hzero : d.toRat = 0
    · left
      refine ⟨by rw [List.map_cons, hzero]; exact List.mem_cons_self, ?_⟩
      rw [quotients, (toRat_eq_zero_iff hds.1).mp hzero]
      rfl
    · have htake : ((d :: ds).map Decimal.toRat).takeWhile (· ≠ 0) =
          d.toRat :: (ds.map Decimal.toRat).takeWhile (· ≠ 0) := by
        rw [List.map_cons, List.takeWhile_cons, if_pos (decide_eq_true hzero)]
      rw [htake, exacts, List.forall_mem_cons] at hrange
      obtain ⟨total', hround, hfinite', hvalue'⟩ := rounds_div htotal hds.1 hzero hrange.1
      rw [← hvalue'] at hrange
      have hnonzero : d.isZero = false := by
        rw [← Bool.not_eq_true, ← toRat_eq_zero_iff hds.1]
        exact hzero
      have hstep : quotients total (d :: ds) = quotients total' ds := by
        rw [quotients, hnonzero]
        change (guarded "div" (total.div d) >>= _) = _
        rw [hround]
        rfl
      have hrounded : rounded (· / ·) total.toRat ((d :: ds).map Decimal.toRat) =
          rounded (· / ·) total'.toRat (ds.map Decimal.toRat) := by
        rw [hvalue']
        rfl
      have hmem : (0 : ℚ) ∈ (d :: ds).map Decimal.toRat ↔ 0 ∈ ds.map Decimal.toRat := by
        rw [List.map_cons, List.mem_cons]
        exact or_iff_right (Ne.symm hzero)
      rw [hstep, hrounded, hmem]
      exact quotients_outcome hfinite' hds.2 hrange.2

/-! ## The four operations -/

/-- The operations whose decimal results are rounded. -/
inductive Operation where
  | sum | difference | product | quotient
  deriving DecidableEq

namespace Operation

/-- The function that computes it. -/
def builtin : Operation → Builtin
  | .sum => .add
  | .difference => .subtract
  | .product => .multiply
  | .quotient => .divide

/-- The exact result of a step. -/
def exact : Operation → ℚ → ℚ → ℚ
  | .sum => (· + ·)
  | .difference => (· - ·)
  | .product => (· * ·)
  | .quotient => (· / ·)

/-- Where the fold starts and the arguments that it goes over. One argument alone is taken from zero, or
divides one. -/
def start : Operation → List Value → Value × List Value
  | .sum, vs => (.int 0, vs)
  | .product, vs => (.int 1, vs)
  | .difference, [v] => (.int 0, [v])
  | .quotient, [v] => (.int 1, [v])
  | _, v :: vs => (v, vs)
  | _, [] => (.int 0, [])

/-- The number that the operation folds its arguments to. -/
def folded (op : Operation) (args : List Value) : ℚ :=
  rounded op.exact (op.start args).1.toRat ((op.start args).2.map Value.toRat)

/-- **The exact results that a call comes to.** A quotient converts all arguments before the first step
and stops at a zero; the others stop at the first argument that is too wide. -/
def reached (op : Operation) (args : List Value) : List ℚ :=
  if op = .quotient then
    if args.any Value.isWide then []
    else exacts op.exact (op.start args).1.toRat
      (((op.start args).2.map Value.toRat).takeWhile (· ≠ 0))
  else
    if (op.start args).1.isWide then []
    else exacts op.exact (op.start args).1.toRat
      (((op.start args).2.takeWhile (!·.isWide)).map Value.toRat)

/-- **How a call ends**: one argument is too wide, or a divisor is zero, or it gives the folded number. -/
def Ends (op : Operation) (args : List Value) (r : Except Failure Number) : Prop :=
  (args.any Value.isWide = true ∧ r = .error (Value.tooWide op.builtin.name)) ∨
  (args.any Value.isWide = false ∧ op = .quotient ∧ 0 ∈ (op.start args).2.map Value.toRat ∧
    r = .error .divisionByZero) ∨
  (args.any Value.isWide = false ∧ (op = .quotient → 0 ∉ (op.start args).2.map Value.toRat) ∧
    ∃ d, r = .ok (.decimal d) ∧ d.isFinite = true ∧ d.toRat = op.folded args)

variable {args : List Value}

/-- A call that folds its arguments from a finite decimal ends as it should. -/
theorem ends_of_fold {op : Operation} (operation : String) {total : Decimal} (hop : op ≠ .quotient)
    (hstep : StepRounds step op.exact) (htotal : total.isFinite = true)
    (hfirst : total.toRat = (op.start args).1.toRat) (hnarrow : (op.start args).1.isWide = false)
    (hany : args.any Value.isWide = (op.start args).2.any Value.isWide)
    (hargs : ∀ v ∈ (op.start args).2, v.IsOperand) (hrange : ∀ x ∈ op.reached args, InRange x) :
    op.Ends args (.decimal <$> foldDecimal op.builtin.name operation step total (op.start args).2) := by
  have hreached : op.reached args =
      exacts op.exact total.toRat (((op.start args).2.takeWhile (!·.isWide)).map Value.toRat) := by
    rw [reached, if_neg hop, hnarrow, hfirst]
    rfl
  rw [hreached] at hrange
  rcases foldDecimal_outcome op.builtin.name operation hstep htotal hargs hrange with
    ⟨hwide, hr⟩ | ⟨hwide, d, hr, hfinite, hvalue⟩
  · exact .inl ⟨hany.trans hwide, by rw [hr]; rfl⟩
  · refine .inr (.inr ⟨hany.trans hwide, fun h => absurd h hop, d, by rw [hr]; rfl, hfinite, ?_⟩)
    rw [hvalue, folded, hfirst]

theorem toRat_zero : Value.toRat (.int 0) = 0 := by simp [Value.toRat]

/-- Sums start from zero. -/
theorem toRat_start_zero : (Decimal.finite false 0 0).toRat = Value.toRat (.int 0) := by
  rw [toRat_zero, toRat_finite_zero]

/-- Products and reciprocals start from one. -/
theorem toRat_start_one : (Decimal.finite false 1 0).toRat = Value.toRat (.int 1) := by
  simp [Value.toRat, Decimal.toRat]

theorem ends_sum (hargs : ∀ v ∈ args, v.IsOperand) (hdec : anyDecimal args = true)
    (hrange : ∀ x ∈ reached .sum args, InRange x) : Ends .sum args (add args) := by
  rw [add, if_pos hdec]
  exact ends_of_fold "add" (by decide) rounds_add rfl toRat_start_zero rfl rfl hargs hrange

theorem ends_product (hargs : ∀ v ∈ args, v.IsOperand) (hdec : anyDecimal args = true)
    (hrange : ∀ x ∈ reached .product args, InRange x) : Ends .product args (multiply args) := by
  rw [multiply, if_pos hdec]
  exact ends_of_fold "mul" (by decide) rounds_mul rfl toRat_start_one rfl rfl hargs hrange

/-- One decimal is taken from zero. -/
theorem ends_negation {v : Value} (hv : v.IsOperand) (hdec : anyDecimal [v] = true)
    (hrange : ∀ x ∈ reached .difference [v], InRange x) :
    Ends .difference [v] (subtract [v]) := by
  rw [subtract, if_pos hdec]
  match v, hv with
  | .decimal d, hfinite =>
    have hreached : reached .difference [.decimal d] = [Value.toRat (.int 0) - d.toRat] := rfl
    rw [hreached, List.forall_mem_singleton, toRat_zero] at hrange
    obtain ⟨r, hround, hfinite', hvalue⟩ := rounds_minus hfinite hrange
    refine .inr (.inr ⟨rfl, nofun, r, ?_, hfinite', ?_⟩)
    · change Number.decimal <$> guarded "sub" d.minus = _
      rw [hround]
      rfl
    · have hfolded : folded .difference [.decimal d] =
        significant (Value.toRat (.int 0) - d.toRat) := rfl
      rw [hvalue, hfolded, toRat_zero]

theorem ends_difference (hne : args ≠ []) (hargs : ∀ v ∈ args, v.IsOperand)
    (hdec : anyDecimal args = true) (hrange : ∀ x ∈ reached .difference args, InRange x) :
    Ends .difference args (subtract args) := by
  match args, hne with
  | [v], _ => exact ends_negation (hargs v List.mem_cons_self) hdec hrange
  | v :: w :: vs, _ =>
    rw [List.forall_mem_cons] at hargs
    rw [subtract, if_pos hdec]
    · rcases v.toDecimal_outcome "-" hargs.1 with ⟨hwide, hd⟩ | ⟨hnarrow, d, hd, hfinite, hvalue⟩
      · left
        refine ⟨by rw [List.any_cons, hwide, Bool.true_or], ?_⟩
        rw [hd]
        rfl
      · rw [hd]
        have hany : (v :: w :: vs).any Value.isWide = (w :: vs).any Value.isWide := by
          rw [List.any_cons, hnarrow, Bool.false_or]
        exact ends_of_fold "sub" (by decide) rounds_sub hfinite hvalue hnarrow hany hargs.2 hrange
    · nofun

/-- Dividing decimals that stand for the arguments. -/
theorem ends_of_quotients {total : Decimal} {ds : List Decimal} (htotal : total.isFinite = true)
    (hds : ∀ d ∈ ds, d.isFinite = true) (hnarrow : args.any Value.isWide = false)
    (hfirst : total.toRat = (start .quotient args).1.toRat)
    (hrest : ds.map Decimal.toRat = (start .quotient args).2.map Value.toRat)
    (hrange : ∀ x ∈ reached .quotient args, InRange x) :
    Ends .quotient args (.decimal <$> quotients total ds) := by
  have hreached : reached .quotient args =
      exacts (· / ·) total.toRat ((ds.map Decimal.toRat).takeWhile (· ≠ 0)) := by
    rw [hfirst, hrest, reached, if_pos rfl, hnarrow]
    rfl
  rw [hreached] at hrange
  rcases quotients_outcome htotal hds hrange with ⟨hzero, hr⟩ | ⟨hzero, d, hr, hfinite, hvalue⟩
  · rw [hrest] at hzero
    exact .inr (.inl ⟨hnarrow, rfl, hzero, by rw [hr]; rfl⟩)
  · rw [hrest] at hzero
    refine .inr (.inr ⟨hnarrow, fun _ => hzero, d, by rw [hr]; rfl, hfinite, ?_⟩)
    rw [hvalue, folded, ← hfirst, ← hrest]
    rfl

theorem ends_quotient (hne : args ≠ []) (hargs : ∀ v ∈ args, v.IsOperand)
    (hrange : ∀ x ∈ reached .quotient args, InRange x) :
    Ends .quotient args (divide args) := by
  obtain ⟨v, vs, rfl⟩ := List.exists_cons_of_ne_nil hne
  rcases toDecimals_outcome "/" hargs with ⟨hwide, hds⟩ | ⟨hnarrow, ds, hds, hfinite, hvalues⟩
  · refine .inl ⟨hwide, ?_⟩
    rw [divide, hds]
    rfl
  · rcases ds with _ | ⟨d, _ | ⟨d', ds⟩⟩
    · cases hvalues
    · have hdivide : divide (v :: vs) = .decimal <$> quotients (.finite false 1 0) [d] := by
        rw [divide, hds]
        rfl
      have hnil : vs = [] := List.map_eq_nil_iff.mp (List.cons.inj hvalues).2.symm
      subst hnil
      rw [hdivide]
      exact ends_of_quotients rfl hfinite hnarrow toRat_start_one hvalues hrange
    · have hdivide : divide (v :: vs) = .decimal <$> quotients d (d' :: ds) := by
        rw [divide, hds]
        rfl
      rw [List.forall_mem_cons] at hfinite
      obtain ⟨hvalue, hvalues⟩ := List.cons.inj hvalues
      obtain ⟨w, ws, rfl⟩ : ∃ w ws, vs = w :: ws := by
        cases vs with
        | nil => cases hvalues
        | cons w ws => exact ⟨w, ws, rfl⟩
      rw [hdivide]
      exact ends_of_quotients hfinite.1 hfinite.2 hnarrow hvalue hvalues hrange

end Operation

/-- **Arithmetic is correctly rounded, step by step.** Let the arguments be whole numbers, finite
decimals and `nil`, at least one of them a decimal unless they are divided, and let every exact result
that the call comes to be one that arithmetic can hold. A value that the call gives is the finite decimal
that the arguments fold to. The call fails exactly if a whole number among them is too wide or else, for
a quotient, a divisor is zero. -/
theorem rounds_stepwise (op : Operation) {args : List Value} (hne : args ≠ [])
    (hargs : ∀ v ∈ args, v.IsOperand) (hdec : op = .quotient ∨ ∃ v ∈ args, v.isDecimal = true)
    (hrange : ∀ x ∈ op.reached args, InRange x) :
    (∀ v, op.builtin.pureCall args = .ok v →
      ∃ d, v = .decimal d ∧ d.isFinite = true ∧ d.toRat = op.folded args) ∧
    (∀ e, op.builtin.pureCall args = .error e ↔
      ((∃ v ∈ args, v.isWide = true) ∧ e = .domainError (.wideInteger op.builtin.name)) ∨
      ((¬ ∃ v ∈ args, v.isWide = true) ∧ op = .quotient ∧
        (∃ v ∈ (op.start args).2, v.toRat = 0) ∧ e = .divisionByZero)) := by
  have hends : ∃ r, op.builtin.pureCall args = .number <$> r ∧ op.Ends args r := by
    have hany : op ≠ .quotient → anyDecimal args = true := fun hop =>
      List.any_eq_true.mpr (hdec.resolve_left hop)
    cases op with
    | sum => exact ⟨_, rfl, Operation.ends_sum hargs (hany (by decide)) hrange⟩
    | difference => exact ⟨_, rfl, Operation.ends_difference hne hargs (hany (by decide)) hrange⟩
    | product => exact ⟨_, rfl, Operation.ends_product hargs (hany (by decide)) hrange⟩
    | quotient => exact ⟨_, rfl, Operation.ends_quotient hne hargs hrange⟩
  obtain ⟨r, hcall, hends⟩ := hends
  rw [hcall]
  have hwide : args.any Value.isWide = true ↔ ∃ v ∈ args, v.isWide = true := List.any_eq_true
  have hzero : 0 ∈ (op.start args).2.map Value.toRat ↔ ∃ v ∈ (op.start args).2, v.toRat = 0 :=
    List.mem_map
  rw [Operation.Ends, ← Bool.not_eq_true, hwide, hzero] at hends
  rcases hends with ⟨hw, rfl⟩ | ⟨hw, hop, hz, rfl⟩ | ⟨hw, hz, d, rfl, hfinite, hvalue⟩
  · refine ⟨nofun, fun e => ⟨?_, ?_⟩⟩
    · rintro ⟨⟩
      exact .inl ⟨hw, rfl⟩
    · rintro (⟨-, rfl⟩ | ⟨hnarrow, -⟩)
      · rfl
      · exact absurd hw hnarrow
  · refine ⟨nofun, fun e => ⟨?_, ?_⟩⟩
    · rintro ⟨⟩
      exact .inr ⟨hw, hop, hz, rfl⟩
    · rintro (⟨hw', -⟩ | ⟨-, -, -, rfl⟩)
      · exact absurd hw' hw
      · rfl
  · refine ⟨?_, fun e => ⟨nofun, ?_⟩⟩
    · rintro v ⟨⟩
      exact ⟨d, rfl, hfinite, hvalue⟩
    · rintro (⟨hw', -⟩ | ⟨-, hop, hz', -⟩)
      · exact absurd hw' hw
      · exact absurd hz' (hz hop)

/-- Taking minus one half from the widest whole number is a tie, and rounding it carries into one digit
more. -/
theorem rounds_stepwise_carry :
    Builtin.pureCall .subtract [.int 9999999999999999999999999999, .decimal (.finite true 5 (-1))] =
      .ok (.decimal (.finite false 1000000000000000000000000000 1)) ∧
    Operation.folded .difference
      [.int 9999999999999999999999999999, .decimal (.finite true 5 (-1))] = 10 ^ 28 := by
  have hcall : Builtin.pureCall .subtract
      [.int 9999999999999999999999999999, .decimal (.finite true 5 (-1))] =
      .ok (.decimal (.finite false 1000000000000000000000000000 1)) := by
    have h : subtract [.int 9999999999999999999999999999, .decimal (.finite true 5 (-1))] =
      .ok (.decimal (.finite false 1000000000000000000000000000 1)) := by decide +kernel
    change Value.number <$> subtract _ = _
    rw [h]
    rfl
  have hrange : ∀ x ∈ Operation.reached .difference
      [.int 9999999999999999999999999999, .decimal (.finite true 5 (-1))], InRange x := by
    have hreached : Operation.reached .difference
        [.int 9999999999999999999999999999, .decimal (.finite true 5 (-1))] =
        [Value.toRat (.int 9999999999999999999999999999) -
          Value.toRat (.decimal (.finite true 5 (-1)))] := rfl
    have hexact : Value.toRat (.int 9999999999999999999999999999) -
        Value.toRat (.decimal (.finite true 5 (-1))) = 19999999999999999999999999999 / 2 := by
      norm_num [Value.toRat, Decimal.toRat]
    have hlow : (10 : ℚ) ^ (-maxExponent) ≤ 10 ^ (0 : ℤ) :=
      zpow_le_zpow_right₀ (by norm_num) (by decide)
    have hhigh : (10 : ℚ) ^ (28 : ℤ) ≤ 10 ^ maxExponent :=
      zpow_le_zpow_right₀ (by norm_num) (by decide)
    rw [hreached, List.forall_mem_singleton, hexact, InRange, abs_of_pos (by norm_num)]
    right
    norm_num at hlow hhigh ⊢
    constructor <;> linarith
  have hargs : ∀ v ∈ [Value.int 9999999999999999999999999999, .decimal (.finite true 5 (-1))],
      v.IsOperand := by
    simp [Value.IsOperand, Number.IsFinite, Decimal.isFinite]
  obtain ⟨d, hd, -, hvalue⟩ :=
    (rounds_stepwise .difference (by simp) hargs (.inr (by simp [Value.isDecimal])) hrange).1 _ hcall
  refine ⟨hcall, ?_⟩
  cases hd
  rw [← hvalue]
  norm_num [Decimal.toRat]

end Arithmetic

end MiniLisp
