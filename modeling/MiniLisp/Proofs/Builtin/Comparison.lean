import Mathlib.Data.List.Chain
import MiniLisp.Builtin.Call
import MiniLisp.Proofs.Value.Order

/-! # Chained comparisons decide all pairs

The orders test neighbours only, and equality tests each argument against the first. Within a family of
values that can be compared, comparing is comparing ranks, and the ranks are totally ordered; so testing
neighbours decides all pairs (`neighbours_eq`), and so does testing against the first
(`allEqual_eq`). Hence the comparisons depend on each other as the orders do (`DecidesPairs`). -/

namespace MiniLisp

open Value

/-! ### What the values of a family are compared by -/

namespace Value.Family

/-- **One value comes before another**: a smaller number, a string that is less character by character,
or an earlier date, and `nil` before all of these. -/
def Before : Family → Value → Value → Prop
  | .numbers, a, b => a.numberRank < b.numberRank
  | .strings, a, b => a.stringRank < b.stringRank
  | .dates, a, b => a.dateRank < b.dateRank

/-- **Two values are alike**: the same number, whole or decimal, the same string or date, or both `nil`. -/
def Alike : Family → Value → Value → Prop
  | .numbers, a, b => a.numberRank = b.numberRank
  | .strings, a, b => a.stringRank = b.stringRank
  | .dates, a, b => a.dateRank = b.dateRank

theorem alike_self (family : Family) (a : Value) : family.Alike a a := by
  cases family <;> exact rfl

theorem alike_comm (family : Family) {a b : Value} : family.Alike a b ↔ family.Alike b a := by
  cases family <;> exact eq_comm

end Value.Family

namespace Comparison

/-! ### Deciding a statement -/

/-- The call gives a boolean, which says whether the statement holds. -/
def Decides (r : Except Failure Value) (p : Prop) : Prop :=
  ∃ b, r = .ok (.bool b) ∧ (b = true ↔ p)

variable {r r' : Except Failure Value} {p q : Prop}

theorem decides_decide [Decidable p] (h : r = .ok (.bool (decide p))) : Decides r p :=
  ⟨decide p, h, decide_eq_true_iff⟩

theorem Decides.congr (h : Decides r p) (hpq : p ↔ q) : Decides r q := by
  obtain ⟨b, hr, hb⟩ := h
  exact ⟨b, hr, hb.trans hpq⟩

/-- Calls that decide the same statement give the same. -/
theorem Decides.eq (h : Decides r p) (h' : Decides r' q) (hpq : p ↔ q) : r = r' := by
  obtain ⟨b, rfl, hb⟩ := h
  obtain ⟨b', rfl, hb'⟩ := h'
  rw [Bool.eq_iff_iff.mpr (hb.trans (hpq.trans hb'.symm))]

theorem Decides.eq_true_iff (h : Decides r p) : r = .ok (.bool true) ↔ p := by
  obtain ⟨b, rfl, hb⟩ := h
  rw [← hb]
  constructor
  · rintro ⟨⟩
    rfl
  · rintro rfl
    rfl

/-! ### Chains -/

variable {α : Type} {P : Value → Prop} {rank : Value → α} {args : List Value}

/-- **Testing neighbours decides all pairs**, for a transitive relation of ranks. -/
theorem neighbours_eq {test : Value → Value → Except Failure Bool} {R : α → α → Prop}
    [DecidableRel R] [IsTrans α R]
    (htest : ∀ a b, P a → P b → test a b = .ok (decide (R (rank a) (rank b)))) :
    ∀ {args : List Value}, (∀ v ∈ args, P v) →
      neighbours test args = .ok (decide ((args.map rank).Pairwise R))
  | [], _ => by simp [neighbours]
  | [a], _ => by simp [neighbours]
  | a :: b :: vs, hargs => by
    have htail : ∀ v ∈ b :: vs, P v := (List.forall_mem_cons.mp hargs).2
    have ih := neighbours_eq htest htail
    have hpairs : ((a :: b :: vs).map rank).Pairwise R ↔
        R (rank a) (rank b) ∧ ((b :: vs).map rank).Pairwise R := by
      rw [← List.isChain_iff_pairwise, ← List.isChain_iff_pairwise, List.map_cons, List.map_cons,
        List.isChain_cons_cons]
    rw [neighbours, htest a b (hargs a List.mem_cons_self) (htail b List.mem_cons_self)]
    change (if decide (R (rank a) (rank b)) = true then neighbours test (b :: vs) else .ok false) = _
    by_cases hab : R (rank a) (rank b)
    · rw [if_pos (decide_eq_true hab), ih]
      simp only [hpairs, hab, true_and]
    · rw [if_neg (by simpa using hab)]
      simp only [hpairs, hab, false_and, decide_false]

theorem withTwo_eq (hlen : 2 ≤ args.length) (name : String)
    (test : List Value → Except Failure Bool) : withTwo name test args = test args := by
  rw [withTwo, if_neg (Nat.not_lt.mpr hlen)]

/-- A function that tests neighbours decides all pairs. -/
theorem decides_chain {f : Builtin} {name : String} {test : Value → Value → Except Failure Bool}
    (hcall : f.pureCall args = .bool <$> withTwo name (neighbours test) args)
    {R : α → α → Prop} [DecidableRel R] [IsTrans α R]
    (htest : ∀ a b, P a → P b → test a b = .ok (decide (R (rank a) (rank b))))
    (hargs : ∀ v ∈ args, P v) (hlen : 2 ≤ args.length) :
    Decides (f.pureCall args) (args.Pairwise fun a b => R (rank a) (rank b)) := by
  refine (decides_decide ?_).congr List.pairwise_map
  rw [hcall, withTwo_eq hlen, neighbours_eq htest hargs]
  rfl

/-! ### Less, greater and equal -/

variable [LinearOrder α]

/-- Not below is at least, in a linear order. -/
theorem not_decide_lt (x y : α) :
    (fun b : Bool => !b) <$> (.ok (decide (x < y)) : Except Failure Bool) =
      .ok (decide (y ≤ x)) := by
  change Except.ok (!decide (x < y)) = _
  rw [← decide_not, decide_eq_decide.mpr not_lt]

theorem atMost_eq (h : Ranks P rank) {a b : Value} (ha : P a) (hb : P b) :
    atMost a b = .ok (decide (rank a ≤ rank b)) := by
  rw [atMost, (h b a hb ha).1, not_decide_lt]
  split_ifs with heq
  · rw [decide_eq_true ((h a b ha hb).2.mp heq).le]
  · rfl

theorem atLeast_eq (h : Ranks P rank) {a b : Value} (ha : P a) (hb : P b) :
    atLeast a b = .ok (decide (rank b ≤ rank a)) := by
  rw [atLeast, (h a b ha hb).1, not_decide_lt]
  split_ifs with heq
  · rw [decide_eq_true ((h a b ha hb).2.mp heq).ge]
  · rfl

theorem allEqual_eq (h : Ranks P rank) (hargs : ∀ v ∈ args, P v) :
    ∃ b, allEqual args = .ok b ∧ (b = true ↔ ∀ v ∈ args, ∀ w ∈ args, rank v = rank w) := by
  cases args with
  | nil => exact ⟨true, rfl, by simp⟩
  | cons a vs =>
    refine ⟨_, rfl, ?_⟩
    rw [List.forall_mem_cons] at hargs
    have hfirst : ∀ v ∈ vs, (a.equal v = true ↔ rank a = rank v) := fun v hv =>
      (h a v hargs.1 (hargs.2 v hv)).2
    rw [List.all_eq_true]
    constructor
    · intro hall v hv w hw
      have hrank : ∀ u ∈ a :: vs, rank a = rank u :=
        List.forall_mem_cons.mpr ⟨rfl, fun u hu => (hfirst u hu).mp (hall u hu)⟩
      exact (hrank v hv).symm.trans (hrank w hw)
    · intro hall v hv
      exact (hfirst v hv).mpr (hall a List.mem_cons_self v (List.mem_cons_of_mem _ hv))

/-! ### The comparing functions -/

/-- **The comparing functions decide all pairs** of their arguments, by what comes before what and what is
alike. -/
structure DecidesPairs (before alike : Value → Value → Prop) (args : List Value) : Prop where
  less : Decides (Builtin.pureCall .less args) (args.Pairwise before)
  greater : Decides (Builtin.pureCall .greater args) (args.Pairwise fun a b => before b a)
  atMost : Decides (Builtin.pureCall .atMost args)
    (args.Pairwise fun a b => before a b ∨ alike a b)
  atLeast : Decides (Builtin.pureCall .atLeast args)
    (args.Pairwise fun a b => before b a ∨ alike a b)
  equal : Decides (Builtin.pureCall .equal args) (∀ a ∈ args, ∀ b ∈ args, alike a b)

theorem decidesPairs (h : Ranks P rank) (hargs : ∀ v ∈ args, P v) (hlen : 2 ≤ args.length) :
    DecidesPairs (fun a b => rank a < rank b) (fun a b => rank a = rank b) args where
  less := decides_chain (R := (· < ·)) rfl (fun a b ha hb => (h a b ha hb).1) hargs hlen
  greater := decides_chain (R := (· > ·)) rfl (fun a b ha hb => (h b a hb ha).1) hargs hlen
  atMost := (decides_chain (R := (· ≤ ·)) rfl (fun _ _ => atMost_eq h) hargs hlen).congr
    (List.Pairwise.iff fun _ _ => le_iff_lt_or_eq)
  atLeast := (decides_chain (R := (· ≥ ·)) rfl (fun _ _ => atLeast_eq h) hargs hlen).congr
    (List.Pairwise.iff fun _ _ => le_iff_lt_or_eq.trans (or_congr_right eq_comm))
  equal := by
    obtain ⟨b, hb, hiff⟩ := allEqual_eq h hargs
    refine ⟨b, ?_, hiff⟩
    rw [Builtin.pureCall, withTwo_eq hlen, hb]
    rfl

/-- Members of one family are compared with one another. -/
theorem decidesPairs_family (family : Family) (hargs : ∀ v ∈ args, family.Has v)
    (hlen : 2 ≤ args.length) : DecidesPairs family.Before family.Alike args := by
  cases family with
  | numbers => exact decidesPairs ranks_numbers hargs hlen
  | strings => exact decidesPairs ranks_strings hargs hlen
  | dates => exact decidesPairs ranks_dates hargs hlen

variable {before alike : Value → Value → Prop}

/-- Greater is less on the arguments in reverse, and at least is at most on them. -/
theorem DecidesPairs.reverse (h : DecidesPairs before alike args)
    (hreverse : DecidesPairs before alike args.reverse)
    (halike : ∀ {a b}, alike a b ↔ alike b a) :
    Builtin.pureCall .greater args = Builtin.pureCall .less args.reverse ∧
      Builtin.pureCall .atLeast args = Builtin.pureCall .atMost args.reverse := by
  constructor
  · exact h.greater.eq hreverse.less List.pairwise_reverse.symm
  · refine h.atLeast.eq hreverse.atMost ?_
    rw [List.pairwise_reverse]
    exact List.Pairwise.iff fun _ _ => or_congr_right halike

/-- **Chained comparisons decide all pairs.** Of two or more numbers, strings or dates, and `nil` among
them, less, greater, at most and at least say whether every argument stands so to every later one, and
equal says whether any two are alike, in whatever order they come. Greater is less on the arguments in
reverse, and at least is at most on them; and at most, of two arguments, is less or equal. -/
theorem comparisons_decide_pairs (family : Family) {args : List Value}
    (hargs : ∀ v ∈ args, family.Has v) (hlen : 2 ≤ args.length) :
    DecidesPairs family.Before family.Alike args ∧
    (∀ args', args'.Perm args → Builtin.pureCall .equal args' = Builtin.pureCall .equal args) ∧
    Builtin.pureCall .greater args = Builtin.pureCall .less args.reverse ∧
    Builtin.pureCall .atLeast args = Builtin.pureCall .atMost args.reverse ∧
    (∀ a b, family.Has a → family.Has b → (Builtin.pureCall .atMost [a, b] = .ok (.bool true) ↔
      Builtin.pureCall .less [a, b] = .ok (.bool true) ∨
        Builtin.pureCall .equal [a, b] = .ok (.bool true))) := by
  have hpairs := decidesPairs_family family hargs hlen
  have hreverse : DecidesPairs family.Before family.Alike args.reverse :=
    decidesPairs_family family (fun v hv => hargs v (List.mem_reverse.mp hv))
      (by rwa [List.length_reverse])
  obtain ⟨hgreater, hatLeast⟩ := hpairs.reverse hreverse family.alike_comm
  refine ⟨hpairs, fun args' hperm => ?_, hgreater, hatLeast, ?_⟩
  · have hpairs' : DecidesPairs family.Before family.Alike args' :=
      decidesPairs_family family (fun v hv => hargs v (hperm.subset hv))
        (by rwa [hperm.length_eq])
    refine hpairs'.equal.eq hpairs.equal ?_
    simp only [hperm.mem_iff]
  · intro a b ha hb
    have hpair : DecidesPairs family.Before family.Alike [a, b] :=
      decidesPairs_family family (by simp [ha, hb]) (Nat.le_refl 2)
    rw [hpair.atMost.eq_true_iff, hpair.less.eq_true_iff, hpair.equal.eq_true_iff]
    simp [family.alike_self, family.alike_comm (a := b)]

/-- One, one and a half and two, as whole numbers and decimals after `nil`, are in order, though only
neighbours are compared. -/
theorem comparisons_decide_pairs_mixed :
    Builtin.pureCall .less [.nil, .int 1, .decimal (.finite false 15 (-1)), .int 2] =
      .ok (.bool true) ∧
    Builtin.pureCall .greater [.int 2, .decimal (.finite false 15 (-1)), .int 1, .nil] =
      .ok (.bool true) := by
  have hargs : ∀ v ∈ [Value.int 2, .decimal (.finite false 15 (-1)), .int 1, .nil],
      Family.numbers.Has v := by
    simp [Family.Has, Number.IsFinite, Decimal.isFinite]
  have hneighbours : withTwo "<" (neighbours Value.less)
      [.nil, .int 1, .decimal (.finite false 15 (-1)), .int 2] = .ok true := by decide
  have hless : Builtin.pureCall .less
      [.nil, .int 1, .decimal (.finite false 15 (-1)), .int 2] = .ok (.bool true) := by
    rw [Builtin.pureCall, hneighbours]
    rfl
  exact ⟨hless, (comparisons_decide_pairs .numbers hargs (by decide)).2.2.1.trans hless⟩

end Comparison

end MiniLisp
