import MiniLisp.Proofs.Builtin.Result
import MiniLisp.Proofs.Value.Finite

/-! # Builtin functions on finite values

A builtin function that is given finite values gives a finite value or an expected failure
(`expected_pureCall`). Arithmetic and the math library guard their results. Comparisons, extrema, roots,
logarithms and positions guard nothing: they cannot fail otherwise because their arguments are finite. -/

namespace MiniLisp

open MiniLisp.Except

/-- The failures that programs may end in: those of the language, an exhausted stack, and a whole number
with too many digits to be printed. -/
def Failure.IsExpected (e : Failure) : Prop :=
  e.kind.isLanguage = true ∨ e = .stackExhausted ∨ e = .overlongInteger

theorem Failure.isExpected_of_isEvaluation {e : Failure} (h : e.isEvaluation = true) :
    e.IsExpected := by
  cases e with
  | stackExhausted => exact .inr (.inl rfl)
  | overlongInteger => exact .inr (.inr rfl)
  | undefinedSymbol | undefinedVariable | typeError | arityError => exact .inl rfl
  | _ => cases h

/-- The computation gives a value of this kind or an expected failure. -/
abbrev Expected {α : Type} (Q : α → Prop) (x : Except Failure α) : Prop :=
  Ends Q Failure.IsExpected x

/-- The computation gives something or an expected failure. -/
abbrev Tame {α : Type} (x : Except Failure α) : Prop := Expected (fun _ => True) x

/-- The decimal is finite. -/
abbrev FiniteDecimal (d : Decimal) : Prop := d.isFinite = true

/-! ### Arguments -/

namespace Value

theorem tame_toInteger (name : String) {v : Value} (h : v.IsFinite) : Tame (v.toInteger name) := by
  unfold toInteger
  split
  · trivial
  · trivial
  · next d =>
    obtain ⟨s, c, e, rfl⟩ := Decimal.exists_of_isFinite (isFinite_number.1 h)
    trivial
  · exact .inl rfl

theorem expected_toDecimal (name : String) {v : Value} (h : v.IsFinite) :
    Expected FiniteDecimal (v.toDecimal name) := by
  unfold toDecimal
  split
  · rfl
  · exact isFinite_number.1 h
  · exact ends_ite (fun _ => rfl) fun _ => .inl rfl
  · exact .inl rfl

/-- Finite values are compared without a failure of the machine. -/
theorem tame_less {v w : Value} (hv : v.IsFinite) (hw : w.IsFinite) : Tame (v.less w) := by
  unfold less
  split
  · trivial
  · trivial
  · next m n _ _ =>
    obtain ⟨b, hb⟩ := Number.exists_less? (isFinite_number.1 hv) (isFinite_number.1 hw)
    rw [hb]
    trivial
  · trivial
  · trivial
  · exact .inl rfl

theorem tame_print (v : Value) : Tame v.print := by
  cases h : v.print with
  | ok s => trivial
  | error e => exact Failure.isExpected_of_isEvaluation (isEvaluation_of_print h)

end Value

/-- All these values are finite. -/
abbrev AllFinite (vs : List Value) : Prop := ∀ v ∈ vs, v.IsFinite

/-! ### Arithmetic -/

namespace Arithmetic

theorem expected_guarded (operation : String) {x : Except Decimal.RangeFault Decimal}
    (h : Decimal.GivesFinite x) : Expected FiniteDecimal (guarded operation x) := by
  cases x with
  | ok d => exact h
  | error fault => exact .inl rfl

/-- Folding steps that give finite numbers gives a finite number. -/
theorem expected_foldDecimal (name operation : String)
    {step : Decimal → Decimal → Except Decimal.RangeFault Decimal}
    (hstep : ∀ {a b}, FiniteDecimal a → FiniteDecimal b → Decimal.GivesFinite (step a b)) :
    ∀ {vs : List Value} {total : Decimal}, FiniteDecimal total → AllFinite vs →
      Expected FiniteDecimal (foldDecimal name operation step total vs)
  | [], total, htotal, _ => htotal
  | v :: vs, total, htotal, h => by
    rw [AllFinite, List.forall_mem_cons] at h
    refine (Value.expected_toDecimal name h.1).bind fun d hd => ?_
    refine (expected_guarded operation (hstep htotal hd)).bind fun total htotal => ?_
    exact expected_foldDecimal name operation hstep htotal h.2

theorem tame_foldInteger (name : String) (step : Int → Int → Int) :
    ∀ (total : Int) {vs : List Value}, AllFinite vs → Tame (foldInteger name step total vs)
  | _, [], _ => trivial
  | total, v :: vs, h => by
    rw [AllFinite, List.forall_mem_cons] at h
    exact (Value.tame_toInteger name h.1).bind fun n _ =>
      tame_foldInteger name step (step total n) h.2

variable {args : List Value}

theorem expected_decimal {x : Except Failure Decimal} (h : Expected FiniteDecimal x) :
    Expected Number.IsFinite (Number.decimal <$> x) := h.map fun _ hd => hd

theorem expected_int {x : Except Failure Int} (h : Tame x) :
    Expected Number.IsFinite (Number.int <$> x) := h.map fun _ _ => trivial

theorem expected_add (h : AllFinite args) : Expected Number.IsFinite (add args) := by
  refine ends_ite (fun _ => expected_decimal ?_) fun _ => expected_int ?_
  · exact expected_foldDecimal "+" "add" Decimal.finite_add rfl h
  · exact tame_foldInteger "+" _ 0 h

theorem expected_multiply (h : AllFinite args) : Expected Number.IsFinite (multiply args) := by
  refine ends_ite (fun _ => expected_decimal ?_) fun _ => expected_int ?_
  · exact expected_foldDecimal "*" "mul" Decimal.finite_mul rfl h
  · exact tame_foldInteger "*" _ 1 h

theorem expected_subtract (h : AllFinite args) : Expected Number.IsFinite (subtract args) := by
  unfold subtract
  split
  · exact .inl rfl
  · next v =>
    have hv : v.IsFinite := h v List.mem_cons_self
    refine ends_ite (fun _ => ?_) fun _ => ?_
    · refine (Value.expected_toDecimal "-" hv).bind fun d hd => expected_decimal ?_
      exact expected_guarded "sub" (Decimal.finite_minus hd)
    · exact (Value.tame_toInteger "-" hv).bind fun _ _ => trivial
  · next v vs _ =>
    rw [AllFinite, List.forall_mem_cons] at h
    refine ends_ite (fun _ => ?_) fun _ => ?_
    · refine (Value.expected_toDecimal "-" h.1).bind fun d hd => expected_decimal ?_
      exact expected_foldDecimal "-" "sub" Decimal.finite_sub hd h.2
    · refine (Value.tame_toInteger "-" h.1).bind fun n _ => expected_int ?_
      exact tame_foldInteger "-" _ n h.2

theorem expected_toDecimals (name : String) : ∀ {vs : List Value}, AllFinite vs →
    Expected (fun ds => ∀ d ∈ ds, FiniteDecimal d) (toDecimals name vs)
  | [], _ => nofun
  | v :: vs, h => by
    rw [AllFinite, List.forall_mem_cons] at h
    refine (Value.expected_toDecimal name h.1).bind fun d hd => ?_
    refine (expected_toDecimals name h.2).bind fun ds hds => ?_
    exact List.forall_mem_cons.2 ⟨hd, hds⟩

theorem expected_quotients : ∀ {ds : List Decimal} {total : Decimal}, FiniteDecimal total →
    (∀ d ∈ ds, FiniteDecimal d) → Expected FiniteDecimal (quotients total ds)
  | [], total, htotal, _ => htotal
  | d :: ds, total, htotal, h => by
    rw [List.forall_mem_cons] at h
    refine ends_ite (fun _ => .inl rfl) fun _ => ?_
    refine (expected_guarded "div" (Decimal.finite_div htotal h.1)).bind fun total htotal => ?_
    exact expected_quotients htotal h.2

theorem expected_divide (h : AllFinite args) : Expected Number.IsFinite (divide args) := by
  refine ends_ite (fun _ => .inl rfl) fun _ => ?_
  refine (expected_toDecimals "/" h).bind fun ds hds => ?_
  split
  · exact expected_decimal (expected_quotients rfl hds)
  · rw [List.forall_mem_cons] at hds
    exact expected_decimal (expected_quotients hds.1 hds.2)
  · exact .inl rfl

theorem expected_toKind (decimal : Bool) (name : String) {v : Value} (h : v.IsFinite) :
    Expected Number.IsFinite (toKind decimal name v) :=
  ends_ite (fun _ => expected_decimal (Value.expected_toDecimal name h)) fun _ =>
    expected_int (Value.tame_toInteger name h)

theorem tame_better (greatest : Bool) {m n : Number} (hm : m.IsFinite) (hn : n.IsFinite) :
    Tame (better greatest m n) := by
  obtain ⟨b, hb⟩ := Number.exists_less? hn hm
  obtain ⟨b', hb'⟩ := Number.exists_less? hm hn
  unfold better
  cases greatest with
  | false => rw [if_neg Bool.false_ne_true, hb']; trivial
  | true => rw [if_pos rfl, hb]; trivial

theorem expected_bestOf (greatest decimal : Bool) (name : String) :
    ∀ {vs : List Value} {best : Number}, best.IsFinite → AllFinite vs →
      Expected Number.IsFinite (bestOf greatest decimal name best vs)
  | [], _, hbest, _ => hbest
  | v :: vs, best, hbest, h => by
    rw [AllFinite, List.forall_mem_cons] at h
    refine (expected_toKind decimal name h.1).bind fun n hn => ?_
    refine (tame_better greatest hn hbest).bind fun wins _ => ?_
    refine expected_bestOf greatest decimal name ?_ h.2
    split
    · exact hn
    · exact hbest

theorem expected_extremum (greatest : Bool) (name : String) (h : AllFinite args) :
    Expected Number.IsFinite (extremum greatest name args) := by
  unfold extremum
  split
  · exact .inl rfl
  · rw [AllFinite, List.forall_mem_cons] at h
    refine (expected_toKind _ name h.1).bind fun best hbest => ?_
    exact expected_bestOf greatest _ name hbest h.2

end Arithmetic

/-! ### The math library -/

namespace MathLibrary

variable {args : List Value}

theorem expected_finish (name : String) (x : Float) : Expected Number.IsFinite (finish name x) := by
  unfold finish
  split
  · next d hd => exact Decimal.isFinite_of_ofDouble? hd
  · exact .inl rfl

/-- Whatever the function makes of a double. -/
theorem tame_apply (name : String) (f : Float → Float) (canOverflow : Bool) (x : Float) :
    Tame (apply name f canOverflow x) :=
  ends_ite (fun _ => .inl rfl) fun _ => ends_ite (fun _ => .inl rfl) fun _ => trivial

theorem expected_unary (name : String) (f : Float → Float) (canOverflow : Bool)
    (h : AllFinite args) : Expected Number.IsFinite (unary name f canOverflow args) := by
  unfold unary
  split
  · refine (Value.expected_toDecimal name (h _ List.mem_cons_self)).bind fun d _ => ?_
    exact (tame_apply name f canOverflow _).bind fun y _ => expected_finish name y
  · exact .inl rfl

theorem tame_below {a b : Decimal} (ha : FiniteDecimal a) (hb : FiniteDecimal b) :
    Tame (below a b) := by
  obtain ⟨o, ho⟩ := Decimal.exists_compare? ha hb
  unfold below
  rw [ho]
  trivial

theorem tame_notPositive {d : Decimal} (h : FiniteDecimal d) : Tame (notPositive d) :=
  (tame_below rfl h).bind fun _ _ => trivial

theorem expected_squareRoot (h : AllFinite args) :
    Expected Number.IsFinite (squareRoot args) := by
  unfold squareRoot
  split
  · refine (Value.expected_toDecimal "sqrt" (h _ List.mem_cons_self)).bind fun d hd => ?_
    refine (tame_below hd rfl).bind fun _ _ => ends_ite (fun _ => .inl rfl) fun _ => ?_
    exact (tame_apply "sqrt" _ false _).bind fun y _ => expected_finish "sqrt" y
  · exact .inl rfl

theorem expected_logarithm (h : AllFinite args) : Expected Number.IsFinite (logarithm args) := by
  unfold logarithm
  split
  · refine (Value.expected_toDecimal "log" (h _ List.mem_cons_self)).bind fun d hd => ?_
    refine (tame_notPositive hd).bind fun _ _ => ends_ite (fun _ => .inl rfl) fun _ => ?_
    exact (tame_apply "log" _ false _).bind fun y _ => expected_finish "log" y
  · next v w =>
    refine (Value.expected_toDecimal "log" (h v (by simp))).bind fun d hd => ?_
    refine (Value.expected_toDecimal "log" (h w (by simp))).bind fun base hbase => ?_
    refine (tame_notPositive hd).bind fun _ _ => ends_ite (fun _ => .inl rfl) fun _ => ?_
    refine (tame_notPositive hbase).bind fun _ _ => ends_ite (fun _ => .inl rfl) fun _ => ?_
    refine ends_ite (fun _ => .inl rfl) fun _ => ?_
    refine (tame_apply "log" _ false _).bind fun x _ => ?_
    refine (tame_apply "log" _ false _).bind fun y _ => ?_
    exact ends_ite (fun _ => .inl rfl) fun _ => expected_finish "log" _
  · exact .inl rfl

end MathLibrary

/-! ### Comparing and strings -/

namespace Comparison

variable {args : List Value}

theorem tame_neighbours {test : Value → Value → Except Failure Bool}
    (htest : ∀ {v w : Value}, v.IsFinite → w.IsFinite → Tame (test v w)) :
    ∀ {vs : List Value}, AllFinite vs → Tame (neighbours test vs)
  | [], _ => trivial
  | [_], _ => trivial
  | v :: w :: vs, h => by
    rw [AllFinite, List.forall_mem_cons] at h
    have hw : w.IsFinite := h.2 w List.mem_cons_self
    refine (htest h.1 hw).bind fun holds _ => ends_ite (fun _ => ?_) fun _ => trivial
    exact tame_neighbours htest h.2

theorem tame_atMost {v w : Value} (hv : v.IsFinite) (hw : w.IsFinite) : Tame (atMost v w) :=
  ends_ite (fun _ => trivial) fun _ => (Value.tame_less hw hv).map fun _ _ => trivial

theorem tame_atLeast {v w : Value} (hv : v.IsFinite) (hw : w.IsFinite) : Tame (atLeast v w) :=
  ends_ite (fun _ => trivial) fun _ => (Value.tame_less hv hw).map fun _ _ => trivial

theorem tame_withTwo (name : String) {test : List Value → Except Failure Bool}
    (h : Tame (test args)) : Tame (withTwo name test args) :=
  ends_ite (fun _ => .inl rfl) fun _ => h

end Comparison

namespace Strings

theorem tame_concat : ∀ vs : List Value, Tame (concat vs)
  | [] => trivial
  | v :: vs => by
    unfold concat
    split
    · trivial
    · next vs' heq =>
      cases heq
      exact (tame_concat vs).map fun _ _ => trivial
    · next v' vs' _ heq =>
      cases heq
      exact (Value.tame_print v).bind fun _ _ => (tame_concat vs).bind fun _ _ => trivial

theorem expected_toNumber (s : String) : Expected Number.IsFinite (toNumber s) := by
  unfold toNumber
  split
  · next n hn => exact (Number.finite_ofText _).of_ok hn
  · exact .inl rfl

end Strings

/-! ### Calls -/

namespace Builtin

variable {α : Type} {Q : α → Prop} {name : String} {args : List Value}

theorem expected_one {f : Value → Except Failure α} (h : AllFinite args)
    (hf : ∀ {v : Value}, v.IsFinite → Expected Q (f v)) : Expected Q (one name f args) := by
  unfold one
  split
  · exact hf (h _ List.mem_cons_self)
  · exact .inl rfl

theorem expected_two {f : Value → Value → Except Failure α} (h : AllFinite args)
    (hf : ∀ {v w : Value}, v.IsFinite → w.IsFinite → Expected Q (f v w)) :
    Expected Q (two name f args) := by
  unfold two
  split
  · exact hf (h _ (by simp)) (h _ (by simp))
  · exact .inl rfl

theorem expected_three {f : Value → Value → Value → Except Failure α} (h : AllFinite args)
    (hf : ∀ {u v w : Value}, u.IsFinite → v.IsFinite → w.IsFinite → Expected Q (f u v w)) :
    Expected Q (three name f args) := by
  unfold three
  split
  · exact hf (h _ (by simp)) (h _ (by simp)) (h _ (by simp))
  · exact .inl rfl

theorem tame_expectString (name : String) (v : Value) : Tame (expectString name v) := by
  unfold expectString
  split
  · trivial
  · exact .inl rfl

theorem tame_expectDate (name : String) (v : Value) : Tame (expectDate name v) := by
  unfold expectDate
  split
  · trivial
  · exact .inl rfl

theorem expected_expectList (name : String) {v : Value} (h : v.IsFinite) :
    Expected AllFinite (expectList name v) := by
  unfold expectList
  split
  · exact Value.isFinite_list.1 h
  · exact .inl rfl

theorem tame_expectIndex (name : String) {v : Value} (h : v.IsFinite) :
    Tame (expectIndex name v) := by
  unfold expectIndex
  split
  · exact .inl rfl
  · exact Value.tame_toInteger name h

/-- **A computing function on finite values** gives a finite value or an expected failure. -/
theorem expected_pureCall (b : Builtin) (h : AllFinite args) :
    Expected Value.IsFinite (pureCall b args) := by
  have hnumber : ∀ {x : Except Failure Number}, Expected Number.IsFinite x →
      Expected Value.IsFinite (Value.number <$> x) := fun hx =>
    hx.map fun _ hn => Value.isFinite_number.2 hn
  have hbool : ∀ {x : Except Failure Bool}, Tame x → Expected Value.IsFinite (Value.bool <$> x) :=
    fun hx => hx.map fun _ _ => Value.isFinite_of_decimals rfl
  cases b with
  | add => exact hnumber (Arithmetic.expected_add h)
  | subtract => exact hnumber (Arithmetic.expected_subtract h)
  | multiply => exact hnumber (Arithmetic.expected_multiply h)
  | divide => exact hnumber (Arithmetic.expected_divide h)
  | minimum => exact hnumber (Arithmetic.expected_extremum false "min" h)
  | maximum => exact hnumber (Arithmetic.expected_extremum true "max" h)
  | sine => exact hnumber (MathLibrary.expected_unary "sin" _ false h)
  | cosine => exact hnumber (MathLibrary.expected_unary "cos" _ false h)
  | tangent => exact hnumber (MathLibrary.expected_unary "tan" _ false h)
  | squareRoot => exact hnumber (MathLibrary.expected_squareRoot h)
  | exponential => exact hnumber (MathLibrary.expected_unary "exp" _ true h)
  | logarithm => exact hnumber (MathLibrary.expected_logarithm h)
  | equal =>
    refine hbool (Comparison.tame_withTwo "=" ?_)
    unfold Comparison.allEqual
    split
    · trivial
    · trivial
  | less =>
    exact hbool (Comparison.tame_withTwo "<" (Comparison.tame_neighbours Value.tame_less h))
  | greater =>
    refine hbool (Comparison.tame_withTwo ">" (Comparison.tame_neighbours ?_ h))
    exact fun hv hw => Value.tame_less hw hv
  | atMost =>
    exact hbool (Comparison.tame_withTwo "<=" (Comparison.tame_neighbours Comparison.tame_atMost h))
  | atLeast =>
    exact hbool (Comparison.tame_withTwo ">=" (Comparison.tame_neighbours Comparison.tame_atLeast h))
  | concat => exact (Strings.tame_concat args).map fun _ _ => Value.isFinite_of_decimals rfl
  | stringLength | toLower =>
    exact expected_one h fun _ => (tame_expectString _ _).bind fun _ _ => Value.isFinite_of_decimals rfl
  | dateYear | dateMonth | dateDay =>
    exact expected_one h fun _ => (tame_expectDate _ _).bind fun _ _ => Value.isFinite_of_decimals rfl
  | substring =>
    refine expected_three h fun _ hstart hlength => (tame_expectString _ _).bind fun s _ => ?_
    refine (tame_expectIndex _ hstart).bind fun i _ => ?_
    exact (tame_expectIndex _ hlength).bind fun n _ => Value.isFinite_of_decimals rfl
  | indexOf =>
    refine expected_two h fun _ _ => (tame_expectString _ _).bind fun s _ => ?_
    exact (tame_expectString _ _).bind fun needle _ => Value.isFinite_of_decimals rfl
  | car =>
    refine expected_one h fun hv => (expected_expectList _ hv).bind fun items hitems => ?_
    rcases headD_eq items with hnil | hmem
    · change Value.IsFinite (items.headD .nil)
      rw [hnil]
      exact Value.isFinite_of_decimals rfl
    · exact hitems _ hmem
  | nth =>
    refine expected_two h fun hv hw => (expected_expectList _ hv).bind fun items hitems => ?_
    refine (tame_expectIndex _ hw).bind fun i _ => ?_
    rcases item_eq items i with hnil | hmem
    · change Value.IsFinite (item items i)
      rw [hnil]
      exact Value.isFinite_of_decimals rfl
    · exact hitems _ hmem
  | isEmpty | isList | isNumber | not => exact expected_one h fun _ => Value.isFinite_of_decimals rfl
  | xor => exact expected_two h fun _ _ => Value.isFinite_of_decimals rfl
  | toNumber =>
    refine expected_one h fun hv => ?_
    split
    · exact hv
    · apply Ends.bind (tame_expectString _ _)
      intro s _
      apply hnumber
      apply Strings.expected_toNumber
  | toSymbol =>
    refine expected_one h fun hv => ?_
    split
    · exact Value.isFinite_of_decimals rfl
    · exact (tame_expectString _ _).bind fun s _ => Value.isFinite_of_decimals rfl
  | makeList | cdr | cons | now | print => exact Value.isFinite_of_decimals rfl

end Builtin

end MiniLisp
