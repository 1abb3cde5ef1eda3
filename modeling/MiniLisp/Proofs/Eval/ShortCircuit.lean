import MiniLisp.Proofs.Eval.Finishes
import MiniLisp.Proofs.Eval.Shape

/-! # Which operands are evaluated

`and`, `or` and `cond` evaluate their operands, or the tests of their clauses, in order up to the one that
decides. How they come out is described by the forms before the deciding one, which are evaluated one after the
other with values that do not decide (`Passes`), and by the deciding form: `Conjunction`, `Disjunction` and
`Selection`. Operands come out in exactly one of these ways, so a form evaluates what is named there and nothing
else (`short_circuits`). -/

namespace MiniLisp

open Run SpecialForm

variable {ev : Evaluator} {env : FrameId} {truth : Bool} {forms before : List Value} {form v : Value}
  {vs : List Value} {s s₁ s₂ : Store} {e : Failure} {r : Ending}

/-! ### Forms that do not decide -/

/-- **The forms are evaluated in order**, and all values are true, or all are false. -/
structure Passes (ev : Evaluator) (env : FrameId) (truth : Bool) (forms : List Value) (s : Store)
    (vs : List Value) (s' : Store) : Prop where
  values : ev.all env forms s = .ok vs s'
  isTruthy : ∀ v ∈ vs, v.isTruthy = truth

theorem passes_nil : Passes ev env truth [] s [] s := ⟨rfl, nofun⟩

theorem Passes.cons (h : ev form env s = .ok v s₁) (hv : v.isTruthy = truth)
    (hforms : Passes ev env truth forms s₁ vs s₂) :
    Passes ev env truth (form :: forms) s (v :: vs) s₂ where
  values := by
    rw [Evaluator.all, bind_apply, h]
    dsimp only
    rw [bind_apply, hforms.values]
    rfl
  isTruthy := List.forall_mem_cons.2 ⟨hv, hforms.isTruthy⟩

/-- The first of the forms is evaluated, and then the others are. -/
theorem Passes.exists_of_cons (h : Passes ev env truth (form :: forms) s vs s₂) :
    ∃ v vs' s₁, vs = v :: vs' ∧ ev form env s = .ok v s₁ ∧ v.isTruthy = truth ∧
      Passes ev env truth forms s₁ vs' s₂ := by
  obtain ⟨hvalues, htruthy⟩ := h
  rw [Evaluator.all, bind_apply] at hvalues
  cases hform : ev form env s with
  | error e s₁ =>
    rw [hform] at hvalues
    cases hvalues
  | ok v s₁ =>
    rw [hform] at hvalues
    dsimp only at hvalues
    rw [bind_apply] at hvalues
    cases hforms : ev.all env forms s₁ with
    | error e s₁ =>
      rw [hforms] at hvalues
      cases hvalues
    | ok vs' s' =>
      rw [hforms] at hvalues
      cases hvalues
      obtain ⟨hv, hvs⟩ := List.forall_mem_cons.1 htruthy
      exact ⟨v, vs', s₁, rfl, rfl, hv, hforms, hvs⟩

/-- The value of a body is that of its last form. -/
theorem body_eq (ev : Evaluator) (env : FrameId) : ∀ (v : Value) {forms : List Value}, forms ≠ [] →
    ev.body env forms = (·.getLastD v) <$> ev.all env forms
  | v, [form], _ => by
    rw [Evaluator.body, Evaluator.all, Evaluator.all]
    simp
  | v, form :: form' :: forms, _ => by
    rw [Evaluator.body, Evaluator.all, map_bind]
    · refine bind_congr fun w => ?_
      rw [body_eq ev env w (List.cons_ne_nil form' forms), bind_pure_comp, Functor.map_map]
      simp only [List.getLastD_cons]
    · exact List.cons_ne_nil form' forms

/-! ### `and` -/

/-- **How a conjunction comes out.** -/
inductive Conjunction (ev : Evaluator) (env : FrameId) (s : Store) : List Value → Ending → Prop
  /-- All are true: the last value counts, `t` if there is none. -/
  | holds {forms vs : List Value} {s' : Store} (h : Passes ev env true forms s vs s') :
      Conjunction ev env s forms (.ok (vs.getLastD (.bool true)) s')
  /-- One is false, and those after it are not evaluated. -/
  | stops {before after vs : List Value} {form v : Value} {s₁ s₂ : Store}
      (h : Passes ev env true before s vs s₁) (hform : ev form env s₁ = .ok v s₂)
      (hv : v.isTruthy = false) : Conjunction ev env s (before ++ form :: after) (.ok .nil s₂)
  /-- One fails, and those after it are not evaluated. -/
  | fails {before after vs : List Value} {form : Value} {s₁ s₂ : Store} {e : Failure}
      (h : Passes ev env true before s vs s₁) (hform : ev form env s₁ = .error e s₂) :
      Conjunction ev env s (before ++ form :: after) (.error e s₂)

theorem runAnd_cons (ev : Evaluator) (env : FrameId) (form : Value) (forms : List Value) :
    runAnd ev env (form :: forms) = (ev form env >>= fun v =>
      if v.isTruthy then if forms.isEmpty then pure v else runAnd ev env forms else pure .nil) := by
  cases forms with
  | nil =>
    rw [runAnd]
    refine bind_congr fun v => ?_
    cases v.isTruthy <;> rfl
  | cons form' forms =>
    rw [runAnd]
    · rfl
    · exact List.cons_ne_nil form' forms

/-- A true value before the other operands. -/
theorem Conjunction.cons (h : ev form env s = .ok v s₁) (hv : v.isTruthy = true) (hne : forms ≠ [])
    (hforms : Conjunction ev env s₁ forms r) : Conjunction ev env s (form :: forms) r := by
  cases hforms with
  | holds hpasses =>
    obtain ⟨form', forms', rfl⟩ := List.exists_cons_of_ne_nil hne
    obtain ⟨w, ws, _, rfl, -⟩ := hpasses.exists_of_cons
    have hholds := Conjunction.holds (Passes.cons h hv hpasses)
    rwa [List.getLastD_cons] at hholds
  | stops hpasses hform hw => exact .stops (Passes.cons h hv hpasses) hform hw
  | fails hpasses hform => exact .fails (Passes.cons h hv hpasses) hform

theorem conjunction_runAnd (ev : Evaluator) (env : FrameId) : ∀ (forms : List Value) (s : Store),
    Conjunction ev env s forms (runAnd ev env forms s)
  | [], s => .holds passes_nil
  | form :: forms, s => by
    rw [runAnd_cons, bind_apply]
    cases hform : ev form env s with
    | error e s₁ => exact .fails passes_nil hform
    | ok v s₁ =>
      cases hv : v.isTruthy with
      | false =>
        simp only [hv, Bool.false_eq_true, if_false]
        exact .stops passes_nil hform hv
      | true =>
        simp only [hv, if_true]
        cases forms with
        | nil => exact .holds (Passes.cons hform hv passes_nil)
        | cons form' forms =>
          have hrest := conjunction_runAnd ev env (form' :: forms) s₁
          exact hrest.cons hform hv (List.cons_ne_nil form' forms)

theorem runAnd_append (h : Passes ev env true before s vs s₁) (hne : forms ≠ []) :
    runAnd ev env (before ++ forms) s = runAnd ev env forms s₁ := by
  induction before generalizing s vs with
  | nil =>
    cases h.values
    rfl
  | cons form before ih =>
    obtain ⟨v, vs', s', rfl, hform, hv, hpasses⟩ := h.exists_of_cons
    have hempty : (before ++ forms).isEmpty = false := by
      rw [List.isEmpty_eq_false_iff]
      exact List.append_ne_nil_of_right_ne_nil before hne
    rw [List.cons_append, runAnd_cons, bind_apply, hform]
    simp only [hv, if_true, hempty, Bool.false_eq_true, if_false]
    exact ih hpasses

theorem runAnd_of_passes (h : Passes ev env true forms s vs s₁) :
    runAnd ev env forms s = .ok (vs.getLastD (.bool true)) s₁ := by
  induction forms generalizing s vs with
  | nil =>
    cases h.values
    rfl
  | cons form forms ih =>
    obtain ⟨v, vs', s', rfl, hform, hv, hpasses⟩ := h.exists_of_cons
    rw [runAnd_cons, bind_apply, hform]
    simp only [hv, if_true]
    cases forms with
    | nil =>
      cases hpasses.values
      rfl
    | cons form' forms =>
      obtain ⟨w, ws, _, rfl, -⟩ := hpasses.exists_of_cons
      rw [List.getLastD_cons]
      exact ih hpasses

/-- **A conjunction comes out in one way.** -/
theorem runAnd_eq_iff : runAnd ev env forms s = r ↔ Conjunction ev env s forms r := by
  constructor
  · rintro rfl
    exact conjunction_runAnd ev env forms s
  · intro h
    cases h with
    | holds h => exact runAnd_of_passes h
    | stops h hform hv =>
      rw [runAnd_append h (List.cons_ne_nil _ _), runAnd_cons, bind_apply, hform]
      simp only [hv, Bool.false_eq_true, if_false]
      rfl
    | fails h hform =>
      rw [runAnd_append h (List.cons_ne_nil _ _), runAnd_cons, bind_apply, hform]

/-! ### `or` -/

/-- **How a disjunction comes out.** -/
inductive Disjunction (ev : Evaluator) (env : FrameId) (s : Store) : List Value → Ending → Prop
  /-- All are false. -/
  | holdsNot {forms vs : List Value} {s' : Store} (h : Passes ev env false forms s vs s') :
      Disjunction ev env s forms (.ok .nil s')
  /-- One is true, and those after it are not evaluated. -/
  | stops {before after vs : List Value} {form v : Value} {s₁ s₂ : Store}
      (h : Passes ev env false before s vs s₁) (hform : ev form env s₁ = .ok v s₂)
      (hv : v.isTruthy = true) : Disjunction ev env s (before ++ form :: after) (.ok v s₂)
  /-- One fails, and those after it are not evaluated. -/
  | fails {before after vs : List Value} {form : Value} {s₁ s₂ : Store} {e : Failure}
      (h : Passes ev env false before s vs s₁) (hform : ev form env s₁ = .error e s₂) :
      Disjunction ev env s (before ++ form :: after) (.error e s₂)

/-- A false value before the other operands. -/
theorem Disjunction.cons (h : ev form env s = .ok v s₁) (hv : v.isTruthy = false)
    (hforms : Disjunction ev env s₁ forms r) : Disjunction ev env s (form :: forms) r := by
  cases hforms with
  | holdsNot hpasses => exact .holdsNot (Passes.cons h hv hpasses)
  | stops hpasses hform hw => exact .stops (Passes.cons h hv hpasses) hform hw
  | fails hpasses hform => exact .fails (Passes.cons h hv hpasses) hform

theorem disjunction_runOr (ev : Evaluator) (env : FrameId) : ∀ (forms : List Value) (s : Store),
    Disjunction ev env s forms (runOr ev env forms s)
  | [], s => .holdsNot passes_nil
  | form :: forms, s => by
    rw [runOr, bind_apply]
    cases hform : ev form env s with
    | error e s₁ => exact .fails passes_nil hform
    | ok v s₁ =>
      cases hv : v.isTruthy with
      | false =>
        simp only [hv, Bool.false_eq_true, if_false]
        exact (disjunction_runOr ev env forms s₁).cons hform hv
      | true =>
        simp only [hv, if_true]
        exact .stops passes_nil hform hv

theorem runOr_append (h : Passes ev env false before s vs s₁) :
    runOr ev env (before ++ forms) s = runOr ev env forms s₁ := by
  induction before generalizing s vs with
  | nil =>
    cases h.values
    rfl
  | cons form before ih =>
    obtain ⟨v, vs', s', rfl, hform, hv, hpasses⟩ := h.exists_of_cons
    rw [List.cons_append, runOr, bind_apply, hform]
    simp only [hv, Bool.false_eq_true, if_false]
    exact ih hpasses

/-- **A disjunction comes out in one way.** -/
theorem runOr_eq_iff : runOr ev env forms s = r ↔ Disjunction ev env s forms r := by
  constructor
  · rintro rfl
    exact disjunction_runOr ev env forms s
  · intro h
    cases h with
    | holdsNot h =>
      have happend : runOr ev env (forms ++ []) s = runOr ev env [] _ := runOr_append h
      rwa [List.append_nil] at happend
    | stops h hform hv =>
      rw [runOr_append h, runOr, bind_apply, hform]
      simp only [hv, if_true]
      rfl
    | fails h hform => rw [runOr_append h, runOr, bind_apply, hform]

/-! ### `cond` -/

/-- The forms are evaluated in order, and the last value counts, `v` if there is none. -/
def lastOf (ev : Evaluator) (env : FrameId) (v : Value) (forms : List Value) : Run Value :=
  (·.getLastD v) <$> ev.all env forms

/-- A clause with a test, which has to be evaluated. -/
def HasTest (test clause : Value) : Prop :=
  ∃ id body, clause = .list id (test :: body) ∧ test ≠ .symbol "else"

/-- **How a choice between clauses comes out.** -/
inductive Selection (ev : Evaluator) (env : FrameId) (s : Store) : List Value → Ending → Prop
  /-- All tests are false. -/
  | none {clauses tests vs : List Value} {s' : Store} (hclauses : List.Forall₂ HasTest tests clauses)
      (h : Passes ev env false tests s vs s') : Selection ev env s clauses (.ok .nil s')
  /-- After false tests comes something that is no clause. -/
  | malformed {before after tests vs : List Value} {clause : Value} {s₁ : Store}
      (hbefore : List.Forall₂ HasTest tests before) (h : Passes ev env false tests s vs s₁)
      (hclause : ∀ id test body, clause ≠ .list id (test :: body)) :
      Selection ev env s (before ++ clause :: after) (.error (.typeError .condClause) s₁)
  /-- After false tests comes a test that fails. -/
  | fails {before after tests vs : List Value} {clause test : Value} {s₁ s₂ : Store} {e : Failure}
      (hbefore : List.Forall₂ HasTest tests before) (h : Passes ev env false tests s vs s₁)
      (hclause : HasTest test clause) (htest : ev test env s₁ = .error e s₂) :
      Selection ev env s (before ++ clause :: after) (.error e s₂)
  /-- After false tests comes a true one, and its body is evaluated. -/
  | selected {before after tests vs body : List Value} {id : ObjectId} {test v : Value} {s₁ s₂ : Store}
      (hbefore : List.Forall₂ HasTest tests before) (h : Passes ev env false tests s vs s₁)
      (helse : test ≠ .symbol "else") (htest : ev test env s₁ = .ok v s₂) (hv : v.isTruthy = true) :
      Selection ev env s (before ++ .list id (test :: body) :: after) (lastOf ev env v body s₂)
  /-- After false tests comes an `else`, and its body is evaluated. -/
  | otherwise {before after tests vs body : List Value} {id : ObjectId} {s₁ : Store}
      (hbefore : List.Forall₂ HasTest tests before) (h : Passes ev env false tests s vs s₁) :
      Selection ev env s (before ++ .list id (.symbol "else" :: body) :: after)
        (lastOf ev env (.bool true) body s₁)

theorem isElse_iff {test : Value} : isElse test = true ↔ test = .symbol "else" := by
  constructor
  · intro h
    exact Value.eq_symbol_of_symbolName? (beq_iff_eq.1 h)
  · rintro rfl
    rfl

theorem lastOf_eq (ev : Evaluator) (env : FrameId) (v : Value) (body : List Value) :
    (if body.isEmpty then pure v else ev.body env body) = lastOf ev env v body := by
  cases body with
  | nil => rfl
  | cons form forms => exact body_eq ev env v (List.cons_ne_nil form forms)

section Clauses

variable {test clause : Value} {body clauses : List Value} {tests : List Value} {id : ObjectId}

theorem runClauses_cons_test (helse : test ≠ .symbol "else") :
    runClauses ev env (.list id (test :: body) :: clauses) = (ev test env >>= fun v =>
      if v.isTruthy then lastOf ev env v body else runClauses ev env clauses) := by
  rw [runClauses_of_test ev env (Bool.eq_false_iff.2 fun h => helse (isElse_iff.1 h))]
  simp only [lastOf_eq]

theorem runClauses_cons_malformed (h : ∀ id test body, clause ≠ .list id (test :: body)) :
    runClauses ev env (clause :: clauses) = throw (.typeError .condClause) := by
  have hclause : clause? clause = none := by
    unfold clause?
    split
    · exact absurd rfl (h _ _ _)
    · rfl
  rw [runClauses, hclause]

/-- A clause with a false test before the other clauses. -/
theorem Selection.cons (hclause : HasTest test clause) (htest : ev test env s = .ok v s₁)
    (hv : v.isTruthy = false) (h : Selection ev env s₁ clauses r) :
    Selection ev env s (clause :: clauses) r := by
  cases h with
  | none hclauses hpasses => exact .none (.cons hclause hclauses) (Passes.cons htest hv hpasses)
  | malformed hbefore hpasses hmalformed =>
    exact .malformed (.cons hclause hbefore) (Passes.cons htest hv hpasses) hmalformed
  | fails hbefore hpasses hhas hfails =>
    exact .fails (.cons hclause hbefore) (Passes.cons htest hv hpasses) hhas hfails
  | selected hbefore hpasses helse hselected hw =>
    exact .selected (.cons hclause hbefore) (Passes.cons htest hv hpasses) helse hselected hw
  | otherwise hbefore hpasses => exact .otherwise (.cons hclause hbefore) (Passes.cons htest hv hpasses)

theorem selection_runClauses (ev : Evaluator) (env : FrameId) : ∀ (clauses : List Value) (s : Store),
    Selection ev env s clauses (runClauses ev env clauses s)
  | [], s => .none .nil passes_nil
  | clause :: clauses, s => by
    by_cases hclause : ∃ id test body, clause = .list id (test :: body)
    · obtain ⟨id, test, body, rfl⟩ := hclause
      by_cases helse : test = .symbol "else"
      · rw [helse, runClauses_of_else ev env rfl, lastOf_eq]
        exact .otherwise .nil passes_nil
      · have hhas : HasTest test (.list id (test :: body)) := ⟨id, body, rfl, helse⟩
        rw [runClauses_cons_test helse, bind_apply]
        cases htest : ev test env s with
        | error e s₁ => exact .fails .nil passes_nil hhas htest
        | ok v s₁ =>
          cases hv : v.isTruthy with
          | false =>
            simp only [hv, Bool.false_eq_true, if_false]
            exact (selection_runClauses ev env clauses s₁).cons hhas htest hv
          | true =>
            simp only [hv, if_true]
            exact .selected .nil passes_nil helse htest hv
    · have hmalformed : ∀ id test body, clause ≠ .list id (test :: body) :=
        fun id test body h => hclause ⟨id, test, body, h⟩
      rw [runClauses_cons_malformed hmalformed]
      exact .malformed .nil passes_nil hmalformed

theorem runClauses_append (hbefore : List.Forall₂ HasTest tests before)
    (h : Passes ev env false tests s vs s₁) :
    runClauses ev env (before ++ clauses) s = runClauses ev env clauses s₁ := by
  induction hbefore generalizing s vs with
  | nil =>
    cases h.values
    rfl
  | cons hclause _ ih =>
    obtain ⟨id, body, rfl, helse⟩ := hclause
    obtain ⟨v, vs', s', rfl, htest, hv, hpasses⟩ := h.exists_of_cons
    rw [List.cons_append, runClauses_cons_test helse, bind_apply, htest]
    simp only [hv, Bool.false_eq_true, if_false]
    exact ih hpasses

/-- **A choice between clauses comes out in one way.** -/
theorem runClauses_eq_iff : runClauses ev env clauses s = r ↔ Selection ev env s clauses r := by
  constructor
  · rintro rfl
    exact selection_runClauses ev env clauses s
  · intro h
    cases h with
    | none hclauses h =>
      have happend : runClauses ev env (clauses ++ []) s = runClauses ev env [] _ :=
        runClauses_append hclauses h
      rwa [List.append_nil] at happend
    | malformed hbefore h hmalformed =>
      rw [runClauses_append hbefore h, runClauses_cons_malformed hmalformed]
      rfl
    | fails hbefore h hhas htest =>
      obtain ⟨id, body, rfl, helse⟩ := hhas
      rw [runClauses_append hbefore h, runClauses_cons_test helse, bind_apply, htest]
    | selected hbefore h helse htest hv =>
      rw [runClauses_append hbefore h, runClauses_cons_test helse, bind_apply, htest]
      simp only [hv, if_true]
    | otherwise hbefore h =>
      rw [runClauses_append hbefore h, runClauses_of_else ev env rfl, lastOf_eq]

end Clauses

/-! ### Evaluating the forms -/

/-- **The evaluation of the form comes out as described**: it is a run with exactly these outcomes, which is
traced or not. -/
def ComesOut (tracing : Bool) (fuel : Nat) (form : Value) (env : FrameId)
    (outcome : Store → Ending → Prop) : Prop :=
  ∃ run : Run Value, evaluate tracing (fuel + 1) form env = (if tracing then traced form run else run) ∧
    ∀ s r, run s = r ↔ outcome s r

theorem comesOut_special {tracing : Bool} {fuel : Nat} {id : ObjectId} {operands : List Value}
    {outcome : Store → Ending → Prop} (form : SpecialForm)
    (h : ∀ s r, form.run (evaluate tracing fuel) tracing env operands s = r ↔ outcome s r) :
    ComesOut tracing fuel (.list id (.symbol form.name :: operands)) env outcome :=
  ⟨_, evaluate_special form tracing fuel id operands env, h⟩

/-- The value of a traced run is that of the run. -/
theorem exists_of_traced_eq_ok {form : Value} {run : Run Value} {s' : Store}
    (h : traced form run s = .ok v s') : ∃ s₁ s₂, run s₁ = .ok v s₂ := by
  rw [traced] at h
  cases hform : form.print with
  | error e =>
    rw [hform] at h
    cases h
  | ok text =>
    rw [hform] at h
    change (Run.deeper run >>= _) { s with trace := s.trace.push (.form s.depth text) } = _ at h
    rw [bind_apply, Run.deeper] at h
    cases hrun : run { s with trace := s.trace.push (.form s.depth text), depth := s.depth + 1 } with
    | error e s₂ =>
      simp only [hrun] at h
      cases h
    | ok w s₂ =>
      simp only [hrun] at h
      cases hvalue : w.print with
      | error e =>
        rw [hvalue] at h
        cases h
      | ok text' =>
        rw [hvalue] at h
        cases h
        exact ⟨_, s₂, hrun⟩

theorem ComesOut.ne_of_ok {tracing : Bool} {fuel : Nat} {outcome : Store → Ending → Prop} {w : Value}
    {s' : Store} (h : ComesOut tracing fuel form env outcome)
    (hne : ∀ s s', ¬ outcome s (.ok w s')) : evaluate tracing (fuel + 1) form env s ≠ .ok w s' := by
  obtain ⟨run, hrun, houtcome⟩ := h
  rw [hrun]
  intro hok
  cases tracing with
  | false => exact hne s s' ((houtcome _ _).1 hok)
  | true =>
    obtain ⟨s₁, s₂, hvalue⟩ := exists_of_traced_eq_ok hok
    exact hne s₁ s₂ ((houtcome _ _).1 hvalue)

theorem Conjunction.ne_false {s' : Store} : ¬ Conjunction ev env s forms (.ok (.bool false) s') := by
  generalize hv : Value.bool false = v
  intro h
  cases h with
  | stops h hform hv' => cases hv
  | @holds _ vs _ h =>
    cases hlast : vs.getLast? with
    | none =>
      rw [List.getLastD_eq_getLast?, hlast] at hv
      cases hv
    | some w =>
      rw [List.getLastD_eq_getLast?, hlast, Option.getD_some] at hv
      have hw := h.isTruthy w (List.mem_of_getLast? hlast)
      rw [← hv] at hw
      cases hw

theorem Disjunction.ne_false {s' : Store} : ¬ Disjunction ev env s forms (.ok (.bool false) s') := by
  generalize hv : Value.bool false = v
  intro h
  cases h with
  | holdsNot h => cases hv
  | stops h hform hv' =>
    rw [← hv] at hv'
    cases hv'

/-- **`and`, `or` and `cond` evaluate their operands up to the one that decides**: for all operands, wherever
and with however much nesting they are evaluated, traced or not, they come out as a conjunction, a disjunction and
a choice between clauses, and the first two never as false. -/
theorem short_circuits (tracing : Bool) (fuel : Nat) (id : ObjectId) (env : FrameId)
    (operands : List Value) :
    ComesOut tracing fuel (.list id (.symbol "and" :: operands)) env
      (fun s r => Conjunction (evaluate tracing fuel) env s operands r) ∧
    ComesOut tracing fuel (.list id (.symbol "or" :: operands)) env
      (fun s r => Disjunction (evaluate tracing fuel) env s operands r) ∧
    ComesOut tracing fuel (.list id (.symbol "cond" :: operands)) env
      (fun s r => if operands = [] then r = .error (.arityError .condForm) s
        else Selection (evaluate tracing fuel) env s operands r) ∧
    ∀ s s',
      evaluate tracing (fuel + 1) (.list id (.symbol "and" :: operands)) env s ≠ .ok (.bool false) s' ∧
      evaluate tracing (fuel + 1) (.list id (.symbol "or" :: operands)) env s ≠ .ok (.bool false) s' := by
  have hand : ComesOut tracing fuel (.list id (.symbol "and" :: operands)) env
      (fun s r => Conjunction (evaluate tracing fuel) env s operands r) :=
    comesOut_special .and fun _ _ => runAnd_eq_iff
  have hor : ComesOut tracing fuel (.list id (.symbol "or" :: operands)) env
      (fun s r => Disjunction (evaluate tracing fuel) env s operands r) :=
    comesOut_special .or fun _ _ => runOr_eq_iff
  refine ⟨hand, hor, comesOut_special .cond fun s r => ?_, fun s s' => ⟨?_, ?_⟩⟩
  · cases operands with
    | nil => exact eq_comm
    | cons clause clauses => exact runClauses_eq_iff
  · exact hand.ne_of_ok fun _ _ => Conjunction.ne_false
  · exact hor.ne_of_ok fun _ _ => Disjunction.ne_false

end MiniLisp
