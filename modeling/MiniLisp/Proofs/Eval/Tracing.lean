import MiniLisp.Proofs.Eval.Finishes
import MiniLisp.Proofs.Eval.Finite
import MiniLisp.Proofs.Run.Traces

/-! # Evaluation with tracing

Tracing an evaluation changes nothing but the trace, as long as nothing is met that cannot be
printed. That nothing such is met is said by a second evaluation, which refuses to go on at the
first form or value that is too long to print (`evaluateChecking`): if it refuses nothing, nothing
is met (`Printable`). Evaluation that does not trace leaves the trace alone (`trace_after_evaluate`). -/

namespace MiniLisp

open Run Interpreter

/-! ### Evaluation that refuses what cannot be printed -/

/-- Fails with `e` if the form is too long to print, and after the run if its value is. -/
def checked (e : Failure) (form : Value) (run : Run Value) : Run Value :=
  if form.isOverlong then throw e else do
    let v ← run
    if v.isOverlong then throw e else return v

/-- Evaluates a form without tracing, and fails with `e` at the first form or value that is too long
to print. -/
def evaluateChecking (e : Failure) : (fuel : Nat) → Evaluator
  | 0, _, _ => throw .stackExhausted
  | fuel + 1, form, env => checked e form (evaluateStep (evaluateChecking e fuel) false form env)

/-- **Nothing is met in the evaluation of the form that is too long to print**: refusing such forms
and values, with whatever failure, makes no difference. -/
def Printable (form : Value) (env : FrameId) (s : Store) : Prop :=
  ∀ e fuel, evaluateChecking e fuel form env s = evaluate false fuel form env s

variable {e : Failure} {tracing : Bool} {ev ev' : Evaluator} {env : FrameId}

/-- The value can be printed. -/
abbrev Value.IsPrintable (v : Value) : Prop := v.isOverlong = false

theorem Value.print_of_isPrintable {v : Value} (h : v.IsPrintable) : v.print = .ok v.text :=
  if_neg (ne_true_of_eq_false h)

/-- The value can be printed, if tracing does so. -/
def Value.IsShown (tracing : Bool) (v : Value) : Prop := tracing = true → v.IsPrintable

/-- The evaluator `ev'`, which notes something only if it traces, traces the evaluator `ev`. -/
def Evaluator.Traces (e : Failure) (tracing : Bool) (ev ev' : Evaluator) : Prop :=
  ∀ form env, Run.Traces e (Value.IsShown tracing) (ev form env) (ev' form env)

/-! ### Calling builtin functions -/

theorem Builtin.traces_call (b : Builtin) (args : List Value) :
    Traces e whatever (b.call args) (b.call args) := by
  cases b with
  | makeList => exact traces_newList args
  | cdr =>
    refine (traces_ofExcept _).bind fun items? _ => ?_
    cases items? with
    | some items => exact traces_newList items
    | none => exact traces_pure trivial
  | cons => exact (traces_ofExcept _).bind fun items _ => traces_newList items
  | print =>
    refine (traces_ofExcept _).bind fun text _ => ?_
    exact (traces_write _).bind fun _ _ => traces_pure trivial
  | now =>
    cases args with
    | nil => exact traces_readClock.bind fun _ _ => traces_pure trivial
    | cons v args => exact traces_throw _
  | _ => exact traces_ofExcept _

/-! ### Sequences of forms -/

theorem Evaluator.traces_all (hev : Evaluator.Traces e tracing ev ev') : ∀ forms : List Value,
    Run.Traces e whatever (ev.all env forms) (ev'.all env forms)
  | [] => traces_pure trivial
  | form :: forms => by
    refine (hev form env).bind fun v _ => ?_
    exact (Evaluator.traces_all hev forms).bind fun vs _ => traces_pure trivial

theorem Evaluator.traces_body (hev : Evaluator.Traces e tracing ev ev') : ∀ forms : List Value,
    Run.Traces e whatever (ev.body env forms) (ev'.body env forms)
  | [] => traces_pure trivial
  | [form] => (hev form env).weaken fun _ _ => trivial
  | form :: form' :: forms =>
    (hev form env).bind fun _ _ => Evaluator.traces_body hev (form' :: forms)

/-! ### Special forms -/

namespace SpecialForm

theorem traces_runQuote : ∀ operands : List Value,
    Run.Traces e whatever (runQuote operands) (runQuote operands)
  | [] => traces_throw _
  | [_] => traces_pure trivial
  | _ :: _ :: _ => traces_throw _

/-- **A condition** is noted between the calls. -/
theorem traces_traceCondition {v : Value} (hv : v.IsShown tracing) :
    Run.Traces e whatever (traceCondition false v) (traceCondition tracing v) := by
  cases tracing with
  | false => exact traces_pure trivial
  | true =>
    intro s trace depth
    refine ⟨trivial, rfl, rfl, [.condition v.text v.isTruthy], .condition _ _ (.nil depth), ?_⟩
    rw [traceCondition, Value.print_of_isPrintable (hv rfl)]
    change EStateM.Result.ok () (s.traceAt (trace.push _) depth) = _
    rw [← Array.append_singleton]

theorem traces_runIf (hev : Evaluator.Traces e tracing ev ev') : ∀ operands : List Value,
    Run.Traces e whatever (runIf ev false env operands) (runIf ev' tracing env operands)
  | [] => traces_throw _
  | [_] => traces_throw _
  | [test, yes] => by
    refine (hev test env).bind fun v hv => (traces_traceCondition hv).bind fun _ _ => ?_
    exact traces_ite ((hev yes env).weaken fun _ _ => trivial) (traces_pure trivial)
  | [test, yes, no] => by
    refine (hev test env).bind fun v hv => (traces_traceCondition hv).bind fun _ _ => ?_
    exact (traces_ite (hev yes env) (hev no env)).weaken fun _ _ => trivial
  | _ :: _ :: _ :: _ :: _ => traces_throw _

theorem traces_runAnd (hev : Evaluator.Traces e tracing ev ev') : ∀ operands : List Value,
    Run.Traces e whatever (runAnd ev env operands) (runAnd ev' env operands)
  | [] => traces_pure trivial
  | [form] => (hev form env).bind fun _ _ => traces_pure trivial
  | form :: form' :: forms => (hev form env).bind fun _ _ =>
    traces_ite (traces_runAnd hev (form' :: forms)) (traces_pure trivial)

theorem traces_runOr (hev : Evaluator.Traces e tracing ev ev') : ∀ operands : List Value,
    Run.Traces e whatever (runOr ev env operands) (runOr ev' env operands)
  | [] => traces_pure trivial
  | form :: forms => (hev form env).bind fun _ _ =>
    traces_ite (traces_pure trivial) (traces_runOr hev forms)

theorem traces_runClauses (hev : Evaluator.Traces e tracing ev ev') : ∀ clauses : List Value,
    Run.Traces e whatever (runClauses ev env clauses) (runClauses ev' env clauses)
  | [] => traces_pure trivial
  | c :: cs => by
    rw [runClauses, runClauses]
    cases clause? c with
    | none => exact traces_throw _
    | some clause =>
      have hrest : ∀ v : Value, Run.Traces e whatever
          (if v.isTruthy then if clause.2.isEmpty then return v else ev.body env clause.2
            else runClauses ev env cs)
          (if v.isTruthy then if clause.2.isEmpty then return v else ev'.body env clause.2
            else runClauses ev' env cs) := fun v =>
        traces_ite (traces_ite (traces_pure trivial) (Evaluator.traces_body hev clause.2))
          (traces_runClauses hev cs)
      refine traces_ite ?_ ?_
      · exact (traces_pure (Q := whatever) trivial).bind fun v _ => hrest v
      · exact (hev clause.1 env).bind fun v _ => hrest v

theorem traces_runCond (hev : Evaluator.Traces e tracing ev ev') (clauses : List Value) :
    Run.Traces e whatever (runCond ev env clauses) (runCond ev' env clauses) :=
  traces_ite (traces_throw _) (traces_runClauses hev clauses)

theorem traces_makeClosure (names : List String) (body : List Value) (env : FrameId)
    (name : String) :
    Run.Traces e whatever (makeClosure names body env name) (makeClosure names body env name) :=
  traces_newId.bind fun _ _ => traces_pure trivial

theorem traces_runLambda : ∀ operands : List Value,
    Run.Traces e whatever (runLambda env operands) (runLambda env operands)
  | [] => traces_throw _
  | [v] => by cases v <;> exact traces_throw _
  | v :: form :: body => by
    cases v with
    | list i params =>
      exact (traces_ofExcept _).bind fun names _ => traces_makeClosure names (form :: body) env _
    | _ => exact traces_throw _

theorem traces_runDefine (hev : Evaluator.Traces e tracing ev ev') (operands : List Value) :
    Run.Traces e whatever (runDefine ev env operands) (runDefine ev' env operands) := by
  refine (traces_ofExcept _).bind fun d _ => ?_
  rcases d with ⟨name, names, body⟩ | ⟨name, value⟩
  · refine (traces_makeClosure names body env name).bind fun f _ => ?_
    exact (traces_define env name f).bind fun _ _ => traces_pure trivial
  · refine (hev value env).bind fun v _ => ?_
    exact (traces_define env name v).bind fun _ _ => traces_pure trivial

theorem traces_runSet (hev : Evaluator.Traces e tracing ev ev') : ∀ operands : List Value,
    Run.Traces e whatever (runSet ev env operands) (runSet ev' env operands)
  | [] => traces_throw _
  | [_] => traces_throw _
  | [target, value] => by
    rw [runSet, runSet]
    cases target.symbolName? with
    | none => exact traces_throw _
    | some name =>
      refine (hev value env).bind fun v _ => ?_
      exact (traces_assign env name v).bind fun _ _ => traces_pure trivial
  | _ :: _ :: _ :: _ => traces_throw _

theorem traces_runLet (hev : Evaluator.Traces e tracing ev ev') (operands : List Value) :
    Run.Traces e whatever (runLet ev env operands) (runLet ev' env operands) := by
  refine (traces_ofExcept _).bind fun parts _ => ?_
  refine (Evaluator.traces_all hev _).bind fun values _ => (traces_newFrame env).bind fun inner _ => ?_
  exact (traces_defineAll inner _).bind fun _ _ => Evaluator.traces_body hev parts.2

theorem traces_bindInTurn (hev : Evaluator.Traces e tracing ev ev') {bind : String → Value → Run Unit}
    (hbind : ∀ name v, Run.Traces e whatever (bind name v) (bind name v)) (inner : FrameId) :
    ∀ pairs : Bindings, Run.Traces e whatever (bindInTurn bind ev inner pairs)
      (bindInTurn bind ev' inner pairs)
  | [] => traces_pure trivial
  | (name, value) :: pairs => by
    refine (hev value inner).bind fun v _ => ?_
    exact (hbind name v).bind fun _ _ => traces_bindInTurn hev hbind inner pairs

theorem traces_runLetStar (hev : Evaluator.Traces e tracing ev ev') (operands : List Value) :
    Run.Traces e whatever (runLetStar ev env operands) (runLetStar ev' env operands) := by
  refine (traces_ofExcept _).bind fun parts _ => (traces_newFrame env).bind fun inner _ => ?_
  simp only [defineInTurn_eq]
  exact (traces_bindInTurn hev (traces_define inner) inner parts.1).bind fun _ _ =>
    Evaluator.traces_body hev parts.2

theorem traces_runLetrec (hev : Evaluator.Traces e tracing ev ev') (operands : List Value) :
    Run.Traces e whatever (runLetrec ev env operands) (runLetrec ev' env operands) := by
  refine (traces_ofExcept _).bind fun parts _ => (traces_newFrame env).bind fun inner _ => ?_
  simp only [assignInTurn_eq]
  refine (traces_defineAll inner _).bind fun _ _ => ?_
  exact (traces_bindInTurn hev (traces_assign inner) inner parts.1).bind fun _ _ =>
    Evaluator.traces_body hev parts.2

/-- **A special form that traces** does what it does without tracing. -/
theorem traces_run (hev : Evaluator.Traces e tracing ev ev') (special : SpecialForm)
    (operands : List Value) :
    Run.Traces e whatever (special.run ev false env operands) (special.run ev' tracing env operands) := by
  cases special with
  | quote => exact traces_runQuote operands
  | if_ => exact traces_runIf hev operands
  | and => exact traces_runAnd hev operands
  | or => exact traces_runOr hev operands
  | define => exact traces_runDefine hev operands
  | set => exact traces_runSet hev operands
  | lambda => exact traces_runLambda operands
  | cond => exact traces_runCond hev operands
  | let_ => exact traces_runLet hev operands
  | letStar => exact traces_runLetStar hev operands
  | letrec => exact traces_runLetrec hev operands

end SpecialForm

/-! ### Evaluation -/

theorem traces_apply (hev : Evaluator.Traces e tracing ev ev') (f : Value) (args : List Value) :
    Run.Traces e whatever (apply ev f args) (apply ev' f args) := by
  cases f with
  | closure i formals body frame name =>
    refine traces_ite ?_ (traces_throw _)
    refine (traces_newFrame frame).bind fun inner _ => ?_
    exact (traces_defineAll inner _).bind fun _ _ => Evaluator.traces_body hev body
  | builtin i b => exact Builtin.traces_call b args
  | _ => exact traces_throw _

theorem traces_evaluateCall (hev : Evaluator.Traces e tracing ev ev') (head : Value)
    (operands : List Value) :
    Run.Traces e whatever (evaluateCall ev env head operands) (evaluateCall ev' env head operands) := by
  refine (hev head env).bind fun f _ => traces_ite ?_ (traces_throw _)
  exact (Evaluator.traces_all hev operands).bind fun args _ => traces_apply hev f args

/-- **One step of evaluation that traces** does what it does without tracing. -/
theorem traces_evaluateStep (hev : Evaluator.Traces e tracing ev ev') (form : Value) (env : FrameId) :
    Run.Traces e whatever (evaluateStep ev false form env) (evaluateStep ev' tracing form env) := by
  cases form with
  | atom a =>
    cases a with
    | symbol name =>
      refine (traces_lookup? env name).bind fun v? _ => ?_
      cases v? with
      | some v => exact traces_pure trivial
      | none => exact traces_throw _
    | _ => exact traces_pure trivial
  | list i items =>
    cases items with
    | nil => exact traces_pure trivial
    | cons head operands =>
      rw [evaluateStep, evaluateStep]
      cases SpecialForm.ofHead? head with
      | some special => exact SpecialForm.traces_run hev special operands
      | none => exact traces_evaluateCall hev head operands
  | foreign i type text => exact traces_throw _
  | _ => exact traces_pure trivial

/-! ### Traced evaluations -/

section Traced

variable {form v : Value} {r r' : Run Value} {s s' : Store} {trace trace' : Array TraceEntry}
  {depth : Nat}

theorem traced_of_ok (hform : form.IsPrintable) (hv : v.IsPrintable)
    (h : r' (s.traceAt (trace.push (.form depth form.text)) (depth + 1)) =
      .ok v (s'.traceAt trace' (depth + 1))) :
    traced form r' (s.traceAt trace depth) =
      .ok v (s'.traceAt (trace'.push (.value depth v.text)) depth) := by
  rw [traced, Value.print_of_isPrintable hform]
  change (Run.deeper r' >>= _) (s.traceAt (trace.push (.form depth form.text)) depth) = _
  rw [bind_apply, deeper_of_ok h]
  simp only
  rw [Value.print_of_isPrintable hv]
  rfl

theorem traced_of_error (hform : form.IsPrintable)
    (h : r' (s.traceAt (trace.push (.form depth form.text)) (depth + 1)) =
      .error e (s'.traceAt trace' (depth + 1))) :
    traced form r' (s.traceAt trace depth) = .error e (s'.traceAt trace' depth) := by
  rw [traced, Value.print_of_isPrintable hform]
  change (Run.deeper r' >>= _) (s.traceAt (trace.push (.form depth form.text)) depth) = _
  rw [bind_apply, deeper_of_error h]

end Traced

/-- **The run `r'` traces the evaluation `r` of a form**: it notes the form, then deeper what
happens in between, and then the value if there is one. -/
def TracesCall (e : Failure) (form : Value) (r r' : Run Value) : Prop :=
  ∀ s trace depth,
    match r s with
    | .ok v s' => v.IsPrintable ∧ s'.trace = s.trace ∧ s'.depth = s.depth ∧
        ∃ inner, Calls (depth + 1) inner ∧ r' (s.traceAt trace depth) = .ok v (s'.traceAt
          (trace ++ (.form depth form.text :: (inner ++ [.value depth v.text])).toArray) depth)
    | .error e' s' => e' ≠ e → s'.trace = s.trace ∧ s'.depth = s.depth ∧
        ∃ inner, Broken (depth + 1) inner ∧ r' (s.traceAt trace depth) =
          .error e' (s'.traceAt (trace ++ (.form depth form.text :: inner).toArray) depth)

theorem TracesCall.traces {form : Value} {r r' : Run Value} (h : TracesCall e form r r') :
    Run.Traces e Value.IsPrintable r r' := by
  intro s trace depth
  have hs := h s trace depth
  cases hrs : r s with
  | ok v s' =>
    rw [hrs] at hs
    obtain ⟨hv, htrace, hdepth, inner, hinner, hr'⟩ := hs
    exact ⟨hv, htrace, hdepth, _, .call form v hinner (.nil depth), hr'⟩
  | error e' s' =>
    rw [hrs] at hs
    intro hne
    obtain ⟨htrace, hdepth, inner, hinner, hr'⟩ := hs hne
    exact ⟨htrace, hdepth, _, .inside form (.nil depth) hinner, hr'⟩

/-- **Tracing a run** whose steps are traced. -/
theorem tracesCall_traced {form : Value} {r r' : Run Value} (hr : Run.Traces e whatever r r') :
    TracesCall e form (checked e form r) (traced form r') := by
  intro s trace depth
  cases hform : form.isOverlong with
  | true =>
    rw [checked, if_pos hform]
    exact fun hne => absurd rfl hne
  | false =>
    rw [checked, if_neg (ne_true_of_eq_false hform), bind_apply]
    have h := hr s (trace.push (.form depth form.text)) (depth + 1)
    cases hrs : r s with
    | ok v s' =>
      rw [hrs] at h
      obtain ⟨-, htrace, hdepth, inner, hinner, hr'⟩ := h
      cases hv : v.isOverlong with
      | true =>
        simp only [hv, if_true]
        exact fun hne => absurd rfl hne
      | false =>
        simp only [hv, Bool.false_eq_true, if_false]
        refine ⟨hv, htrace, hdepth, inner, hinner, ?_⟩
        rw [traced_of_ok hform hv hr']
        simp
    | error e' s' =>
      rw [hrs] at h
      intro hne
      obtain ⟨htrace, hdepth, inner, hinner, hr'⟩ := h hne
      refine ⟨htrace, hdepth, inner, hinner, ?_⟩
      rw [traced_of_error hform hr']
      simp

/-- **Evaluation that traces** does what evaluation does that refuses what cannot be printed. -/
theorem traces_evaluate (e : Failure) : ∀ fuel : Nat,
    Evaluator.Traces e true (evaluateChecking e fuel) (evaluate true fuel)
  | 0 => fun _ _ => traces_throw _
  | fuel + 1 => fun form env =>
    (tracesCall_traced (traces_evaluateStep (traces_evaluate e fuel) form env)).traces.weaken
      fun _ hv _ => hv

/-- Evaluation without tracing does what it does, and nothing of the trace is asked for. -/
theorem traces_evaluate_untraced (e : Failure) : ∀ fuel : Nat,
    Evaluator.Traces e false (evaluate false fuel) (evaluate false fuel)
  | 0 => fun _ _ => traces_throw _
  | fuel + 1 => fun form env =>
    (traces_evaluateStep (traces_evaluate_untraced e fuel) form env).weaken fun _ _ => nofun

theorem tracesCall_evaluate (e : Failure) (fuel : Nat) (form : Value) (env : FrameId) :
    TracesCall e form (evaluateChecking e (fuel + 1) form env) (evaluate true (fuel + 1) form env) :=
  tracesCall_traced (traces_evaluateStep (traces_evaluate e fuel) form env)

/-- A step whose form and value can be printed is made with tracing as well. -/
theorem exists_evaluate_of_step {tracing : Bool} {fuel : Nat} {form v : Value} {s s' : Store}
    (hform : form.IsPrintable) (hv : v.IsPrintable)
    (h : ∀ trace depth, evaluateStep (evaluate tracing fuel) tracing form env
      (s.traceAt trace depth) = .ok v (s'.traceAt trace depth)) :
    ∃ trace, evaluate tracing (fuel + 1) form env s = .ok v (s'.traceAt trace s.depth) := by
  cases tracing with
  | false => exact ⟨s.trace, h s.trace s.depth⟩
  | true => exact ⟨_, traced_of_ok hform hv (h (s.trace.push (.form s.depth form.text)) _)⟩

/-! ### Tracing is transparent -/

theorem Failure.exists_ne (e : Failure) : ∃ e' : Failure, e ≠ e' := by
  by_cases h : e = .stackExhausted
  · exact ⟨.overlongInteger, by rw [h]; exact nofun⟩
  · exact ⟨.stackExhausted, h⟩

/-- The store after a traced evaluation: the store after the evaluation, with the log of the call
added to the trace before it. -/
def Store.logged (s s' : Store) (log : List TraceEntry) : Store :=
  { s' with trace := s.trace ++ log.toArray, depth := s.depth }

variable {form v : Value} {s s' : Store}

/-- **Evaluation without tracing leaves the trace alone.** -/
theorem trace_after_evaluate (fuel : Nat) (form : Value) (env : FrameId) (s : Store) :
    ((evaluate false fuel form env).after s).trace = s.trace := by
  rw [Run.after]
  cases hr : evaluate false fuel form env s with
  | ok v s' =>
    have h := traces_evaluate_untraced .stackExhausted fuel form env s s.trace s.depth
    rw [hr] at h
    exact h.2.1
  | error e s' =>
    obtain ⟨other, hother⟩ := Failure.exists_ne e
    have h := traces_evaluate_untraced other fuel form env s s.trace s.depth
    rw [hr] at h
    exact (h hother).1

theorem finishes_true_of_ok (hs : Printable form env s)
    (h : Finishes false form env s (.ok v s')) :
    s'.trace = s.trace ∧ s'.depth = s.depth ∧ ∃ inner, Calls (s.depth + 1) inner ∧
      Finishes true form env s (.ok v (s.logged s'
        (.form s.depth form.text :: (inner ++ [.value s.depth v.text])))) := by
  obtain ⟨⟨fuel, hfuel⟩, -⟩ := h
  cases fuel with
  | zero => cases hfuel
  | succ fuel =>
    have hcall := tracesCall_evaluate .stackExhausted fuel form env s s.trace s.depth
    rw [hs, hfuel] at hcall
    obtain ⟨-, htrace, hdepth, inner, hinner, htraced⟩ := hcall
    exact ⟨htrace, hdepth, inner, hinner, ⟨fuel + 1, htraced⟩, id⟩

theorem finishes_true_of_error (hs : Printable form env s)
    (h : Finishes false form env s (.error e s')) :
    s'.trace = s.trace ∧ s'.depth = s.depth ∧ ∃ inner, Broken (s.depth + 1) inner ∧
      Finishes true form env s (.error e (s.logged s' (.form s.depth form.text :: inner))) := by
  obtain ⟨⟨fuel, hfuel⟩, hne⟩ := h
  cases fuel with
  | zero =>
    cases hfuel
    exact absurd (exhausted_error_iff.2 rfl) hne
  | succ fuel =>
    -- the refusing evaluation must refuse with another failure than the one it ends in
    obtain ⟨other, hother⟩ := Failure.exists_ne e
    have hcall := tracesCall_evaluate other fuel form env s s.trace s.depth
    rw [hs, hfuel] at hcall
    obtain ⟨htrace, hdepth, inner, hinner, htraced⟩ := hcall hother
    exact ⟨htrace, hdepth, inner, hinner, ⟨fuel + 1, htraced⟩,
      fun h => hne (exhausted_error_iff.2 (exhausted_error_iff.1 h))⟩

/-- The ending of a traced evaluation: that of the evaluation, with the log added to the trace. -/
def Ending.logged (r : Ending) (s : Store) (log : List TraceEntry) : Ending :=
  match r with
  | .ok v s' => .ok v (s.logged s' log)
  | .error e s' => .error e (s.logged s' log)

theorem exists_finishes_true {r : Ending} (hs : Printable form env s)
    (h : Finishes false form env s r) : ∃ log, Finishes true form env s (Ending.logged r s log) := by
  cases r with
  | ok v s' =>
    obtain ⟨-, -, inner, -, htrue⟩ := finishes_true_of_ok hs h
    exact ⟨_, htrue⟩
  | error e s' =>
    obtain ⟨-, -, inner, -, htrue⟩ := finishes_true_of_error hs h
    exact ⟨_, htrue⟩

/-- If tracing does not exhaust the stack, neither does evaluation without it. -/
theorem not_exhausted_of_tracing {fuel : Nat} (hs : Printable form env s)
    (h : ¬ Exhausted (evaluate true fuel form env s)) :
    ¬ Exhausted (evaluate false fuel form env s) := by
  intro hexhausted
  have htraces := traces_evaluate .overlongInteger fuel form env s s.trace s.depth
  rw [hs] at htraces
  cases hr : evaluate false fuel form env s with
  | ok v s' =>
    rw [hr] at hexhausted
    exact hexhausted
  | error e s' =>
    rw [hr] at hexhausted htraces
    cases exhausted_error_iff.1 hexhausted
    obtain ⟨-, -, log, -, htraced⟩ := htraces nofun
    have htraced : evaluate true fuel form env s = .error .stackExhausted _ := htraced
    exact h (by rw [htraced]; trivial)

/-- **Tracing is transparent and balanced.** If nothing is met that cannot be printed, a form
finishes with tracing if it does without, in the same value or failure and with the same frames,
objects and output; the depth is restored either way; and the trace has grown by the form, what the
evaluations inside noted deeper, and the value exactly if there is one. -/
theorem evaluate_tracing (hs : Printable form env s) :
    ((∃ r, Finishes true form env s r) ↔ ∃ r, Finishes false form env s r) ∧
    ∀ r r', Finishes false form env s r → Finishes true form env s r' →
      match r with
      | .ok v s' => s'.trace = s.trace ∧ s'.depth = s.depth ∧
          ∃ inner, Calls (s.depth + 1) inner ∧
            (∀ entry ∈ inner, ∀ k ∈ entry.depth?, s.depth < k) ∧
            r' = .ok v (s.logged s'
              (.form s.depth form.text :: (inner ++ [.value s.depth v.text])))
      | .error e s' => s'.trace = s.trace ∧ s'.depth = s.depth ∧
          ∃ inner, Broken (s.depth + 1) inner ∧
            (∀ entry ∈ inner, ∀ k ∈ entry.depth?, s.depth < k) ∧
            r' = .error e (s.logged s' (.form s.depth form.text :: inner)) := by
  refine ⟨⟨?_, ?_⟩, fun r r' hr hr' => ?_⟩
  · rintro ⟨r, ⟨fuel, rfl⟩, hne⟩
    exact ⟨_, ⟨fuel, rfl⟩, not_exhausted_of_tracing hs hne⟩
  · rintro ⟨r, hr⟩
    cases r with
    | ok v s' =>
      obtain ⟨-, -, inner, -, h⟩ := finishes_true_of_ok hs hr
      exact ⟨_, h⟩
    | error e s' =>
      obtain ⟨-, -, inner, -, h⟩ := finishes_true_of_error hs hr
      exact ⟨_, h⟩
  · cases r with
    | ok v s' =>
      obtain ⟨htrace, hdepth, inner, hinner, h⟩ := finishes_true_of_ok hs hr
      exact ⟨htrace, hdepth, inner, hinner, hinner.le_depth, hr'.unique h⟩
    | error e s' =>
      obtain ⟨htrace, hdepth, inner, hinner, h⟩ := finishes_true_of_error hs hr
      exact ⟨htrace, hdepth, inner, hinner, hinner.le_depth, hr'.unique h⟩

/-- The form `(if (quote t) "yes")`. -/
def chosen : Value :=
  .list 1 [.symbol "if", .list 0 [.symbol "quote", .bool true], .string "yes"]

theorem printable_chosen : Printable chosen 0 (newStore newYear) := by
  intro e fuel
  match fuel with
  | 0 => rfl
  | 1 => rfl
  | fuel + 2 => rfl

/-- A traced choice finishes in the same value, and its trace has two calls and a condition inside.
-/
theorem evaluate_tracing_chosen :
    ∃ inner, Calls 1 inner ∧ (∀ entry ∈ inner, ∀ k ∈ entry.depth?, 0 < k) ∧
      Finishes true chosen 0 (newStore newYear) (.ok (.string "yes")
        ((newStore newYear).logged (newStore newYear)
          (.form 0 chosen.text :: (inner ++ [.value 0 (Value.string "yes").text])))) := by
  have hfinishes : Finishes false chosen 0 (newStore newYear)
      (.ok (.string "yes") (newStore newYear)) :=
    ⟨⟨2, rfl⟩, id⟩
  obtain ⟨r', hr'⟩ := (evaluate_tracing printable_chosen).1.2 ⟨_, hfinishes⟩
  obtain ⟨-, -, inner, hinner, hdepth, rfl⟩ := (evaluate_tracing printable_chosen).2 _ r' hfinishes hr'
  exact ⟨inner, hinner, hdepth, hr'⟩

end MiniLisp
