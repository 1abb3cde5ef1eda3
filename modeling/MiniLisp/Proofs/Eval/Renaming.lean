import MiniLisp.Eval.Evaluate
import MiniLisp.Proofs.Builtin.Renaming
import MiniLisp.Proofs.Run.Follows

/-! # Evaluation and identities

An evaluator follows another one if it evaluates every renamed form as the other evaluates the form
(`Evaluator.Follows`). The special forms and applications pass this on from the evaluation of the forms
in them to their own (`follows_run`, `follows_evaluateStep`). Two inductions on the nesting depth give
the two ways in which evaluation follows itself:

* `follows_evaluate`: evaluating commutes with every renaming of objects and frames.
* `follows_evaluate_of_le`: an evaluation that does not exhaust the stack ends in the same way if more
  nesting is allowed. -/

namespace MiniLisp

open Run

variable {ρ : Renaming} {E : Failure → Prop}

/-! ### Calling builtin functions -/

theorem Builtin.follows_call (b : Builtin) (args : List Value) :
    Follows ρ E (Value.relabel ρ.map) (b.call args) (b.call (args.map (Value.relabel ρ.map))) := by
  have hpure : ∀ c : Builtin, Follows ρ E (Value.relabel ρ.map) (Run.ofExcept (pureCall c args))
      (Run.ofExcept (pureCall c (args.map (Value.relabel ρ.map)))) := fun c =>
    follows_ofExcept (pureCall_relabel ρ.map ρ.object_injective c args)
  cases b with
  | makeList => exact follows_newList args
  | cdr =>
    refine (follows_ofExcept (one_relabel ρ.map (rest?_relabel ρ.map) args)).bind fun items? => ?_
    cases items? with
    | some items => exact follows_newList items
    | none => exact follows_pure rfl
  | cons =>
    refine (follows_ofExcept (two_relabel ρ.map (φ := List.map (Value.relabel ρ.map)) (fun v w => ?_)
      args)).bind fun items => follows_newList items
    rw [consItems_relabel]
    rfl
  | print =>
    rw [call, call, printAll_relabel]
    refine (follows_ofExcept (φ := id) (by cases printAll args <;> rfl)).bind fun text => ?_
    exact (follows_write _).bind fun _ => follows_pure rfl
  | now =>
    cases args with
    | nil =>
      have hread : Follows ρ E (Value.relabel ρ.map) (readClock >>= fun d => pure (.date d))
          (readClock >>= fun d => pure (.date d)) :=
        follows_readClock.bind fun _ => follows_pure rfl
      exact hread
    | cons v args =>
      have hcall : ∀ w ws, Builtin.now.call (w :: ws) =
          throw (.arityError (.builtin "now" 0 (w :: ws).length)) := fun _ _ => rfl
      rw [List.map_cons, hcall, hcall, List.length_cons, List.length_cons, List.length_map]
      exact follows_throw _
  | _ => exact hpure _

/-! ### Sequences of forms -/

/-- The evaluator `ev'` follows the evaluator `ev`. -/
def Evaluator.Follows (ρ : Renaming) (E : Failure → Prop) (ev ev' : Evaluator) : Prop :=
  ∀ form env, Run.Follows ρ E (Value.relabel ρ.map) (ev form env) (ev' (form.relabel ρ.map) (ρ.map.frame env))

variable {ev ev' : Evaluator} {env : FrameId}

theorem Evaluator.follows_all (hev : Evaluator.Follows ρ E ev ev') : ∀ forms : List Value,
    Run.Follows ρ E (List.map (Value.relabel ρ.map)) (ev.all env forms)
      (ev'.all (ρ.map.frame env) (forms.map (Value.relabel ρ.map)))
  | [] => follows_pure rfl
  | e :: es => by
    refine (hev e env).bind fun v => ?_
    exact (Evaluator.follows_all hev es).bind fun vs => follows_pure rfl

theorem Evaluator.follows_body (hev : Evaluator.Follows ρ E ev ev') : ∀ forms : List Value,
    Run.Follows ρ E (Value.relabel ρ.map) (ev.body env forms)
      (ev'.body (ρ.map.frame env) (forms.map (Value.relabel ρ.map)))
  | [] => follows_pure rfl
  | [e] => hev e env
  | e :: e' :: es => (hev e env).bind fun _ => Evaluator.follows_body hev (e' :: es)

namespace SpecialForm

/-! ### Quoting and choosing -/

theorem follows_runQuote : ∀ operands : List Value,
    Run.Follows ρ E (Value.relabel ρ.map) (runQuote operands)
      (runQuote (operands.map (Value.relabel ρ.map)))
  | [] => follows_throw _
  | [_] => follows_pure rfl
  | _ :: _ :: _ => follows_throw _

theorem follows_traceCondition (tracing : Bool) (v : Value) :
    Run.Follows ρ E id (traceCondition tracing v) (traceCondition tracing (v.relabel ρ.map)) := by
  unfold traceCondition
  rw [Value.print_relabel, Value.isTruthy_relabel]
  refine follows_ite ?_ (follows_pure rfl)
  refine (follows_ofExcept (φ := id) (by cases v.print <;> rfl)).bind fun text => ?_
  exact follows_record _

theorem follows_runIf (hev : Evaluator.Follows ρ E ev ev') (tracing : Bool) :
    ∀ operands : List Value, Run.Follows ρ E (Value.relabel ρ.map) (runIf ev tracing env operands)
      (runIf ev' tracing (ρ.map.frame env) (operands.map (Value.relabel ρ.map)))
  | [] => follows_throw _
  | [_] => follows_throw _
  | [test, yes] => by
    refine (hev test env).bind fun v => (follows_traceCondition tracing v).bind fun _ => ?_
    rw [Value.isTruthy_relabel]
    exact follows_ite (hev yes env) (follows_pure rfl)
  | [test, yes, no] => by
    refine (hev test env).bind fun v => (follows_traceCondition tracing v).bind fun _ => ?_
    rw [Value.isTruthy_relabel]
    exact follows_ite (hev yes env) (hev no env)
  | _ :: _ :: _ :: _ :: _ => follows_throw _

theorem follows_runAnd (hev : Evaluator.Follows ρ E ev ev') : ∀ operands : List Value,
    Run.Follows ρ E (Value.relabel ρ.map) (runAnd ev env operands)
      (runAnd ev' (ρ.map.frame env) (operands.map (Value.relabel ρ.map)))
  | [] => follows_pure rfl
  | [e] => by
    refine (hev e env).bind fun v => follows_pure ?_
    rw [Value.isTruthy_relabel]
    split <;> rfl
  | e :: e' :: es => by
    refine (hev e env).bind fun v => ?_
    rw [Value.isTruthy_relabel]
    exact follows_ite (follows_runAnd hev (e' :: es)) (follows_pure rfl)

theorem follows_runOr (hev : Evaluator.Follows ρ E ev ev') : ∀ operands : List Value,
    Run.Follows ρ E (Value.relabel ρ.map) (runOr ev env operands)
      (runOr ev' (ρ.map.frame env) (operands.map (Value.relabel ρ.map)))
  | [] => follows_pure rfl
  | e :: es => by
    refine (hev e env).bind fun v => ?_
    rw [Value.isTruthy_relabel]
    exact follows_ite (follows_pure rfl) (follows_runOr hev es)

theorem clause?_relabel (f : Relabelling) (v : Value) : clause? (v.relabel f) =
    (clause? v).map fun c => (c.1.relabel f, c.2.map (Value.relabel f)) := by
  cases v with
  | list id items =>
    rw [Value.relabel_list]
    cases items <;> rfl
  | _ => rfl

theorem follows_runClauses (hev : Evaluator.Follows ρ E ev ev') : ∀ clauses : List Value,
    Run.Follows ρ E (Value.relabel ρ.map) (runClauses ev env clauses)
      (runClauses ev' (ρ.map.frame env) (clauses.map (Value.relabel ρ.map)))
  | [] => follows_pure rfl
  | c :: cs => by
    rw [List.map_cons, runClauses, runClauses, clause?_relabel]
    cases clause? c with
    | none => exact follows_throw _
    | some clause =>
      obtain ⟨test, body⟩ := clause
      have helse : isElse (test.relabel ρ.map) = isElse test := by
        rw [isElse, isElse, Value.symbolName?_relabel]
      have hrest : ∀ v : Value, Run.Follows ρ E (Value.relabel ρ.map)
          (if v.isTruthy then if body.isEmpty then return v else ev.body env body
            else runClauses ev env cs)
          (if (v.relabel ρ.map).isTruthy then
              if body.isEmpty then return v.relabel ρ.map
              else ev'.body (ρ.map.frame env) (body.map (Value.relabel ρ.map))
            else runClauses ev' (ρ.map.frame env) (cs.map (Value.relabel ρ.map))) := by
        intro v
        rw [Value.isTruthy_relabel]
        exact follows_ite (follows_ite (follows_pure rfl) (Evaluator.follows_body hev body))
          (follows_runClauses hev cs)
      simp only [Option.map_some, helse, List.isEmpty_map]
      refine follows_ite ?_ ?_
      · exact (follows_pure (φ := Value.relabel ρ.map) rfl).bind hrest
      · exact (hev test env).bind hrest

theorem follows_runCond (hev : Evaluator.Follows ρ E ev ev') (clauses : List Value) :
    Run.Follows ρ E (Value.relabel ρ.map) (runCond ev env clauses)
      (runCond ev' (ρ.map.frame env) (clauses.map (Value.relabel ρ.map))) := by
  rw [runCond, runCond, List.isEmpty_map]
  exact follows_ite (follows_throw _) (follows_runClauses hev clauses)

/-! ### Functions and variables -/

theorem formals_relabel (f : Relabelling) (form : String) : ∀ params : List Value,
    formals form (params.map (Value.relabel f)) = formals form params
  | [] => rfl
  | p :: ps => by
    rw [List.map_cons, formals, formals, Value.symbolName?_relabel, Value.type_relabel,
      formals_relabel f form ps]

theorem formals?_relabel (f : Relabelling) (v : Value) :
    formals? (v.relabel f) = formals? v := by
  cases v with
  | list id params =>
    rw [Value.relabel_list, formals?, formals?]
    induction params with
    | nil => rfl
    | cons p ps ih => rw [List.map_cons, List.mapM_cons, List.mapM_cons, ih, Value.symbolName?_relabel]
  | _ => rfl

theorem follows_makeClosure (names : List String) (body : List Value) (env : FrameId)
    (name : String) : Run.Follows ρ E (Value.relabel ρ.map) (makeClosure names body env name)
      (makeClosure names (body.map (Value.relabel ρ.map)) (ρ.map.frame env) name) :=
  follows_newId.bind fun _ => follows_pure (Value.relabel_closure ..)

theorem follows_runLambda : ∀ operands : List Value,
    Run.Follows ρ E (Value.relabel ρ.map) (runLambda env operands)
      (runLambda (ρ.map.frame env) (operands.map (Value.relabel ρ.map)))
  | [] => follows_throw _
  | [v] => by cases v <;> exact follows_throw _
  | v :: form :: body => by
    cases v with
    | list i params =>
      rw [List.map_cons, List.map_cons, Value.relabel_list, runLambda, runLambda, formals_relabel]
      refine (follows_ofExcept (φ := id) (by cases formals "lambda" params <;> rfl)).bind fun ns => ?_
      exact follows_makeClosure ns (form :: body) env "lambda"
    | _ => exact follows_throw _

/-- A definition with other identities. -/
def Definition.relabel (f : Relabelling) : Definition → Definition
  | .function name names body => .function name names (body.map (Value.relabel f))
  | .variable name v => .variable name (v.relabel f)

theorem definitionOf_relabel (f : Relabelling) (name : String) (v : Value)
    (body : List Value) : definitionOf name (v.relabel f) (body.map (Value.relabel f)) =
      (definitionOf name v body).map (Definition.relabel f) := by
  cases body with
  | nil => rfl
  | cons b bs =>
    cases h : formals? v <;> simp only [List.map_cons, definitionOf, formals?_relabel, h] <;> rfl

theorem definition_relabel (f : Relabelling) : ∀ operands : List Value,
    definition (operands.map (Value.relabel f)) = (definition operands).map (Definition.relabel f)
  | [] => rfl
  | [_] => rfl
  | .list i (head :: params) :: operand :: body => by
    rw [List.map_cons, List.map_cons, Value.relabel_list, List.map_cons, definition, definition,
      Value.symbolName?_relabel, formals_relabel]
    cases head.symbolName? with
    | none => rfl
    | some name => cases formals "define" params <;> rfl
  | .list _ [] :: _ :: _ => rfl
  | .atom a :: operand :: body => by
    cases a with
    | symbol name => exact definitionOf_relabel f name operand body
    | _ => rfl
  | .closure .. :: _ :: _ => rfl
  | .builtin .. :: _ :: _ => rfl
  | .foreign .. :: _ :: _ => rfl

theorem follows_runDefine (hev : Evaluator.Follows ρ E ev ev') (operands : List Value) :
    Run.Follows ρ E (Value.relabel ρ.map) (runDefine ev env operands)
      (runDefine ev' (ρ.map.frame env) (operands.map (Value.relabel ρ.map))) := by
  refine (follows_ofExcept (definition_relabel ρ.map operands)).bind fun d => ?_
  rcases d with ⟨name, names, body⟩ | ⟨name, value⟩
  · refine (follows_makeClosure names body env name).bind fun g => ?_
    exact (follows_define env name g).bind fun _ => follows_pure rfl
  · refine (hev value env).bind fun v => ?_
    exact (follows_define env name v).bind fun _ => follows_pure rfl

theorem follows_runSet (hev : Evaluator.Follows ρ E ev ev') : ∀ operands : List Value,
    Run.Follows ρ E (Value.relabel ρ.map) (runSet ev env operands)
      (runSet ev' (ρ.map.frame env) (operands.map (Value.relabel ρ.map)))
  | [] => follows_throw _
  | [_] => follows_throw _
  | [target, value] => by
    rw [List.map_cons, List.map_cons, List.map_nil, runSet, runSet, Value.symbolName?_relabel,
      Value.type_relabel]
    cases target.symbolName? with
    | none => exact follows_throw _
    | some name =>
      refine (hev value env).bind fun v => ?_
      exact (follows_assign env name v).bind fun _ => follows_pure rfl
  | _ :: _ :: _ :: _ => follows_throw _

/-! ### Local variables -/

theorem binding_relabel (f : Relabelling) (form : String) (v : Value) :
    binding form (v.relabel f) = (binding form v).map fun p => (p.1, p.2.relabel f) := by
  cases v with
  | list id items =>
    rw [Value.relabel_list]
    match items with
    | [] => rfl
    | [_] => rfl
    | [target, value] =>
      rw [List.map_cons, List.map_cons, List.map_nil, binding, binding, Value.symbolName?_relabel]
      cases target.symbolName? <;> rfl
    | _ :: _ :: _ :: _ => rfl
  | _ => rfl

theorem bindings_relabel (f : Relabelling) (form : String) : ∀ bs : List Value,
    bindings form (bs.map (Value.relabel f)) = (bindings form bs).map (Bindings.relabel f)
  | [] => rfl
  | b :: bs => by
    rw [List.map_cons, bindings, bindings, binding_relabel, bindings_relabel f form bs]
    cases binding form b with
    | error e => rfl
    | ok p => cases bindings form bs <;> rfl

theorem letParts_relabel (f : Relabelling) (form : String) : ∀ operands : List Value,
    letParts form (operands.map (Value.relabel f)) =
      (letParts form operands).map fun p => (Bindings.relabel f p.1, p.2.map (Value.relabel f))
  | [] => rfl
  | [v] => by cases v <;> rfl
  | v :: e :: es => by
    cases v with
    | list id bs =>
      rw [List.map_cons, List.map_cons, Value.relabel_list, letParts, letParts, bindings_relabel]
      cases bindings form bs <;> rfl
    | _ => rfl

theorem map_fst_relabel (f : Relabelling) (t : Bindings) :
    (t.relabel f).map (·.1) = t.map (·.1) := by
  rw [Bindings.relabel, List.map_map]
  rfl

theorem map_snd_relabel (f : Relabelling) (t : Bindings) :
    (t.relabel f).map (·.2) = (t.map (·.2)).map (Value.relabel f) := by
  rw [Bindings.relabel, List.map_map, List.map_map]
  rfl

theorem zip_relabel (f : Relabelling) (names : List String) (values : List Value) :
    names.zip (values.map (Value.relabel f)) = Bindings.relabel f (names.zip values) := by
  rw [Bindings.relabel, List.zip_map_right]
  rfl

/-- What a `let` does with its parts. -/
def letRun (ev : Evaluator) (env : FrameId) (pairs : Bindings) (body : List Value) : Run Value := do
  let values ← ev.all env (pairs.map (·.2))
  let inner ← Run.newFrame env
  Run.defineAll inner ((pairs.map (·.1)).zip values)
  ev.body inner body

theorem follows_letRun (hev : Evaluator.Follows ρ E ev ev') (pairs : Bindings) (body : List Value) :
    Run.Follows ρ E (Value.relabel ρ.map) (letRun ev env pairs body)
      (letRun ev' (ρ.map.frame env) (pairs.relabel ρ.map) (body.map (Value.relabel ρ.map))) := by
  rw [letRun, letRun, map_snd_relabel, map_fst_relabel]
  refine (Evaluator.follows_all hev (pairs.map (·.2))).bind fun values => ?_
  refine (follows_newFrame env).bind fun inner => ?_
  rw [zip_relabel]
  exact (follows_defineAll inner _).bind fun _ => Evaluator.follows_body hev body

theorem follows_runLet (hev : Evaluator.Follows ρ E ev ev') (operands : List Value) :
    Run.Follows ρ E (Value.relabel ρ.map) (runLet ev env operands)
      (runLet ev' (ρ.map.frame env) (operands.map (Value.relabel ρ.map))) := by
  refine (follows_ofExcept (letParts_relabel ρ.map "let" operands)).bind fun parts => ?_
  exact follows_letRun hev parts.1 parts.2

/-- Evaluates values one after the other and binds each name in the given way. -/
def bindInTurn (bind : String → Value → Run Unit) (ev : Evaluator) (inner : FrameId) :
    Bindings → Run Unit
  | [] => pure ()
  | (name, value) :: pairs => do
    let v ← ev value inner
    bind name v
    bindInTurn bind ev inner pairs

theorem defineInTurn_eq (ev : Evaluator) (inner : FrameId) : ∀ pairs : Bindings,
    defineInTurn ev inner pairs = bindInTurn (Run.define inner) ev inner pairs
  | [] => rfl
  | (name, value) :: pairs => by rw [defineInTurn, bindInTurn, defineInTurn_eq ev inner pairs]

theorem assignInTurn_eq (ev : Evaluator) (inner : FrameId) : ∀ pairs : Bindings,
    assignInTurn ev inner pairs = bindInTurn (Run.assign inner) ev inner pairs
  | [] => rfl
  | (name, value) :: pairs => by rw [assignInTurn, bindInTurn, assignInTurn_eq ev inner pairs]

theorem follows_bindInTurn (hev : Evaluator.Follows ρ E ev ev')
    {bind bind' : String → Value → Run Unit}
    (hbind : ∀ name v, Run.Follows ρ E id (bind name v) (bind' name (v.relabel ρ.map)))
    (inner : FrameId) : ∀ pairs : Bindings,
      Run.Follows ρ E id (bindInTurn bind ev inner pairs)
        (bindInTurn bind' ev' (ρ.map.frame inner) (pairs.relabel ρ.map))
  | [] => follows_pure rfl
  | (name, value) :: pairs => by
    refine (hev value inner).bind fun v => ?_
    exact (hbind name v).bind fun _ => follows_bindInTurn hev hbind inner pairs

theorem follows_runLetStar (hev : Evaluator.Follows ρ E ev ev') (operands : List Value) :
    Run.Follows ρ E (Value.relabel ρ.map) (runLetStar ev env operands)
      (runLetStar ev' (ρ.map.frame env) (operands.map (Value.relabel ρ.map))) := by
  refine (follows_ofExcept (letParts_relabel ρ.map "let*" operands)).bind fun parts => ?_
  obtain ⟨pairs, forms⟩ := parts
  refine (follows_newFrame env).bind fun inner => ?_
  simp only [defineInTurn_eq]
  exact (follows_bindInTurn hev (follows_define inner) inner pairs).bind fun _ =>
    Evaluator.follows_body hev forms

theorem follows_runLetrec (hev : Evaluator.Follows ρ E ev ev') (operands : List Value) :
    Run.Follows ρ E (Value.relabel ρ.map) (runLetrec ev env operands)
      (runLetrec ev' (ρ.map.frame env) (operands.map (Value.relabel ρ.map))) := by
  refine (follows_ofExcept (letParts_relabel ρ.map "letrec" operands)).bind fun parts => ?_
  obtain ⟨pairs, forms⟩ := parts
  refine (follows_newFrame env).bind fun inner => ?_
  have hnil : (Bindings.relabel ρ.map pairs).map (fun p => (p.1, Value.nil)) =
      Bindings.relabel ρ.map (pairs.map fun p => (p.1, Value.nil)) := by
    rw [Bindings.relabel, Bindings.relabel, List.map_map, List.map_map]
    rfl
  simp only [hnil, assignInTurn_eq]
  refine (follows_defineAll inner _).bind fun _ => ?_
  exact (follows_bindInTurn hev (follows_assign inner) inner pairs).bind fun _ =>
    Evaluator.follows_body hev forms

/-- **A special form follows** itself on evaluators that follow each other. -/
theorem follows_run (hev : Evaluator.Follows ρ E ev ev') (special : SpecialForm) (tracing : Bool)
    (operands : List Value) : Run.Follows ρ E (Value.relabel ρ.map)
      (special.run ev tracing env operands)
      (special.run ev' tracing (ρ.map.frame env) (operands.map (Value.relabel ρ.map))) := by
  cases special with
  | quote => exact follows_runQuote operands
  | if_ => exact follows_runIf hev tracing operands
  | and => exact follows_runAnd hev operands
  | or => exact follows_runOr hev operands
  | define => exact follows_runDefine hev operands
  | set => exact follows_runSet hev operands
  | lambda => exact follows_runLambda operands
  | cond => exact follows_runCond hev operands
  | let_ => exact follows_runLet hev operands
  | letStar => exact follows_runLetStar hev operands
  | letrec => exact follows_runLetrec hev operands

end SpecialForm

/-! ### Evaluation -/

theorem follows_apply (hev : Evaluator.Follows ρ E ev ev') (f : Value) (args : List Value) :
    Run.Follows ρ E (Value.relabel ρ.map) (apply ev f args)
      (apply ev' (f.relabel ρ.map) (args.map (Value.relabel ρ.map))) := by
  cases f with
  | closure i formals body frame name =>
    rw [Value.relabel_closure, apply, apply, List.length_map]
    refine follows_ite ?_ (follows_throw _)
    refine (follows_newFrame frame).bind fun inner => ?_
    rw [SpecialForm.zip_relabel]
    exact (follows_defineAll inner _).bind fun _ => Evaluator.follows_body hev body
  | builtin i b => exact Builtin.follows_call b args
  | atom a => exact follows_throw _
  | list i items => rw [Value.relabel_list]; exact follows_throw _
  | foreign i type text => exact follows_throw _

theorem follows_evaluateCall (hev : Evaluator.Follows ρ E ev ev') (head : Value)
    (operands : List Value) : Run.Follows ρ E (Value.relabel ρ.map)
      (evaluateCall ev env head operands)
      (evaluateCall ev' (ρ.map.frame env) (head.relabel ρ.map) (operands.map (Value.relabel ρ.map))) := by
  refine (hev head env).bind fun f => ?_
  rw [Value.isFunction_relabel, Value.type_relabel]
  refine follows_ite ?_ (follows_throw _)
  exact (Evaluator.follows_all hev operands).bind fun args => follows_apply hev f args

/-- **One step of evaluation follows** itself on evaluators that follow each other. -/
theorem follows_evaluateStep (hev : Evaluator.Follows ρ E ev ev') (tracing : Bool) :
    Evaluator.Follows ρ E (evaluateStep ev tracing) (evaluateStep ev' tracing) := by
  intro form env
  cases form with
  | atom a =>
    cases a with
    | symbol name =>
      refine (follows_lookup? env name).bind fun v? => ?_
      cases v? with
      | some v => exact follows_pure rfl
      | none => exact follows_throw _
    | _ => exact follows_pure rfl
  | list i items =>
    rw [Value.relabel_list]
    cases items with
    | nil => exact follows_pure (Value.relabel_list ..)
    | cons head operands =>
      have hhead : SpecialForm.ofHead? (head.relabel ρ.map) = SpecialForm.ofHead? head := by
        rw [SpecialForm.ofHead?, SpecialForm.ofHead?, Value.symbolName?_relabel]
      rw [List.map_cons, evaluateStep, evaluateStep, hhead]
      cases SpecialForm.ofHead? head with
      | some special => exact SpecialForm.follows_run hev special tracing operands
      | none => exact follows_evaluateCall hev head operands
  | closure i formals body frame name =>
    rw [Value.relabel_closure]
    exact follows_pure (Value.relabel_closure ..)
  | builtin i b => exact follows_pure rfl
  | foreign i type text => exact follows_throw _

theorem follows_traced (form : Value) {r r' : Run Value}
    (hr : Run.Follows ρ E (Value.relabel ρ.map) r r') :
    Run.Follows ρ E (Value.relabel ρ.map) (traced form r) (traced (form.relabel ρ.map) r') := by
  have hprint : ∀ v : Value, Run.Follows ρ E id (Run.ofExcept v.print)
      (Run.ofExcept (v.relabel ρ.map).print) := fun v =>
    follows_ofExcept (by rw [Value.print_relabel]; cases v.print <;> rfl)
  refine follows_depth.bind fun depth => ?_
  refine (hprint form).bind fun text => (follows_record _).bind fun _ => ?_
  refine hr.deeper.bind fun v => ?_
  exact (hprint v).bind fun text' => (follows_record _).bind fun _ => follows_pure rfl

theorem Evaluator.Follows.evaluate_succ {tracing : Bool} {m n : Nat}
    (h : Evaluator.Follows ρ E (evaluate tracing m) (evaluate tracing n)) :
    Evaluator.Follows ρ E (evaluate tracing (m + 1)) (evaluate tracing (n + 1)) := by
  intro form env
  have hstep := follows_evaluateStep h tracing form env
  rw [evaluate, evaluate]
  exact follows_ite (follows_traced form hstep) hstep

/-- **Evaluating commutes with renaming.** -/
theorem follows_evaluate (ρ : Renaming) (tracing : Bool) : ∀ fuel : Nat,
    Evaluator.Follows ρ (fun _ => True) (evaluate tracing fuel) (evaluate tracing fuel)
  | 0 => fun _ _ => follows_throw _
  | fuel + 1 => (follows_evaluate ρ tracing fuel).evaluate_succ

/-- **More nesting changes nothing** where the stack is not exhausted. -/
theorem follows_evaluate_of_le (stop : ObjectId) (tracing : Bool) : ∀ {m n : Nat}, m ≤ n →
    Evaluator.Follows (.identity stop) (· ≠ .stackExhausted) (evaluate tracing m)
      (evaluate tracing n)
  | 0, _, _ => fun _ _ => follows_throw_of_not (not_not_intro rfl) _
  | _ + 1, _ + 1, h => (follows_evaluate_of_le stop tracing (Nat.le_of_succ_le_succ h)).evaluate_succ

end MiniLisp
