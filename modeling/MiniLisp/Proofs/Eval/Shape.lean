import MiniLisp.Eval.Evaluate
import MiniLisp.Proofs.DateTime.Calendar
import MiniLisp.Proofs.Except
import MiniLisp.Proofs.Run.Follows
import MiniLisp.Proofs.Run.Keeps
import Mathlib.Data.List.Forall2

/-! # The shapes of special forms

Each special form asks for a shape of its operands (`SpecialForm.WellShaped`), which is described here by
what the operands are built of. The checks that the forms make accept exactly these shapes, and end in a
failure about the number or the type of the operands otherwise (`ends_definition`, `ends_letParts`).

* `wellShaped_or_refuses`: operands of another shape are refused, whatever the forms in them would do.
* `endsOrExhausts_run`: operands of the right shape are not refused.
* `shapes_checked_first`: so the evaluation of a form ends at once and leaves the store as it was exactly if
  the operands have another shape. -/

namespace MiniLisp

open Run SpecialForm

/-- The failure is about the number or the type of operands. -/
def Failure.IsShape (e : Failure) : Prop := e.kind = .arityError ∨ e.kind = .typeError

theorem Failure.IsShape.isEvaluation {e : Failure} (h : e.IsShape) : e.isEvaluation = true := by
  unfold IsShape kind at h
  split at h <;> first
    | rfl
    | rcases h with h | h <;> cases h

theorem Value.eq_symbol_of_symbolName? {v : Value} {name : String} (h : v.symbolName? = some name) :
    v = .symbol name := by
  unfold symbolName? at h
  split at h <;> cases h
  rfl

/-! ### Shapes -/

/-- The list `(name...)`. -/
def IsParameterList (names : List String) (v : Value) : Prop := ∃ id, v = .list id (names.map .symbol)

/-- The binding `(name value)`. -/
def IsBinding (p : String × Value) (v : Value) : Prop := ∃ id, v = .list id [.symbol p.1, p.2]

/-- The list `((name value)...)`. -/
def IsBindingList (pairs : Bindings) (v : Value) : Prop :=
  ∃ id bs, v = .list id bs ∧ List.Forall₂ IsBinding pairs bs

/-- **The operands of a definition**: a name and a form, or a name, parameters and a body, or the name and the
parameters in one list and a body. -/
inductive IsDefinition : List Value → Prop
  | ofValue (name : String) (form : Value) : IsDefinition [.symbol name, form]
  | ofParameters {names : List String} {params : Value} {body : List Value} (name : String)
      (hparams : IsParameterList names params) (hbody : body ≠ []) :
      IsDefinition (.symbol name :: params :: body)
  | ofHeader {header : Value} {body : List Value} (name : String) (names : List String)
      (hheader : IsParameterList (name :: names) header) (hbody : body ≠ []) :
      IsDefinition (header :: body)

/-- **The operands have the shape that the form asks for.** A `cond` asks for a first clause; the shape of
the others counts only when it comes to them. -/
def SpecialForm.WellShaped (form : SpecialForm) (operands : List Value) : Prop :=
  match form with
  | .quote => operands.length = 1
  | .if_ => operands.length = 2 ∨ operands.length = 3
  | .and | .or => True
  | .define => IsDefinition operands
  | .set => ∃ name value, operands = [.symbol name, value]
  | .lambda => ∃ names params body, operands = params :: body ∧ IsParameterList names params ∧ body ≠ []
  | .cond => ∃ id test body clauses, operands = .list id (test :: body) :: clauses
  | .let_ | .letStar | .letrec =>
    ∃ pairs bs body, operands = bs :: body ∧ IsBindingList pairs bs ∧ body ≠ []

/-! ### What the checks accept -/

variable {names : List String} {pairs : Bindings} {body : List Value} {v : Value}

theorem ends_formals (head : String) : ∀ params : List Value,
    Except.Ends (fun names => params = names.map .symbol) Failure.IsShape (formals head params)
  | [] => rfl
  | p :: ps => by
    unfold formals
    cases hname : p.symbolName? with
    | none => exact .inr rfl
    | some name =>
      refine (ends_formals head ps).map fun names hnames => ?_
      rw [List.map_cons, ← hnames, Value.eq_symbol_of_symbolName? hname]

theorem formals_symbols (head : String) : ∀ names : List String,
    formals head (names.map .symbol) = .ok names
  | [] => rfl
  | name :: names => by
    rw [List.map_cons, formals, formals_symbols head names]
    rfl

theorem formals?_eq_some_iff : formals? v = some names ↔ IsParameterList names v := by
  constructor
  · intro h
    unfold formals? at h
    split at h
    · next id params =>
      refine ⟨id, ?_⟩
      induction params generalizing names with
      | nil =>
        cases h
        rfl
      | cons p ps ih =>
        rw [List.mapM_cons, Option.bind_eq_bind, Option.bind_eq_some_iff] at h
        obtain ⟨name, hname, h⟩ := h
        obtain ⟨names', hnames, h⟩ := Option.bind_eq_some_iff.1 h
        cases h
        have hps := ih hnames
        simp only [Value.list.injEq, true_and] at hps
        rw [List.map_cons, ← hps, Value.eq_symbol_of_symbolName? hname]
    · cases h
  · rintro ⟨id, rfl⟩
    rw [formals?]
    induction names with
    | nil => rfl
    | cons name names ih =>
      rw [List.map_cons, List.mapM_cons, ih]
      rfl

/-- **What the check of a definition accepts.** -/
theorem ends_definition (operands : List Value) :
    Except.Ends (fun _ => IsDefinition operands) Failure.IsShape (definition operands) := by
  unfold definition
  split
  · next target operand body =>
    split
    · next id head params =>
      split
      · next name hname =>
        refine (ends_formals "define" params).bind fun names hnames => ?_
        rw [Value.eq_symbol_of_symbolName? hname, hnames]
        exact .ofHeader name names ⟨id, rfl⟩ (List.cons_ne_nil _ _)
      · exact .inr rfl
    · split
      · next name hname =>
        rw [Value.eq_symbol_of_symbolName? hname]
        unfold definitionOf
        split
        · exact .ofValue name operand
        · next names hbody hnames => exact .ofParameters name (formals?_eq_some_iff.1 hnames) hbody
        · exact .inl rfl
      · exact .inr rfl
  · exact .inl rfl

/-- A well-shaped definition is accepted. -/
theorem exists_definition {operands : List Value} (h : IsDefinition operands) :
    ∃ d, definition operands = .ok d := by
  cases h with
  | ofValue name form => exact ⟨_, rfl⟩
  | @ofParameters names params body name hparams hbody =>
    obtain ⟨e, es, rfl⟩ := List.exists_cons_of_ne_nil hbody
    refine ⟨.function name names (e :: es), ?_⟩
    change definitionOf name params (e :: es) = _
    simp only [definitionOf, formals?_eq_some_iff.2 hparams]
  | ofHeader name names hheader hbody =>
    obtain ⟨id, rfl⟩ := hheader
    obtain ⟨e, es, rfl⟩ := List.exists_cons_of_ne_nil hbody
    refine ⟨.function name names (e :: es), ?_⟩
    change (formals "define" (names.map .symbol) >>= _) = _
    rw [formals_symbols]
    rfl

theorem ends_binding (head : String) (b : Value) :
    Except.Ends (IsBinding · b) Failure.IsShape (binding head b) := by
  unfold binding
  split
  · next id target value =>
    split
    · next name hname =>
      rw [Value.eq_symbol_of_symbolName? hname]
      exact ⟨id, rfl⟩
    · exact .inr rfl
  · exact .inr rfl

theorem ends_bindings (head : String) : ∀ bs : List Value,
    Except.Ends (List.Forall₂ IsBinding · bs) Failure.IsShape (bindings head bs)
  | [] => .nil
  | b :: bs => (ends_binding head b).bind fun _ hp =>
    (ends_bindings head bs).bind fun _ hps => .cons hp hps

/-- **What the check of a `let` form accepts.** -/
theorem ends_letParts (head : String) (operands : List Value) :
    Except.Ends (fun parts => ∃ bs, operands = bs :: parts.2 ∧ IsBindingList parts.1 bs ∧ parts.2 ≠ [])
      Failure.IsShape (letParts head operands) := by
  unfold letParts
  split
  · next id bs e es =>
    exact (ends_bindings head bs).bind fun pairs hpairs =>
      ⟨_, rfl, ⟨id, bs, rfl, hpairs⟩, List.cons_ne_nil _ _⟩
  · exact .inr rfl
  · exact .inl rfl

theorem bindings_of_isBinding (head : String) {bs : List Value}
    (h : List.Forall₂ IsBinding pairs bs) : bindings head bs = .ok pairs := by
  induction h with
  | nil => rfl
  | cons hb _ ih =>
    obtain ⟨id, rfl⟩ := hb
    rw [bindings, ih]
    rfl

theorem letParts_of_isBinding (head : String) {bs : List Value} {id : ObjectId} (hbody : body ≠ [])
    (h : List.Forall₂ IsBinding pairs bs) :
    letParts head (.list id bs :: body) = .ok (pairs, body) := by
  obtain ⟨e, es, rfl⟩ := List.exists_cons_of_ne_nil hbody
  rw [letParts, bindings_of_isBinding head h]
  rfl

/-! ### What is refused -/

namespace SpecialForm

/-- **The form refuses the operands**: whatever the forms in them would do, nothing happens but the
failure. -/
def Refuses (form : SpecialForm) (operands : List Value) (e : Failure) : Prop :=
  ∀ ev tracing env s, form.run ev tracing env operands s = .error e s

/-- The operands have the right shape, or the form refuses them because of it. -/
def Checks (form : SpecialForm) (operands : List Value) : Prop :=
  form.WellShaped operands ∨ ∃ e : Failure, e.IsShape ∧ form.Refuses operands e

theorem checks_quote : ∀ operands : List Value, quote.Checks operands
  | [_] => .inl rfl
  | [] => .inr ⟨_, .inl rfl, fun _ _ _ _ => rfl⟩
  | _ :: _ :: _ => .inr ⟨_, .inl rfl, fun _ _ _ _ => rfl⟩

theorem checks_if : ∀ operands : List Value, if_.Checks operands
  | [_, _] => .inl (.inl rfl)
  | [_, _, _] => .inl (.inr rfl)
  | [] | [_] => .inr ⟨_, .inl rfl, fun _ _ _ _ => rfl⟩
  | _ :: _ :: _ :: _ :: _ => .inr ⟨_, .inl rfl, fun _ _ _ _ => rfl⟩

theorem checks_define (operands : List Value) : define.Checks operands := by
  have hends := ends_definition operands
  cases h : definition operands with
  | ok d => exact .inl (hends.of_ok h)
  | error e =>
    refine .inr ⟨e, hends.of_error h, fun ev tracing env s => ?_⟩
    rw [run, runDefine, h]
    rfl

theorem checks_set : ∀ operands : List Value, set.Checks operands
  | [target, value] => by
    cases hname : target.symbolName? with
    | some name => exact .inl ⟨name, value, by rw [Value.eq_symbol_of_symbolName? hname]⟩
    | none =>
      refine .inr ⟨.typeError (.target "set!" target.type), .inr rfl, fun ev tracing env s => ?_⟩
      rw [run, runSet, hname]
      rfl
  | [] | [_] => .inr ⟨_, .inl rfl, fun _ _ _ _ => rfl⟩
  | _ :: _ :: _ :: _ => .inr ⟨_, .inl rfl, fun _ _ _ _ => rfl⟩

theorem checks_lambda : ∀ operands : List Value, lambda.Checks operands
  | .list id params :: form :: body => by
    have hends := ends_formals "lambda" params
    cases h : formals "lambda" params with
    | ok names =>
      exact .inl ⟨names, _, _, rfl, ⟨id, by rw [hends.of_ok h]⟩, List.cons_ne_nil form body⟩
    | error e =>
      refine .inr ⟨e, hends.of_error h, fun ev tracing env s => ?_⟩
      rw [run, runLambda, h]
      rfl
  | [] => .inr ⟨_, .inl rfl, fun _ _ _ _ => rfl⟩
  | [params] => .inr ⟨.arityError .lambdaForm, .inl rfl, fun _ _ _ _ => by cases params <;> rfl⟩
  | .atom _ :: _ :: _ | .closure .. :: _ :: _ | .builtin .. :: _ :: _ | .foreign .. :: _ :: _ =>
    .inr ⟨_, .inr rfl, fun _ _ _ _ => rfl⟩

theorem checks_cond : ∀ operands : List Value, cond.Checks operands
  | .list id (test :: body) :: clauses => .inl ⟨id, test, body, clauses, rfl⟩
  | [] => .inr ⟨_, .inl rfl, fun _ _ _ _ => rfl⟩
  | .list _ [] :: _ | .atom _ :: _ | .closure .. :: _ | .builtin .. :: _ | .foreign .. :: _ =>
    .inr ⟨_, .inr rfl, fun _ _ _ _ => rfl⟩

/-- The three `let` forms make the same check. -/
theorem checks_let (operands : List Value) :
    let_.Checks operands ∧ letStar.Checks operands ∧ letrec.Checks operands := by
  have hparts : ∀ head, (∃ pairs bs body, operands = bs :: body ∧ IsBindingList pairs bs ∧ body ≠ []) ∨
      ∃ e : Failure, e.IsShape ∧ letParts head operands = .error e := by
    intro head
    have hends := ends_letParts head operands
    cases h : letParts head operands with
    | ok parts =>
      obtain ⟨bs, hbs⟩ := hends.of_ok h
      exact .inl ⟨parts.1, bs, parts.2, hbs⟩
    | error e => exact .inr ⟨e, hends.of_error h, rfl⟩
  refine ⟨(hparts "let").imp_right ?_, (hparts "let*").imp_right ?_, (hparts "letrec").imp_right ?_⟩
  all_goals
    rintro ⟨e, he, h⟩
    refine ⟨e, he, fun ev tracing env s => ?_⟩
    simp only [run, runLet, runLetStar, runLetrec, h]
    rfl

/-- **Operands of another shape are refused.** -/
theorem wellShaped_or_refuses (form : SpecialForm) (operands : List Value) : form.Checks operands :=
  match form with
  | .quote => checks_quote operands
  | .if_ => checks_if operands
  | .and | .or => .inl trivial
  | .define => checks_define operands
  | .set => checks_set operands
  | .lambda => checks_lambda operands
  | .cond => checks_cond operands
  | .let_ => (checks_let operands).1
  | .letStar => (checks_let operands).2.1
  | .letrec => (checks_let operands).2.2

end SpecialForm

/-! ### What is not refused -/

section Clauses

variable (ev : Evaluator) (env : FrameId) {id : ObjectId} {test : Value} {clauses : List Value}

/-- A clause that is selected without a test. -/
theorem runClauses_of_else (helse : isElse test = true) :
    runClauses ev env (.list id (test :: body) :: clauses) =
      if body.isEmpty then pure (.bool true) else ev.body env body := by
  simp only [runClauses, clause?, helse]
  rfl

/-- A clause with a test. -/
theorem runClauses_of_test (helse : isElse test = false) :
    runClauses ev env (.list id (test :: body) :: clauses) = (ev test env >>= fun v =>
      if v.isTruthy then if body.isEmpty then pure v else ev.body env body
      else runClauses ev env clauses) := by
  simp only [runClauses, clause?, helse]
  rfl

end Clauses

/-- With no nesting allowed, a body exhausts the stack. -/
theorem body_exhausted (tracing : Bool) (env : FrameId) (s : Store) (hbody : body ≠ []) :
    (evaluate tracing 0).body env body s = .error .stackExhausted s := by
  obtain ⟨e, es, rfl⟩ := List.exists_cons_of_ne_nil hbody
  cases es <;> rfl

/-- The run ends in a value or exhausts the stack. -/
def EndsOrExhausts (r : Run Value) (s : Store) : Prop :=
  (∃ v s', r s = .ok v s') ∨ ∃ s', r s = .error .stackExhausted s'

theorem endsOrExhausts_cond (env : FrameId) (s : Store) (id : ObjectId) (test : Value)
    (body clauses : List Value) :
    EndsOrExhausts (runCond (evaluate false 0) env (.list id (test :: body) :: clauses)) s := by
  rw [runCond, if_neg (by exact nofun)]
  cases helse : isElse test with
  | false =>
    rw [runClauses_of_test _ env helse]
    exact .inr ⟨s, rfl⟩
  | true =>
    rw [runClauses_of_else _ env helse]
    cases body with
    | nil => exact .inl ⟨.bool true, s, rfl⟩
    | cons e es => exact .inr ⟨s, body_exhausted false env s (List.cons_ne_nil e es)⟩

theorem endsOrExhausts_let (env : FrameId) (s : Store) (hbody : body ≠ []) {bs : Value}
    (hbs : IsBindingList pairs bs) :
    EndsOrExhausts (runLet (evaluate false 0) env (bs :: body)) s ∧
      EndsOrExhausts (runLetStar (evaluate false 0) env (bs :: body)) s ∧
      EndsOrExhausts (runLetrec (evaluate false 0) env (bs :: body)) s := by
  obtain ⟨id, bs, rfl, hbs⟩ := hbs
  rw [runLet, runLetStar, runLetrec, letParts_of_isBinding _ hbody hbs,
    letParts_of_isBinding _ hbody hbs, letParts_of_isBinding _ hbody hbs]
  cases pairs with
  | nil =>
    exact ⟨.inr ⟨_, body_exhausted false _ _ hbody⟩, .inr ⟨_, body_exhausted false _ _ hbody⟩,
      .inr ⟨_, body_exhausted false _ _ hbody⟩⟩
  | cons p pairs => exact ⟨.inr ⟨_, rfl⟩, .inr ⟨_, rfl⟩, .inr ⟨_, rfl⟩⟩

/-- **Operands of the right shape are not refused**: with no nesting allowed, the form ends in a value or
exhausts the stack. -/
theorem endsOrExhausts_run {form : SpecialForm} {operands : List Value}
    (h : form.WellShaped operands) (env : FrameId) (s : Store) :
    EndsOrExhausts (form.run (evaluate false 0) false env operands) s := by
  cases form with
  | quote =>
    obtain ⟨x, rfl⟩ := List.length_eq_one_iff.1 h
    exact .inl ⟨x, s, rfl⟩
  | if_ =>
    rcases h with h | h
    · obtain ⟨test, yes, rfl⟩ := List.length_eq_two.1 h
      exact .inr ⟨s, rfl⟩
    · obtain ⟨test, yes, no, rfl⟩ := List.length_eq_three.1 h
      exact .inr ⟨s, rfl⟩
  | and =>
    rcases operands with _ | ⟨e, _ | ⟨e', es⟩⟩
    · exact .inl ⟨_, s, rfl⟩
    · exact .inr ⟨s, rfl⟩
    · exact .inr ⟨s, rfl⟩
  | or =>
    cases operands with
    | nil => exact .inl ⟨_, s, rfl⟩
    | cons e es => exact .inr ⟨s, rfl⟩
  | define =>
    obtain ⟨d, hd⟩ := exists_definition h
    rw [run, runDefine, hd]
    cases d with
    | function name names body => exact .inl ⟨_, _, rfl⟩
    | «variable» name value => exact .inr ⟨s, rfl⟩
  | set =>
    obtain ⟨name, value, rfl⟩ := h
    exact .inr ⟨s, rfl⟩
  | lambda =>
    obtain ⟨names, params, body, rfl, ⟨id, rfl⟩, hbody⟩ := h
    obtain ⟨e, es, rfl⟩ := List.exists_cons_of_ne_nil hbody
    rw [run, runLambda, formals_symbols]
    exact .inl ⟨_, _, rfl⟩
  | cond =>
    obtain ⟨id, test, body, clauses, rfl⟩ := h
    exact endsOrExhausts_cond env s id test body clauses
  | let_ =>
    obtain ⟨pairs, bs, body, rfl, hbs, hbody⟩ := h
    exact (endsOrExhausts_let env s hbody hbs).1
  | letStar =>
    obtain ⟨pairs, bs, body, rfl, hbs, hbody⟩ := h
    exact (endsOrExhausts_let env s hbody hbs).2.1
  | letrec =>
    obtain ⟨pairs, bs, body, rfl, hbs, hbody⟩ := h
    exact (endsOrExhausts_let env s hbody hbs).2.2

/-! ### Evaluating a form -/

theorem ofName?_name (form : SpecialForm) : ofName? form.name = some form := by
  cases form <;> rfl

/-- Evaluating a special form runs it. -/
theorem evaluate_special (form : SpecialForm) (tracing : Bool) (fuel : Nat) (id : ObjectId)
    (operands : List Value) (env : FrameId) :
    evaluate tracing (fuel + 1) (.list id (.symbol form.name :: operands)) env =
      if tracing then
        traced (.list id (.symbol form.name :: operands))
          (form.run (evaluate tracing fuel) tracing env operands)
      else form.run (evaluate tracing fuel) tracing env operands := by
  have hhead : ofHead? (.symbol form.name) = some form := ofName?_name form
  rw [evaluate, evaluateStep, hhead]

/-- A run that only fails leaves the form in the trace when it is traced. -/
theorem traced_of_refusal {form : Value} {text : String} {run : Run Value} {e : Failure}
    (hprint : form.print = .ok text) (hrun : ∀ s, run s = .error e s) (s : Store) :
    traced form run s = .error e { s with trace := s.trace.push (.form s.depth text) } := by
  rw [traced, hprint]
  change (Run.deeper run >>= _) { s with trace := s.trace.push (.form s.depth text) } = _
  rw [bind_apply, Run.deeper, hrun]
  rfl

/-- A store in which nothing has happened. -/
instance : Inhabited Store :=
  ⟨⟨.empty, 0, "", #[], 0, ⟨⟨1, 1, 1, by decide, by decide⟩, 0, microsPerDay_pos⟩⟩⟩

/-- **The shape of a form is checked before anything is evaluated.** Exactly if the operands of a special form
have another shape than it asks for, its evaluation always ends in the same failure about their number or type,
with the store as it was; when it is traced, the trace has the form besides. -/
theorem shapes_checked_first (form : SpecialForm) (operands : List Value) :
    ¬ form.WellShaped operands ↔ ∃ e : Failure, e.IsShape ∧ ∀ fuel id env s,
      evaluate false (fuel + 1) (.list id (.symbol form.name :: operands)) env s = .error e s ∧
      ∀ text, (Value.list id (.symbol form.name :: operands)).print = .ok text →
        evaluate true (fuel + 1) (.list id (.symbol form.name :: operands)) env s =
          .error e { s with trace := s.trace.push (.form s.depth text) } := by
  constructor
  · intro hshape
    obtain ⟨e, he, hrefuses⟩ := (wellShaped_or_refuses form operands).resolve_left hshape
    refine ⟨e, he, fun fuel id env s => ⟨?_, fun text hprint => ?_⟩⟩
    · rw [evaluate_special]
      exact hrefuses _ false env s
    · rw [evaluate_special]
      exact traced_of_refusal hprint (hrefuses _ true env) s
  · rintro ⟨e, he, h⟩ hshape
    have hrun : form.run (evaluate false 0) false 0 operands default = .error e default := by
      have h := (h 0 0 0 default).1
      rwa [evaluate_special] at h
    rcases endsOrExhausts_run hshape 0 default with ⟨v, s', hvalue⟩ | ⟨s', hexhausted⟩
    · rw [hrun] at hvalue
      cases hvalue
    · rw [hrun] at hexhausted
      cases hexhausted
      rcases he with he | he <;> cases he

/-- The form `(let* ((a (set! x 1)) (1 2)) a)`, whose last binding has no name. -/
def namelessBinding (id : ObjectId) : Value :=
  .list id [.symbol "let*", .list 3 [.list 1 [.symbol "a", .list 0 [.symbol "set!", .symbol "x", .int 1]],
    .list 2 [.int 1, .int 2]], .symbol "a"]

/-- The assignment in the first binding is not made. -/
theorem shapes_checked_first_namelessBinding : ∃ e : Failure, e.IsShape ∧
    ∀ fuel id env s, evaluate false (fuel + 1) (namelessBinding id) env s = .error e s := by
  have hshape : ¬ letStar.WellShaped [.list 3 [.list 1 [.symbol "a", .list 0 [.symbol "set!",
      .symbol "x", .int 1]], .list 2 [.int 1, .int 2]], .symbol "a"] := by
    rintro ⟨pairs, bs, body, hoperands, ⟨id, items, rfl, hitems⟩, -⟩
    cases hoperands
    cases hitems with
    | cons _ hlast =>
      cases hlast with
      | cons hbinding _ =>
        obtain ⟨i, hbinding⟩ := hbinding
        cases hbinding
  obtain ⟨e, he, h⟩ := (shapes_checked_first letStar _).1 hshape
  exact ⟨e, he, fun fuel id env s => (h fuel id env s).1⟩

end MiniLisp
