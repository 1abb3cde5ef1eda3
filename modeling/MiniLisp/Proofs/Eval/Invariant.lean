import MiniLisp.Proofs.Eval.Shape

/-! # Invariants of evaluation

Evaluation touches the frames in four ways only: it looks a name up in a chain, it binds a name in the
current frame, it assigns a name in the chain, and it adds a frame inside the current frame or inside
the frame that a function remembers. The frame that it adds is the only one that becomes current. An
`Invariant` says what the frames satisfy, which forms are evaluated, which values they may have, which
frames may be remembered or current and which failures may end the evaluation, and that the four ways and
the builtin functions respect all this. What it says of forms, values and frames may depend on how many
frames there are, as long as it stays true when there are more.

* `Invariant.run`: a special form keeps an invariant that the evaluation of its parts keeps.
* `Invariant.evaluate`: evaluation keeps every invariant, whatever the outcome. -/

namespace MiniLisp

/-- **An invariant of evaluation.** -/
structure Invariant where
  /-- What the frames satisfy. -/
  frames : Frames → Prop
  /-- The forms that are evaluated, when there are so many frames. -/
  form : Nat → Value → Prop
  /-- The values that forms have and that frames bind. -/
  value : Nat → Value → Prop
  /-- The frames that functions remember. -/
  frame : Nat → FrameId → Prop
  /-- The frames that are current. -/
  current : Nat → FrameId → Prop := frame
  /-- The failures that end an evaluation. -/
  failure : Failure → Prop
  form_mono : ∀ {m n v}, m ≤ n → form m v → form n v := by exact fun _ h => h
  value_mono : ∀ {m n v}, m ≤ n → value m v → value n v := by exact fun _ h => h
  frame_mono : ∀ {m n i}, m ≤ n → frame m i → frame n i := by exact fun _ h => h
  current_mono : ∀ {m n i}, m ≤ n → current m i → current n i := by exact fun _ h => h
  frame_of_current : ∀ {n i}, current n i → frame n i := by exact fun h => h
  value_of_form : ∀ {n v}, form n v → value n v
  form_of_mem : ∀ {n id items v}, form n (.list id items) → v ∈ items → form n v
  form_nil : ∀ n, form n .nil
  value_true : ∀ n, value n (.bool true)
  value_closure : ∀ {n id formals body f name},
    value n (.closure id formals body f name) ↔ frame n f ∧ ∀ v ∈ body, form n v
  failure_of_isEvaluation : ∀ {e}, e.isEvaluation = true → failure e
  value_of_lookup? : ∀ {fs i name v}, frames fs → current fs.size i → fs.lookup? i name = some v →
    value fs.size v
  frames_define : ∀ {fs i name v}, frames fs → current fs.size i → value fs.size v →
    frames (fs.define i name v)
  frames_assign? : ∀ {fs fs' i name v}, frames fs → current fs.size i → value fs.size v →
    fs.assign? i name v = some fs' → frames fs'
  frames_addChild : ∀ {fs i}, frames fs → frame fs.size i →
    frames (fs.addChild i) ∧ current (fs.size + 1) fs.size
  keeps_call : ∀ n b args, (∀ v ∈ args, value n v) →
    Run.Keeps frames value failure n (Builtin.call b args)

namespace Invariant

open Run SpecialForm

variable (I : Invariant)

/-- The run keeps the invariant and gives a value that it allows. -/
abbrev Runs (n : Nat) (r : Run Value) : Prop := Keeps I.frames I.value I.failure n r

/-- All these forms are evaluated. -/
def Forms (n : Nat) (forms : List Value) : Prop := ∀ v ∈ forms, I.form n v

/-- The evaluator keeps the invariant. -/
def Respects (ev : Evaluator) : Prop :=
  ∀ n form env, I.form n form → I.current n env → I.Runs n (ev form env)

variable {I} {ev : Evaluator} {env : FrameId} {m n : Nat}

theorem Forms.mono {forms : List Value} (h : I.Forms m forms) (hmn : m ≤ n) : I.Forms n forms :=
  fun v hv => I.form_mono hmn (h v hv)

theorem forms_cons {v : Value} {forms : List Value} :
    I.Forms n (v :: forms) ↔ I.form n v ∧ I.Forms n forms := List.forall_mem_cons

theorem value_nil (n : Nat) : I.value n .nil := I.value_of_form (I.form_nil n)

theorem keeps_value {v : Value} (h : I.value n v) : I.Runs n (pure v) :=
  keeps_pure fun _ hm => I.value_mono hm h

theorem keeps_nil : I.Runs n (pure .nil) := keeps_value (value_nil n)

/-- A failure that evaluation ends in by itself. -/
theorem keeps_failure {α : Type} {Q : Nat → α → Prop} {e : Failure} (h : e.isEvaluation = true) :
    Keeps I.frames Q I.failure n (throw e : Run α) := keeps_throw (I.failure_of_isEvaluation h)

theorem forms_of_list {id : ObjectId} {head : Value} {forms : List Value}
    (h : I.form n (.list id (head :: forms))) : I.form n head ∧ I.Forms n forms :=
  forms_cons.1 fun _ hv => I.form_of_mem h hv

/-! ### Sequences of forms -/

theorem all (hev : I.Respects ev) (henv : I.current n env) :
    ∀ forms : List Value, I.Forms n forms →
      Keeps I.frames (fun m vs => ∀ v ∈ vs, I.value m v) I.failure n (ev.all env forms)
  | [], _ => keeps_pure fun _ _ => by simp
  | e :: es, h => by
    rw [forms_cons] at h
    refine (hev n e env h.1 henv).bind fun m hm v hv => ?_
    refine ((all hev henv es h.2).mono hm).bind fun k hk vs hvs => ?_
    refine keeps_pure fun l hl => ?_
    rw [List.forall_mem_cons]
    exact ⟨I.value_mono (Nat.le_trans hk hl) hv, fun w hw => I.value_mono hl (hvs w hw)⟩

theorem body (hev : I.Respects ev) (henv : I.current n env) :
    ∀ forms : List Value, I.Forms n forms → I.Runs n (ev.body env forms)
  | [], _ => keeps_nil
  | [e], h => hev n e env (h e (by simp)) henv
  | e :: f :: es, h => by
    rw [forms_cons] at h
    exact (hev n e env h.1 henv).bind fun _ hm _ _ => (body hev henv (f :: es) h.2).mono hm

/-! ### Choosing -/

theorem runAnd (hev : I.Respects ev) (henv : I.current n env) :
    ∀ forms : List Value, I.Forms n forms → I.Runs n (runAnd ev env forms)
  | [], _ => keeps_value (I.value_true n)
  | [e], h => by
    refine (hev n e env (h e (by simp)) henv).bind fun m _ v hv => keeps_value ?_
    split
    · exact hv
    · exact value_nil m
  | e :: f :: es, h => by
    rw [forms_cons] at h
    refine (hev n e env h.1 henv).bind fun m hm v _ => keeps_ite (fun _ => ?_) fun _ => ?_
    · exact (runAnd hev henv (f :: es) h.2).mono hm
    · exact keeps_nil

theorem runOr (hev : I.Respects ev) (henv : I.current n env) :
    ∀ forms : List Value, I.Forms n forms → I.Runs n (runOr ev env forms)
  | [], _ => keeps_nil
  | e :: es, h => by
    rw [forms_cons] at h
    refine (hev n e env h.1 henv).bind fun m hm v hv => keeps_ite (fun _ => ?_) fun _ => ?_
    · exact keeps_value hv
    · exact (runOr hev henv es h.2).mono hm

theorem form_of_clause? {c test : Value} {forms : List Value} (h : clause? c = some (test, forms))
    (hc : I.form n c) : I.form n test ∧ I.Forms n forms := by
  unfold clause? at h
  split at h
  · cases h
    exact forms_of_list hc
  · cases h

theorem runClauses (hev : I.Respects ev) (henv : I.current n env) :
    ∀ clauses : List Value, I.Forms n clauses → I.Runs n (runClauses ev env clauses)
  | [], _ => keeps_nil
  | c :: cs, h => by
    rw [forms_cons] at h
    unfold SpecialForm.runClauses
    split
    · exact keeps_failure rfl
    · next test forms hc =>
      obtain ⟨htest, hforms⟩ := form_of_clause? hc h.1
      have hrest : ∀ m, n ≤ m → ∀ v, I.value m v → I.Runs m (if v.isTruthy then
          if forms.isEmpty then return v else ev.body env forms
          else SpecialForm.runClauses ev env cs) := by
        intro m hm v hv
        refine keeps_ite (fun _ => keeps_ite (fun _ => keeps_value hv) fun _ => ?_) fun _ => ?_
        · exact (body hev henv forms hforms).mono hm
        · exact (runClauses hev henv cs h.2).mono hm
      refine keeps_ite (fun _ => ?_) fun _ => ?_
      · exact (keeps_value (I.value_true n)).bind hrest
      · exact (hev n test env htest henv).bind hrest

theorem runCond (hev : I.Respects ev) (henv : I.current n env) {clauses : List Value}
    (h : I.Forms n clauses) : I.Runs n (runCond ev env clauses) :=
  keeps_ite (fun _ => keeps_failure rfl) fun _ => runClauses hev henv clauses h

theorem keeps_print (n : Nat) (v : Value) :
    Keeps I.frames anything I.failure n (Run.ofExcept v.print) :=
  keeps_ofExcept (fun _ _ _ _ => trivial) fun _ he =>
    I.failure_of_isEvaluation (Value.isEvaluation_of_print he)

theorem traceCondition (n : Nat) (tracing : Bool) (v : Value) :
    Keeps I.frames anything I.failure n (traceCondition tracing v) := by
  refine keeps_ite (fun _ => ?_) fun _ => keeps_pure fun _ _ => trivial
  exact (keeps_print n v).bind fun _ _ text _ => keeps_record _

theorem runIf (hev : I.Respects ev) (henv : I.current n env) (tracing : Bool) {forms : List Value}
    (h : I.Forms n forms) : I.Runs n (runIf ev tracing env forms) := by
  have hchoose : ∀ test (r : Value → Run Value), I.form n test → (∀ v, I.Runs n (r v)) →
      I.Runs n (ev test env >>= fun v => SpecialForm.traceCondition tracing v >>= fun _ => r v) := by
    intro test r htest hr
    refine (hev n test env htest henv).bind fun m hm v _ => ?_
    exact (traceCondition m tracing v).bind fun k hk _ _ => (hr v).mono (Nat.le_trans hm hk)
  unfold SpecialForm.runIf
  split
  · next test yes =>
    refine hchoose test _ (h _ (by simp)) fun v => keeps_ite (fun _ => ?_) fun _ => keeps_nil
    exact hev n yes env (h _ (by simp)) henv
  · next test yes no =>
    refine hchoose test _ (h _ (by simp)) fun v => keeps_ite (fun _ => ?_) fun _ => ?_
    · exact hev n yes env (h _ (by simp)) henv
    · exact hev n no env (h _ (by simp)) henv
  · exact keeps_failure rfl

/-! ### Functions and variables -/

theorem define (henv : I.current n env) {name : String} {v : Value} (hv : I.value n v) :
    Keeps I.frames anything I.failure n (Run.define env name v) :=
  keeps_define fun _ hfs hn =>
    I.frames_define hfs (I.current_mono hn henv) (I.value_mono hn hv)

theorem newFrame (henv : I.frame n env) :
    Keeps I.frames I.current I.failure n (Run.newFrame env) :=
  keeps_newFrame fun _ hfs hn => I.frames_addChild hfs (I.frame_mono hn henv)

theorem defineAll (henv : I.current n env) {bindings : List (String × Value)}
    (h : ∀ b ∈ bindings, I.value n b.2) :
    Keeps I.frames anything I.failure n (Run.defineAll env bindings) :=
  keeps_defineAll fun _ b hb hfs hn =>
    I.frames_define hfs (I.current_mono hn henv) (I.value_mono hn (h b hb))

theorem assign (henv : I.current n env) {name : String} {v : Value} (hv : I.value n v) :
    Keeps I.frames anything I.failure n (Run.assign env name v) :=
  keeps_assign (fun _ _ hfs hn => I.frames_assign? hfs (I.current_mono hn henv) (I.value_mono hn hv))
    (I.failure_of_isEvaluation rfl)

theorem makeClosure (henv : I.current n env) {forms : List Value} (h : I.Forms n forms)
    (names : List String) (name : String) : I.Runs n (makeClosure names forms env name) :=
  keeps_newId.bind fun _ hm _ _ =>
    keeps_value (I.value_closure.2 ⟨I.frame_mono hm (I.frame_of_current henv), h.mono hm⟩)

theorem runLambda (henv : I.current n env) {forms : List Value} (h : I.Forms n forms) :
    I.Runs n (runLambda env forms) := by
  unfold SpecialForm.runLambda
  split
  · next id params form forms =>
    rw [forms_cons] at h
    refine Keeps.bind (Q := anything) ?_ fun m hm names _ => ?_
    · exact keeps_ofExcept (fun _ _ _ _ => trivial) fun e he =>
        I.failure_of_isEvaluation ((ends_formals _ _).of_error he).isEvaluation
    · exact (makeClosure henv h.2 names "lambda").mono hm
  · exact keeps_failure rfl
  · exact keeps_failure rfl

/-- What a definition evaluates or remembers is among its operands. -/
def Definition.Forms (P : Value → Prop) : Definition → Prop
  | .function _ _ body => ∀ v ∈ body, P v
  | .variable _ value => P value

theorem definitionOf_forms {P : Value → Prop} {name : String} {operand : Value}
    {forms : List Value} {d : Definition} (h : definitionOf name operand forms = .ok d)
    (ho : P operand) (hf : ∀ v ∈ forms, P v) : Definition.Forms P d := by
  unfold definitionOf at h
  split at h <;> cases h
  · exact ho
  · exact hf

theorem definition_forms {P : Value → Prop} {forms : List Value} {d : Definition}
    (h : definition forms = .ok d) (hf : ∀ v ∈ forms, P v) : Definition.Forms P d := by
  unfold definition at h
  split at h
  · next target operand forms =>
    have hrest : ∀ v ∈ operand :: forms, P v := fun v hv => hf v (List.mem_cons_of_mem _ hv)
    split at h
    · next id head params =>
      split at h
      · next name hn =>
        obtain ⟨names, -, h⟩ := Except.bind_eq_ok.1 h
        cases h
        exact hrest
      · cases h
    · split at h
      · rw [List.forall_mem_cons] at hrest
        exact definitionOf_forms h hrest.1 hrest.2
      · cases h
  · cases h

theorem runDefine (hev : I.Respects ev) (henv : I.current n env) {forms : List Value}
    (h : I.Forms n forms) : I.Runs n (runDefine ev env forms) := by
  unfold SpecialForm.runDefine
  refine Keeps.bind (Q := fun _ => Definition.Forms (I.form n)) ?_ fun m hm d hd => ?_
  · exact keeps_ofExcept (fun d hd _ _ => definition_forms hd h) fun e he =>
      I.failure_of_isEvaluation ((ends_definition _).of_error he).isEvaluation
  refine Keeps.mono ?_ hm
  cases d with
  | function name names forms =>
    refine (makeClosure henv hd names name).bind fun k hk f hf => ?_
    have hbind : Keeps I.frames anything I.failure k (Run.define env name f) :=
      define (I.current_mono hk henv) hf
    exact hbind.bind fun _ hl _ _ => keeps_value (I.value_mono hl hf)
  | «variable» name value =>
    refine (hev n value env hd henv).bind fun k hk v hv => ?_
    have hbind : Keeps I.frames anything I.failure k (Run.define env name v) :=
      define (I.current_mono hk henv) hv
    exact hbind.bind fun _ hl _ _ => keeps_value (I.value_mono hl hv)

theorem runSet (hev : I.Respects ev) (henv : I.current n env) {forms : List Value}
    (h : I.Forms n forms) : I.Runs n (runSet ev env forms) := by
  unfold SpecialForm.runSet
  split
  · next target value =>
    split
    · next name hn =>
      refine (hev n value env (h _ (by simp)) henv).bind fun m hm v hv => ?_
      have hassign : Keeps I.frames anything I.failure m (Run.assign env name v) :=
        assign (I.current_mono hm henv) hv
      exact hassign.bind fun _ hl _ _ => keeps_value (I.value_mono hl hv)
    · exact keeps_failure rfl
  · exact keeps_failure rfl

theorem runQuote {forms : List Value} (h : I.Forms n forms) : I.Runs n (runQuote forms) := by
  unfold SpecialForm.runQuote
  split
  · exact keeps_value (I.value_of_form (h _ (by simp)))
  · exact keeps_failure rfl

/-! ### Local variables -/

theorem binding_form {P : Value → Prop} (hP : ∀ {id items v}, P (.list id items) → v ∈ items → P v)
    {form : String} {b : Value} {p : String × Value} (h : binding form b = .ok p) (hb : P b) :
    P p.2 := by
  unfold binding at h
  split at h
  · split at h <;> cases h
    exact hP hb (by simp)
  · cases h

theorem bindings_forms {P : Value → Prop}
    (hP : ∀ {id items v}, P (.list id items) → v ∈ items → P v) {form : String} :
    ∀ {bs : List Value} {ps : List (String × Value)}, bindings form bs = .ok ps →
      (∀ b ∈ bs, P b) → ∀ p ∈ ps, P p.2
  | [], ps, h, _ => by
    cases h
    simp
  | b :: bs, ps, h, hbs => by
    rw [List.forall_mem_cons] at hbs
    obtain ⟨p, hp, h⟩ := Except.bind_eq_ok.1 h
    obtain ⟨ps', hps, h⟩ := Except.bind_eq_ok.1 h
    cases h
    rw [List.forall_mem_cons]
    exact ⟨binding_form hP hp hbs.1, bindings_forms hP hps hbs.2⟩

theorem keeps_letParts (form : String) {forms : List Value} (h : I.Forms n forms) :
    Keeps I.frames (fun _ x => (∀ p ∈ x.1, I.form n p.2) ∧ I.Forms n x.2) I.failure n
      (Run.ofExcept (letParts form forms)) := by
  unfold letParts
  split
  · next id bs e es =>
    rw [forms_cons] at h
    cases hps : bindings form bs with
    | error e' => exact keeps_failure ((ends_bindings _ _).of_error hps).isEvaluation
    | ok ps =>
      refine keeps_pure fun _ _ => ⟨?_, h.2⟩
      exact bindings_forms I.form_of_mem hps fun b hb => I.form_of_mem h.1 hb
  · exact keeps_failure rfl
  · exact keeps_failure rfl

theorem runLet (hev : I.Respects ev) (henv : I.current n env) {forms : List Value}
    (h : I.Forms n forms) : I.Runs n (runLet ev env forms) := by
  refine (keeps_letParts "let" h).bind fun m hm ⟨pairs, forms⟩ ⟨hpairs, hforms⟩ => ?_
  refine Keeps.mono ?_ hm
  have hvalues : I.Forms n (pairs.map (·.2)) := List.forall_mem_map.2 hpairs
  refine (all hev henv (pairs.map (·.2)) hvalues).bind fun k hk values hvalues => ?_
  refine (newFrame (I.frame_mono hk (I.frame_of_current henv))).bind fun l hl inner hinner => ?_
  refine (defineAll hinner fun b hb => ?_).bind fun _ hl' _ _ => ?_
  · exact I.value_mono hl (hvalues _ (List.of_mem_zip hb).2)
  · have hle := Nat.le_trans hk (Nat.le_trans hl hl')
    exact body hev (I.current_mono hl' hinner) forms (hforms.mono hle)

theorem defineInTurn (hev : I.Respects ev) {inner : FrameId} (hinner : I.current n inner) :
    ∀ pairs : List (String × Value), (∀ p ∈ pairs, I.form n p.2) →
      Keeps I.frames anything I.failure n (defineInTurn ev inner pairs)
  | [], _ => keeps_pure fun _ _ => trivial
  | (name, value) :: pairs, h => by
    rw [List.forall_mem_cons] at h
    refine (hev n value inner h.1 hinner).bind fun m hm v hv => ?_
    refine (define (I.current_mono hm hinner) hv).bind fun k hk _ _ => ?_
    exact (defineInTurn hev hinner pairs h.2).mono (Nat.le_trans hm hk)

theorem assignInTurn (hev : I.Respects ev) {inner : FrameId} (hinner : I.current n inner) :
    ∀ pairs : List (String × Value), (∀ p ∈ pairs, I.form n p.2) →
      Keeps I.frames anything I.failure n (assignInTurn ev inner pairs)
  | [], _ => keeps_pure fun _ _ => trivial
  | (name, value) :: pairs, h => by
    rw [List.forall_mem_cons] at h
    refine (hev n value inner h.1 hinner).bind fun m hm v hv => ?_
    refine (assign (I.current_mono hm hinner) hv).bind fun k hk _ _ => ?_
    exact (assignInTurn hev hinner pairs h.2).mono (Nat.le_trans hm hk)

theorem runLetStar (hev : I.Respects ev) (henv : I.current n env) {forms : List Value}
    (h : I.Forms n forms) : I.Runs n (runLetStar ev env forms) := by
  refine (keeps_letParts "let*" h).bind fun m hm ⟨pairs, forms⟩ ⟨hpairs, hforms⟩ => ?_
  refine Keeps.mono ?_ hm
  refine (newFrame (I.frame_of_current henv)).bind fun k hk inner hinner => ?_
  have hpairs' : ∀ p ∈ pairs, I.form k p.2 := fun p hp => I.form_mono hk (hpairs p hp)
  refine (defineInTurn hev hinner pairs hpairs').bind fun l hl _ _ => ?_
  exact body hev (I.current_mono hl hinner) forms (hforms.mono (Nat.le_trans hk hl))

theorem runLetrec (hev : I.Respects ev) (henv : I.current n env) {forms : List Value}
    (h : I.Forms n forms) : I.Runs n (runLetrec ev env forms) := by
  refine (keeps_letParts "letrec" h).bind fun m hm ⟨pairs, forms⟩ ⟨hpairs, hforms⟩ => ?_
  refine Keeps.mono ?_ hm
  refine (newFrame (I.frame_of_current henv)).bind fun k hk inner hinner => ?_
  refine (defineAll hinner fun b hb => ?_).bind fun l hl _ _ => ?_
  · obtain ⟨p, -, rfl⟩ := List.mem_map.1 hb
    exact value_nil k
  have hinner' := I.current_mono hl hinner
  have hpairs' : ∀ p ∈ pairs, I.form l p.2 := fun p hp =>
    I.form_mono (Nat.le_trans hk hl) (hpairs p hp)
  refine (assignInTurn hev hinner' pairs hpairs').bind fun l' hl' _ _ => ?_
  have hle := Nat.le_trans hk (Nat.le_trans hl hl')
  exact body hev (I.current_mono hl' hinner') forms (hforms.mono hle)

/-- **A special form keeps the invariant.** -/
theorem run (hev : I.Respects ev) (henv : I.current n env) (tracing : Bool) (special : SpecialForm)
    {forms : List Value} (h : I.Forms n forms) :
    I.Runs n (special.run ev tracing env forms) := by
  cases special with
  | quote => exact runQuote h
  | if_ => exact runIf hev henv tracing h
  | and => exact runAnd hev henv forms h
  | or => exact runOr hev henv forms h
  | define => exact runDefine hev henv h
  | set => exact runSet hev henv h
  | lambda => exact runLambda henv h
  | cond => exact runCond hev henv h
  | let_ => exact runLet hev henv h
  | letStar => exact runLetStar hev henv h
  | letrec => exact runLetrec hev henv h

/-! ### Evaluation -/

theorem apply (hev : I.Respects ev) {f : Value} (hf : I.value n f) {args : List Value}
    (h : ∀ v ∈ args, I.value n v) : I.Runs n (apply ev f args) := by
  unfold MiniLisp.apply
  split
  · next id formals forms frame name =>
    obtain ⟨hframe, hforms⟩ := I.value_closure.1 hf
    refine keeps_ite (fun _ => ?_) fun _ => keeps_failure rfl
    refine (newFrame hframe).bind fun m hm inner hinner => ?_
    refine (defineAll hinner fun b hb => ?_).bind fun k hk _ _ => ?_
    · exact I.value_mono hm (h _ (List.of_mem_zip hb).2)
    · exact body hev (I.current_mono hk hinner) forms
        (Forms.mono hforms (Nat.le_trans hm hk))
  · next id b => exact I.keeps_call n b args h
  · exact keeps_failure rfl

theorem evaluateCall (hev : I.Respects ev) (henv : I.current n env) {head : Value}
    {operands : List Value} (hhead : I.form n head) (h : I.Forms n operands) :
    I.Runs n (evaluateCall ev env head operands) := by
  refine (hev n head env hhead henv).bind fun m hm f hf => ?_
  refine keeps_ite (fun _ => ?_) fun _ => keeps_failure rfl
  refine ((all hev henv operands h).mono hm).bind fun k hk args hargs => ?_
  exact apply hev (I.value_mono hk hf) hargs

/-- **One evaluation keeps the invariant** if the evaluations in it do. -/
theorem evaluateStep (hev : I.Respects ev) (henv : I.current n env) (tracing : Bool) {form : Value}
    (h : I.form n form) : I.Runs n (evaluateStep ev tracing form env) := by
  unfold MiniLisp.evaluateStep
  split
  · next name =>
    refine Keeps.bind (Q := fun m v? => ∀ v, v? = some v → I.value m v) ?_ fun m _ v? hv => ?_
    · exact keeps_lookup? fun fs hfs hn v hv => I.value_of_lookup? hfs (I.current_mono hn henv) hv
    · split
      · exact keeps_value (hv _ rfl)
      · exact keeps_failure rfl
  · next id head operands =>
    obtain ⟨hhead, hoperands⟩ := forms_of_list h
    split
    · exact run hev henv tracing _ hoperands
    · exact evaluateCall hev henv hhead hoperands
  · exact keeps_failure rfl
  · exact keeps_value (I.value_of_form h)

theorem traced {r : Run Value} (hr : I.Runs n r) (form : Value) : I.Runs n (traced form r) := by
  refine keeps_depth.bind fun m hm _ _ => (keeps_print m form).bind fun k hk _ _ => ?_
  refine (keeps_record _).bind fun l hl _ _ => ?_
  refine (hr.deeper.mono (Nat.le_trans hm (Nat.le_trans hk hl))).bind fun l' _ v hv => ?_
  refine (keeps_print l' v).bind fun m' hm' _ _ => (keeps_record _).bind fun k' hk' _ _ => ?_
  exact keeps_value (I.value_mono (Nat.le_trans hm' hk') hv)

/-- **Evaluation keeps every invariant**, however deep it may nest and whatever its outcome. -/
theorem evaluate (tracing : Bool) : ∀ fuel : Nat, I.Respects (evaluate tracing fuel)
  | 0 => fun _ _ _ _ _ => keeps_failure rfl
  | fuel + 1 => fun n form env hform henv => by
    have hrun := evaluateStep (evaluate tracing fuel) henv tracing hform
    exact keeps_ite (fun _ => traced hrun form) fun _ => hrun

/-- What the frames satisfy, they satisfy after an evaluation. -/
theorem after_evaluate (I : Invariant) (tracing : Bool) (fuel : Nat) {form : Value} (env : FrameId)
    {s : Store} (hs : I.frames s.frames) (hform : I.form s.frames.size form)
    (henv : I.current s.frames.size env) :
    I.frames ((MiniLisp.evaluate tracing fuel form env).after s).frames :=
  (evaluate tracing fuel _ form env hform henv).after hs

/-! ### Invariants of values -/

/-- An invariant that says of every value the same, wherever it stands and whenever. -/
def ofValues (form value : Value → Prop) (failure : Failure → Prop)
    (value_of_form : ∀ {v}, form v → value v)
    (form_of_mem : ∀ {id items v}, form (.list id items) → v ∈ items → form v)
    (form_nil : form .nil) (value_true : value (.bool true))
    (value_closure : ∀ {id formals body f name},
      value (.closure id formals body f name) ↔ ∀ v ∈ body, form v)
    (failure_of_isEvaluation : ∀ {e}, e.isEvaluation = true → failure e)
    (keeps_call : ∀ n b args, (∀ v ∈ args, value v) →
      Keeps (Frames.Binds value) (fun _ => value) failure n (Builtin.call b args)) : Invariant where
  frames := Frames.Binds value
  form _ := form
  value _ := value
  frame _ _ := True
  failure := failure
  value_of_form := value_of_form
  form_of_mem := form_of_mem
  form_nil _ := form_nil
  value_true _ := value_true
  value_closure := by
    intro n id formals body f name
    rw [value_closure, true_and]
  failure_of_isEvaluation := failure_of_isEvaluation
  value_of_lookup? h _ hv := h.lookup? hv
  frames_define h _ hv := h.define hv
  frames_assign? h _ hv ha := h.assign? hv ha
  frames_addChild h _ := ⟨h.addChild _, trivial⟩
  keeps_call := keeps_call

end Invariant

end MiniLisp
