import MiniLisp.Proofs.Eval.Finishes
import MiniLisp.Proofs.Eval.Shape

/-! # Rules for evaluations that finish

Where it does not matter how much nesting is allowed, a run is a family of runs, one for every nesting,
and a family deepens if each of its runs refines those with less nesting (`Deepens`). Evaluation and
everything that is put together of it deepens, so how a family ends can be put together of how its parts
end (`Ends.bind`). From this come rules for single forms, without a word on nesting: for names, for
applications (`finishes_call`, `ends_apply_closure`), and for choices (`finishes_if`, `finishes_cond`). -/

namespace MiniLisp

open Run SpecialForm

variable {α β : Type} {s s' s'' : Store} {e : Failure}

/-- **More nesting refines the run.** -/
def Deepens (r : Nat → Run α) : Prop := ∀ m n, m ≤ n → Refines (r m) (r n)

/-- **The run ends so**, with enough nesting. -/
def Ends (r : Nat → Run α) (s : Store) (x : EStateM.Result Failure Store α) : Prop :=
  (∃ n, r n s = x) ∧ ¬ Exhausted x

theorem deepens_const (r : Run α) : Deepens (fun _ => r) := fun _ _ _ => Refines.refl r

theorem Deepens.bind {r : Nat → Run α} {f : Nat → α → Run β} (hr : Deepens r)
    (hf : ∀ a, Deepens (f · a)) : Deepens (fun n => r n >>= f n) :=
  fun m n h => (hr m n h).bind fun a => hf a m n h

/-! ### Putting endings together -/

theorem Deepens.eq_of_le {r : Nat → Run α} {x : EStateM.Result Failure Store α} {m n : Nat}
    (hr : Deepens r) (h : r m s = x) (hne : ¬ Exhausted x) (hmn : m ≤ n) : r n s = x := by
  rw [hr m n hmn s (by rwa [h]), h]

theorem Ends.bind {r : Nat → Run α} {f : Nat → α → Run β} {x : EStateM.Result Failure Store β} {a : α}
    (hr : Deepens r) (hf : ∀ a, Deepens (f · a)) (h : Ends r s (.ok a s'))
    (h' : Ends (f · a) s' x) : Ends (fun n => r n >>= f n) s x := by
  obtain ⟨⟨m, hm⟩, -⟩ := h
  obtain ⟨⟨n, hn⟩, hne⟩ := h'
  have hfirst := hr.eq_of_le hm id (Nat.le_max_left m n)
  have hrest := (hf a).eq_of_le hn hne (Nat.le_max_right m n)
  have hrun : (r (max m n) >>= f (max m n)) s = x := by
    rw [bind_apply, hfirst]
    exact hrest
  exact ⟨⟨max m n, hrun⟩, hne⟩

theorem Ends.bind_error {r : Nat → Run α} {f : Nat → α → Run β} (h : Ends r s (.error e s')) :
    Ends (fun n => r n >>= f n) s (.error e s') := by
  obtain ⟨⟨n, hn⟩, hne⟩ := h
  have hrun : (r n >>= f n) s = .error e s' := by rw [bind_apply, hn]
  refine ⟨⟨n, hrun⟩, fun he => hne ?_⟩
  exact exhausted_error_iff.2 (exhausted_error_iff.1 he)

/-- One more nesting around a run does not change how it ends. -/
theorem Ends.deeper {r r' : Nat → Run α} {x : EStateM.Result Failure Store α}
    (h : ∀ n, r' (n + 1) s = r n s) (hr : Ends r s x) : Ends r' s x := by
  obtain ⟨⟨n, hn⟩, hne⟩ := hr
  exact ⟨⟨n + 1, by rw [h, hn]⟩, hne⟩

theorem ends_const {r : Run α} {x : EStateM.Result Failure Store α} (h : r s = x)
    (hne : ¬ Exhausted x) : Ends (fun _ => r) s x := ⟨⟨0, h⟩, hne⟩

/-! ### Sequences of forms -/

section Sequences

variable (tracing : Bool) (env : FrameId)

theorem deepens_evaluate (form : Value) : Deepens (evaluate tracing · form env) :=
  fun _ _ h => refines_evaluate tracing h form env

theorem deepens_all : ∀ forms : List Value, Deepens fun n => (evaluate tracing n).all env forms
  | [] => deepens_const _
  | form :: forms => (deepens_evaluate tracing env form).bind fun _ =>
    (deepens_all forms).bind fun _ => deepens_const _

theorem deepens_body : ∀ forms : List Value, Deepens fun n => (evaluate tracing n).body env forms
  | [] => deepens_const _
  | [form] => deepens_evaluate tracing env form
  | form :: form' :: forms => (deepens_evaluate tracing env form).bind fun _ =>
    deepens_body (form' :: forms)

theorem deepens_apply (f : Value) (args : List Value) :
    Deepens fun n => apply (evaluate tracing n) f args := by
  cases f with
  | closure id formals body frame name =>
    simp only [apply]
    split
    · exact (deepens_const _).bind fun inner => (deepens_const _).bind fun _ =>
        deepens_body tracing inner body
    · exact deepens_const _
  | _ => exact deepens_const _

end Sequences

variable {tracing : Bool} {env : FrameId} {form : Value} {forms : List Value} {v : Value}
  {vs : List Value}

theorem ends_all_nil : Ends (fun n => (evaluate tracing n).all env []) s (.ok [] s) :=
  ends_const rfl id

theorem ends_all_cons (h : Finishes tracing form env s (.ok v s'))
    (h' : Ends (fun n => (evaluate tracing n).all env forms) s' (.ok vs s'')) :
    Ends (fun n => (evaluate tracing n).all env (form :: forms)) s (.ok (v :: vs) s'') :=
  Ends.bind (deepens_evaluate tracing env form)
    (fun _ => (deepens_all tracing env forms).bind fun _ => deepens_const _) h
    (Ends.bind (deepens_all tracing env forms) (fun _ => deepens_const _) h' (ends_const rfl id))

theorem ends_all_of_error_head (h : Finishes tracing form env s (.error e s')) :
    Ends (fun n => (evaluate tracing n).all env (form :: forms)) s (.error e s') :=
  Ends.bind_error h

theorem ends_all_of_error_tail (h : Finishes tracing form env s (.ok v s'))
    (h' : Ends (fun n => (evaluate tracing n).all env forms) s' (.error e s'')) :
    Ends (fun n => (evaluate tracing n).all env (form :: forms)) s (.error e s'') :=
  Ends.bind (deepens_evaluate tracing env form)
    (fun _ => (deepens_all tracing env forms).bind fun _ => deepens_const _) h
    (Ends.bind_error h')

/-! ### Names and applications -/

variable {name : String} {id : ObjectId} {f : Value} {args : List Value} {x : Ending}

theorem finishes_symbol (h : s.frames.lookup? env name = some v) :
    Finishes false (.symbol name) env s (.ok v s) := by
  refine ⟨⟨1, ?_⟩, fun h => h⟩
  change (Run.lookup? env name >>= _) s = _
  rw [bind_apply, Run.lookup?, h]
  rfl

theorem evaluate_application (hname : ofName? name = none) (n : Nat) :
    evaluate false (n + 1) (.list id (.symbol name :: forms)) env =
      evaluateCall (evaluate false n) env (.symbol name) forms := by
  have hhead : ofHead? (.symbol name) = none := hname
  rw [evaluate, evaluateStep, hhead]
  rfl

/-- **An application** of a name that is bound to a function ends as the call of the function with the
values of the operands. -/
theorem finishes_call (hname : ofName? name = none) (hf : s.frames.lookup? env name = some f)
    (hfun : f.isFunction = true)
    (hargs : Ends (fun n => (evaluate false n).all env forms) s (.ok args s'))
    (hcall : Ends (fun n => apply (evaluate false n) f args) s' x) :
    Finishes false (.list id (.symbol name :: forms)) env s x := by
  refine Ends.deeper (fun n => by rw [evaluate_application hname]) ?_
  refine Ends.bind (deepens_evaluate false env _) (fun f => ?_) (finishes_symbol hf) ?_
  · split
    · exact (deepens_all false env forms).bind fun _ => deepens_apply false f _
    · exact deepens_const _
  · simp only [hfun, if_true]
    exact Ends.bind (deepens_all false env forms) (fun _ => deepens_apply false f _) hargs hcall

/-- An application fails as its operands do. -/
theorem finishes_call_of_error (hname : ofName? name = none)
    (hf : s.frames.lookup? env name = some f) (hfun : f.isFunction = true)
    (hargs : Ends (fun n => (evaluate false n).all env forms) s (.error e s')) :
    Finishes false (.list id (.symbol name :: forms)) env s (.error e s') := by
  refine Ends.deeper (fun n => by rw [evaluate_application hname]) ?_
  refine Ends.bind (deepens_evaluate false env _) (fun f => ?_) (finishes_symbol hf) ?_
  · split
    · exact (deepens_all false env forms).bind fun _ => deepens_apply false f _
    · exact deepens_const _
  · simp only [hfun, if_true]
    exact Ends.bind_error hargs

/-- A store with a new frame inside a frame, in which the bindings are made. -/
def Store.enter (s : Store) (frame : FrameId) (bindings : Bindings) : Store :=
  { s with frames := (s.frames.addChild frame).defineAll s.frames.size bindings }

/-- **The call of a closure** ends as its body does in a new frame. -/
theorem ends_apply_closure {formals : List String} {frame : FrameId}
    (hlength : args.length = formals.length)
    (h : Finishes tracing form s.frames.size (s.enter frame (formals.zip args)) x) :
    Ends (fun n => apply (evaluate tracing n) (.closure id formals [form] frame name) args) s x := by
  obtain ⟨⟨n, hn⟩, hne⟩ := h
  have happly : apply (evaluate tracing n) (.closure id formals [form] frame name) args s = x := by
    rw [apply, if_pos hlength]
    exact hn
  exact ⟨⟨n, happly⟩, hne⟩

/-- The call of a builtin function nests nothing. -/
theorem ends_apply_builtin {b : Builtin} (h : b.call args s = x) (hne : ¬ Exhausted x) :
    Ends (fun n => apply (evaluate tracing n) (.builtin id b) args) s x :=
  ends_const h hne

/-- **An application** of a name that is bound to a builtin function. -/
theorem finishes_builtin {b : Builtin} {i : ObjectId} (hname : ofName? b.name = none)
    (hf : s.frames.lookup? env b.name = some (.builtin i b))
    (hargs : Ends (fun n => (evaluate false n).all env forms) s (.ok args s'))
    (hcall : b.call args s' = .ok v s'') :
    Finishes false (.list id (.symbol b.name :: forms)) env s (.ok v s'') :=
  finishes_call hname hf rfl hargs (ends_apply_builtin hcall fun h => h)

/-! ### Choices -/

theorem finishes_if {test yes no : Value} (htest : Finishes false test env s (.ok v s'))
    (h : Finishes false (if v.isTruthy then yes else no) env s' x) :
    Finishes false (.list id [.symbol "if", test, yes, no]) env s x := by
  have hrun : ∀ n, evaluate false (n + 1) (.list id [.symbol "if", test, yes, no]) env =
      (evaluate false n test env >>= fun condition =>
        evaluate false n (if condition.isTruthy then yes else no) env) := by
    intro n
    change runIf (evaluate false n) false env [test, yes, no] = _
    refine congrArg (evaluate false n test env >>= ·) (funext fun condition => ?_)
    cases condition.isTruthy <;> rfl
  refine Ends.deeper (fun n => by rw [hrun]) ?_
  exact Ends.bind (deepens_evaluate false env test) (fun _ => deepens_evaluate false env _) htest h

theorem finishes_cond {clauses : List Value} (hclauses : clauses ≠ [])
    (h : Ends (fun n => runClauses (evaluate false n) env clauses) s x) :
    Finishes false (.list id (.symbol "cond" :: clauses)) env s x := by
  refine Ends.deeper (fun n => ?_) h
  obtain ⟨c, cs, rfl⟩ := List.exists_cons_of_ne_nil hclauses
  rfl

section Clauses

variable {test body : Value} {clauses : List Value}

theorem deepens_runClauses (env : FrameId) : ∀ clauses : List Value,
    Deepens fun n => runClauses (evaluate false n) env clauses
  | [] => deepens_const _
  | c :: cs => by
    simp only [runClauses]
    cases clause? c with
    | none => exact deepens_const _
    | some clause =>
      obtain ⟨test, body⟩ := clause
      have hrest : ∀ v : Value, Deepens fun n => if v.isTruthy then
          if body.isEmpty then pure v else (evaluate false n).body env body
          else runClauses (evaluate false n) env cs := by
        intro v
        split
        · split
          · exact deepens_const _
          · exact deepens_body false env body
        · exact deepens_runClauses env cs
      dsimp only
      split
      · exact (deepens_const _).bind hrest
      · exact (deepens_evaluate false env test).bind hrest

theorem runClauses_cons (helse : isElse test = false) (n : Nat) :
    runClauses (evaluate false n) env (.list id [test, body] :: clauses) =
      (evaluate false n test env >>= fun v =>
        if v.isTruthy then evaluate false n body env
        else runClauses (evaluate false n) env clauses) := by
  rw [runClauses_of_test _ env helse]
  rfl

theorem deepens_rest (env : FrameId) (body : Value) (clauses : List Value) (v : Value) :
    Deepens fun n => if v.isTruthy then evaluate false n body env
      else runClauses (evaluate false n) env clauses := by
  split
  · exact deepens_evaluate false env body
  · exact deepens_runClauses env clauses

/-- A clause whose test is true is taken. -/
theorem ends_clauses_taken (helse : isElse test = false)
    (htest : Finishes false test env s (.ok v s')) (hv : v.isTruthy = true)
    (h : Finishes false body env s' x) :
    Ends (fun n => runClauses (evaluate false n) env (.list id [test, body] :: clauses)) s x := by
  simp only [runClauses_cons helse]
  refine Ends.bind (deepens_evaluate false env test) (deepens_rest env body clauses) htest ?_
  simp only [hv, if_true]
  exact h

/-- A clause whose test is false is passed over. -/
theorem ends_clauses_passed (helse : isElse test = false)
    (htest : Finishes false test env s (.ok v s')) (hv : v.isTruthy = false)
    (h : Ends (fun n => runClauses (evaluate false n) env clauses) s' x) :
    Ends (fun n => runClauses (evaluate false n) env (.list id [test, body] :: clauses)) s x := by
  simp only [runClauses_cons helse]
  refine Ends.bind (deepens_evaluate false env test) (deepens_rest env body clauses) htest ?_
  simp only [hv, Bool.false_eq_true, if_false]
  exact h

theorem ends_clauses_of_error (helse : isElse test = false)
    (htest : Finishes false test env s (.error e s')) :
    Ends (fun n => runClauses (evaluate false n) env (.list id [test, body] :: clauses)) s
      (.error e s') := by
  simp only [runClauses_cons helse]
  exact Ends.bind_error htest

theorem ends_clauses_else (h : Finishes false body env s x) :
    Ends (fun n => runClauses (evaluate false n) env (.list id [.symbol "else", body] :: clauses)) s
      x := h

end Clauses

end MiniLisp
