import MiniLisp.Proofs.Eval.Finishes
import MiniLisp.Proofs.Eval.Freshness
import MiniLisp.Proofs.Eval.Shape

/-! # The `let` forms in terms of the other forms

A `let` is the call of a `lambda`, a `let*` is a `let` without bindings whose body starts with
definitions, and a `letrec` is a `let` of `nil`s whose body starts with assignments. The forms are
described by what they are built of (`IsLet`, `IsCall`), whatever the identities of their lists.

* `same_call`: the call makes one function that the `let` does not make, so it ends as the `let` does
  up to the identities of the objects made after it (`SameEnding`).
* `block_body`: definitions and assignments at the start of a body do what `let*` and `letrec` do, one
  nesting deeper. -/

namespace MiniLisp

open Run SpecialForm

/-! ### Endings up to identity -/

/-- A store with the same bindings in every frame up to identity, and the same output. -/
def SameStore (f : ObjectId → ObjectId) (s s' : Store) : Prop :=
  s'.frames = s.frames.rename f ∧ s'.output = s.output ∧ s'.trace = s.trace ∧
    s'.depth = s.depth ∧ s'.clock = s.clock

/-- **The same ending up to identity**: the same value, or the same failure. -/
def SameEnding (f : ObjectId → ObjectId) : Ending → Ending → Prop
  | .ok v s, .ok v' s' => v' = v.rename f ∧ SameStore f s s'
  | .error e s, .error e' s' => e' = e ∧ SameStore f s s'
  | _, _ => False

theorem SameEnding.exhausted_iff {f : ObjectId → ObjectId} {r r' : Ending}
    (h : SameEnding f r r') : Exhausted r' ↔ Exhausted r := by
  cases r with
  | ok v s => cases r' with
    | ok v' s' => exact Iff.rfl
    | error e' s' => cases h
  | error e s => cases r' with
    | ok v' s' => cases h
    | error e' s' => rw [exhausted_error_iff, exhausted_error_iff, h.1]

/-- **The form `form'` behaves as `form`**: one finishes if the other does, with the same ending up to
the identities of the objects that are made on the way. -/
def Alike (form form' : Value) (env : FrameId) (s : Store) : Prop :=
  ∃ f : ObjectId → ObjectId, (∀ i j, f i = f j → i = j) ∧ (∀ i, i < s.nextId → f i = i) ∧
    (∀ r, Finishes false form env s r → ∃ r', Finishes false form' env s r' ∧ SameEnding f r r') ∧
    ∀ r', Finishes false form' env s r' → ∃ r, Finishes false form env s r ∧ SameEnding f r r'

/-! ### The forms -/

/-- The form `(head name value)`. -/
def IsStep (head : String) (p : String × Value) (v : Value) : Prop :=
  ∃ id, v = .list id [.symbol head, .symbol p.1, p.2]

/-- The form `(head ((name value)...) body...)`. -/
def IsLet (head : String) (pairs : Bindings) (body : List Value) (v : Value) : Prop :=
  ∃ id id' bs, v = .list id (.symbol head :: .list id' bs :: body) ∧ List.Forall₂ IsBinding pairs bs

/-- The form `((lambda (name...) body...) value...)`. -/
def IsCall (pairs : Bindings) (body : List Value) (v : Value) : Prop :=
  ∃ id id' id'', v = .list id (.list id' (.symbol "lambda" ::
    .list id'' (pairs.map fun p => .symbol p.1) :: body) :: pairs.map (·.2))

/-- The form `(let () (define name value)... body...)`. -/
def IsLetOfDefinitions (pairs : Bindings) (body : List Value) (v : Value) : Prop :=
  ∃ steps, List.Forall₂ (IsStep "define") pairs steps ∧ IsLet "let" [] (steps ++ body) v

/-- The form `(let ((name nil)...) (set! name value)... body...)`. -/
def IsLetOfAssignments (pairs : Bindings) (body : List Value) (v : Value) : Prop :=
  ∃ steps, List.Forall₂ (IsStep "set!") pairs steps ∧
    IsLet "let" (pairs.map fun p => (p.1, .nil)) (steps ++ body) v

variable {pairs : Bindings} {body : List Value} {form form' : Value} {env : FrameId} {s : Store}

/-! ### `let` and the call of a `lambda` -/

theorem evaluate_let (hbody : body ≠ []) (h : IsLet "let" pairs body form) (fuel : Nat) :
    evaluate false (fuel + 1) form env = letRun (evaluate false fuel) env pairs body := by
  obtain ⟨id, id', bs, rfl, hbs⟩ := h
  change runLet (evaluate false fuel) env (.list id' bs :: body) = _
  rw [runLet, letParts_of_isBinding "let" hbody hbs]
  rfl

theorem length_of_all (ev : Evaluator) (env : FrameId) : ∀ {forms vs : List Value} {s s' : Store},
    ev.all env forms s = .ok vs s' → vs.length = forms.length
  | [], vs, s, s', h => by
    cases h
    rfl
  | e :: es, vs, s, s', h => by
    rw [Evaluator.all, bind_apply] at h
    cases he : ev e env s with
    | error e s₁ => rw [he] at h; cases h
    | ok v s₁ =>
      rw [he] at h
      change (ev.all env es >>= _) s₁ = _ at h
      rw [bind_apply] at h
      cases hes : ev.all env es s₁ with
      | error e s₂ => rw [hes] at h; cases h
      | ok ws s₂ =>
        rw [hes] at h
        cases h
        rw [List.length_cons, List.length_cons, length_of_all ev env hes]

/-- Two runs that go on from the same run are equal if they go on equally. -/
theorem bind_apply_congr {α β : Type} {r : Run α} {f g : α → Run β}
    (h : ∀ a s', r s = .ok a s' → f a s' = g a s') : (r >>= f) s = (r >>= g) s := by
  rw [bind_apply, bind_apply]
  cases hr : r s with
  | ok a s' => exact h a s' hr
  | error e s' => rfl

/-- **The call of a `lambda`** does what the `let` does, after it has made the function. -/
theorem evaluate_call (hbody : body ≠ []) (h : IsCall pairs body form) (fuel : Nat) :
    evaluate false (fuel + 2) form env s =
      letRun (evaluate false (fuel + 1)) env pairs body { s with nextId := s.nextId + 1 } := by
  obtain ⟨id, id', id'', rfl⟩ := h
  obtain ⟨e, es, rfl⟩ := List.exists_cons_of_ne_nil hbody
  have hnames : (pairs.map fun p => Value.symbol p.1) = (pairs.map (·.1)).map .symbol := by
    rw [List.map_map]
    rfl
  have hhead : evaluate false (fuel + 1) (.list id' (.symbol "lambda" ::
      .list id'' (pairs.map fun p => .symbol p.1) :: e :: es)) env s =
        .ok (.closure s.nextId (pairs.map (·.1)) (e :: es) env "lambda")
          { s with nextId := s.nextId + 1 } := by
    change runLambda env (.list id'' (pairs.map fun p => .symbol p.1) :: e :: es) s = _
    rw [hnames, runLambda, formals_symbols]
    rfl
  change evaluateCall (evaluate false (fuel + 1)) env _ (pairs.map (·.2)) s = _
  rw [evaluateCall, bind_apply, hhead]
  refine bind_apply_congr fun vs s' hvs => ?_
  have hlength : vs.length = (pairs.map (·.1)).length := by
    rw [length_of_all _ _ hvs, List.length_map, List.length_map]
  rw [apply, if_pos hlength]

/-- Making one object in a fresh store moves the identities of what is made afterwards by one. -/
theorem renamed_skipping_of_fresh (hs : s.Fresh) (stop : ObjectId) :
    s.Renamed (.skipping s.nextId stop) { s with nextId := s.nextId + 1 } := by
  have h : s.frames.rename (Renaming.shift s.nextId) = s.frames :=
    (Frames.rename_eq_self_iff s.frames (Renaming.shift_eq_self_iff s.nextId)).2 hs
  have hframes : Frames.Renamed (.skipping s.nextId stop) s.frames s.frames :=
    (Frames.renamed_iff rfl).2 h.symm
  exact ⟨hframes, rfl, rfl, rfl, rfl, rfl⟩

/-- Where only objects are renamed, the renamed store is the same up to their identities. -/
theorem sameStore_of_renamed {ρ : Renaming} {f : ObjectId → ObjectId} (hρ : ρ.map = .objects f)
    {t : Store} (h : s.Renamed ρ t) : SameStore f s t :=
  ⟨(Frames.renamed_iff hρ).1 h.frames, h.output, h.trace, h.depth, h.clock⟩

/-- A run that another one follows from one object later ends the same. -/
theorem sameEnding_of_follows {r r' : Run Value} (hs : s.Fresh)
    (h : ∀ stop, Run.Follows (.skipping s.nextId stop) (fun _ => True)
      (Value.relabel (.objects (Renaming.shift s.nextId))) r r') :
    SameEnding (Renaming.shift s.nextId) (r s) (r' { s with nextId := s.nextId + 1 }) := by
  cases hr : r s with
  | ok v s' =>
    have hstep := h s'.nextId s (Nat.le_refl _)
    rw [hr] at hstep
    obtain ⟨t', hrt, ht'⟩ := hstep.2 (Nat.le_refl _) _ (renamed_skipping_of_fresh hs s'.nextId)
    rw [hrt]
    exact ⟨(Value.rename_eq_relabel _ v).symm, sameStore_of_renamed rfl ht'⟩
  | error e s' =>
    have hstep := h s'.nextId s (Nat.le_refl _)
    rw [hr] at hstep
    obtain ⟨t', hrt, ht'⟩ := hstep.2 trivial (Nat.le_refl _) _
      (renamed_skipping_of_fresh hs s'.nextId)
    rw [hrt]
    exact ⟨rfl, sameStore_of_renamed rfl ht'⟩

/-- **A call of a `lambda` ends as the `let` does**, up to the identities of what is made after the
function. -/
theorem same_call (hs : s.Fresh) (hpairs : ∀ p ∈ pairs, p.2.IdsBelow s.nextId)
    (hbodyIds : ∀ v ∈ body, v.IdsBelow s.nextId) (hbody : body ≠ [])
    (hlet : IsLet "let" pairs body form) (hcall : IsCall pairs body form') (fuel : Nat) :
    SameEnding (Renaming.shift s.nextId) (evaluate false (fuel + 2) form env s)
      (evaluate false (fuel + 2) form' env s) := by
  have hfix := Renaming.shift_eq_self_iff s.nextId
  rw [evaluate_call hbody hcall]
  refine sameEnding_of_follows hs fun stop => ?_
  have hbodyFix : body.map (Value.relabel (Renaming.skipping s.nextId stop).map) = body :=
    Value.map_relabel_eq_self_iff.2 fun v hv => (Value.relabel_eq_self_iff hfix v).2 (hbodyIds v hv)
  have hpairsFix : Bindings.relabel (Renaming.skipping s.nextId stop).map pairs = pairs :=
    (Bindings.rename_eq_relabel _ pairs).symm.trans
      ((Bindings.rename_eq_self_iff hfix pairs).2 hpairs)
  have h : Run.Follows (.skipping s.nextId stop) (fun _ => True) _
      (letRun (evaluate false (fuel + 1)) env pairs body) _ :=
    follows_letRun (follows_evaluate (.skipping s.nextId stop) false (fuel + 1)) pairs body
  rw [hbodyFix, hpairsFix] at h
  rw [evaluate_let hbody hlet]
  exact h

theorem alike_call (hs : s.Fresh) (hpairs : ∀ p ∈ pairs, p.2.IdsBelow s.nextId)
    (hbodyIds : ∀ v ∈ body, v.IdsBelow s.nextId) (hbody : body ≠ [])
    (hlet : IsLet "let" pairs body form) (hcall : IsCall pairs body form') :
    Alike form form' env s := by
  have hsame : ∀ fuel, SameEnding (Renaming.shift s.nextId) (evaluate false (fuel + 2) form env s)
      (evaluate false (fuel + 2) form' env s) := same_call hs hpairs hbodyIds hbody hlet hcall
  refine ⟨Renaming.shift s.nextId, fun i j => Renaming.shift_injective s.nextId,
    fun i => (Renaming.shift_eq_self_iff s.nextId i).2, ?_, ?_⟩
  · rintro r ⟨⟨fuel, hr⟩, hne⟩
    have h := hsame fuel
    rw [evaluate_eq_of_le (Nat.le_add_right fuel 2) hr hne] at h
    exact ⟨_, ⟨⟨fuel + 2, rfl⟩, fun he => hne (h.exhausted_iff.1 he)⟩, h⟩
  · rintro r' ⟨⟨fuel, hr'⟩, hne⟩
    have h := hsame fuel
    rw [evaluate_eq_of_le (Nat.le_add_right fuel 2) hr' hne] at h
    exact ⟨_, ⟨⟨fuel + 2, rfl⟩, fun he => hne (h.exhausted_iff.2 he)⟩, h⟩

/-! ### `let*` and `letrec` -/

/-- Binds names to initial values in a new frame, then to their own values in turn, and evaluates the
body there. The body may be evaluated otherwise than the values. -/
def block (bind : FrameId → String → Value → Run Unit) (initial : Bindings) (ev ev' : Evaluator)
    (env : FrameId) (pairs : Bindings) (body : List Value) : Run Value := do
  let inner ← Run.newFrame env
  Run.defineAll inner initial
  bindInTurn (bind inner) ev inner pairs
  ev'.body inner body

/-- The names of the pairs, all bound to `nil`. -/
def nils (pairs : Bindings) : Bindings := pairs.map fun p => (p.1, .nil)

theorem evaluate_letStar (hbody : body ≠ []) (h : IsLet "let*" pairs body form) (fuel : Nat) :
    evaluate false (fuel + 1) form env =
      block Run.define [] (evaluate false fuel) (evaluate false fuel) env pairs body := by
  obtain ⟨id, id', bs, rfl, hbs⟩ := h
  change runLetStar (evaluate false fuel) env (.list id' bs :: body) = _
  rw [runLetStar, letParts_of_isBinding "let*" hbody hbs]
  simp only [defineInTurn_eq]
  rfl

theorem evaluate_letrec (hbody : body ≠ []) (h : IsLet "letrec" pairs body form) (fuel : Nat) :
    evaluate false (fuel + 1) form env =
      block Run.assign (nils pairs) (evaluate false fuel) (evaluate false fuel) env pairs body := by
  obtain ⟨id, id', bs, rfl, hbs⟩ := h
  change runLetrec (evaluate false fuel) env (.list id' bs :: body) = _
  rw [runLetrec, letParts_of_isBinding "letrec" hbody hbs]
  simp only [assignInTurn_eq]
  rfl

/-- **Steps at the start of a body** bind in turn. -/
theorem block_body {ev ev' : Evaluator} {inner : FrameId} {bind : String → Value → Run Unit}
    {P : String × Value → Value → Prop} (hstep : ∀ p v, P p v → ev' v inner = (do
      let w ← ev p.2 inner
      bind p.1 w
      return w)) (hbody : body ≠ []) {steps : List Value} (h : List.Forall₂ P pairs steps) :
    ev'.body inner (steps ++ body) = (do
      bindInTurn bind ev inner pairs
      ev'.body inner body) := by
  induction h with
  | nil => exact (pure_bind () fun _ => ev'.body inner body).symm
  | @cons p v pairs steps hp _ ih =>
    have hcons : ev'.body inner (v :: (steps ++ body)) =
        (ev' v inner >>= fun _ => ev'.body inner (steps ++ body)) := by
      obtain ⟨e, es, he⟩ := List.exists_cons_of_ne_nil
        (List.append_ne_nil_of_right_ne_nil steps hbody)
      rw [he]
      rfl
    rw [List.cons_append, hcons, hstep p v hp, ih, bindInTurn]
    simp only [bind_assoc, pure_bind]

theorem evaluate_step_define {p : String × Value} {v : Value} (h : IsStep "define" p v) (fuel : Nat)
    (inner : FrameId) : evaluate false (fuel + 1) v inner = (do
      let w ← evaluate false fuel p.2 inner
      Run.define inner p.1 w
      return w) := by
  obtain ⟨id, rfl⟩ := h
  rfl

theorem evaluate_step_set {p : String × Value} {v : Value} (h : IsStep "set!" p v) (fuel : Nat)
    (inner : FrameId) : evaluate false (fuel + 1) v inner = (do
      let w ← evaluate false fuel p.2 inner
      Run.assign inner p.1 w
      return w) := by
  obtain ⟨id, rfl⟩ := h
  rfl

theorem evaluate_letOfDefinitions (hbody : body ≠ []) (h : IsLetOfDefinitions pairs body form)
    (fuel : Nat) : evaluate false (fuel + 2) form env =
      block Run.define [] (evaluate false fuel) (evaluate false (fuel + 1)) env pairs body := by
  obtain ⟨steps, hsteps, hlet⟩ := h
  rw [evaluate_let (List.append_ne_nil_of_right_ne_nil steps hbody) hlet]
  change (Run.newFrame env >>= fun inner => Run.defineAll inner [] >>= fun _ =>
    (evaluate false (fuel + 1)).body inner (steps ++ body)) = _
  have hbodies : ∀ inner, (evaluate false (fuel + 1)).body inner (steps ++ body) = (do
      bindInTurn (Run.define inner) (evaluate false fuel) inner pairs
      (evaluate false (fuel + 1)).body inner body) := fun inner =>
    block_body (P := IsStep "define") (fun p v hp => evaluate_step_define hp fuel inner) hbody hsteps
  simp only [hbodies]
  rfl

theorem all_nils (fuel : Nat) (env : FrameId) : ∀ pairs : Bindings,
    (evaluate false (fuel + 1)).all env ((nils pairs).map (·.2)) = pure ((nils pairs).map (·.2))
  | [] => rfl
  | _ :: pairs => by
    have hnil : evaluate false (fuel + 1) .nil env = pure .nil := rfl
    change (evaluate false (fuel + 1) .nil env >>= fun v =>
      (evaluate false (fuel + 1)).all env ((nils pairs).map (·.2)) >>= fun vs => pure (v :: vs)) = _
    rw [hnil, pure_bind, all_nils fuel env pairs, pure_bind]
    rfl

theorem zip_nils : ∀ pairs : Bindings,
    ((nils pairs).map (·.1)).zip ((nils pairs).map (·.2)) = nils pairs
  | [] => rfl
  | p :: pairs => congrArg ((p.1, Value.nil) :: ·) (zip_nils pairs)

theorem evaluate_letOfAssignments (hbody : body ≠ []) (h : IsLetOfAssignments pairs body form)
    (fuel : Nat) : evaluate false (fuel + 2) form env =
      block Run.assign (nils pairs) (evaluate false fuel) (evaluate false (fuel + 1)) env pairs
        body := by
  obtain ⟨steps, hsteps, hlet⟩ := h
  rw [evaluate_let (List.append_ne_nil_of_right_ne_nil steps hbody) hlet]
  change letRun _ env (nils pairs) _ = _
  rw [letRun, all_nils, pure_bind, zip_nils]
  have hbodies : ∀ inner, (evaluate false (fuel + 1)).body inner (steps ++ body) = (do
      bindInTurn (Run.assign inner) (evaluate false fuel) inner pairs
      (evaluate false (fuel + 1)).body inner body) := fun inner =>
    block_body (P := IsStep "set!") (fun p v hp => evaluate_step_set hp fuel inner) hbody hsteps
  simp only [hbodies]
  rfl

/-! ### More nesting for a block -/

theorem refines_body {m n : Nat} (h : m ≤ n) (env : FrameId) : ∀ forms : List Value,
    Refines ((evaluate false m).body env forms) ((evaluate false n).body env forms)
  | [] => .refl _
  | [e] => refines_evaluate false h e env
  | e :: e' :: es => (refines_evaluate false h e env).bind fun _ => refines_body h env (e' :: es)

theorem refines_bindInTurn {m n : Nat} (h : m ≤ n) (bind : String → Value → Run Unit)
    (inner : FrameId) : ∀ pairs : Bindings, Refines (bindInTurn bind (evaluate false m) inner pairs)
      (bindInTurn bind (evaluate false n) inner pairs)
  | [] => .refl _
  | (_, value) :: pairs => by
    refine (refines_evaluate false h value inner).bind fun v => ?_
    exact (Refines.refl _).bind fun _ => refines_bindInTurn h bind inner pairs

theorem refines_block (bind : FrameId → String → Value → Run Unit) (initial : Bindings)
    {m m' n n' : Nat} (hm : m ≤ n) (hm' : m' ≤ n') (env : FrameId) (pairs : Bindings)
    (body : List Value) :
    Refines (block bind initial (evaluate false m) (evaluate false m') env pairs body)
      (block bind initial (evaluate false n) (evaluate false n') env pairs body) := by
  refine (Refines.refl _).bind fun inner => (Refines.refl _).bind fun _ => ?_
  exact (refines_bindInTurn hm (bind inner) inner pairs).bind fun _ => refines_body hm' inner body

/-- A form that evaluates as a block and a form that evaluates its values one nesting deeper finish in
the same ways. -/
theorem finishes_iff_of_block {bind : FrameId → String → Value → Run Unit} {initial : Bindings}
    (h : ∀ fuel, evaluate false (fuel + 1) form env =
      block bind initial (evaluate false fuel) (evaluate false fuel) env pairs body)
    (h' : ∀ fuel, evaluate false (fuel + 2) form' env =
      block bind initial (evaluate false fuel) (evaluate false (fuel + 1)) env pairs body)
    (r : Ending) : Finishes false form env s r ↔ Finishes false form' env s r := by
  have hdeeper : ∀ fuel, Refines (evaluate false fuel form env)
      (evaluate false (fuel + 2) form' env) := by
    intro fuel
    refine (refines_evaluate false (Nat.le_succ fuel) form env).trans ?_
    rw [h, h']
    exact refines_block bind initial (Nat.le_refl fuel) (Nat.le_succ fuel) env pairs body
  have hback : ∀ fuel, Refines (evaluate false fuel form' env)
      (evaluate false (fuel + 2) form env) := by
    intro fuel
    refine (refines_evaluate false (Nat.le_add_right fuel 2) form' env).trans ?_
    rw [h', h]
    exact refines_block bind initial (Nat.le_succ fuel) (Nat.le_refl (fuel + 1)) env pairs body
  exact finishes_iff_of_refines hdeeper hback

/-- **The `let` forms are what they abbreviate.** In a store whose objects and those of the forms were
all made before, a `let` behaves as the call of a `lambda`; in every store a `let*` and a `letrec`
finish exactly as a `let` whose body starts with definitions or assignments. -/
theorem let_forms (pairs : Bindings) {body : List Value} (hbody : body ≠ []) (env : FrameId)
    (s : Store) (form form' : Value) :
    (s.Fresh → (∀ p ∈ pairs, p.2.IdsBelow s.nextId) → (∀ v ∈ body, v.IdsBelow s.nextId) →
      IsLet "let" pairs body form → IsCall pairs body form' → Alike form form' env s) ∧
    (IsLet "let*" pairs body form → IsLetOfDefinitions pairs body form' →
      ∀ r, Finishes false form env s r ↔ Finishes false form' env s r) ∧
    (IsLet "letrec" pairs body form → IsLetOfAssignments pairs body form' →
      ∀ r, Finishes false form env s r ↔ Finishes false form' env s r) :=
  ⟨fun hs hpairs hbodyIds hlet hcall => alike_call hs hpairs hbodyIds hbody hlet hcall,
    fun hlet hdefs => finishes_iff_of_block (evaluate_letStar hbody hlet)
      (evaluate_letOfDefinitions hbody hdefs),
    fun hlet hsets => finishes_iff_of_block (evaluate_letrec hbody hlet)
      (evaluate_letOfAssignments hbody hsets)⟩

/-- The bindings `((x 1) (x (lambda () x)))`: where a name is bound decides what its function sees. -/
def capturing : Bindings := [("x", .int 1), ("x", .list 1 [.symbol "lambda", .list 0 [], .symbol "x"])]

/-- The form `(head ((x 1) (x (lambda () x))) (x))`. -/
def letCapturing (head : String) : Value :=
  .list 7 [.symbol head, .list 6 [.list 4 [.symbol "x", .int 1],
    .list 5 [.symbol "x", .list 1 [.symbol "lambda", .list 0 [], .symbol "x"]]], .list 2 [.symbol "x"]]

/-- The call `((lambda (x x) (x)) 1 (lambda () x))`. -/
def callCapturing : Value :=
  .list 7 [.list 6 [.symbol "lambda", .list 4 [.symbol "x", .symbol "x"], .list 2 [.symbol "x"]],
    .int 1, .list 1 [.symbol "lambda", .list 0 [], .symbol "x"]]

/-- The form `(let bindings (head x 1) (head x (lambda () x)) (x))`. -/
def stepsCapturing (head : String) (bs : List Value) : Value :=
  .list 7 [.symbol "let", .list 6 bs, .list 4 [.symbol head, .symbol "x", .int 1],
    .list 5 [.symbol head, .symbol "x", .list 1 [.symbol "lambda", .list 0 [], .symbol "x"]],
    .list 2 [.symbol "x"]]

/-- A store with a global frame without bindings, in which eight objects were made. -/
def eightObjects : Store where
  frames := Frames.empty.addRoot
  nextId := 8
  output := ""
  trace := #[]
  depth := 0
  clock := ⟨⟨2025, 6, 30, by decide, by decide⟩, 43200000000, by decide⟩

/-- Where the bindings repeat a name and capture it, the `let` fails as the call of the `lambda` does,
and the `let*` and the `letrec` give functions that see their own name. -/
theorem let_forms_capturing :
    Alike (letCapturing "let") callCapturing 0 eightObjects ∧
    (∃ v s, Finishes false (letCapturing "let*") 0 eightObjects (.ok v s) ∧
      Finishes false (stepsCapturing "define" []) 0 eightObjects (.ok v s)) ∧
    ∃ v s, Finishes false (letCapturing "letrec") 0 eightObjects (.ok v s) ∧
      Finishes false (stepsCapturing "set!" [.list 3 [.symbol "x", .nil],
        .list 3 [.symbol "x", .nil]]) 0 eightObjects (.ok v s) := by
  have hbody : [Value.list 2 [.symbol "x"]] ≠ [] := by decide
  have hbindings : List.Forall₂ IsBinding capturing [.list 4 [.symbol "x", .int 1],
      .list 5 [.symbol "x", .list 1 [.symbol "lambda", .list 0 [], .symbol "x"]]] :=
    .cons ⟨4, rfl⟩ (.cons ⟨5, rfl⟩ .nil)
  have hlet : ∀ head, IsLet head capturing [.list 2 [.symbol "x"]] (letCapturing head) :=
    fun head => ⟨7, 6, _, rfl, hbindings⟩
  have hsteps : ∀ head, List.Forall₂ (IsStep head) capturing
      [.list 4 [.symbol head, .symbol "x", .int 1],
        .list 5 [.symbol head, .symbol "x", .list 1 [.symbol "lambda", .list 0 [], .symbol "x"]]] :=
    fun head => .cons ⟨4, rfl⟩ (.cons ⟨5, rfl⟩ .nil)
  refine ⟨?_, ?_, ?_⟩
  · obtain ⟨hcall, -, -⟩ := let_forms capturing hbody 0 eightObjects (letCapturing "let") callCapturing
    refine hcall ?_ ?_ ?_ (hlet "let") ⟨7, 6, 4, rfl⟩
    · intro i b hb
      cases i <;> cases hb
    · simp [capturing, eightObjects, Value.IdsBelow, Value.AllIdsBelow]
    · simp [eightObjects, Value.IdsBelow, Value.AllIdsBelow]
  · obtain ⟨-, hdefs, -⟩ := let_forms capturing hbody 0 eightObjects (letCapturing "let*")
      (stepsCapturing "define" [])
    have hfinishes : ∃ v s, Finishes false (letCapturing "let*") 0 eightObjects (.ok v s) :=
      ⟨_, _, ⟨9, rfl⟩, id⟩
    obtain ⟨v, s, h⟩ := hfinishes
    exact ⟨v, s, h, (hdefs (hlet "let*") ⟨_, hsteps "define", 7, 6, [], rfl, .nil⟩ _).1 h⟩
  · obtain ⟨-, -, hsets⟩ := let_forms capturing hbody 0 eightObjects (letCapturing "letrec")
      (stepsCapturing "set!" [.list 3 [.symbol "x", .nil], .list 3 [.symbol "x", .nil]])
    have hfinishes : ∃ v s, Finishes false (letCapturing "letrec") 0 eightObjects (.ok v s) :=
      ⟨_, _, ⟨9, rfl⟩, id⟩
    obtain ⟨v, s, h⟩ := hfinishes
    exact ⟨v, s, h, (hsets (hlet "letrec") ⟨_, hsteps "set!", 7, 6, _, rfl,
      .cons ⟨3, rfl⟩ (.cons ⟨3, rfl⟩ .nil)⟩ _).1 h⟩

end MiniLisp
