import MiniLisp.Proofs.Eval.Renaming
import MiniLisp.Proofs.Interpreter

/-! # New objects are new

A store is fresh if every object in its frames was made before: its identity is below the next one. The
store of a new interpreter is fresh, and evaluation keeps stores fresh (`fresh_evaluate`), so an
interpreter's store always is (`Interpreter.fresh_eval`).

That evaluation keeps a store fresh follows from its indifference to identities: what is made before a
bound is kept by the renaming that moves all identities from there on, hence so is the outcome
(`fresh_of_follows`). -/

namespace MiniLisp

/-- **Every object in the frames was made before.** -/
def Store.Fresh (s : Store) : Prop := s.frames.IdsBelow s.nextId

/-- Keeping what was made before `n` leaves a store as it is if there is nothing else in it. -/
theorem Store.renamed_keeping_iff {s : Store} {n : ObjectId} :
    s.Renamed (.keeping n) s ↔ s.frames.IdsBelow n := by
  have hframes : Frames.Renamed (.keeping n) s.frames s.frames ↔ _ := Frames.renamed_iff rfl
  rw [← Frames.rename_eq_self_iff s.frames (Renaming.shift_eq_self_iff n), eq_comm]
  exact ⟨fun h => hframes.1 h.frames, fun h => ⟨hframes.2 h, rfl, rfl, rfl, rfl, rfl⟩⟩

variable {s : Store} {form : Value}

/-- **A run keeps a store fresh** if it does not care for the identities of what is made after a bound,
whatever the bound. -/
theorem fresh_of_follows {r : Run Value} (hs : s.Fresh)
    (hr : ∀ n, s.nextId ≤ n → Run.Follows (.keeping n) (fun _ => True)
      (Value.relabel (Renaming.keeping n).map) r r) :
    match r s with
    | .ok v s' => s.nextId ≤ s'.nextId ∧ s'.Fresh ∧ v.IdsBelow s'.nextId
    | .error _ s' => s.nextId ≤ s'.nextId ∧ s'.Fresh := by
  have hkept : ∀ n, s.nextId ≤ n → s.Renamed (.keeping n) s := fun n hn =>
    Store.renamed_keeping_iff.2 fun i b hb => (hs i b hb).mono hn
  have hmono := hr s.nextId (Nat.le_refl _) s (Nat.zero_le _)
  cases hrs : r s with
  | ok v s' =>
    rw [hrs] at hmono
    have h := hr s'.nextId hmono.1 s (Nat.zero_le _)
    rw [hrs] at h
    obtain ⟨t', heq, ht'⟩ := h.2 (Nat.le_refl _) s (hkept _ h.1)
    have hparts := EStateM.Result.ok.inj (hrs.symm.trans heq)
    rw [← hparts.2] at ht'
    exact ⟨h.1, Store.renamed_keeping_iff.1 ht',
      (Value.relabel_eq_self_iff (Renaming.shift_eq_self_iff _) v).1 hparts.1.symm⟩
  | error e s' =>
    rw [hrs] at hmono
    have h := hr s'.nextId hmono.1 s (Nat.zero_le _)
    rw [hrs] at h
    obtain ⟨t', heq, ht'⟩ := h.2 trivial (Nat.le_refl _) s (hkept _ h.1)
    have hparts := EStateM.Result.error.inj (hrs.symm.trans heq)
    rw [← hparts.2] at ht'
    exact ⟨h.1, Store.renamed_keeping_iff.1 ht'⟩

/-- What was made before a bound is kept. -/
theorem Value.relabel_keeping {v : Value} {m n : ObjectId} (h : v.IdsBelow m) (hmn : m ≤ n) :
    v.relabel (Renaming.keeping n).map = v :=
  (relabel_eq_self_iff (Renaming.shift_eq_self_iff n) v).2 (h.mono hmn)

/-- **Evaluation keeps a store fresh**, whatever the outcome, and its value was made in it. -/
theorem fresh_evaluate (tracing : Bool) (fuel : Nat) (env : FrameId) (hs : s.Fresh)
    (hform : form.IdsBelow s.nextId) :
    match evaluate tracing fuel form env s with
    | .ok v s' => s.nextId ≤ s'.nextId ∧ s'.Fresh ∧ v.IdsBelow s'.nextId
    | .error _ s' => s.nextId ≤ s'.nextId ∧ s'.Fresh := by
  refine fresh_of_follows hs fun n hn => ?_
  have h := follows_evaluate (.keeping n) tracing fuel form env
  rwa [Value.relabel_keeping hform hn] at h

/-- **A call keeps a store fresh**, whatever the outcome, and its value was made in it. -/
theorem fresh_apply (tracing : Bool) (fuel : Nat) {f : Value} {args : List Value} (hs : s.Fresh)
    (hf : f.IdsBelow s.nextId) (hargs : ∀ v ∈ args, v.IdsBelow s.nextId) :
    match apply (evaluate tracing fuel) f args s with
    | .ok v s' => s.nextId ≤ s'.nextId ∧ s'.Fresh ∧ v.IdsBelow s'.nextId
    | .error _ s' => s.nextId ≤ s'.nextId ∧ s'.Fresh := by
  refine fresh_of_follows hs fun n hn => ?_
  have h := follows_apply (follows_evaluate (.keeping n) tracing fuel) f args
  have hkept : args.map (Value.relabel (Renaming.keeping n).map) = args :=
    Value.map_relabel_eq_self_iff.2 fun v hv => Value.relabel_keeping (hargs v hv) hn
  rwa [Value.relabel_keeping hf hn, hkept] at h

mutual

/-- A datum is loaded with identities of its own. -/
theorem Value.idsBelow_ofDatum : ∀ (d : Datum) (next : ObjectId),
    next ≤ (ofDatum next d).2 ∧ (ofDatum next d).1.IdsBelow (ofDatum next d).2
  | .atom _, next => ⟨Nat.le_refl next, trivial⟩
  | .list items, next => by
    obtain ⟨hle, hbelow⟩ := allIdsBelow_ofData items (next + 1)
    exact ⟨Nat.le_of_succ_le hle, hle, hbelow⟩

theorem Value.allIdsBelow_ofData : ∀ (ds : List Datum) (next : ObjectId),
    next ≤ (ofData next ds).2 ∧ AllIdsBelow (ofData next ds).2 (ofData next ds).1
  | [], next => ⟨Nat.le_refl next, trivial⟩
  | d :: ds, next => by
    obtain ⟨hle, hbelow⟩ := idsBelow_ofDatum d next
    obtain ⟨hle', hbelow'⟩ := allIdsBelow_ofData ds (ofDatum next d).2
    exact ⟨Nat.le_trans hle hle', hbelow.mono hle', hbelow'⟩

end

namespace Interpreter

theorem fresh_newStore (clock : DateTime) : (newStore clock).Fresh := by
  refine frames_newStore (J := fun fs => fs.IdsBelow Builtin.all.length) clock ?_
    fun _ _ _ hi hfs => Frames.Binds.define hfs hi
  intro i b hb
  rw [vars_addRoot_empty] at hb
  cases hb

theorem fresh_datumRun (tracing : Bool) (d : Datum) (s : Store) (h : s.Fresh) :
    ((datumRun tracing (silently d) d).after s).Fresh := by
  obtain ⟨hle, hbelow⟩ := Value.idsBelow_ofDatum d s.nextId
  have hloaded : Store.Fresh { s with nextId := (Value.ofDatum s.nextId d).2 } :=
    fun i b hb => (h i b hb).mono hle
  have heval := fresh_evaluate tracing nesting globalFrame hloaded hbelow
  unfold Run.after
  rw [datumRun_silently]
  revert heval
  cases evaluate tracing nesting (Value.ofDatum s.nextId d).1 globalFrame
      { s with nextId := (Value.ofDatum s.nextId d).2 } with
  | ok v s' => exact fun heval => heval.2.1
  | error e s' => exact fun heval => heval.2

/-- **The store of an interpreter stays fresh**, whatever texts it evaluates. -/
theorem fresh_eval (it : Interpreter) (source : String) (h : it.store.Fresh) :
    (it.eval source).2.store.Fresh :=
  store_eval fresh_datumRun it source h

end Interpreter

end MiniLisp
