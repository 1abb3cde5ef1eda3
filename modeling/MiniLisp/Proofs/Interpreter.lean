import MiniLisp.Interpreter
import MiniLisp.Proofs.Run.Keeps

/-! # What the store of an interpreter keeps

The frame of a new interpreter binds the builtin functions only (`frames_newStore`). From then on the
store changes datum by datum. What loading and evaluating one datum keeps, all
data of a program text keep, up to the one that fails (`store_runData`, `store_eval`). -/

namespace MiniLisp.Interpreter

/-- What holds of the one frame of a new interpreter: it is kept by binding builtin functions. -/
theorem frames_newStore {J : Frames → Prop} (clock : DateTime) (hempty : J Frames.empty.addRoot)
    (hdefine : ∀ fs (i : ObjectId) (b : Builtin), i < Builtin.all.length → J fs →
      J (fs.define globalFrame b.name (.builtin i b))) : J (newStore clock).frames := by
  change J (Frames.defineAll Frames.empty.addRoot globalFrame builtinBindings)
  refine List.foldlRecOn builtinBindings _ hempty fun fs hfs b hb => ?_
  obtain ⟨i, hi, rfl⟩ := List.mem_mapIdx.1 hb
  exact hdefine fs i _ hi hfs

theorem vars_addRoot_empty (i : FrameId) : Frames.empty.addRoot.vars i = [] := by
  cases i <;> rfl

/-- What an interpreter does with one datum. -/
def datumRun (tracing : Bool) (before : Run Unit) (d : Datum) : Run Value := do
  before
  let form ← Run.load d
  evaluate tracing nesting form globalFrame

theorem evaluateDatum_snd (it : Interpreter) (before : Run Unit) (d : Datum) :
    (it.evaluateDatum before d).2 =
      { it with store := (datumRun it.tracing before d).after it.store } := by
  change (it.run (datumRun it.tracing before d)).2 = _
  unfold run Run.after
  cases datumRun it.tracing before d it.store with
  | ok v s => rfl
  | error e s => rfl

variable {P : Store → Prop}

/-- **What one datum keeps, all data keep.** -/
theorem store_runData {before : Datum → Run Unit}
    (h : ∀ tracing d s, P s → P ((datumRun tracing (before d) d).after s)) :
    ∀ (ds : List Datum) (it : Interpreter) (last : Value), P it.store →
      P (runData before it last ds).after.store
  | [], _, _, hs => hs
  | d :: ds, it, last, hs => by
    have hd : P (it.evaluateDatum (before d) d).2.store := by
      rw [evaluateDatum_snd]
      exact h it.tracing d it.store hs
    rw [runData]
    rcases hrun : it.evaluateDatum (before d) d with ⟨e | v, it'⟩
    · rw [hrun] at hd
      exact hd
    · rw [hrun] at hd
      exact store_runData h ds it' v hd

theorem store_eval (h : ∀ tracing d s, P s → P ((datumRun tracing (silently d) d).after s))
    (it : Interpreter) (source : String) (hs : P it.store) : P (it.eval source).2.store := by
  unfold eval runText
  split
  · exact hs
  · next ds _ => exact store_runData h ds it .nil hs

/-- Without a computation before it, a datum is loaded and evaluated. -/
theorem datumRun_silently (tracing : Bool) (d : Datum) (s : Store) :
    datumRun tracing (silently d) d s =
      evaluate tracing nesting (Value.ofDatum s.nextId d).1 globalFrame
        { s with nextId := (Value.ofDatum s.nextId d).2 } := rfl

end MiniLisp.Interpreter
