import MiniLisp.Proofs.Eval.Embedding
import MiniLisp.Proofs.Eval.LetForms
import MiniLisp.Proofs.Eval.Tracing
import MiniLisp.Proofs.StandardLibrary.Source

/-! # The standard library, loaded

Evaluating the definitions of the library in turn binds each name to a function with its parameters and its
body, and leaves every other global name alone (`loads_runData`). So a new interpreter loads the library
(`exists_loadLibrary`), and then its global frame binds the functions of the library and the builtin
functions (`Provided`). -/

namespace MiniLisp

open Datum Interpreter

/-- Zero, one and minus one have few digits. -/
theorem Number.isOverlong_of_le_one {n : Int} (hn : n.natAbs ≤ 1) :
    (Number.int n).isOverlong = false := by
  have hpow : ∀ k, k ≠ 0 → ¬ Nat.pow 10 k ≤ n.natAbs := fun k hk h =>
    Nat.not_lt.2 (Nat.le_trans h hn) (Nat.one_lt_pow hk (by decide))
  have hdigits : Number.maxDigits ≠ 0 := by decide
  unfold Number.isOverlong
  generalize Number.maxDigits = k at *
  exact decide_eq_false (hpow k hdigits)

namespace StandardLibrary

/-! ### Evaluating -/

/-- The value is the function, made in the global frame. -/
def Function.IsValue (f : Function) (v : Value) : Prop :=
  ∃ id next, v = .closure id f.formals [(Value.ofDatum next f.body).1] globalFrame f.name

theorem Function.IsValue.isFunction {f : Function} {v : Value} (h : f.IsValue v) :
    v.isFunction = true := by
  obtain ⟨id, next, rfl⟩ := h
  rfl

theorem ofData_symbols (next : ObjectId) : ∀ names : List String,
    Value.ofData next (names.map symbol) = (names.map .symbol, next)
  | [] => rfl
  | name :: names => by
    rw [List.map_cons, Value.ofData, symbol, Value.ofDatum, ofData_symbols next names]
    rfl

theorem ofDatum_definition (f : Function) (next : ObjectId) :
    (Value.ofDatum next f.definition).1 =
      .list next [.symbol "define", .list (next + 1) (.symbol f.name :: f.formals.map .symbol),
        (Value.ofDatum (next + 2) f.body).1] := by
  have hcall : Value.ofDatum (next + 1) (call f.name (f.formals.map symbol)) =
      (.list (next + 1) (.symbol f.name :: f.formals.map .symbol), next + 2) := by
    have hdata : Value.ofData (next + 2) (symbol f.name :: f.formals.map symbol) =
        (.symbol f.name :: f.formals.map .symbol, next + 2) := ofData_symbols _ (f.name :: f.formals)
    rw [call, Value.ofDatum, hdata]
  have hdefine : Value.ofDatum (next + 1) (symbol "define") = (.symbol "define", next + 1) := rfl
  rw [Function.definition, Value.ofDatum, Value.ofData, hdefine, Value.ofData, hcall]
  rfl

/-- The definition can be printed, so that it can be traced. -/
theorem isPrintable_definition {f : Function} (hf : f ∈ functions) (next : ObjectId) :
    (Value.ofDatum next f.definition).1.IsPrintable := by
  simp only [functions, List.mem_cons, List.not_mem_nil, or_false] at hf
  rcases hf with rfl | rfl | rfl | rfl | rfl | rfl | rfl | rfl | rfl | rfl | rfl | rfl <;>
    simp [Value.IsPrintable, Function.definition, call, symbol, abs, first, head, tail, length, map,
      filter, reduce, compose, range, reverse, merge, Value.ofDatum, Value.ofData, Value.isOverlong,
      Value.anyOverlong, Atom.isOverlong, Number.isOverlong_of_le_one]

/-- The store with a new function bound in its global frame. -/
def defined (s : Store) (name : String) (v : Value) : Store :=
  { s with frames := s.frames.define globalFrame name v, nextId := s.nextId + 1 }

theorem evaluateStep_definition (ev : Evaluator) (tracing : Bool) (f : Function) (id id' : ObjectId)
    (body : Value) (s : Store) :
    evaluateStep ev tracing (.list id [.symbol "define",
        .list id' (.symbol f.name :: f.formals.map .symbol), body]) globalFrame s =
      .ok (.closure s.nextId f.formals [body] globalFrame f.name)
        (defined s f.name (.closure s.nextId f.formals [body] globalFrame f.name)) := by
  have hdefinition : SpecialForm.definition [.list id' (.symbol f.name :: f.formals.map .symbol),
      body] = .ok (.function f.name f.formals [body]) := by
    have hformals := formals_symbols "define" f.formals
    rw [SpecialForm.definition]
    change (SpecialForm.formals "define" (f.formals.map .symbol) >>= _) = _
    rw [hformals]
    rfl
  change SpecialForm.runDefine ev globalFrame [.list id' (.symbol f.name :: f.formals.map .symbol),
    body] s = _
  rw [SpecialForm.runDefine, hdefinition]
  rfl

/-- **A definition** binds its name to the function, also when it is traced. -/
theorem datumRun_definition (tracing : Bool) {f : Function} (hf : f ∈ functions) (s : Store) :
    ∃ v s', f.IsValue v ∧
      datumRun tracing (silently f.definition) f.definition s = .ok v s' ∧
      s'.frames = s.frames.define globalFrame f.name v := by
  have hform := isPrintable_definition hf s.nextId
  have hvalue : ∀ id, f.IsValue (.closure id f.formals [(Value.ofDatum (s.nextId + 2) f.body).1]
      globalFrame f.name) := fun id => ⟨id, _, rfl⟩
  rw [datumRun_silently]
  rw [ofDatum_definition] at hform ⊢
  generalize (Value.ofDatum s.nextId f.definition).2 = next
  generalize (Value.ofDatum (s.nextId + 2) f.body).1 = body at *
  obtain ⟨trace, htrace⟩ : ∃ trace, evaluate tracing (4999 + 1) _ globalFrame
      { s with nextId := next } = .ok (.closure next f.formals [body] globalFrame f.name)
        ((defined { s with nextId := next } f.name
          (.closure next f.formals [body] globalFrame f.name)).traceAt trace s.depth) :=
    exists_evaluate_of_step hform rfl fun trace depth =>
      evaluateStep_definition (evaluate tracing 4999) tracing f s.nextId (s.nextId + 1) body
        ({ s with nextId := next }.traceAt trace depth)
  exact ⟨_, _, hvalue next, htrace, rfl⟩

/-- **What evaluating the definitions of some functions does** to the global frame. -/
structure Loads (fs : List Function) (before after : Frames) : Prop where
  bound : ∀ f ∈ fs, ∃ v, f.IsValue v ∧ after.get? globalFrame f.name = some v
  others : ∀ name ∉ fs.map Function.name,
    after.get? globalFrame name = before.get? globalFrame name

theorem loads_runData (tracing : Bool) : ∀ (fs : List Function) (s : Store) (last : Value),
    fs ⊆ functions → globalFrame < s.frames.size → (fs.map Function.name).Nodup →
      (∃ v, (runData silently ⟨tracing, s⟩ last (fs.map Function.definition)).result = .ok v) ∧
      Loads fs s.frames
        (runData silently ⟨tracing, s⟩ last (fs.map Function.definition)).after.store.frames
  | [], _, last, _, _, _ => ⟨⟨last, rfl⟩, nofun, fun _ _ => rfl⟩
  | f :: fs, s, last, hfs, hsize, hnames => by
    rw [List.cons_subset] at hfs
    obtain ⟨v, s', hv, hrun, hframes⟩ := datumRun_definition tracing hfs.1 s
    have hdatum : evaluateDatum ⟨tracing, s⟩ (silently f.definition) f.definition =
        (.ok v, ⟨tracing, s'⟩) := by
      change run ⟨tracing, s⟩ (datumRun tracing (silently f.definition) f.definition) = _
      rw [run, hrun]
    have hself : ∀ other, s'.frames.get? globalFrame other =
        if other = f.name then some v else s.frames.get? globalFrame other := by
      rw [hframes]
      exact Frames.get?_define_self hsize
    have hsize' : globalFrame < s'.frames.size := by rwa [hframes, Frames.size_define]
    rw [List.map_cons, List.nodup_cons] at hnames
    obtain ⟨hresult, hloads⟩ := loads_runData tracing fs s' v hfs.2 hsize' hnames.2
    rw [List.map_cons, runData, hdatum]
    refine ⟨hresult, List.forall_mem_cons.2 ⟨⟨v, hv, ?_⟩, hloads.bound⟩, fun name hname => ?_⟩
    · exact (hloads.others f.name hnames.1).trans (by rw [hself, if_pos rfl])
    · rw [List.map_cons, List.mem_cons, not_or] at hname
      exact (hloads.others name hname.2).trans (by rw [hself, if_neg hname.1])

/-! ### Loading -/

/-- Stated with a name for the outcome, so that no text is evaluated to check what is said of it. -/
theorem exists_runText_source (tracing : Bool) {s : Store} (hsize : globalFrame < s.frames.size) :
    ∃ o, runText silently ⟨tracing, s⟩ source = o ∧ (∃ v, o.result = .ok v) ∧
      Loads functions s.frames o.after.store.frames := by
  have h := loads_runData tracing functions s .nil (List.Subset.refl _) hsize (by decide +kernel)
  rw [runText, readAll_source]
  exact ⟨_, rfl, h⟩

/-- The store of an interpreter that noted something differs in the trace. -/
theorem exists_note (it : Interpreter) (text : String) :
    ∃ s, it.note text = ⟨it.tracing, s⟩ ∧ s.frames = it.store.frames ∧
      s.nextId = it.store.nextId := by
  unfold note
  split
  · exact ⟨_, rfl, rfl, rfl⟩
  · exact ⟨it.store, rfl, rfl, rfl⟩

/-- **What there is after loading**: the functions of the library and the builtin functions are bound to
their names, and all that there is was made in the store. -/
structure Provided (s : Store) : Prop where
  function : ∀ f ∈ functions, ∃ v, f.IsValue v ∧ s.frames.get? globalFrame f.name = some v
  builtin : ∀ b ∈ Builtin.all, ∃ id, s.frames.get? globalFrame b.name = some (.builtin id b)
  sound : s.Sound

theorem get?_newStore (clock : DateTime) {b : Builtin} (hb : b ∈ Builtin.all) :
    ∃ id, (newStore clock).frames.get? globalFrame b.name = some (.builtin id b) := by
  obtain ⟨i, hi, hib⟩ := List.getElem_of_mem hb
  have hnames : (Assoc.names builtinBindings).Nodup := by
    change (Builtin.all.map Builtin.name).Nodup
    decide +kernel
  have hmem : (b.name, Value.builtin i b) ∈ builtinBindings :=
    List.mem_mapIdx.2 ⟨i, hi, by rw [hib]⟩
  have hvars : (newStore clock).frames.vars globalFrame = builtinBindings :=
    Frames.vars_defineAll_self Nat.zero_lt_one hnames
  have hget : (newStore clock).frames.get? globalFrame b.name = some (.builtin i b) := by
    rw [Frames.get?, hvars]
    exact Assoc.get?_of_mem hnames hmem
  exact ⟨i, hget⟩

theorem Loads.provided {clock : DateTime} {s : Store}
    (h : Loads functions (newStore clock).frames s.frames) (hs : s.Sound) : Provided s where
  function := h.bound
  builtin b hb := by
    have hothers : ∀ b ∈ Builtin.all, b.name ∉ functions.map Function.name := by decide +kernel
    obtain ⟨id, hid⟩ := get?_newStore clock hb
    exact ⟨id, (h.others _ (hothers b hb)).trans hid⟩
  sound := hs

/-- **The library loads** into a new interpreter. -/
theorem exists_loadLibrary (tracing : Bool) (clock : DateTime) {host : Host}
    (hown : Settings.library host = .ok .own) :
    ∃ it, (new tracing clock).loadLibrary host = (.ok (), it) ∧ Provided it.store := by
  obtain ⟨s, hnote, hframes, hnext⟩ := exists_note (new tracing clock)
    ("Loading prelude " ++ (Settings.ownLibrary.child Settings.libraryFile).text)
  obtain ⟨hgrounded, hpos⟩ := grounded_newStore clock
  have hfresh : s.Fresh := by
    rw [Store.Fresh, hframes, hnext]
    exact fresh_newStore clock
  have hsound : s.Sound := ⟨hfresh, by rwa [hframes]⟩
  have hsize : globalFrame < s.frames.size := by rwa [hframes]
  obtain ⟨o, ho, ⟨v, hv⟩, hloads⟩ := exists_runText_source tracing hsize
  have heval : (eval ⟨tracing, s⟩ source).2 = o.after := by rw [eval, ho]
  have hsound' := (sound_eval ⟨tracing, s⟩ source hsound hsize).1
  rw [heval] at hsound'
  rw [hframes] at hloads
  refine ⟨o.after, ?_, hloads.provided hsound'⟩
  have hloaded : (Except.map (fun _ => ()) o.result, o.after) = (.ok (), o.after) := by
    rw [hv]
    rfl
  rw [loadLibrary, hown]
  simp only [hnote]
  rw [← ho] at hloaded ⊢
  exact hloaded

theorem provided_of_loadLibrary {tracing : Bool} {clock : DateTime} {host : Host} {it : Interpreter}
    (hown : Settings.library host = .ok .own)
    (hload : (new tracing clock).loadLibrary host = (.ok (), it)) : Provided it.store := by
  obtain ⟨it', hload', h⟩ := exists_loadLibrary tracing clock hown
  rw [hload] at hload'
  cases hload'
  exact h

end StandardLibrary

end MiniLisp
