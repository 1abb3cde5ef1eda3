import MiniLisp.Proofs.Builtin.Finite
import MiniLisp.Proofs.DateTime.Calendar
import MiniLisp.Proofs.Eval.Invariant
import MiniLisp.Proofs.Interpreter

/-! # Programs stay finite

No program makes an infinity or a number that is none: where the values in the frames and the form are
finite they stay so, and the evaluation ends in a finite value or an expected failure
(`finite_evaluate`). A new interpreter binds no decimals and what is read is finite, so this holds of every
interpreter that has evaluated nothing but texts (`texts_stay_finite`). -/

namespace MiniLisp

/-- Evaluating finite values gives finite values, or an expected failure. -/
def finiteness : Invariant :=
  .ofValues Value.IsFinite Value.IsFinite Failure.IsExpected id
    (fun h hv => Value.isFinite_list.1 h _ hv) nofun nofun Value.isFinite_closure
    Failure.isExpected_of_isEvaluation
    fun _ b args hargs => by
      refine Builtin.keeps_call b args (fun _ h => h) Value.isFinite_list ?_ ?_ hargs
      · rintro m a (rfl | ⟨d, rfl⟩ | hcall)
        · exact nofun
        · exact nofun
        · exact (Builtin.expected_pureCall b hargs).of_ok hcall
      · rintro e (he | hcall)
        · exact Failure.isExpected_of_isEvaluation he
        · exact (Builtin.expected_pureCall b hargs).of_error hcall

/-- **Evaluation among finite values** ends in a finite value or an expected failure, and among finite
values. -/
theorem finite_evaluate (tracing : Bool) (fuel : Nat) {form : Value} (env : FrameId) {s : Store}
    (hs : s.frames.Binds Value.IsFinite) (hform : form.IsFinite) :
    match evaluate tracing fuel form env s with
    | .ok v s' => s'.frames.Binds Value.IsFinite ∧ v.IsFinite
    | .error e s' => s'.frames.Binds Value.IsFinite ∧ e.IsExpected := by
  have h := finiteness.evaluate tracing fuel s.frames.size form env hform trivial s hs (Nat.le_refl _)
  cases hr : evaluate tracing fuel form env s with
  | ok v s' =>
    rw [hr] at h
    exact ⟨h.1, h.2.2⟩
  | error e s' =>
    rw [hr] at h
    exact h

namespace Interpreter

/-- **The interpreters that texts lead to**, data by data: a new one that does not trace, and what it
becomes by evaluating data that were read. -/
inductive FromTexts (clock : DateTime) : Interpreter → Prop
  | new : FromTexts clock (.new false clock)
  | datum {it : Interpreter} {source : String} {ds : List Datum} {d : Datum} :
      FromTexts clock it → Datum.readAll source = .ok ds → d ∈ ds →
      FromTexts clock (it.evaluateDatum (silently d) d).2

/-- What evaluating a datum in an interpreter comes to. -/
theorem finite_evaluateDatum {it : Interpreter} {d : Datum}
    (hit : it.store.frames.Binds Value.IsFinite) (hd : d.IsFinite) :
    (it.evaluateDatum (silently d) d).2.store.frames.Binds Value.IsFinite ∧
    Expected Value.IsFinite (it.evaluateDatum (silently d) d).1 := by
  have hform : (Value.ofDatum it.store.nextId d).1.IsFinite := by
    rw [Value.IsFinite, Value.decimals_ofDatum]
    exact hd
  have h := finite_evaluate it.tracing nesting globalFrame
    (s := { it.store with nextId := (Value.ofDatum it.store.nextId d).2 }) hit hform
  change (it.run (datumRun it.tracing (silently d) d)).2.store.frames.Binds Value.IsFinite ∧
    Expected Value.IsFinite (it.run (datumRun it.tracing (silently d) d)).1
  unfold run
  rw [datumRun_silently]
  revert h
  cases evaluate it.tracing nesting (Value.ofDatum it.store.nextId d).1 globalFrame
      { it.store with nextId := (Value.ofDatum it.store.nextId d).2 } with
  | ok v s => exact id
  | error e s => exact id

theorem finite_newStore (clock : DateTime) : (newStore clock).frames.Binds Value.IsFinite := by
  refine frames_newStore clock ?_ fun _ _ _ _ hfs => hfs.define nofun
  intro i b hb
  rw [vars_addRoot_empty] at hb
  cases hb

namespace FromTexts

variable {clock : DateTime} {it : Interpreter}

theorem finite (h : FromTexts clock it) : it.store.frames.Binds Value.IsFinite := by
  induction h with
  | new => exact finite_newStore clock
  | datum _ hread hd ih => exact (finite_evaluateDatum ih (Datum.isFinite_of_readAll hread _ hd)).1

theorem runData {source : String} {all : List Datum} (hread : Datum.readAll source = .ok all) :
    ∀ (ds : List Datum) (it : Interpreter) (last : Value), FromTexts clock it → last.IsFinite →
      ds ⊆ all → FromTexts clock (runData silently it last ds).after ∧
        Expected Value.IsFinite (runData silently it last ds).result
  | [], _, _, hit, hlast, _ => ⟨hit, hlast⟩
  | d :: ds, it, last, hit, _, hds => by
    rw [List.cons_subset] at hds
    have hafter := hit.datum hread hds.1
    have hvalue := (finite_evaluateDatum hit.finite (Datum.isFinite_of_readAll hread d hds.1)).2
    rw [Interpreter.runData]
    rcases hrun : it.evaluateDatum (silently d) d with ⟨e | v, it'⟩
    · rw [hrun] at hafter hvalue
      exact ⟨hafter, hvalue⟩
    · rw [hrun] at hafter hvalue
      exact runData hread ds it' v hafter hvalue hds.2

/-- A text that is evaluated leads on, whether it can be read or not. -/
theorem eval (h : FromTexts clock it) (source : String) :
    FromTexts clock (it.eval source).2 := by
  unfold Interpreter.eval runText
  split
  · exact h
  · next ds hread => exact (runData hread ds it .nil h nofun (List.Subset.refl ds)).1

theorem expected_eval (h : FromTexts clock it) {source : String} {ds : List Datum}
    (hread : Datum.readAll source = .ok ds) : Expected Value.IsFinite (it.eval source).1 := by
  unfold Interpreter.eval runText
  rw [hread]
  exact (runData hread ds it .nil h nofun (List.Subset.refl ds)).2

theorem tracing_eq_false (h : FromTexts clock it) : it.tracing = false := by
  induction h with
  | new => rfl
  | datum _ _ _ ih =>
    rw [evaluateDatum_snd]
    exact ih

/-- The standard library is a text as well, or there is none. -/
theorem loadLibrary (h : FromTexts clock it) (host : Host) :
    FromTexts clock (it.loadLibrary host).2 := by
  have hnote : ∀ text, it.note text = it := fun text => by
    rw [note, h.tracing_eq_false]
    rfl
  -- the notes about the library are for traces only, so they leave no mark here
  unfold Interpreter.loadLibrary
  simp only [hnote]
  split
  · exact h
  · exact h.eval StandardLibrary.source
  · split
    · exact h
    · exact h
    · split
      · exact h
      · next source _ => exact h.eval source

end FromTexts

end Interpreter

open Interpreter

/-- **Numbers stay finite and failures stay expected.** In an interpreter that has evaluated nothing but
texts, all decimals in the frames are finite; loading any host's standard library or evaluating a further
text leads to such an interpreter; and where the text can be read, all decimals in its data are finite, and
each datum and the whole text come to a finite value, or to a failure of the language, an exhausted stack,
or a whole number with too many digits to be printed. -/
theorem texts_stay_finite {clock : DateTime} {it : Interpreter} (h : FromTexts clock it) :
    it.store.frames.Binds Value.IsFinite ∧
    (∀ host, FromTexts clock (it.loadLibrary host).2) ∧
    ∀ source, FromTexts clock (it.eval source).2 ∧
      ∀ ds, Datum.readAll source = .ok ds →
        (∀ d ∈ ds, d.IsFinite ∧
          match (it.evaluateDatum (silently d) d).1 with
          | .ok v => v.IsFinite
          | .error e => e.kind.isLanguage = true ∨ e = .stackExhausted ∨ e = .overlongInteger) ∧
        match (it.eval source).1 with
        | .ok v => v.IsFinite
        | .error e => e.kind.isLanguage = true ∨ e = .stackExhausted ∨ e = .overlongInteger := by
  refine ⟨h.finite, h.loadLibrary, fun source => ⟨h.eval source, fun ds hread => ⟨fun d hd => ?_, ?_⟩⟩⟩
  · have hfinite := Datum.isFinite_of_readAll hread d hd
    have hends := (finite_evaluateDatum h.finite hfinite).2
    refine ⟨hfinite, ?_⟩
    cases hresult : (it.evaluateDatum (silently d) d).1 with
    | ok v => exact hends.of_ok hresult
    | error e => exact hends.of_error hresult
  · have hends := h.expected_eval hread
    cases hresult : (it.eval source).1 with
    | ok v => exact hends.of_ok hresult
    | error e => exact hends.of_error hresult

/-- The datum of `(define x 1.50)`. -/
def defineDecimal : Datum :=
  .list [.symbol "define", .symbol "x", .atom (.number (.decimal (.finite false 150 (-2))))]

theorem year_mem_2024 : 1 ≤ 2024 ∧ 2024 ≤ 9999 := by decide

/-- A clock that starts on a new year's day. -/
def newYear : DateTime := ⟨⟨2024, 1, 1, year_mem_2024, by decide⟩, 0, microsPerDay_pos⟩

/-- Defining a decimal: the datum is finite, so is the value, and so are the frames afterwards. -/
theorem texts_stay_finite_defineDecimal :
    Datum.readAll "(define x 1.50)" = .ok [defineDecimal] ∧ defineDecimal.IsFinite ∧
    ((Interpreter.new false newYear).eval "(define x 1.50)").1 =
      .ok (.decimal (.finite false 150 (-2))) ∧
    (Value.decimal (.finite false 150 (-2))).IsFinite ∧
    ((Interpreter.new false newYear).eval "(define x 1.50)").2.store.frames.Binds Value.IsFinite := by
  have hread : Datum.readAll "(define x 1.50)" = .ok [defineDecimal] := by
    with_unfolding_all rfl
  have hvalue : ((Interpreter.new false newYear).eval "(define x 1.50)").1 =
      .ok (.decimal (.finite false 150 (-2))) := by
    rw [Interpreter.eval, Interpreter.runText, hread]
    rfl
  have hnew : FromTexts newYear (.new false newYear) := .new
  obtain ⟨hafter, hresult⟩ := (texts_stay_finite hnew).2.2 "(define x 1.50)"
  obtain ⟨hdata, hends⟩ := hresult _ hread
  rw [hvalue] at hends
  exact ⟨hread, (hdata _ List.mem_cons_self).1, hvalue, hends, (texts_stay_finite hafter).1⟩

end MiniLisp
