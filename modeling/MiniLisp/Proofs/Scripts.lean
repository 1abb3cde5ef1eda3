import MiniLisp.CommandLine.Program
import MiniLisp.Host.Tree
import MiniLisp.Proofs.Eval.Tracing
import MiniLisp.Proofs.StandardLibrary.Loaded
import MiniLisp.Proofs.Text.Pieces

/-! # Runs of scripts

The scripts of a command line are run one after the other on one interpreter (`RanAll`). A script that is not
there or cannot be read leaves the interpreter as it is; one that fails leaves what the data before the failing
one did, and that one up to its failure, and its other data are not evaluated (`Ran`). Each of them is reported,
and the next one is run; the program returns 0 if all were done and 1 if not (`scripts_outcome`). Some scripts
end the program, so that those after them are not run (`Fatal`): one whose path is too long to be looked up, one
that names a date outside the calendar, and one that comes to a whole number with too many digits to be
printed. -/

namespace MiniLisp

open Datum

namespace Interpreter

/-! ### Evaluating data -/

/-- **The data are evaluated** one after the other, and none of them fails. -/
inductive Evaluates : Interpreter → List Datum → Interpreter → Prop
  | nil (it : Interpreter) : Evaluates it [] it
  | cons {it mid after : Interpreter} {d : Datum} {ds : List Datum} {v : Value}
    (first : it.evaluateDatum (silently d) d = (.ok v, mid)) (rest : Evaluates mid ds after) :
    Evaluates it (d :: ds) after

/-- **The data break off**: some of them are evaluated, then one fails, and the others are left. -/
inductive BreaksOff (it : Interpreter) : List Datum → Failure → Interpreter → Prop
  | at {mid after : Interpreter} {before : List Datum} {d : Datum} {e : Failure} (rest : List Datum)
    (evaluates : Evaluates it before mid) (fails : mid.evaluateDatum (silently d) d = (.error e, after)) :
    BreaksOff it (before ++ d :: rest) e after

theorem BreaksOff.cons {it mid after : Interpreter} {d : Datum} {ds : List Datum} {v : Value} {e : Failure}
    (first : it.evaluateDatum (silently d) d = (.ok v, mid)) (h : BreaksOff mid ds e after) :
    BreaksOff it (d :: ds) e after := by
  obtain ⟨rest, evaluates, fails⟩ := h
  exact .at rest (.cons first evaluates) fails

/-- **All data are evaluated, or they break off.** -/
theorem runData_cases : ∀ (ds : List Datum) (it : Interpreter) (last : Value),
    (∃ after v, Evaluates it ds after ∧ (runData silently it last ds).result = .ok v ∧
      (runData silently it last ds).after = after) ∨
    ∃ e after, BreaksOff it ds e after ∧ (runData silently it last ds).result = .error e ∧
      (runData silently it last ds).after = after
  | [], it, last => .inl ⟨it, last, .nil it, rfl, rfl⟩
  | d :: ds, it, last => by
    rw [runData]
    rcases hrun : it.evaluateDatum (silently d) d with ⟨e | v, mid⟩
    · have hbreaks : BreaksOff it ([] ++ d :: ds) e mid := .at ds (.nil it) hrun
      exact .inr ⟨e, mid, hbreaks, rfl, rfl⟩
    · rcases runData_cases ds mid v with ⟨after, w, h, hresult, hafter⟩ | ⟨e, after, h, hresult, hafter⟩
      · exact .inl ⟨after, w, .cons hrun h, hresult, hafter⟩
      · exact .inr ⟨e, after, h.cons hrun, hresult, hafter⟩

/-! ### Interpreters that do not trace -/

/-- An interpreter that does not trace: its numbers are finite, and its trace is empty. -/
structure Quiet (it : Interpreter) : Prop where
  finite : it.store.frames.Binds Value.IsFinite
  tracing : it.tracing = false
  trace : it.store.trace = #[]

variable {it after : Interpreter} {d : Datum} {ds : List Datum} {e : Failure}

theorem trace_evaluateDatum (htracing : it.tracing = false) :
    (it.evaluateDatum (silently d) d).2.store.trace = it.store.trace := by
  rw [evaluateDatum_snd, htracing]
  change ((datumRun false (silently d) d).after it.store).trace = _
  rw [Run.after, datumRun_silently]
  exact trace_after_evaluate nesting (Value.ofDatum it.store.nextId d).1 globalFrame
    { it.store with nextId := (Value.ofDatum it.store.nextId d).2 }

theorem Quiet.evaluateDatum (h : Quiet it) (hd : d.IsFinite) :
    Quiet (it.evaluateDatum (silently d) d).2 where
  finite := (finite_evaluateDatum h.finite hd).1
  tracing := by rw [evaluateDatum_snd]; exact h.tracing
  trace := (trace_evaluateDatum h.tracing).trans h.trace

theorem Quiet.evaluates (h : Quiet it) (hds : ∀ d ∈ ds, d.IsFinite) (hrun : Evaluates it ds after) :
    Quiet after := by
  induction hrun with
  | nil => exact h
  | cons first _ ih =>
    rw [List.forall_mem_cons] at hds
    have hmid := h.evaluateDatum hds.1
    rw [first] at hmid
    exact ih hmid hds.2

/-- Data of a text break off with an expected failure. -/
theorem Quiet.breaksOff (h : Quiet it) (hds : ∀ d ∈ ds, d.IsFinite) (hrun : BreaksOff it ds e after) :
    Quiet after ∧ e.IsExpected := by
  obtain ⟨rest, evaluates, fails⟩ := hrun
  rw [List.forall_mem_append, List.forall_mem_cons] at hds
  have hmid := h.evaluates hds.1 evaluates
  have hafter := hmid.evaluateDatum hds.2.1
  have hends := (finite_evaluateDatum hmid.finite hds.2.1).2
  rw [fails] at hafter hends
  exact ⟨hafter, hends⟩

theorem FromTexts.quiet {clock : DateTime} (h : FromTexts clock it) : Quiet it where
  finite := h.finite
  tracing := h.tracing_eq_false
  trace := by
    induction h with
    | new => rfl
    | datum hit _ _ ih => exact (trace_evaluateDatum hit.tracing_eq_false).trans ih

end Interpreter

namespace Program

open Interpreter

/-! ### One script -/

/-- **The script is run** and the program goes on: whether the script is done, what is written, also beside the
output, and the interpreter that is left behind. -/
inductive Ran (h : Host) (it : Interpreter) (script : String) :
    Bool → String → String → Interpreter → Prop
  | missing (hfile : h.isFile (.ofText script) = .ok false) :
    Ran h it script false "" ("Warning: File not found: " ++ script ++ "\n") it
  | undecoded {fault : EncodingFault} (hfile : h.readText (.ofText script) = .error (.badEncoding fault)) :
    Ran h it script false ((Failure.badEncoding fault).report.text (Path.ofText script).name) "" it
  | unread {source : String} {fault : SyntaxFault} {place : Place}
    (hfile : h.readText (.ofText script) = .ok source)
    (hread : readAll source = .error (.syntaxError fault place)) :
    Ran h it script false ((Failure.syntaxError fault place).report.text (Path.ofText script).name) "" it
  | brokenOff {source : String} {ds : List Datum} {e : Failure} {after : Interpreter}
    (hfile : h.readText (.ofText script) = .ok source) (hread : readAll source = .ok ds)
    (hrun : BreaksOff it ds e after) (he : isReported e = true) :
    Ran h it script false (after.store.output ++ e.report.text (Path.ofText script).name) ""
      after.takePrinted.2
  | done {source : String} {ds : List Datum} {after : Interpreter}
    (hfile : h.readText (.ofText script) = .ok source) (hread : readAll source = .ok ds)
    (hrun : Evaluates it ds after) :
    Ran h it script true after.store.output "" after.takePrinted.2

/-- **The script ends the program**: with a failure that is not reported, and this is what was written before. -/
inductive Fatal (h : Host) (it : Interpreter) (script : String) : String → Failure → Prop
  | overlong (hlook : h.look (.ofText script) = .overlong) :
    Fatal h it script "" (.unreadableFile (.overlong (Path.ofText script).text))
  | unread {source : String} (hfile : h.readText (.ofText script) = .ok source)
    (hread : readAll source = .error .dateOutOfCalendar) : Fatal h it script "" .dateOutOfCalendar
  | brokenOff {source : String} {ds : List Datum} {after : Interpreter}
    (hfile : h.readText (.ofText script) = .ok source) (hread : readAll source = .ok ds)
    (hrun : BreaksOff it ds .overlongInteger after) :
    Fatal h it script after.store.output .overlongInteger

/-- An interpreter between two scripts: it does not trace, and what was printed is collected. -/
structure Idle (it : Interpreter) : Prop extends Quiet it where
  shown : it.store.output = ""

variable {h : Host} {s : State} {it after : Interpreter} {script : String}

theorem idle_takePrinted (hit : Quiet it) : Idle it.takePrinted.2 :=
  ⟨⟨hit.finite, hit.tracing, hit.trace⟩, rfl⟩

/-- Without a trace the output is collected only. -/
theorem collect_eq (hit : Quiet it) :
    s.collect it = ⟨s.out ++ it.store.output, s.err, it.takePrinted.2⟩ := by
  obtain ⟨tracing, frames, nextId, output, trace, depth, clock⟩ := it
  cases hit.trace
  simp [State.collect, takePrinted, takeTrace, traceText]

theorem Idle.takePrinted (hit : Idle it) : it.takePrinted.2 = it := by
  obtain ⟨tracing, frames, nextId, output, trace, depth, clock⟩ := it
  cases hit.shown
  rfl

theorem Ran.idle (hit : Idle it) {ok : Bool} {out err : String} (hran : Ran h it script ok out err after) :
    Idle after := by
  cases hran with
  | missing | undecoded | unread => exact hit
  | brokenOff _ hread hrun =>
    exact idle_takePrinted (hit.toQuiet.breaksOff (isFinite_of_readAll hread) hrun).1
  | done _ hread hrun => exact idle_takePrinted (hit.toQuiet.evaluates (isFinite_of_readAll hread) hrun)

/-- A text that cannot be read has a syntax error, or names a date outside the calendar. -/
theorem syntaxError_or_dateOutOfCalendar {source : String} {e : Failure} (hread : readAll source = .error e) :
    (∃ fault place, e = .syntaxError fault place) ∨ e = .dateOutOfCalendar := by
  rcases ofTokens_failure hread with ⟨fault, rfl⟩ | ⟨fault, t, -, rfl⟩ | ⟨rfl, -⟩
  · exact .inl ⟨fault, _, rfl⟩
  · exact .inl ⟨fault, _, rfl⟩
  · exact .inr rfl

theorem isReported_of_isExpected {e : Failure} (he : e.IsExpected) :
    isReported e = true ∨ e = .overlongInteger := by
  rcases he with hlanguage | rfl | rfl
  · exact .inl (Bool.or_eq_true_iff.mpr (.inl hlanguage))
  · exact .inl rfl
  · exact .inr rfl

theorem look_of_isFile_eq_error {p : Path} {e : Failure} (hfile : h.isFile p = .error e) :
    h.look p = .overlong ∧ e = .unreadableFile (.overlong p.text) := by
  unfold Host.isFile at hfile
  split at hfile
  · cases hfile
  · next hlook =>
    cases hfile
    exact ⟨hlook, rfl⟩
  · cases hfile

/-- A file that is there can be read, unless its bytes are no text. -/
theorem readText_of_isFile {p : Path} (hfile : h.isFile p = .ok true) :
    (∃ source, h.readText p = .ok source) ∨ ∃ fault, h.readText p = .error (.badEncoding fault) := by
  unfold Host.isFile at hfile
  split at hfile
  · next bytes hlook =>
    simp only [Host.readText, hlook]
    cases Text.decode bytes with
    | ok cs => exact .inl ⟨_, rfl⟩
    | error fault => exact .inr ⟨fault, rfl⟩
  · cases hfile
  · cases hfile

theorem loadFile_eq (hit : Quiet it) {p : Path} {source : String} (hfile : h.readText p = .ok source) :
    it.loadFile h silently p =
      ((it.runText silently source).result.map fun _ => (), (it.runText silently source).after) := by
  have hnote : ∀ text, it.note text = it := fun text => by
    rw [note, hit.tracing]
    rfl
  rw [loadFile, hfile]
  simp only [hnote]

/-- A script that is there is loaded, and what it printed is collected. -/
theorem runScript_eq {result : Except Failure Unit} (hfile : h.isFile (.ofText script) = .ok true)
    (hload : s.it.loadFile h silently (.ofText script) = (result, after)) (hafter : Quiet after) :
    runScript h false s script =
      match result with
      | .ok () => (.done, ⟨s.out ++ after.store.output, s.err, after.takePrinted.2⟩)
      | .error e =>
        if isReported e then (.reported,
          ⟨s.out ++ after.store.output ++ e.report.text (Path.ofText script).name, s.err, after.takePrinted.2⟩)
        else (.failed e, ⟨s.out ++ after.store.output, s.err, after.takePrinted.2⟩) := by
  have hsilently : (fun d => if false = true then Run.write (Repl.echo (Path.ofText script).name d)
      else pure ()) = silently := rfl
  unfold runScript
  simp only [hfile, hsilently, hload, collect_eq hafter]
  cases result <;> rfl

/-- **What becomes of a script.** -/
theorem runScript_cases (hit : Idle s.it) (script : String) :
    (∃ ok out err after, Ran h s.it script ok out err after ∧ runScript h false s script =
      (if ok then .done else .reported, ⟨s.out ++ out, s.err ++ err, after⟩)) ∨
    ∃ out e after, Fatal h s.it script out e ∧
      runScript h false s script = (.failed e, ⟨s.out ++ out, s.err, after⟩) := by
  have hshown : s.out ++ s.it.store.output = s.out := by rw [hit.shown, String.append_empty]
  have hidle := hit.takePrinted
  rcases hfile : h.isFile (.ofText script) with e | found
  · obtain ⟨hlook, rfl⟩ := look_of_isFile_eq_error hfile
    refine .inr ⟨"", _, s.it, .overlong hlook, ?_⟩
    simp only [runScript, hfile, String.append_empty]
  cases found with
  | false =>
    refine .inl ⟨false, "", _, s.it, .missing hfile, ?_⟩
    simp only [runScript, hfile, String.append_empty, String.append_assoc]
    rfl
  | true =>
    rcases readText_of_isFile hfile with ⟨source, hsource⟩ | ⟨fault, hfault⟩
    · have hload := loadFile_eq hit.toQuiet hsource
      unfold runText at hload
      cases hread : readAll source with
      | error e =>
        rw [hread] at hload
        have hrun := runScript_eq hfile hload hit.toQuiet
        simp only [hshown, hidle] at hrun
        rcases syntaxError_or_dateOutOfCalendar hread with ⟨fault, place, rfl⟩ | rfl
        · exact .inl ⟨false, _, "", s.it, .unread hsource hread, by rw [hrun, String.append_empty]; rfl⟩
        · exact .inr ⟨"", _, s.it, .unread hsource hread, by rw [hrun, String.append_empty]; rfl⟩
      | ok ds =>
        rw [hread] at hload
        have hfinite := isFinite_of_readAll hread
        rcases runData_cases ds s.it .nil with
          ⟨after, v, hevaluates, hresult, hafter⟩ | ⟨e, after, hbreaks, hresult, hafter⟩
        · simp only [hresult, hafter] at hload
          refine .inl ⟨true, _, "", _, .done hsource hread hevaluates, ?_⟩
          rw [runScript_eq hfile hload (hit.toQuiet.evaluates hfinite hevaluates), String.append_empty]
          rfl
        · simp only [hresult, hafter] at hload
          obtain ⟨hquiet, he⟩ := hit.toQuiet.breaksOff hfinite hbreaks
          have hrun := runScript_eq hfile hload hquiet
          rcases isReported_of_isExpected he with hreported | rfl
          · refine .inl ⟨false, _, "", _, .brokenOff hsource hread hbreaks hreported, ?_⟩
            rw [hrun, String.append_empty, ← String.append_assoc]
            simp only [Except.map, hreported, if_true]
            rfl
          · exact .inr ⟨_, _, _, .brokenOff hsource hread hbreaks, hrun⟩
    · have hload : s.it.loadFile h silently (.ofText script) = (.error (.badEncoding fault), s.it) := by
        rw [loadFile, hfault]
      refine .inl ⟨false, _, "", s.it, .undecoded hfault, ?_⟩
      rw [runScript_eq hfile hload hit.toQuiet]
      simp only [hshown, hidle, String.append_empty]
      rfl

/-! ### All scripts -/

/-- **The scripts are run in order**, each in the interpreter that the one before left, with what each of them
came to and all that they wrote. -/
inductive RanAll (h : Host) : Interpreter → List String → List Bool → String → String → Interpreter → Prop
  | nil (it : Interpreter) : RanAll h it [] [] "" "" it
  | cons {it mid after : Interpreter} {script out err outs errs : String} {scripts : List String} {ok : Bool}
    {oks : List Bool} (first : Ran h it script ok out err mid)
    (rest : RanAll h mid scripts oks outs errs after) :
    RanAll h it (script :: scripts) (ok :: oks) (out ++ outs) (err ++ errs) after

/-- **Where a run of scripts leads**: all of them are run, or the first that ends the program does. -/
theorem runScripts_cases : ∀ (scripts : List String) {s : State} (ok : Bool), Idle s.it →
    (∃ oks out err after, RanAll h s.it scripts oks out err after ∧
      runScripts h false ok s scripts = (.ok (ok && oks.all id), ⟨s.out ++ out, s.err ++ err, after⟩)) ∨
    ∃ before script rest oks out err mid partly e after, scripts = before ++ script :: rest ∧
      RanAll h s.it before oks out err mid ∧ Fatal h mid script partly e ∧
      runScripts h false ok s scripts = (.error e, ⟨s.out ++ out ++ partly, s.err ++ err, after⟩)
  | [], s, ok, _ => .inl ⟨[], "", "", s.it, .nil s.it, by simp [runScripts]⟩
  | script :: scripts, s, ok, hit => by
    rcases runScript_cases hit script with
      ⟨done, out, err, mid, hran, hrun⟩ | ⟨partly, e, after, hfatal, hrun⟩
    · have hscripts : runScripts h false ok s (script :: scripts) =
          runScripts h false (ok && done) ⟨s.out ++ out, s.err ++ err, mid⟩ scripts := by
        rw [runScripts, hrun]
        cases done
        · rw [Bool.and_false]
          rfl
        · rw [Bool.and_true]
          rfl
      rw [hscripts]
      rcases runScripts_cases scripts (s := ⟨s.out ++ out, s.err ++ err, mid⟩) (ok && done) (hran.idle hit) with
        ⟨oks, outs, errs, after, hall, hrun⟩ |
        ⟨before, script', rest, oks, outs, errs, last, partly, e, after, rfl, hall, hfatal, hrun⟩
      · refine .inl ⟨done :: oks, _, _, after, .cons hran hall, ?_⟩
        rw [hrun]
        simp [String.append_assoc, Bool.and_assoc]
      · refine .inr ⟨script :: before, script', rest, done :: oks, _, _, last, partly, e, after, rfl,
          .cons hran hall, hfatal, ?_⟩
        rw [hrun]
        simp [String.append_assoc]
    · refine .inr ⟨[], script, scripts, [], "", "", s.it, partly, e, after, rfl, .nil s.it, hfatal, ?_⟩
      rw [runScripts, hrun]
      simp

/-! ### The program -/

/-- The program before its first script: the standard library is loaded, unless it is not wanted. -/
def prepared (h : Host) (clock : DateTime) (inv : Arguments.Invocation) : Option Failure × State :=
  let s : State := ⟨banner inv, "", .new inv.trace clock⟩
  if inv.noPrelude then (none, s) else loadLibrary h clock s

theorem idle_prepared {clock : DateTime} {inv : Arguments.Invocation} (htrace : inv.trace = false)
    (hs : prepared h clock inv = (none, s)) : Idle s.it := by
  have hnew : Idle (.new false clock) := ⟨FromTexts.new.quiet, rfl⟩
  unfold prepared at hs
  rw [htrace] at hs
  split at hs
  · cases hs
    exact hnew
  · have hlibrary : FromTexts clock ((Interpreter.new false clock).loadLibrary h).2 := FromTexts.new.loadLibrary h
    unfold loadLibrary at hs
    rcases hload : (Interpreter.new false clock).loadLibrary h with ⟨result, it⟩
    rw [hload] at hlibrary
    simp only [hload, collect_eq hlibrary.quiet] at hs
    cases result with
    | ok _ =>
      cases hs
      exact idle_takePrinted hlibrary.quiet
    | error e =>
      simp only at hs
      split at hs
      · cases hs
        have htracing : it.takePrinted.2.tracing = false := hlibrary.tracing_eq_false
        simp only [htracing]
        exact hnew
      · cases hs

/-- The library that comes with the interpreter can be loaded. -/
theorem exists_prepared {clock : DateTime} {inv : Arguments.Invocation}
    (hlibrary : inv.noPrelude = true ∨ Settings.library h = .ok .own) :
    ∃ s, prepared h clock inv = (none, s) := by
  unfold prepared
  cases hprelude : inv.noPrelude with
  | true => exact ⟨_, rfl⟩
  | false =>
    have hown : Settings.library h = .ok .own := hlibrary.resolve_left (by simp [hprelude])
    obtain ⟨it, hload, -⟩ := StandardLibrary.exists_loadLibrary inv.trace clock hown
    simp only [loadLibrary, hload]
    exact ⟨_, rfl⟩

/-- **The outcome of a run of scripts.** All of them are run in order on one interpreter, whatever the ones before
came to, and the program returns 0 if all of them were done and 1 if not; or one of them ends the program. The
program comes to its first script where the recursion limit can be set, and the standard library is the one that
comes with the interpreter or is not wanted. -/
theorem scripts_outcome {h : Host} {args : List String} {inv : Arguments.Invocation} (clock : DateTime)
    (lines : List String) (hargs : Arguments.parse args = .ok inv) (hscripts : inv.scripts ≠ [])
    (hrepl : inv.repl = false) (htrace : inv.trace = false ∧ inv.traceParse = false)
    (hlimit : Settings.recursionLimit h ≤ Settings.maxRecursionLimit) :
    (inv.noPrelude = true ∨ Settings.library h = .ok .own → ∃ s, prepared h clock inv = (none, s)) ∧
    ∀ s, prepared h clock inv = (none, s) →
      (∃ oks out err after, RanAll h s.it inv.scripts oks out err after ∧
        run h clock args lines =
          ⟨s.out ++ out, s.err ++ err, .returned (if oks.all id then 0 else 1)⟩) ∨
      ∃ before script rest oks out err mid partly e, inv.scripts = before ++ script :: rest ∧
        RanAll h s.it before oks out err mid ∧ Fatal h mid script partly e ∧
        run h clock args lines = ⟨s.out ++ out ++ partly, s.err ++ err, .failed e⟩ := by
  refine ⟨exists_prepared, fun s hs => ?_⟩
  have hidle : Idle s.it := idle_prepared htrace.1 hs
  have hempty : inv.scripts.isEmpty = false := by simpa using hscripts
  have hstart : start h clock args = work h clock inv := by
    rw [start, hargs]
    simp only [Int.not_lt.mpr hlimit, if_false]
  rw [prepared] at hs
  rcases runScripts_cases inv.scripts true hidle with
    ⟨oks, out, err, after, hall, hrun⟩ |
    ⟨before, script, rest, oks, out, err, mid, partly, e, after, hsplit, hall, hfatal, hrun⟩
  · refine .inl ⟨oks, out, err, after, hall, ?_⟩
    rw [Bool.true_and] at hrun
    rw [run, hstart, work]
    simp only [hs, htrace.2, hrun, hempty, hrepl, Bool.false_eq_true, if_false]
  · refine .inr ⟨before, script, rest, oks, out, err, mid, partly, e, hsplit, hall, hfatal, ?_⟩
    rw [run, hstart, work]
    simp only [hs, htrace.2, hrun]

/-- The files of a host, with what is in them. -/
def hostOf (files : List (String × String)) : Host where
  look := Tree.look (files.map fun (name, text) => ([name], .file (text.toList.map fun c => .ofNat c.toNat)))
  var? _ := none

/-- A script that fails at its second datum, one that is not closed, and one that prints what the first of them
defined. -/
def threeScripts : Host := hostOf
  [("fails.al", "(define x 1) (car x) (define x 2)"), ("open.al", "(define x 3) ("), ("prints.al", "(print x)")]

/-- The words that run them, and a script that is not there. -/
def runThem : List String := ["--no-prelude", "fails.al", "absent.al", "open.al", "prints.al"]

/-- The run goes on to the last script, which finds what the first one has defined. -/
theorem scripts_outcome_threeScripts :
    (∃ oks out err after, RanAll threeScripts (.new false newYear)
        ["fails.al", "absent.al", "open.al", "prints.al"] oks out err after ∧
      run threeScripts newYear runThem [] =
        ⟨"AttoLisp Interpreter v0.2.0\n" ++ out, "" ++ err, .returned (if oks.all id then 0 else 1)⟩) ∧
    run threeScripts newYear runThem [] =
      ⟨"AttoLisp Interpreter v0.2.0\nError while running fails.al: car expected a List, got Integer\n" ++
          "Syntax error while reading open.al: Expected ')' at end of list.\n" ++
          "Location: line 1, column 15.\n" ++ Report.hint ++ "1\n",
        "Warning: File not found: absent.al\n", .returned 1⟩ := by
  have hrun : run threeScripts newYear runThem [] =
      ⟨"AttoLisp Interpreter v0.2.0\nError while running fails.al: car expected a List, got Integer\n" ++
          "Syntax error while reading open.al: Expected ')' at end of list.\n" ++
          "Location: line 1, column 15.\n" ++ Report.hint ++ "1\n",
        "Warning: File not found: absent.al\n", .returned 1⟩ := by decide +kernel
  have hargs : Arguments.parse runThem = .ok
      { scripts := ["fails.al", "absent.al", "open.al", "prints.al"], noPrelude := true } := by rfl
  have hlimit : Settings.recursionLimit threeScripts ≤ Settings.maxRecursionLimit := by decide
  have hprepared : prepared threeScripts newYear
      { scripts := ["fails.al", "absent.al", "open.al", "prints.al"], noPrelude := true } =
      (none, ⟨"AttoLisp Interpreter v0.2.0\n", "", .new false newYear⟩) := by rfl
  refine ⟨?_, hrun⟩
  rcases (scripts_outcome newYear [] hargs (by decide) rfl ⟨rfl, rfl⟩ hlimit).2 _ hprepared with
    houtcome | ⟨_, _, _, _, _, _, _, _, _, -, -, -, hfailed⟩
  · exact houtcome
  · have hending : Ending.returned 1 = .failed _ := congrArg Result.ending (hrun.symm.trans hfailed)
    cases hending

/-! ### Names that are too long -/

/-- A text without a slash is the name of something in the current directory. -/
theorem ofText_of_notMem {s : String} (hslash : '/' ∉ s.toList) (hs : s ≠ "") (hdot : s ≠ ".") :
    Path.ofText s = ⟨"", [s]⟩ := by
  have hroot : Path.rootOf s.toList = "" := by
    rcases hcs : s.toList with _ | ⟨c, cs⟩
    · rfl
    · have hc : c ≠ '/' := fun hc => hslash (by rw [hcs, hc]; exact List.mem_cons_self)
      unfold Path.rootOf
      split
      · next heq => exact absurd (List.cons.inj heq).1 hc
      · next heq => exact absurd (List.cons.inj heq).1 hc
      · next heq => exact absurd (List.cons.inj heq).1 hc
      · rfl
  have hpieces : Text.pieces (· == '/') s.toList = [s.toList] :=
    Text.pieces_eq_singleton fun c hc => beq_false_of_ne (ne_of_mem_of_not_mem hc hslash)
  simp [Path.ofText, hroot, Path.namesOf, hpieces, hs, hdot]

/-- A name of more than 255 bytes cannot be looked up. -/
theorem look_ofText_of_overlong (t : Tree) {s : String} (hslash : '/' ∉ s.toList) (hnull : '\x00' ∉ s.toList)
    (hlong : 255 < s.utf8ByteSize) : t.look (.ofText s) = .overlong := by
  have hne : ∀ name : String, name.utf8ByteSize ≤ 2 → s ≠ name := fun name hname hs => by
    rw [hs] at hlong
    omega
  have hvalid : Path.isValid ⟨"", [s]⟩ = true := by simpa [Path.isValid, Path.text] using hnull
  have hfollow : t.follow [] [s] = .overlong := by
    have hback : s ≠ ".." := hne ".." (by decide)
    simp [Tree.follow, Tree.status, hback, Path.isOverlongName, hlong]
  rw [ofText_of_notMem hslash (hne "" (by decide)) (hne "." (by decide)), Tree.look]
  simp [hvalid, hfollow]

/-- A name of more bytes than a name may have. -/
def overlongName : String := String.ofList (List.replicate 256 'a')

theorem look_overlongName (t : Tree) : t.look (.ofText overlongName) = .overlong := by
  have hlist : overlongName.toList = List.replicate 256 'a' := String.toList_ofList
  refine look_ofText_of_overlong t ?_ ?_ ?_
  · rw [hlist, List.mem_replicate]
    decide
  · rw [hlist, List.mem_replicate]
    decide
  · decide +kernel

theorem parse_noPrelude (script last : String) :
    Arguments.parse ["--no-prelude", "--", script, last] = .ok { scripts := [script, last], noPrelude := true } := by
  rfl

theorem run_of_look_overlong {script : String} (hlook : threeScripts.look (.ofText script) = .overlong) :
    run threeScripts newYear ["--no-prelude", "--", script, "prints.al"] [] =
      ⟨"AttoLisp Interpreter v0.2.0\n", "",
        .failed (.unreadableFile (.overlong (Path.ofText script).text))⟩ := by
  have hlimit : ¬ Settings.maxRecursionLimit < Settings.recursionLimit threeScripts := by decide
  have hscript : ∀ s, runScript threeScripts false s script =
      (.failed (.unreadableFile (.overlong (Path.ofText script).text)), s) := fun s => by
    simp only [runScript, Host.isFile, hlook]
  simp only [run, start, parse_noPrelude, hlimit, if_false, work, if_true, runScripts, hscript]
  rfl

/-- **A path that is too long ends the program**: nothing is returned, and the last script is not run. -/
theorem overlongName_ends_program :
    run threeScripts newYear ["--no-prelude", "--", overlongName, "prints.al"] [] =
      ⟨"AttoLisp Interpreter v0.2.0\n", "",
        .failed (.unreadableFile (.overlong (Path.ofText overlongName).text))⟩ := by
  have htree : threeScripts.look = Tree.look _ := rfl
  have hlook : threeScripts.look (.ofText overlongName) = .overlong := by rw [htree, look_overlongName]
  exact run_of_look_overlong hlook

end Program

end MiniLisp
