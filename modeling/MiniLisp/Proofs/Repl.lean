import MiniLisp.Repl
import MiniLisp.Proofs.Eval.Finite

/-! # The dialogue answers every line

Every line of a dialogue is answered by a block of its own: by nothing if it is blank, and otherwise
by its value or by the message of its failure. The next line finds the interpreter as this one left
it. That is how a dialogue goes on up to its end or to the first farewell (`dialogue_outcome`), with
one exception: a line of which the failure does not belong to the language is not answered. Such a
line names a date outside the calendar, or it comes to a whole number with too many digits to be
printed. -/

namespace MiniLisp

open Datum

/-! ### The first datum of a text -/

namespace Reading

/-- Reading the first datum fails with a syntax error, or at a date outside the calendar. -/
theorem first_failure {place : Place} {e : Failure} : ∀ {ts : List Token} {r : Reading},
    r.first ts place = .error e →
      (∃ fault place', e = .syntaxError fault place') ∨ e = .dateOutOfCalendar
  | [], r, h => by
    rw [first] at h
    cases hfinish : r.finish place with
    | ok ds =>
      rw [hfinish] at h
      cases h
    | error e' =>
      rw [hfinish] at h
      cases h
      obtain ⟨fault, rfl⟩ := finish_failure hfinish
      exact .inl ⟨fault, place, rfl⟩
  | t :: ts, r, h => by
    rw [first] at h
    split at h
    · next hstep =>
      cases h
      rcases step_failure hstep with ⟨fault, rfl⟩ | ⟨rfl, -⟩
      · exact .inl ⟨fault, _, rfl⟩
      · exact .inr rfl
    · split at h
      · cases h
      · exact first_failure h

/-- The first datum is among those that are finished after some of the tokens. -/
theorem first_eq_ok {place : Place} {d : Datum} : ∀ {ts : List Token} {r : Reading},
    r.first ts place = .ok d →
      d = .atom .nil ∨ ∃ before r', before <+: ts ∧ r.steps before = .ok r' ∧ d ∈ r'.done
  | [], r, h => by
    rw [first] at h
    cases hfinish : r.finish place with
    | error e =>
      rw [hfinish] at h
      cases h
    | ok ds =>
      rw [hfinish] at h
      obtain ⟨-, rfl⟩ := finish_eq_ok hfinish
      cases hdone : r.done.reverse with
      | nil =>
        rw [hdone] at h
        cases h
        exact .inl rfl
      | cons d' ds =>
        rw [hdone] at h
        cases h
        refine .inr ⟨[], r, List.nil_prefix, rfl, ?_⟩
        rw [← List.mem_reverse, hdone]
        exact List.mem_cons_self
  | t :: ts, r, h => by
    rw [first] at h
    split at h
    · cases h
    · next r₁ hstep =>
      split at h
      · next d' ds hdone =>
        cases h
        refine .inr ⟨[t], r₁, ⟨ts, rfl⟩, by rw [steps, hstep]; rfl, ?_⟩
        rw [hdone]
        exact List.mem_cons_self
      · rcases first_eq_ok h with rfl | ⟨before, r', hbefore, hsteps, hd⟩
        · exact .inl rfl
        · refine .inr ⟨t :: before, r', ?_, by rw [steps, hstep]; exact hsteps, hd⟩
          exact (List.prefix_cons_inj t).2 hbefore

end Reading

/-- **The first datum of a text is finite.** -/
theorem Datum.isFinite_of_readFirst {source : String} {d : Datum} (h : readFirst source = .ok d) :
    d.IsFinite := by
  rcases Reading.first_eq_ok h with rfl | ⟨before, r, hbefore, hsteps, hd⟩
  · exact nofun
  · obtain ⟨q, rfl, -⟩ := Derivation.Progress.exists_progress_steps (p := ⟨[], []⟩)
      (fun t ht => Derivation.isEnd_of_mem_beforeEnd (hbefore.subset ht)) hsteps
    obtain ⟨derivation, -, rfl⟩ := List.mem_map.1 hd
    exact derivation.isFinite_datum

namespace Repl

/-! ### Lines and their answers -/

/-- Whether a line ends the dialogue. -/
def isFarewell (line : String) : Bool :=
  Text.lower (Text.strip line) == "exit" || Text.lower (Text.strip line) == "quit"

/-- **The line is answered** by a block of text, and leaves the interpreter behind. -/
inductive Answered (echoing : Bool) (it : Interpreter) (line : String) :
    String → Interpreter → Prop
  | blank (hblank : (Text.strip line).isEmpty = true) : Answered echoing it line "" it
  | unread {fault : SyntaxFault} {place : Place} (hline : (Text.strip line).isEmpty = false)
    (hread : readFirst (Text.strip line) = .error (.syntaxError fault place)) :
    Answered echoing it line ("Error: " ++ (Failure.syntaxError fault place).message ++ "\n\n") it
  | failed {d : Datum} {e : Failure} {after : Interpreter}
    (hline : (Text.strip line).isEmpty = false) (hread : readFirst (Text.strip line) = .ok d)
    (hrun : it.evaluateDatum (pure ()) d = (.error e, after)) (he : survives e = true) :
    Answered echoing it line
      (lineEcho echoing d ++ after.store.output ++ "Error: " ++ e.message ++ "\n\n")
      after.takePrinted.2
  | value {d : Datum} {v : Value} {after : Interpreter}
    (hline : (Text.strip line).isEmpty = false) (hread : readFirst (Text.strip line) = .ok d)
    (hrun : it.evaluateDatum (pure ()) d = (.ok v, after)) (hv : v.isOverlong = false) :
    Answered echoing it line
      (lineEcho echoing d ++ after.store.output ++ "=> " ++ v.text ++ "\n\n") after.takePrinted.2

/-- **The line is not answered**: the dialogue ends with its failure, and this is what was written
before. -/
inductive Unanswered (echoing : Bool) (it : Interpreter) (line : String) :
    String → Failure → Prop
  | unread (hread : readFirst (Text.strip line) = .error .dateOutOfCalendar) :
    Unanswered echoing it line "" .dateOutOfCalendar
  | failed {d : Datum} {after : Interpreter} (hread : readFirst (Text.strip line) = .ok d)
    (hrun : it.evaluateDatum (pure ()) d = (.error .overlongInteger, after)) :
    Unanswered echoing it line (lineEcho echoing d ++ after.store.output) .overlongInteger
  | unprinted {d : Datum} {v : Value} {after : Interpreter}
    (hread : readFirst (Text.strip line) = .ok d)
    (hrun : it.evaluateDatum (pure ()) d = (.ok v, after)) (hv : v.isOverlong = true) :
    Unanswered echoing it line (lineEcho echoing d ++ after.store.output) .overlongInteger

/-- **The lines are answered one after the other**, each in the interpreter that the one before
left. -/
inductive Answers (echoing : Bool) : Interpreter → List String → List String → Interpreter → Prop
  | nil (it : Interpreter) : Answers echoing it [] [] it
  | cons {it mid after : Interpreter} {line block : String} {lines blocks : List String}
    (first : Answered echoing it line block mid) (rest : Answers echoing mid lines blocks after) :
    Answers echoing it (line :: lines) (block :: blocks) after

/-- What is written when lines are answered: before each of them the prompt. -/
def transcript (blocks : List String) : String := String.join (blocks.map (prompt ++ ·))

/-- An interpreter between two lines: its numbers are finite, and nothing that was printed waits to
be shown. -/
structure Ready (it : Interpreter) : Prop where
  finite : it.store.frames.Binds Value.IsFinite
  shown : it.store.output = ""

variable {echoing : Bool} {it after : Interpreter} {line : String}

theorem Ready.takePrinted (h : Ready it) : it.takePrinted = ("", it) := by
  obtain ⟨tracing, frames, nextId, output, trace, depth, clock⟩ := it
  cases h.shown
  rfl

theorem ready_takePrinted (h : it.store.frames.Binds Value.IsFinite) : Ready it.takePrinted.2 :=
  ⟨h, rfl⟩

theorem Answered.ready (hit : Ready it) {block : String} (h : Answered echoing it line block after) :
    Ready after := by
  cases h with
  | blank => exact hit
  | unread => exact hit
  | failed hline hread hrun =>
    have hfinite := (Interpreter.finite_evaluateDatum hit.finite (isFinite_of_readFirst hread)).1
    rw [Interpreter.silently, hrun] at hfinite
    exact ready_takePrinted hfinite
  | value hline hread hrun =>
    have hfinite := (Interpreter.finite_evaluateDatum hit.finite (isFinite_of_readFirst hread)).1
    rw [Interpreter.silently, hrun] at hfinite
    exact ready_takePrinted hfinite

theorem isFarewell_of_isEmpty (h : (Text.strip line).isEmpty = true) : isFarewell line = false := by
  rw [isFarewell, String.isEmpty_iff.1 h]
  decide +kernel

/-- What becomes of a line that is neither blank nor a farewell. -/
theorem turn_eq (hblank : (Text.strip line).isEmpty = false) (hbye : isFarewell line = false) :
    turn it echoing line =
      let r := evalLine it echoing (Text.strip line)
      match r.2.1 with
      | .ok text => .next (r.1 ++ r.2.2.store.output ++ "=> " ++ text ++ "\n\n") r.2.2.takePrinted.2
      | .error e =>
        if survives e then
          .next (r.1 ++ r.2.2.store.output ++ "Error: " ++ e.message ++ "\n\n") r.2.2.takePrinted.2
        else .failed (r.1 ++ r.2.2.store.output) e r.2.2.takePrinted.2 := by
  have hneither : ¬ (Text.lower (Text.strip line) = "exit" ∨ Text.lower (Text.strip line) = "quit") := by
    simpa [isFarewell] using hbye
  rw [turn]
  simp only [hblank, hneither, if_false, Bool.false_eq_true]
  rfl

/-- **What becomes of a line.** -/
theorem turn_cases (hit : Ready it) (echoing : Bool) (line : String) :
    (isFarewell line = true ∧ turn it echoing line = .goodbye "Goodbye!\n" it) ∨
    (isFarewell line = false ∧ ∃ block after, Answered echoing it line block after ∧
      turn it echoing line = .next block after) ∨
    (isFarewell line = false ∧ ∃ written e after, Unanswered echoing it line written e ∧
      turn it echoing line = .failed written e after) := by
  cases hblank : (Text.strip line).isEmpty with
  | true =>
    exact .inr (.inl ⟨isFarewell_of_isEmpty hblank, "", it, .blank hblank, by simp [turn, hblank]⟩)
  | false =>
    cases hbye : isFarewell line with
    | true =>
      refine .inl ⟨rfl, ?_⟩
      have heither : Text.lower (Text.strip line) = "exit" ∨ Text.lower (Text.strip line) = "quit" := by
        simpa [isFarewell] using hbye
      simp [turn, hblank, heither]
    | false =>
      refine .inr ?_
      rw [turn_eq hblank hbye]
      cases hread : readFirst (Text.strip line) with
      | error e =>
        have hline : evalLine it echoing (Text.strip line) = ("", .error e, it) := by
          rw [evalLine, hread]
        simp only [hline, hit.takePrinted, hit.shown, String.empty_append]
        rcases Reading.first_failure hread with ⟨fault, place, rfl⟩ | rfl
        · exact .inl ⟨trivial, _, it, .unread hblank hread, rfl⟩
        · exact .inr ⟨trivial, "", _, it, .unread hread, rfl⟩
      | ok d =>
        have hends := (Interpreter.finite_evaluateDatum hit.finite (isFinite_of_readFirst hread)).2
        rw [Interpreter.silently] at hends
        rcases hrun : it.evaluateDatum (pure ()) d with ⟨e | v, after⟩
        · have hline : evalLine it echoing (Text.strip line) =
              (lineEcho echoing d, .error e, after) := by rw [evalLine, hread]; simp only [hrun]
          simp only [hline]
          rw [hrun] at hends
          cases hsurvives : survives e with
          | true => exact .inl ⟨trivial, _, _, .failed hblank hread hrun hsurvives, rfl⟩
          | false =>
            rcases hends with hlanguage | rfl | rfl
            · rw [survives, hlanguage] at hsurvives
              cases hsurvives
            · cases hsurvives
            · exact .inr ⟨trivial, _, _, _, .failed hread hrun, rfl⟩
        · have hline : evalLine it echoing (Text.strip line) =
              (lineEcho echoing d, v.print, after) := by rw [evalLine, hread]; simp only [hrun]
          simp only [hline]
          cases hv : v.isOverlong with
          | false =>
            rw [Value.print, if_neg (ne_true_of_eq_false hv)]
            exact .inl ⟨trivial, _, _, .value hblank hread hrun hv, rfl⟩
          | true =>
            rw [Value.print, if_pos hv]
            exact .inr ⟨trivial, _, _, _, .unprinted hread hrun hv, rfl⟩

/-! ### The whole dialogue -/

/-- What is written after the last line that is answered, if the dialogue goes to its end. -/
def ending (lines : List String) : String := if lines.any isFarewell then "Goodbye!\n" else "\n"

theorem transcript_cons (block : String) (blocks : List String) :
    transcript (block :: blocks) = prompt ++ block ++ transcript blocks := by
  rw [transcript, List.map_cons, String.join_cons]
  rfl

/-- **Where a dialogue leads**: it answers the lines up to the first farewell, or it fails at the
first of them that it does not answer. -/
theorem talk_cases (echoing : Bool) : ∀ (lines : List String) {it : Interpreter} (written : String),
    Ready it →
      (∃ blocks after, Answers echoing it (lines.takeWhile (!isFarewell ·)) blocks after ∧
        talk echoing it written lines =
          ⟨written ++ transcript blocks ++ prompt ++ ending lines, none, after⟩) ∨
      ∃ before line rest blocks mid partly e after,
        lines.takeWhile (!isFarewell ·) = before ++ line :: rest ∧
        Answers echoing it before blocks mid ∧ Unanswered echoing mid line partly e ∧
        talk echoing it written lines =
          ⟨written ++ transcript blocks ++ prompt ++ partly, some e, after⟩
  | [], it, written, _ => .inl ⟨[], it, .nil it, by simp [talk, transcript, ending]⟩
  | line :: lines, it, written, hit => by
    rcases turn_cases hit echoing line with ⟨hbye, hturn⟩ | ⟨hbye, block, after, hanswer, hturn⟩ |
      ⟨hbye, partly, e, after, hanswer, hturn⟩
    · refine .inl ⟨[], it, ?_, ?_⟩
      · rw [List.takeWhile_cons_of_neg (by simp [hbye])]
        exact .nil it
      · simp [talk, hturn, transcript, ending, hbye]
    · have hasked : (line :: lines).takeWhile (!isFarewell ·) =
          line :: lines.takeWhile (!isFarewell ·) := List.takeWhile_cons_of_pos (by simp [hbye])
      have hending : ending (line :: lines) = ending lines := by simp [ending, hbye]
      have htalk : talk echoing it written (line :: lines) =
          talk echoing after (written ++ prompt ++ block) lines := by rw [talk, hturn]
      have hwritten : ∀ blocks, written ++ transcript (block :: blocks) =
          written ++ prompt ++ block ++ transcript blocks := fun blocks => by
        rw [transcript_cons, String.append_assoc, String.append_assoc, String.append_assoc]
      rw [hasked, hending, htalk]
      rcases talk_cases echoing lines (written ++ prompt ++ block) (hanswer.ready hit) with
        ⟨blocks, last, hanswers, htalk⟩ |
        ⟨before, line', rest, blocks, mid, partly, e, last, hlines, hanswers, hno, htalk⟩
      · exact .inl ⟨block :: blocks, last, .cons hanswer hanswers, by rw [htalk, hwritten]⟩
      · refine .inr ⟨line :: before, line', rest, block :: blocks, mid, partly, e, last,
          by rw [hlines]; rfl, .cons hanswer hanswers, hno, by rw [htalk, hwritten]⟩
    · refine .inr ⟨[], line, lines.takeWhile (!isFarewell ·), [], it, partly, e, after, ?_, .nil it,
        hanswer, ?_⟩
      · rw [List.takeWhile_cons_of_pos (by simp [hbye])]
        rfl
      · rw [talk, hturn]
        simp [transcript]

end Repl

/-! ### Interpreters that a dialogue starts with -/

namespace Interpreter

/-- A new interpreter, or one that has loaded a host's standard library or evaluated a text since.
-/
inductive Loaded : Interpreter → Prop
  | new (tracing : Bool) (clock : DateTime) : Loaded (.new tracing clock)
  | library {it : Interpreter} (host : Host) (h : Loaded it) : Loaded (it.loadLibrary host).2
  | text {it : Interpreter} (source : String) (h : Loaded it) : Loaded (it.eval source).2

theorem finite_runData : ∀ (ds : List Datum) {it : Interpreter} (last : Value),
    it.store.frames.Binds Value.IsFinite → (∀ d ∈ ds, d.IsFinite) →
      (runData silently it last ds).after.store.frames.Binds Value.IsFinite
  | [], _, _, hit, _ => hit
  | d :: ds, it, last, hit, hds => by
    rw [List.forall_mem_cons] at hds
    have hafter := (finite_evaluateDatum hit hds.1).1
    rw [runData]
    rcases hrun : it.evaluateDatum (silently d) d with ⟨e | v, after⟩
    · rw [hrun] at hafter
      exact hafter
    · rw [hrun] at hafter
      exact finite_runData ds v hafter hds.2

theorem finite_runText {it : Interpreter} (source : String)
    (hit : it.store.frames.Binds Value.IsFinite) :
    (runText silently it source).after.store.frames.Binds Value.IsFinite := by
  unfold runText
  split
  · exact hit
  · next ds hread => exact finite_runData ds .nil hit (isFinite_of_readAll hread)

theorem frames_note (it : Interpreter) (text : String) :
    (it.note text).store.frames = it.store.frames := by
  unfold note
  split <;> rfl

/-- Stated for any outcome, so that no text is evaluated to check it. -/
theorem finite_after {o : Outcome} (h : o.after.store.frames.Binds Value.IsFinite) :
    (o.result.map fun _ => (), o.after).2.store.frames.Binds Value.IsFinite := h

theorem Loaded.finite {it : Interpreter} (h : Loaded it) : it.store.frames.Binds Value.IsFinite := by
  have hnote : ∀ {it : Interpreter} text, it.store.frames.Binds Value.IsFinite →
      (it.note text).store.frames.Binds Value.IsFinite := fun text hit => by rwa [frames_note]
  induction h with
  | new tracing clock => exact finite_newStore clock
  | library host _ ih =>
    unfold loadLibrary
    split
    · exact ih
    · exact finite_after (finite_runText StandardLibrary.source (hnote _ ih))
    · dsimp only
      split
      · exact ih
      · exact hnote _ ih
      · split
        · exact hnote _ ih
        · exact finite_after (finite_runText _ (hnote _ ih))
  | text source _ ih => exact finite_runText source ih

end Interpreter

namespace Repl

/-- **The outcome of a dialogue.** When an interpreter is loaded and what it printed so far is
shown, a dialogue with it answers the lines up to the first farewell, one after the other, and
returns; the lines after the farewell do not matter. Or it comes to a line that it does not answer,
and ends with its failure. -/
theorem dialogue_outcome {it : Interpreter} (h : it.Loaded) (echoing : Bool) (lines : List String) :
    (∃ blocks after,
      Answers echoing it.takePrinted.2 (lines.takeWhile (!isFarewell ·)) blocks after ∧
        run echoing it.takePrinted.2 lines =
          ⟨greeting ++ transcript blocks ++ prompt ++ ending lines, none, after⟩) ∨
    ∃ before line rest blocks mid partly e after,
      lines.takeWhile (!isFarewell ·) = before ++ line :: rest ∧
        Answers echoing it.takePrinted.2 before blocks mid ∧ Unanswered echoing mid line partly e ∧
        run echoing it.takePrinted.2 lines =
          ⟨greeting ++ transcript blocks ++ prompt ++ partly, some e, after⟩ :=
  talk_cases echoing lines greeting (ready_takePrinted h.finite)

/-- A dialogue that goes on after a failure, and that reads nothing after the farewell. -/
theorem dialogue_outcome_farewell :
    ∃ blocks after, Answers false (Interpreter.new false newYear).takePrinted.2
        ["(car 1)", "", "(+ 1 2)"] blocks after ∧
      run false (Interpreter.new false newYear).takePrinted.2
          ["(car 1)", "", "(+ 1 2)", "exit", "(car 2)"] =
        ⟨greeting ++ transcript blocks ++ prompt ++ "Goodbye!\n", none, after⟩ := by
  have hfailure : (run false (Interpreter.new false newYear).takePrinted.2
      ["(car 1)", "", "(+ 1 2)", "exit", "(car 2)"]).failure = none := by decide +kernel
  have hasked : ["(car 1)", "", "(+ 1 2)", "exit", "(car 2)"].takeWhile (!isFarewell ·) =
      ["(car 1)", "", "(+ 1 2)"] := by decide +kernel
  have hending : ending ["(car 1)", "", "(+ 1 2)", "exit", "(car 2)"] = "Goodbye!\n" := by
    decide +kernel
  rcases dialogue_outcome (.new false newYear) false ["(car 1)", "", "(+ 1 2)", "exit", "(car 2)"] with
    ⟨blocks, after, hanswers, hrun⟩ | ⟨_, _, _, _, _, _, _, _, -, -, -, hrun⟩
  · rw [hasked] at hanswers
    rw [hending] at hrun
    exact ⟨blocks, after, hanswers, hrun⟩
  · rw [hrun] at hfailure
    cases hfailure

/-- A line whose value has more digits than can be printed. -/
def hugeLine : String :=
  "(let* ((a 9999999999) (b (* a a a a a a a a)) (c (* b b b b b b b b)) (d (* c c c c c c c c))) d)"

/-- The dialogue does not survive a value that cannot be printed: it ends without an answer to the
line, and the line after it is not read. -/
theorem dialogue_outcome_hugeNumber :
    (run false (Interpreter.new false newYear) [hugeLine, "(+ 1 2)"]).failure =
      some .overlongInteger ∧
    (run false (Interpreter.new false newYear) [hugeLine, "(+ 1 2)"]).written =
      greeting ++ prompt := by
  decide +kernel

end Repl

end MiniLisp
