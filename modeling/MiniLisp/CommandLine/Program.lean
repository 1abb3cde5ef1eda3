import MiniLisp.CommandLine.Arguments
import MiniLisp.CommandLine.Report
import MiniLisp.Repl

/-!
# The program

The interpreter on the command line. It loads the standard library, runs the scripts in order on one
interpreter, and then holds the dialogue if it is asked to or if there is no script. A script that is
missing or fails is reported, and the next one runs all the same. If the standard library fails, the
program goes on without it.

Everything before the dialogue is one step (`start`), which a caller may follow by a dialogue of its own;
`run` follows it by the dialogue over given lines.
-/

namespace MiniLisp.Program

def version : String := "0.2.0"

/-- How the program ended: with the code that it returns, with the code that it stopped with, or by a
failure that it does not report. -/
inductive Ending where
  | returned (code : Nat)
  | stopped (code : Nat)
  | failed (e : Failure)
  deriving DecidableEq

/-- The program's progress: what it wrote, also beside its output, and the interpreter. -/
structure State where
  out : String
  err : String
  it : Interpreter

/-- What the program has written when it starts to work. -/
def banner (inv : Arguments.Invocation) : String :=
  "AttoLisp Interpreter v" ++ version ++ "\n" ++
    (if inv.trace then "[trace] Evaluation tracing enabled\n" else "") ++
    (if inv.traceParse then "[trace] Parse tracing enabled\n" else "")

/-- The trace as lines. -/
def traceText (entries : List TraceEntry) : String :=
  String.join (entries.map fun e => e.text ++ "\n")

/-- Collects what the interpreter wrote. -/
def State.collect (s : State) (it : Interpreter) : State :=
  let (printed, it) := it.takePrinted
  let (entries, it) := it.takeTrace
  ⟨s.out ++ printed, s.err ++ traceText entries, it⟩

/-- Loads the standard library, or goes on without it. -/
def loadLibrary (h : Host) (clock : DateTime) (s : State) : Option Failure × State :=
  let (result, it) := s.it.loadLibrary h
  let s := s.collect it
  match result with
  | .ok () => (none, s)
  | .error e =>
    if e.kind.isLanguage then
      (none, { s with
        out := s.out ++ e.report.text "standard library"
        it := Interpreter.new s.it.tracing clock })
    else (some e, s)

/-- Whether a script that fails this way is reported. -/
def isReported (e : Failure) : Bool :=
  e.kind.isLanguage ||
    [.stackExhausted, .badEncoding, .missingFile, .directoryFile, .blockedFile, .overlongPath].contains
      e.kind

/-- What running a script came to. -/
inductive ScriptResult where
  | done
  | reported
  | failed (e : Failure)

/-- Runs one script. -/
def runScript (h : Host) (echoing : Bool) (s : State) (script : String) : ScriptResult × State :=
  let p := Path.ofText script
  match h.isFile p with
  | .error e => (.failed e, s)
  | .ok false => (.reported, { s with err := s.err ++ "Warning: File not found: " ++ script ++ "\n" })
  | .ok true =>
    let before : Datum → Run Unit := fun d =>
      if echoing then Run.write (Repl.echo p.name d) else pure ()
    let (result, it) := s.it.loadFile h before p
    let s := s.collect it
    match result with
    | .ok () => (.done, s)
    | .error e =>
      if isReported e then (.reported, { s with out := s.out ++ e.report.text p.name })
      else (.failed e, s)

/-- Runs scripts in order; `ok` tells whether all were done so far. -/
def runScripts (h : Host) (echoing : Bool) (ok : Bool) (s : State) :
    List String → Except Failure Bool × State
  | [] => (.ok ok, s)
  | script :: scripts =>
    match runScript h echoing s script with
    | (.done, s) => runScripts h echoing ok s scripts
    | (.reported, s) => runScripts h echoing false s scripts
    | (.failed e, s) => (.error e, s)

/-- How far the program comes without reading a line. -/
inductive Start where
  | ended (out err : String) (ending : Ending)
  | dialogue (s : State) (echoing : Bool)

/-- Runs the program up to the dialogue. -/
def work (h : Host) (clock : DateTime) (inv : Arguments.Invocation) : Start :=
  let s : State := ⟨banner inv, "", Interpreter.new inv.trace clock⟩
  let (failure, s) := if inv.noPrelude then (none, s) else loadLibrary h clock s
  match failure with
  | some e => .ended s.out s.err (.failed e)
  | none =>
    match runScripts h inv.traceParse true s inv.scripts with
    | (.error e, s) => .ended s.out s.err (.failed e)
    | (.ok ok, s) =>
      if inv.scripts.isEmpty then .dialogue s inv.traceParse
      else if inv.repl then
        .dialogue { s with out := s.out ++ "\nEntering REPL...\n" } inv.traceParse
      else .ended s.out s.err (.returned (if ok then 0 else 1))

/-- Runs the program up to the dialogue. -/
def start (h : Host) (clock : DateTime) (args : List String) : Start :=
  match Arguments.parse args with
  | .ok inv =>
    if Settings.maxRecursionLimit < Settings.recursionLimit h then
      .ended "" "" (.failed .excessiveNesting)
    else work h clock inv
  | .error .help => .ended Arguments.help "" (.stopped 0)
  | .error .version => .ended ("AttoLisp v" ++ version ++ "\n") "" (.stopped 0)
  | .error (.wrong message) => .ended "" (Arguments.complaint message) (.stopped 2)

/-- What the whole program came to. -/
structure Result where
  out : String
  err : String
  ending : Ending
  deriving DecidableEq

/-- Runs the program with some lines of input. -/
def run (h : Host) (clock : DateTime) (args lines : List String) : Result :=
  match start h clock args with
  | .ended out err ending => ⟨out, err, ending⟩
  | .dialogue s echoing =>
    let d := Repl.run echoing s.it lines
    let s := s.collect d.after
    let ending := match d.failure with
      | some e => .failed e
      | none => .returned 0
    ⟨s.out ++ d.written, s.err, ending⟩

end MiniLisp.Program
