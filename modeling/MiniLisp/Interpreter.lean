import MiniLisp.Datum.Layout
import MiniLisp.Datum.Reader
import MiniLisp.Eval.Evaluate
import MiniLisp.Host.Settings
import MiniLisp.StandardLibrary

/-!
# The interpreter

An interpreter owns a store, so what one program defines the next one sees. A program text is read as a
whole before any of it is evaluated; then its data are evaluated one after the other in the global
frame, up to the first that fails (`Interpreter.runData`).
-/

namespace MiniLisp

/-- An interpreter: whether it traces, and its store. -/
structure Interpreter where
  tracing : Bool
  store : Store

/-- The frame that nothing encloses. -/
def globalFrame : FrameId := 0

/-- How many evaluations may be nested. -/
def nesting : Nat := 5000

namespace Interpreter

/-- The bindings of a new global frame. -/
def builtinBindings : List (String × Value) :=
  Builtin.all.mapIdx fun i b => (b.name, .builtin i b)

/-- The store of a new interpreter. -/
def newStore (clock : DateTime) : Store where
  frames := Frames.empty.addRoot.defineAll globalFrame builtinBindings
  nextId := Builtin.all.length
  output := ""
  trace := #[]
  depth := 0
  clock := clock

/-- An interpreter that knows the builtin functions only. -/
def new (tracing : Bool) (clock : DateTime) : Interpreter := ⟨tracing, newStore clock⟩

/-- Runs a computation on the store. -/
def run (it : Interpreter) (r : Run α) : Except Failure α × Interpreter :=
  match r it.store with
  | .ok a store => (.ok a, { it with store })
  | .error e store => (.error e, { it with store })

/-- Evaluates a value as a form in the global frame. -/
def evaluateForm (it : Interpreter) (form : Value) : Except Failure Value × Interpreter :=
  it.run (evaluate it.tracing nesting form globalFrame)

/-- Evaluates a datum in the global frame, after a computation that prepares for it. -/
def evaluateDatum (it : Interpreter) (before : Run Unit) (d : Datum) :
    Except Failure Value × Interpreter :=
  it.run do
    before
    let form ← Run.load d
    evaluate it.tracing nesting form globalFrame

/-- What evaluating some data came to: the data that were begun, the last value or the failure, and
the interpreter after it. -/
structure Outcome where
  begun : List Datum
  result : Except Failure Value
  after : Interpreter

/-- Evaluates data up to the first that fails; `last` is the value if there are none. -/
def runData (before : Datum → Run Unit) (it : Interpreter) (last : Value) : List Datum → Outcome
  | [] => ⟨[], .ok last, it⟩
  | d :: ds =>
    match it.evaluateDatum (before d) d with
    | (.error e, it) => ⟨[d], .error e, it⟩
    | (.ok v, it) =>
      let o := runData before it v ds
      { o with begun := d :: o.begun }

/-- Evaluates a program text, with a computation before each of its data. -/
def runText (before : Datum → Run Unit) (it : Interpreter) (source : String) : Outcome :=
  match Datum.readAll source with
  | .error e => ⟨[], .error e, it⟩
  | .ok ds => runData before it .nil ds

/-- Does nothing before a datum. -/
def silently : Datum → Run Unit := fun _ => pure ()

/-- Evaluates a program text and gives its last value, `nil` if it is empty. -/
def eval (it : Interpreter) (source : String) : Except Failure Value × Interpreter :=
  let o := it.runText silently source
  (o.result, o.after)

/-- Adds a note to the trace of an interpreter that traces. -/
def note (it : Interpreter) (text : String) : Interpreter :=
  if it.tracing then
    { it with store := { it.store with trace := it.store.trace.push (.note text) } }
  else it

/-- Loads the standard library: the one that comes with the interpreter, or a file that the host
names. A file that is not there is passed over. -/
def loadLibrary (it : Interpreter) (h : Host) : Except Failure Unit × Interpreter :=
  match Settings.library h with
  | .error e => (.error e, it)
  | .ok .own =>
    let it := it.note ("Loading prelude " ++ (Settings.ownLibrary.child Settings.libraryFile).text)
    let o := it.runText silently StandardLibrary.source
    (o.result.map fun _ => (), o.after)
  | .ok (.directory root) =>
    let file := root.child Settings.libraryFile
    match h.isFile file with
    | .error e => (.error e, it)
    | .ok false => (.ok (), it.note ("No prelude found under " ++ root.text))
    | .ok true =>
      let it := it.note ("Loading prelude " ++ file.text)
      match h.readText file with
      | .error e => (.error e, it)
      | .ok source =>
        let o := it.runText silently source
        (o.result.map fun _ => (), o.after)

/-- Loads a script from a file. -/
def loadFile (it : Interpreter) (h : Host) (before : Datum → Run Unit) (p : Path) :
    Except Failure Unit × Interpreter :=
  match h.readText p with
  | .error e => (.error e, it)
  | .ok source =>
    let o := (it.note ("Loading script " ++ p.text)).runText before source
    (o.result.map fun _ => (), o.after)

/-- Takes out what was printed since the last time. -/
def takePrinted (it : Interpreter) : String × Interpreter :=
  (it.store.output, { it with store := { it.store with output := "" } })

/-- Takes out what was traced since the last time. -/
def takeTrace (it : Interpreter) : List TraceEntry × Interpreter :=
  (it.store.trace.toList, { it with store := { it.store with trace := #[] } })

end Interpreter

end MiniLisp
