import MiniLisp.Frames
import MiniLisp.Value.Text

/-!
# Running programs

A run changes a store: the frames, the objects made so far, what was printed, the trace, and the clock.
The store outlives a failure, so what a program did before it failed stays done.

The trace is kept apart from what is printed. Its entries are made at a depth, the number of
evaluations around them; `deeper` counts one more on the way in and one less on the way out, whatever
the outcome.
-/

namespace MiniLisp

/-- One entry of the trace. -/
inductive TraceEntry where
  | form (depth : Nat) (text : String)
  | value (depth : Nat) (text : String)
  | condition (text : String) (holds : Bool)
  | note (text : String)
  deriving DecidableEq, Repr

/-- The entry as a line, two spaces in for each depth. -/
def TraceEntry.text : TraceEntry → String
  | .form depth text => String.ofList (List.replicate (2 * depth) ' ') ++ text
  | .value depth text => String.ofList (List.replicate (2 * depth) ' ') ++ "=> " ++ text
  | .condition text holds =>
    "if condition " ++ text ++ " => " ++ (if holds then "true" else "false")
  | .note text => text

/-- What a run changes. -/
structure Store where
  frames : Frames
  nextId : ObjectId
  output : String
  trace : Array TraceEntry
  depth : Nat
  clock : DateTime

/-- A computation that changes the store and may fail. -/
abbrev Run := EStateM Failure Store

namespace Run

/-- A computation that changes nothing. -/
def ofExcept : Except Failure α → Run α
  | .ok a => pure a
  | .error e => throw e

/-- Makes a new object's identity. -/
def newId : Run ObjectId := fun s => .ok s.nextId { s with nextId := s.nextId + 1 }

/-- Makes a new list. -/
def newList (items : List Value) : Run Value := do
  let id ← newId
  return .list id items

/-- Makes a datum's value. -/
def load (d : Datum) : Run Value := fun s =>
  let r := Value.ofDatum s.nextId d
  .ok r.1 { s with nextId := r.2 }

/-- Prints a text. -/
def write (text : String) : Run Unit := fun s => .ok () { s with output := s.output ++ text }

/-- Adds an entry to the trace. -/
def record (entry : TraceEntry) : Run Unit := fun s =>
  .ok () { s with trace := s.trace.push entry }

/-- The depth of the evaluation. -/
def depth : Run Nat := fun s => .ok s.depth s

/-- Runs a computation one level deeper. -/
def deeper (run : Run α) : Run α := fun s =>
  match run { s with depth := s.depth + 1 } with
  | .ok a s' => .ok a { s' with depth := s'.depth - 1 }
  | .error e s' => .error e { s' with depth := s'.depth - 1 }

/-- The value of a variable. -/
def lookup? (env : FrameId) (name : String) : Run (Option Value) := fun s =>
  .ok (s.frames.lookup? env name) s

/-- Binds a variable in a frame. -/
def define (env : FrameId) (name : String) (v : Value) : Run Unit := fun s =>
  .ok () { s with frames := s.frames.define env name v }

/-- Binds variables in a frame, in order. -/
def defineAll (env : FrameId) (bindings : List (String × Value)) : Run Unit := fun s =>
  .ok () { s with frames := s.frames.defineAll env bindings }

/-- Changes a variable where it is bound. -/
def assign (env : FrameId) (name : String) (v : Value) : Run Unit := fun s =>
  match s.frames.assign? env name v with
  | some frames => .ok () { s with frames }
  | none => .error (.undefinedVariable name) s

/-- Makes a frame inside a frame. -/
def newFrame (env : FrameId) : Run FrameId := fun s =>
  .ok s.frames.size { s with frames := s.frames.addChild env }

/-- Reads the clock, which never shows the same moment twice. -/
def readClock : Run DateTime := fun s => .ok s.clock { s with clock := s.clock.tick }

end Run

end MiniLisp
