import MiniLisp.CommandLine.Program
import Std.Time.DateTime.Timestamp

/-!
# The executable

Asks the machine for what the program may want to know, runs the program, and holds its dialogue line by
line.
-/

namespace MiniLisp.Executable

/-- Whether an error has this number; some calls give it below zero. -/
def hasNumber (code number : UInt32) : Bool := code = number || code = 0 - number

/-- What a path leads to on this machine. -/
def lookAt (p : Path) : IO FileStatus := do
  if !p.isValid then return .invalid
  match ← (IO.FS.readBinFile p.text).toBaseIO with
  | .ok bytes => return .file bytes.toList
  | .error (.inappropriateType _ code _) =>
    return if hasNumber code 20 then .blocked else .directory
  | .error (.invalidArgument _ code _) =>
    return if hasNumber code 36 then .overlong else .missing
  | .error _ => return .missing

/-- The variables that the program looks at. -/
def settingNames : List String := ["ATTOLISP_PRELUDE_PATH", "ATTOLISP_RECURSION_LIMIT"]

/-- The paths that the program may look at. -/
def pathsOfInterest (args : List String) (library : String) : List Path :=
  args.map Path.ofText ++ (Settings.pathsOf library).flatMap fun p =>
    [p, p.child Settings.libraryFile, p.parent.child Settings.libraryFile]

/-- The machine as the program sees it. -/
def surroundings (args : List String) : IO Host := do
  let set ← settingNames.filterMapM fun name => do
    return (← IO.getEnv name).map (name, ·)
  let paths := pathsOfInterest args ((set.lookup "ATTOLISP_PRELUDE_PATH").getD "")
  let found ← paths.mapM fun p => return (p, ← lookAt p)
  return ⟨fun p => (found.lookup p).getD .missing, fun name => set.lookup name⟩

/-- The time of day. -/
def currentTime : IO DateTime := do
  let now ← Std.Time.Timestamp.now
  let micros := now.toNanosecondsSinceUnixEpoch.val.toNat / 1000
  match DateTime.ofUnixMicros? micros with
  | some d => return d
  | none => throw (IO.userError "the clock is outside the calendar")

/-- Writes what was written since the last time. -/
def flushState (s : Program.State) : IO Interpreter := do
  let stdout ← IO.getStdout
  let stderr ← IO.getStderr
  stdout.putStr s.out
  stdout.flush
  stderr.putStr s.err
  return s.it

/-- Reports a failure that ends the program. -/
def failWith (e : Failure) : IO UInt32 := do
  let stderr ← IO.getStderr
  stderr.putStr (e.message ++ "\n")
  return 1

/-- Holds the dialogue. -/
partial def converse (echoing : Bool) (it : Interpreter) : IO UInt32 := do
  let stdin ← IO.getStdin
  let stdout ← IO.getStdout
  stdout.putStr Repl.prompt
  stdout.flush
  let line ← stdin.getLine
  if line.isEmpty then
    stdout.putStr "\n"
    return 0
  match Repl.turn it echoing line with
  | .next answer it => converse echoing (← flushState (Program.State.collect ⟨answer, "", it⟩ it))
  | .goodbye answer _ =>
    stdout.putStr answer
    return 0
  | .failed answer e _ =>
    stdout.putStr answer
    failWith e

/-- Runs the program. -/
def run (args : List String) : IO UInt32 := do
  let host ← surroundings args
  let clock ← currentTime
  match Program.start host clock args with
  | .ended out err ending =>
    (← IO.getStdout).putStr out
    (← IO.getStderr).putStr err
    match ending with
    | .returned code => return code.toUInt32
    | .stopped code => return code.toUInt32
    | .failed e => failWith e
  | .dialogue s echoing =>
    let it ← flushState s
    (← IO.getStdout).putStr Repl.greeting
    converse echoing it

end MiniLisp.Executable

/-- Runs the program with the arguments of the command line. -/
def main (args : List String) : IO UInt32 := MiniLisp.Executable.run args
