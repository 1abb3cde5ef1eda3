import MiniLisp.Interpreter

/-!
# The dialogue

The interpreter in dialogue reads line by line. A blank line is passed over, and `exit` or `quit` in
capitals or small letters ends the dialogue. Any other line is one form: what follows its first form is
ignored. Its value is answered, or its failure; a failure of the language does not end the dialogue.
-/

namespace MiniLisp.Repl

/-- What is written before a line is read. -/
def prompt : String := "lisp> "

/-- What is written first. -/
def greeting : String := "Type 'exit' or 'quit' to exit\n\n"

/-- A datum laid out, under a head that says where it came from. -/
def echo (label : String) (d : Datum) : String :=
  "[parse " ++ label ++ "]\n" ++ d.layout 0 ++ "\n"

/-- What a line is echoed as: nothing unless it is a list and echoing is on. -/
def lineEcho (echoing : Bool) (d : Datum) : String :=
  if echoing && !d.isAtom then echo "repl" d else ""

/-- Evaluates a line and gives the printed value; also what the line was echoed as. -/
def evalLine (it : Interpreter) (echoing : Bool) (line : String) :
    String × Except Failure String × Interpreter :=
  match Datum.readFirst line with
  | .error e => ("", .error e, it)
  | .ok d =>
    match it.evaluateDatum (pure ()) d with
    | (.error e, it) => (lineEcho echoing d, .error e, it)
    | (.ok v, it) => (lineEcho echoing d, v.print, it)

/-- Whether the dialogue goes on after a failure. -/
def survives (e : Failure) : Bool := e.kind.isLanguage || e.kind == .stackExhausted

/-- What a line came to. -/
inductive Turn where
  | next (written : String) (it : Interpreter)
  | goodbye (written : String) (it : Interpreter)
  | failed (written : String) (e : Failure) (it : Interpreter)

/-- Takes a line and answers it. What the line prints comes before the answer. -/
def turn (it : Interpreter) (echoing : Bool) (line : String) : Turn :=
  let line := Text.strip line
  if line.isEmpty then .next "" it
  else if Text.lower line = "exit" ∨ Text.lower line = "quit" then .goodbye "Goodbye!\n" it
  else
    let (echoed, result, it) := evalLine it echoing line
    let (printed, it) := it.takePrinted
    match result with
    | .ok text => .next (echoed ++ printed ++ "=> " ++ text ++ "\n\n") it
    | .error e =>
      if survives e then .next (echoed ++ printed ++ "Error: " ++ e.message ++ "\n\n") it
      else .failed (echoed ++ printed) e it

/-- What a dialogue came to: all that was written, the interpreter after it, and the failure that
ended it, if one did. -/
structure Dialogue where
  written : String
  failure : Option Failure
  after : Interpreter

/-- Holds the dialogue over some lines; `written` is what was written before. -/
def talk (echoing : Bool) (it : Interpreter) (written : String) : List String → Dialogue
  | [] => ⟨written ++ prompt ++ "\n", none, it⟩
  | line :: lines =>
    match turn it echoing line with
    | .next answer it => talk echoing it (written ++ prompt ++ answer) lines
    | .goodbye answer it => ⟨written ++ prompt ++ answer, none, it⟩
    | .failed answer e it => ⟨written ++ prompt ++ answer, some e, it⟩

/-- A whole dialogue. -/
def run (echoing : Bool) (it : Interpreter) (lines : List String) : Dialogue :=
  talk echoing it greeting lines

end MiniLisp.Repl
