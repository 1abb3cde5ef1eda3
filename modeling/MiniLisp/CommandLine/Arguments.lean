import MiniLisp.Text.Digit
import MiniLisp.Text.Quoted

/-!
# Arguments

The words of a command line are options and scripts. A long option may be cut short as long as only one
begins that way, and the letters of short ones may follow one hyphen. After two hyphens every word is a
script. All scripts stand together: words that are no options and follow an option after the first
script are not recognized.

The words are first told apart, all of them, and then taken from the left; asking for help or for the
version ends the taking at once.
-/

namespace MiniLisp.Arguments

/-- The options. -/
inductive Flag where
  | help | repl | trace | traceParse | noPrelude | version
  deriving DecidableEq, Repr

/-- The names of an option. -/
def Flag.names : Flag → List String
  | .help => ["-h", "--help"]
  | .repl => ["-r", "--repl"]
  | .trace => ["-t", "--trace"]
  | .traceParse => ["-tp", "--trace-parse"]
  | .noPrelude => ["--no-prelude"]
  | .version => ["--version"]

/-- All names of options, in order. -/
def table : List (String × Flag) :=
  [Flag.help, .repl, .trace, .traceParse, .noPrelude, .version].flatMap fun f =>
    f.names.map (·, f)

/-- The option of a name. -/
def flag? (name : String) : Option Flag := table.lookup name

/-- How the program is called. -/
structure Invocation where
  scripts : List String := []
  repl : Bool := false
  trace : Bool := false
  traceParse : Bool := false
  noPrelude : Bool := false
  deriving Repr

/-- Why the program does not run. -/
inductive Stop where
  | help
  | version
  | wrong (message : String)
  deriving Repr

/-! ### Telling words apart -/

/-- What a word is: a script, two hyphens, an option under one of its names with the text that is joined
to it, or an option that nobody knows. -/
inductive Word where
  | script (text : String)
  | separator
  | option (flag : Flag) (name : String) (joined : Option (List Char))
  | unknown (text : String)

/-- Splits a text at its first equals sign. -/
def splitValue (s : String) : String × Option (List Char) :=
  match s.toList.dropWhile (· != '=') with
  | _ :: value => (String.ofList (s.toList.takeWhile (· != '=')), some value)
  | [] => (s, none)

/-- The options that a word may stand for, by their names, with what is joined to each. -/
def candidates (s : String) : List (String × Flag × Option (List Char)) :=
  match s.toList with
  | '-' :: '-' :: _ =>
    let (start, value) := splitValue s
    table.filterMap fun (name, flag) => if name.startsWith start then some (name, flag, value) else none
  | '-' :: letter :: more =>
    let short := String.ofList ['-', letter]
    table.filterMap fun (name, flag) =>
      if name = short then some (name, flag, some more)
      else if name.startsWith s then some (name, flag, none)
      else none
  | _ => []

def isAnyDigit (c : Char) : Bool := (Text.decimalValue? c).isSome

/-- Whether a word is a negative number, which is a script and no option. -/
def isNegativeNumber (s : String) : Bool :=
  match s.toList with
  | '-' :: cs =>
    let cs := if cs.getLast? = some '\n' then cs.dropLast else cs
    match cs.dropWhile isAnyDigit with
    | [] => !cs.isEmpty
    | '.' :: ds => !ds.isEmpty && ds.all isAnyDigit
    | _ => false
  | _ => false

/-- What a word is that starts with a hyphen and has more after it. -/
def hyphenWord (s : String) : Except Stop Word :=
  match flag? s with
  | some flag => .ok (.option flag s none)
  | none =>
    let (start, value) := splitValue s
    match flag? start with
    | some flag => .ok (.option flag start value)
    | none =>
      match candidates s with
      | [(name, flag, joined)] => .ok (.option flag name joined)
      | [] =>
        if isNegativeNumber s || s.toList.contains ' ' then .ok (.script s) else .ok (.unknown s)
      | several => .error (.wrong ("ambiguous option: " ++ s ++ " could match " ++
          ", ".intercalate (several.map (·.1))))

/-- What a word is before two hyphens. -/
def word (s : String) : Except Stop Word :=
  match s.toList with
  | '-' :: _ :: _ => hyphenWord s
  | _ => .ok (.script s)

/-- What the words are. -/
def words : List String → Except Stop (List Word)
  | [] => .ok []
  | s :: ss =>
    if s = "--" then .ok (.separator :: ss.map .script)
    else do
      let w ← word s
      let ws ← words ss
      return w :: ws

/-! ### Taking words -/

/-- Refuses a text joined to an option. -/
def ignored (flag : Flag) (joined : List Char) : Stop :=
  .wrong ("argument " ++ "/".intercalate flag.names ++ ": ignored explicit argument " ++
    Text.quoted (String.ofList joined))

/-- The options of an option and of the letters after it. From the first letter on that is no option
all is refused, in the name of the option before it. -/
def letters (flag : Flag) : List Char → Except Stop (List Flag)
  | [] => .ok [flag]
  | c :: cs =>
    match flag? (String.ofList ['-', c]) with
    | some next => return flag :: (← letters next cs)
    | none => .error (ignored flag (c :: cs))

/-- The options of one word. A text joined to a name of one hyphen, with an equals sign or without, is
read as further letters; no option has a value, so that any other joined text is refused. -/
def flags (flag : Flag) (name : String) : Option (List Char) → Except Stop (List Flag)
  | none => .ok [flag]
  | some cs => if cs.isEmpty || name.startsWith "--" then .error (ignored flag cs) else letters flag cs

/-- Sets an option. -/
def set (inv : Invocation) : Flag → Except Stop Invocation
  | .help => .error .help
  | .version => .error .version
  | .repl => .ok { inv with repl := true }
  | .trace => .ok { inv with trace := true }
  | .traceParse => .ok { inv with traceParse := true }
  | .noPrelude => .ok { inv with noPrelude := true }

/-- Sets some options in order. -/
def setAll : Invocation → List Flag → Except Stop Invocation
  | inv, [] => .ok inv
  | inv, f :: fs => do
    let inv ← set inv f
    setAll inv fs

/-- What was taken so far: `scripts` are those of the first run of words without options, `run` is the
current such run, and `extra` is what nobody takes. -/
structure Taken where
  inv : Invocation := {}
  scripts : Option (List String) := none
  run : List String := []
  extra : List String := []

/-- Ends the current run of words without options. -/
def Taken.endRun (t : Taken) : Taken :=
  if t.run.isEmpty then t
  else match t.scripts with
    | none => { t with scripts := some (t.run.erase "--"), run := [] }
    | some _ => { t with extra := t.extra ++ t.run, run := [] }

/-- Takes one word. -/
def Taken.take (t : Taken) : Word → Except Stop Taken
  | .script s => .ok { t with run := t.run ++ [s] }
  | .separator => .ok { t with run := t.run ++ ["--"] }
  | .option flag name joined => do
    let fs ← flags flag name joined
    let t := t.endRun
    let inv ← setAll t.inv fs
    return { t with inv }
  | .unknown s =>
    let t := t.endRun
    .ok { t with extra := t.extra ++ [s] }

/-- Takes some words in order. -/
def Taken.takeAll : Taken → List Word → Except Stop Taken
  | t, [] => .ok t
  | t, w :: ws => do
    let t ← t.take w
    t.takeAll ws

/-- How the program is called by these arguments. -/
def parse (args : List String) : Except Stop Invocation := do
  let ws ← words args
  let t ← Taken.takeAll {} ws
  let t := t.endRun
  if t.extra.isEmpty then return { t.inv with scripts := t.scripts.getD [] }
  else throw (.wrong ("unrecognized arguments: " ++ " ".intercalate t.extra))

/-! ### What is written about the arguments -/

def usage : String :=
  "usage: attolisp [-h] [-r] [-t] [-tp] [--no-prelude] [--version] [scripts ...]\n"

def help : String :=
  usage ++
    "\nAttoLisp interpreter\n" ++
    "\npositional arguments:\n" ++
    "  scripts             script files to run in order\n" ++
    "\noptions:\n" ++
    "  -h, --help          show this help message and exit\n" ++
    "  -r, --repl          enter the REPL after running scripts (default when no\n" ++
    "                      scripts are given)\n" ++
    "  -t, --trace         trace every evaluation step\n" ++
    "  -tp, --trace-parse  pretty-print each parsed form before it is evaluated\n" ++
    "  --no-prelude        do not load the standard library\n" ++
    "  --version           show program's version number and exit\n"

/-- What is written about wrong arguments. -/
def complaint (message : String) : String := usage ++ "attolisp: error: " ++ message ++ "\n"

end MiniLisp.Arguments
