import MiniLisp.Editor.Diagnostics
import MiniLisp.Editor.Signatures
import MiniLisp.Text.Blank

/-!
# Features of the editor

What an editor shows for a place in a document: the word there with its signature or its definition, the
call that is being typed, and the names that may be completed or listed. Lines are those of
`Text.splitLines`.
-/

namespace MiniLisp.Editor

/-- A place in a document, counted from 0. -/
structure Position where
  line : Nat
  character : Nat
  deriving DecidableEq, Repr

/-- Why two numbers are no position. -/
inductive PositionFault where
  | line (given : Int)
  | character (given : Int)
  deriving DecidableEq, Repr

/-- The greatest number of a line or a character. -/
def Position.limit : Int := 2147483647

def PositionFault.message : PositionFault → String
  | .line given => "Position.line " ++ outOfRange given
  | .character given => "Position.character " ++ outOfRange given
where
  outOfRange (given : Int) : String :=
    "should be in range [0:" ++ toString Position.limit ++ "], but was " ++ toString given ++ "."

/-- The position of a line and a character, which count from 0 up to a limit. -/
def Position.ofInts (line character : Int) : Except PositionFault Position :=
  if line < 0 || limit < line then .error (.line line)
  else if character < 0 || limit < character then .error (.character character)
  else .ok ⟨line.toNat, character.toNat⟩

/-- Whether a word ends before this character. -/
def breaksWord (c : Char) : Bool := [' ', '\t', '(', ')', '\n', '\r', '\x27', '"'].contains c

/-- The line of a position, with its end. -/
def lineAt? (text : String) (p : Position) : Option (List Char) :=
  (Text.splitLines text.toList)[p.line]?

/-- The line before a position. -/
def lineBefore (text : String) (p : Position) : List Char :=
  match lineAt? text p with
  | some line => line.take p.character
  | none => []

/-- The characters of the word around a position of a line. -/
def wordChars (line : List Char) (character : Nat) : List Char :=
  ((line.take character).reverse.takeWhile (!breaksWord ·)).reverse ++
    (line.drop character).takeWhile (!breaksWord ·)

/-- The word at a position, if there is one. -/
def wordAt? (text : String) (p : Position) : Option String :=
  match lineAt? text p with
  | some line =>
    let word := wordChars line p.character
    if word.isEmpty then none else some (String.ofList word)
  | none => none

/-- What follows the last parenthesis that opens. -/
def afterLastOpen? (cs : List Char) : Option (List Char) :=
  if cs.contains '(' then some (cs.reverse.takeWhile (· != '(')).reverse else none

/-- A text without the closing parentheses at its end. -/
def dropClosers (cs : List Char) : List Char := (cs.reverse.dropWhile (· == ')')).reverse

/-- The name that is called before a position: the first word after the last open parenthesis. -/
def calleeOf? (line : List Char) : Option String := do
  let after ← afterLastOpen? line
  let word ← (Text.words after).head?
  let name := dropClosers word
  if name.isEmpty then none else some (String.ofList name)

def DefinitionKind.word : DefinitionKind → String
  | .variable_ => "var"
  | .function => "function"

/-- What is shown for a word. -/
def describe? (idx : Index) (word : String) : Option String :=
  match Assoc.get? word signatures, Assoc.get? word idx.symbols with
  | some signature, _ => some signature
  | none, some d =>
    some (word ++ " (" ++ d.kind.word ++ ", defined at " ++ toString (d.line + 1) ++ ":" ++
      toString (d.column + 1) ++ ")")
  | none, none => none

/-- What is shown at a position. -/
def hover? (text : String) (idx : Index) (p : Position) : Option String :=
  (wordAt? text p).bind (describe? idx)

/-- A name that an editor offers or lists. -/
inductive ItemKind where
  | function
  | variable_
  deriving DecidableEq, Repr

def DefinitionKind.item : DefinitionKind → ItemKind
  | .variable_ => .variable_
  | .function => .function

/-- A name that may be completed, with its signature if it has one. -/
structure Completion where
  label : String
  kind : ItemKind
  detail : Option String
  deriving DecidableEq, Repr

/-- The names that may be completed. -/
def completions (idx : Index) : List Completion :=
  signatures.map (fun (name, signature) => ⟨name, .function, some signature⟩) ++
    idx.symbols.map fun (name, d) => ⟨name, d.kind.item, none⟩

/-- A signature and its parameters, and the numbers of the signature and of the parameter that an editor brings
out. -/
structure SignatureHelp where
  label : String
  parameters : List String
  activeSignature : Nat
  activeParameter : Nat
  deriving DecidableEq, Repr

/-- A text without the parentheses at its ends. -/
def dropParens (cs : List Char) : List Char :=
  let isParen (c : Char) := c == '(' || c == ')'
  ((cs.dropWhile isParen).reverse.dropWhile isParen).reverse

/-- The words of a signature after the name. -/
def parametersOf (signature : String) : List String :=
  ((Text.words (dropParens signature.toList)).drop 1).map String.ofList

/-- The signature of the call that is typed before a position. Its first parameter is brought out, whichever is
typed. -/
def signatureHelp? (text : String) (p : Position) : Option SignatureHelp := do
  let callee ← calleeOf? (lineBefore text p)
  let signature ← Assoc.get? callee signatures
  some ⟨signature, parametersOf signature, 0, 0⟩

/-- A definition in the outline of a document: the range that it takes, and the one that an editor goes to. -/
structure DocumentSymbol where
  name : String
  kind : ItemKind
  range : Range
  selection : Range
  deriving DecidableEq, Repr

/-- The outline of a document. Both ranges are that of the name. -/
def documentSymbols (idx : Index) : List DocumentSymbol :=
  idx.symbols.map fun (name, d) =>
    let range := Range.onLine d.line d.column name.length
    ⟨name, d.kind.item, range, range⟩

end MiniLisp.Editor
