import MiniLisp.Assoc
import MiniLisp.Datum.Reader

/-!
# The index of a document

What an editor knows about a text without evaluating it: the names that its outermost definitions
define, whether its parentheses balance, and the first syntax error. The definitions are found among
the tokens, so a text that cannot be read has an index too.

Lines and columns are counted from 0 here.
-/

namespace MiniLisp.Editor

/-- What a definition makes of its name. -/
inductive DefinitionKind where
  | variable_
  | function
  deriving DecidableEq, Repr

/-- Where and how a name is defined. -/
structure Definition where
  kind : DefinitionKind
  line : Nat
  column : Nat
  deriving DecidableEq, Repr

/-- A syntax error in the editor's terms. -/
structure SyntaxIssue where
  message : String
  line : Nat
  column : Nat
  deriving DecidableEq, Repr

/-- What an editor knows about a text. -/
structure Index where
  symbols : Assoc Definition
  balance : Int
  issue : Option SyntaxIssue
  deriving Repr

/-- The index of a text about which nothing is known. -/
def Index.empty : Index := ⟨[], 0, none⟩

/-! ### The elements of a list -/

/-- The numbers of the tokens that start an element of a list, and the number of the token that ends
it, from the tokens after its parenthesis; `depth` counts the lists that are open inside it, and
`quoted` tells that a quote mark waits for its element. -/
def elementStarts (depth : Nat) (quoted : Bool) (i : Nat) : List Token → List Nat × Nat
  | [] => ([], i)
  | t :: ts =>
    if t.isEnd then ([], i)
    else if t.kind = .rightParen ∧ depth = 0 then ([], i)
    else
      let starts := depth == 0 && !quoted && t.kind != .rightParen
      let depth' :=
        if t.kind = .leftParen then depth + 1
        else if t.kind = .rightParen then depth - 1 else depth
      let r := elementStarts depth' (depth == 0 && t.kind == .quote) (i + 1) ts
      (if starts then i :: r.1 else r.1, r.2)

/-- The elements of the list that a token opens. -/
def elementsAt (ts : List Token) (i : Nat) : List Nat × Nat :=
  elementStarts 0 false (i + 1) (ts.drop (i + 1))

/-! ### Definitions -/

/-- The name that a definition with this target defines, and what it makes of it. -/
def definedName? (ts : List Token) (target : Nat) (further : List Nat) :
    Option (Token × DefinitionKind) := do
  let t ← ts[target]?
  match t.kind with
  | .leftParen =>
    let name ← ts[target + 1]?
    if name.kind = .symbol then some (name, .function) else none
  | .symbol =>
    match further with
    | parameters :: _ :: _ =>
      let p ← ts[parameters]?
      some (t, if p.kind = .leftParen then .function else .variable_)
    | _ => some (t, .variable_)
  | _ => none

/-- The definition that the list opened by a token is, if it is one. -/
def definitionAt? (ts : List Token) (i : Nat) : Option (String × Definition) :=
  match (elementsAt ts i).1 with
  | head :: target :: further => do
    let h ← ts[head]?
    if h.kind = .symbol ∧ h.value = "define" then
      let (name, kind) ← definedName? ts target further
      some (name.value, ⟨kind, name.place.line - 1, name.place.column - 1⟩)
    else none
  | _ => none

/-- The definitions of the outermost lists, from the token `i` on; `depth` counts the open lists. -/
def definitionsFrom (all : List Token) (found : Assoc Definition) (depth i : Nat) :
    List Token → Assoc Definition
  | [] => found
  | t :: ts =>
    match t.kind with
    | .leftParen =>
      let found :=
        if depth = 0 then
          match definitionAt? all i with
          | some (name, d) => Assoc.insert name d found
          | none => found
        else found
      definitionsFrom all found (depth + 1) (i + 1) ts
    | .rightParen => definitionsFrom all found (depth - 1) (i + 1) ts
    | _ => definitionsFrom all found depth (i + 1) ts

/-- How many more parentheses open than close. -/
def parenBalance (ts : List Token) : Int :=
  (ts.countP (·.kind == .leftParen) : Int) - ts.countP (·.kind == .rightParen)

/-- The syntax error among the tokens, if there is one. -/
def issue? (ts : List Token) : Except Failure (Option SyntaxIssue) :=
  match Datum.ofTokens ts with
  | .ok _ => .ok none
  | .error (.syntaxError fault place) =>
    .ok (some ⟨fault.message, place.line - 1, place.column - 1⟩)
  | .error e => .error e

/-- The index of a text. -/
def Index.ofText (source : String) : Except Failure Index := do
  let ts := Token.ofText source
  let issue ← issue? ts
  return ⟨definitionsFrom ts [] 0 0 ts, parenBalance ts, issue⟩

end MiniLisp.Editor
