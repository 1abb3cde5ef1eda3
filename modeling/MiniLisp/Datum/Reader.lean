import MiniLisp.Datum.Basic
import MiniLisp.Failure
import MiniLisp.Token.Lexer

/-!
# Reading data

Tokens are read from left to right, one step for each. Between tokens the reading holds the finished
data and what is still open, innermost first: lists with the items they have so far, and quote marks
that wait for their datum. A finished datum goes into what is open around it (`Reading.put`). A token
that fits nowhere, or a text that ends while something is open, is a syntax error at that token or at
the end.

Reading stops at the first end among the tokens. A token list without one ends right after its last
token.
-/

namespace MiniLisp

/-- What is open around the next token. -/
inductive Opening where
  | list (items : List Datum)
  | quote

/-- The state between two tokens. Finished data and items are listed newest first. -/
structure Reading where
  done : List Datum
  opened : List Opening

namespace Reading

/-- Nothing read, nothing open. -/
def empty : Reading := ⟨[], []⟩

/-- Puts a finished datum into what is open. -/
def put (done : List Datum) (d : Datum) : List Opening → Reading
  | [] => ⟨d :: done, []⟩
  | .quote :: opened => put done d.quoted opened
  | .list items :: opened => ⟨done, .list (d :: items) :: opened⟩

/-- Takes an atom. -/
def atom (r : Reading) (a : Atom) : Reading := put r.done (.atom a) r.opened

/-- Takes one token that is not the end. -/
def step (r : Reading) (t : Token) : Except Failure Reading :=
  match t.kind with
  | .number =>
    match Number.ofText t.value with
    | .ok n => .ok (r.atom (.number n))
    | .error _ => .error (.syntaxError (.badNumber t.value) t.place)
  | .string => .ok (r.atom (.string t.value))
  | .symbol => .ok (r.atom (.ofName t.value))
  | .date =>
    match DateTime.ofText t.value with
    | .ok d => .ok (r.atom (.date d))
    | .error .unreadable => .error (.syntaxError (.badDate t.value) t.place)
    | .error .outOfCalendar => .error .dateOutOfCalendar
  | .leftParen => .ok ⟨r.done, .list [] :: r.opened⟩
  | .quote => .ok ⟨r.done, .quote :: r.opened⟩
  | .rightParen =>
    match r.opened with
    | .list items :: opened => .ok (put r.done (.list items.reverse) opened)
    | _ => .error (.syntaxError .unexpectedCloser t.place)
  | .endOfInput => .ok r

/-- Takes some tokens in order. -/
def steps : Reading → List Token → Except Failure Reading
  | r, [] => .ok r
  | r, t :: ts =>
    match r.step t with
    | .ok r => r.steps ts
    | .error e => .error e

/-- What was read, if nothing is open at the end. -/
def finish (r : Reading) (place : Place) : Except Failure (List Datum) :=
  match r.opened with
  | [] => .ok r.done.reverse
  | .quote :: _ => .error (.syntaxError .nothingQuoted place)
  | .list _ :: _ => .error (.syntaxError .unclosedList place)

/-- Takes tokens until the first datum is finished. Nothing at all reads as `nil`. -/
def first : Reading → List Token → Place → Except Failure Datum
  | r, [], place => (r.finish place).map fun ds => ds.headD (.atom .nil)
  | r, t :: ts, place =>
    match r.step t with
    | .error e => .error e
    | .ok r =>
      match r.done with
      | d :: _ => .ok d
      | [] => r.first ts place

end Reading

namespace Datum

/-- The tokens before the end. -/
def beforeEnd (ts : List Token) : List Token := ts.takeWhile (!·.isEnd)

/-- The place where a token list ends. -/
def endPlace (ts : List Token) : Place :=
  match ts.find? Token.isEnd, ts.getLast? with
  | some t, _ => t.place
  | none, some t => t.place.shift t.value.length
  | none, none => .start

/-- The data of a token list. -/
def ofTokens (ts : List Token) : Except Failure (List Datum) :=
  match Reading.empty.steps (beforeEnd ts) with
  | .ok r => r.finish (endPlace ts)
  | .error e => .error e

/-- The first datum of a token list, `nil` if there is none. -/
def firstOfTokens (ts : List Token) : Except Failure Datum :=
  Reading.empty.first (beforeEnd ts) (endPlace ts)

/-- The data of a text. -/
def readAll (source : String) : Except Failure (List Datum) := ofTokens (Token.ofText source)

/-- The first datum of a text, `nil` if there is none. -/
def readFirst (source : String) : Except Failure Datum := firstOfTokens (Token.ofText source)

end Datum

end MiniLisp
