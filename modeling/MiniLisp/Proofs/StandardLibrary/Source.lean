import MiniLisp.Proofs.Datum.Seam
import MiniLisp.StandardLibrary

/-! # The text of the standard library

Each text is the definition of a function by its name, its parameters and its body (`Function`), and the
program text reads as these definitions (`readAll_source`). -/

namespace MiniLisp

open Datum

namespace StandardLibrary

/-! ### Definitions -/

/-- The application of a name. -/
def call (name : String) (operands : List Datum) : Datum := .list (symbol name :: operands)

/-- A function that is defined by its name, its parameters and its body. -/
structure Function where
  name : String
  formals : List String
  body : Datum

/-- The definition `(define (name params...) body)`. -/
def Function.definition (f : Function) : Datum :=
  .list [symbol "define", call f.name (f.formals.map symbol), f.body]

def abs : Function :=
  ⟨"abs", ["x"],
    call "if" [call "<" [symbol "x", .atom (.number (.int 0))], call "-" [symbol "x"], symbol "x"]⟩

def first : Function := ⟨"first", ["lst"], call "car" [symbol "lst"]⟩

def head : Function := ⟨"head", ["lst"], call "car" [symbol "lst"]⟩

def tail : Function := ⟨"tail", ["lst"], call "cdr" [symbol "lst"]⟩

def length : Function :=
  ⟨"length", ["lst"],
    call "if" [call "empty?" [symbol "lst"], .atom (.number (.int 0)),
      call "+" [.atom (.number (.int 1)), call "length" [call "cdr" [symbol "lst"]]]]⟩

def map : Function :=
  ⟨"map", ["f", "lst"],
    call "if" [call "empty?" [symbol "lst"], call "list" [],
      call "cons" [call "f" [call "car" [symbol "lst"]],
        call "map" [symbol "f", call "cdr" [symbol "lst"]]]]⟩

def filter : Function :=
  ⟨"filter", ["pred", "lst"],
    call "cond" [.list [call "empty?" [symbol "lst"], call "list" []],
      .list [call "pred" [call "car" [symbol "lst"]],
        call "cons" [call "car" [symbol "lst"],
          call "filter" [symbol "pred", call "cdr" [symbol "lst"]]]],
      .list [symbol "else", call "filter" [symbol "pred", call "cdr" [symbol "lst"]]]]⟩

def reduce : Function :=
  ⟨"reduce", ["f", "acc", "lst"],
    call "if" [call "empty?" [symbol "lst"], symbol "acc",
      call "reduce" [symbol "f", call "f" [symbol "acc", call "car" [symbol "lst"]],
        call "cdr" [symbol "lst"]]]⟩

def compose : Function :=
  ⟨"compose", ["f", "g"],
    call "lambda" [.list [symbol "x"], call "f" [call "g" [symbol "x"]]]⟩

def range : Function :=
  ⟨"range", ["from", "to"],
    call "if" [call ">" [symbol "from", symbol "to"], call "list" [],
      call "cons" [symbol "from",
        call "range" [call "+" [symbol "from", .atom (.number (.int 1))], symbol "to"]]]⟩

def reverse : Function :=
  ⟨"reverse", ["lst"],
    call "reduce" [call "lambda" [.list [symbol "acc", symbol "x"],
      call "cons" [symbol "x", symbol "acc"]], call "list" [], symbol "lst"]⟩

def merge : Function :=
  ⟨"merge", ["a", "b"],
    call "if" [call "empty?" [symbol "a"], symbol "b",
      call "cons" [call "car" [symbol "a"], call "merge" [call "cdr" [symbol "a"], symbol "b"]]]⟩

/-- The functions in the order of their definitions. -/
def functions : List Function :=
  [abs, first, head, tail, length, map, filter, reduce, compose, range, reverse, merge]

/-! ### Reading -/

/-- The text is the definition of the function, without quotation marks. -/
def Reads (text : String) (f : Function) : Prop :=
  '"' ∉ text.toList ∧ Datum.readAll text = .ok [f.definition]

set_option maxRecDepth 2000 in
/-- Stated for all functions at once, so that the texts are read one after the other. -/
theorem reads_definitions : ∀ p ∈ definitions.zip functions, Reads p.1 p.2 := by
  simp only [definitions, functions, List.zip_cons_cons, List.zip_nil_left, List.forall_mem_cons]
  refine ⟨?abs, ?first, ?head, ?tail, ?length, ?map, ?filter, ?reduce, ?compose, ?range, ?reverse,
    ?merge, nofun⟩
  all_goals exact ⟨by decide +kernel, by with_unfolding_all rfl⟩

/-- **The text reads as the definitions** of the functions. -/
theorem readAll_source : Datum.readAll source = .ok (functions.map Function.definition) := by
  have htexts : ((definitions.zip functions).map fun p => (p.1, p.2.definition)).map (·.1) =
      definitions := rfl
  have hdata : ((definitions.zip functions).map fun p => (p.1, p.2.definition)).map (·.2) =
      functions.map Function.definition := rfl
  rw [source, ← htexts, ← hdata]
  refine readAll_intercalate fun q hq => ?_
  obtain ⟨p, hp, rfl⟩ := List.mem_map.1 hq
  exact reads_definitions p hp

end StandardLibrary

end MiniLisp
