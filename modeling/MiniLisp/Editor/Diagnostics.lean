import MiniLisp.Editor.Index

/-!
# Diagnostics

What an editor marks in a document: the syntax error at its place, and parentheses that do not balance at
the start of the document.
-/

namespace MiniLisp.Editor

/-- A range of characters within lines. -/
structure Range where
  startLine : Nat
  startColumn : Nat
  endLine : Nat
  endColumn : Nat
  deriving DecidableEq, Repr

/-- Some characters of one line. -/
def Range.onLine (line column length : Nat) : Range := ⟨line, column, line, column + length⟩

inductive Severity where
  | error
  | warning
  deriving DecidableEq, Repr

/-- A mark in a document. -/
structure Diagnostic where
  range : Range
  message : String
  severity : Severity
  source : String
  deriving DecidableEq, Repr

/-- Who marks. -/
def diagnosticSource : String := "attolisp-ls"

/-- The warning about parentheses. -/
def balanceWarning (balance : Int) : Diagnostic where
  range := .onLine 0 0 1
  message := "Unmatched parentheses detected (" ++
    (if 0 < balance then "missing ')'" else "extra ')'") ++ ")"
  severity := .warning
  source := diagnosticSource

/-- The marks in a document. -/
def diagnostics (idx : Index) : List Diagnostic :=
  (match idx.issue with
    | some issue => [⟨.onLine issue.line issue.column 1, issue.message, .error, diagnosticSource⟩]
    | none => []) ++
  (if idx.balance = 0 then [] else [balanceWarning idx.balance])

end MiniLisp.Editor
