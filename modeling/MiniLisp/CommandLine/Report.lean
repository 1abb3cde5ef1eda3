import MiniLisp.Failure

/-!
# Reports of failed scripts

What is written when a script fails. A syntax error is reported with its place, where it has one, and
with a hint, because the place of an unclosed list is the end of the text.
-/

namespace MiniLisp.Report

/-- The hint that goes with the place of a syntax error. -/
def hint : String :=
  "Hint: The list that ends here most likely started earlier in the file; " ++
    "check for a missing ')' before this position.\n"

/-- A column, which may be unknown. -/
def columnText : Option Nat → String
  | some column => toString column
  | none => "None"

/-- The report of a failure in what the label names. -/
def text (label : String) : Report → String
  | .syntaxError reason line column =>
    "Syntax error while reading " ++ label ++ ": " ++ reason ++ ".\n" ++
      match line with
      | some line =>
        "Location: line " ++ toString line ++ ", column " ++ columnText column ++ ".\n" ++ hint
      | none => ""
  | .other message => "Error while running " ++ label ++ ": " ++ message ++ "\n"

end MiniLisp.Report
