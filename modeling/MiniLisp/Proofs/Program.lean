import MiniLisp.Interpreter
import MiniLisp.Proofs.Datum.Seam

/-! # Programs one after the other

Evaluating some data and then others evaluates them all, up to the first that fails
(`Interpreter.runData_append`). With the seam between texts, a program text can be cut at any line break
outside its strings and dates: evaluating the whole text comes to the same as evaluating the one part and
then, if that did not fail, the other (`eval_seam`). -/

namespace MiniLisp

namespace Interpreter

/-- What comes of going on after an outcome that is not a failure. -/
def Outcome.andThen (o : Outcome) (next : Value → Interpreter → Outcome) : Outcome :=
  match o.result with
  | .error _ => o
  | .ok v => { next v o.after with begun := o.begun ++ (next v o.after).begun }

variable (before : Datum → Run Unit)

/-- **Evaluating data and then others** evaluates them all, up to the first that fails. -/
theorem runData_append (es : List Datum) : ∀ (ds : List Datum) (it : Interpreter) (last : Value),
    runData before it last (ds ++ es) =
      (runData before it last ds).andThen fun v it => runData before it v es
  | [], _, _ => rfl
  | d :: ds, it, last => by
    rw [List.cons_append, runData, runData]
    rcases it.evaluateDatum (before d) d with ⟨e | v, it'⟩
    · rfl
    · dsimp only
      rw [runData_append es ds it' v]
      cases hrest : (runData before it' v ds).result <;> simp [Outcome.andThen, hrest]

/-- The value so far does not matter where there are data to evaluate. -/
theorem runData_of_ne_nil {ds : List Datum} (h : ds ≠ []) (it : Interpreter) (v w : Value) :
    runData before it v ds = runData before it w ds := by
  cases ds with
  | nil => exact absurd rfl h
  | cons d ds => rfl

/-- **Program texts on lines of their own are evaluated one after the other.** -/
theorem runText_seam {a b : String} {ds es : List Datum} (hends : Token.Terminated a.toList)
    (ha : Datum.readAll a = .ok ds) (hb : Datum.readAll b = .ok es) (hes : es ≠ [])
    (it : Interpreter) :
    runText before it (a ++ "\n" ++ b) =
      (runText before it a).andThen fun _ it => runText before it b := by
  have hlast : (fun v it => runData before it v es) = fun _ it => runData before it .nil es := by
    funext v it
    exact runData_of_ne_nil before hes it v .nil
  simp only [runText, ha, hb, Datum.readAll_seam hends ha hb]
  rw [runData_append, hlast]

end Interpreter

open Interpreter Datum

/-- **A program text can be cut at a line break** that is outside its strings and dates. Its data are those
of the two parts, and evaluating it comes to the same as evaluating the first part and then, if that did
not fail, the second. -/
theorem eval_seam {a b : String} {ds es : List Datum} (hends : Token.Terminated a.toList)
    (ha : readAll a = .ok ds) (hb : readAll b = .ok es) :
    readAll (a ++ "\n" ++ b) = .ok (ds ++ es) ∧
    (es ≠ [] → ∀ it : Interpreter,
      it.eval (a ++ "\n" ++ b) =
        match it.eval a with
        | (.ok _, after) => after.eval b
        | (.error e, after) => (.error e, after)) := by
  refine ⟨readAll_seam hends ha hb, fun hes it => ?_⟩
  simp only [eval]
  rw [runText_seam silently hends ha hb hes it]
  cases hresult : (runText silently it a).result with
  | ok v => simp only [Outcome.andThen, hresult]
  | error e => simp only [Outcome.andThen, hresult]

/-- A text that ends in a comment with a quotation mark of its own. -/
def commentedText : String := "(f \"b;\") -1 ; \"c"

/-- Its data. -/
def commentedData : List Datum :=
  [.list [.symbol "f", .atom (.string "b;")], .atom (.number (.int (-1)))]

/-- The comment at the end of the text takes nothing of the next line along. -/
theorem eval_seam_commentedText :
    Token.Terminated commentedText.toList ∧ readAll commentedText = .ok commentedData ∧
    readAll "x" = .ok [.symbol "x"] ∧
    readAll (commentedText ++ "\n" ++ "x") = .ok (commentedData ++ [.symbol "x"]) ∧
    ∀ it : Interpreter, it.eval (commentedText ++ "\n" ++ "x") =
      match it.eval commentedText with
      | (.ok _, after) => after.eval "x"
      | (.error e, after) => (.error e, after) := by
  have hends : Token.Terminated commentedText.toList := by
    unfold commentedText
    repeat refine .token rfl rfl ?_
    exact .blank rfl
  have ha : readAll commentedText = .ok commentedData := by with_unfolding_all rfl
  have hb : readAll "x" = .ok [.symbol "x"] := by with_unfolding_all rfl
  exact ⟨hends, ha, hb, (eval_seam hends ha hb).1, (eval_seam hends ha hb).2 (List.cons_ne_nil _ _)⟩

end MiniLisp
