import MiniLisp.Builtin.Call
import MiniLisp.Eval.SpecialForm

/-!
# Evaluation

A symbol is looked up; a list is a special form, or a function applied to the values of its operands;
every other value, the empty list among them, evaluates to itself. `evaluate` ties the knot: it may
nest as many evaluations as its first argument says, and a program that needs more has exhausted the
stack.
-/

namespace MiniLisp

/-- Calls a function with values. A closure's arguments are bound in a new frame inside the frame
that it remembers. -/
def apply (ev : Evaluator) (f : Value) (args : List Value) : Run Value :=
  match f with
  | .closure _ formals body frame name =>
    if args.length = formals.length then do
      let inner ← Run.newFrame frame
      Run.defineAll inner (formals.zip args)
      ev.body inner body
    else throw (.arityError (.closure name formals.length args.length))
  | .builtin _ b => b.call args
  | f => throw (.typeError (.notCallable f.type))

/-- Evaluates an application. -/
def evaluateCall (ev : Evaluator) (env : FrameId) (head : Value) (operands : List Value) :
    Run Value := do
  let f ← ev head env
  if f.isFunction then
    let args ← ev.all env operands
    apply ev f args
  else throw (.typeError (.notCallable f.type))

/-- Evaluates a form, given how to evaluate the forms in it. -/
def evaluateStep (ev : Evaluator) (tracing : Bool) (form : Value) (env : FrameId) : Run Value :=
  match form with
  | .atom (.symbol name) => do
    match ← Run.lookup? env name with
    | some v => return v
    | none => throw (.undefinedSymbol name)
  | .list _ (head :: operands) =>
    match SpecialForm.ofHead? head with
    | some special => special.run ev tracing env operands
    | none => evaluateCall ev env head operands
  | .foreign _ type _ => throw (.typeError (.notEvaluable (.foreign type)))
  | form => pure form

/-- Traces an evaluation: the form before, the value after, and what happens in between deeper. -/
def traced (form : Value) (run : Run Value) : Run Value := do
  let depth ← Run.depth
  let text ← Run.ofExcept form.print
  Run.record (.form depth text)
  let v ← Run.deeper run
  let text ← Run.ofExcept v.print
  Run.record (.value depth text)
  return v

/-- Evaluates a form in a frame, nesting at most `fuel` evaluations. -/
def evaluate (tracing : Bool) : (fuel : Nat) → Evaluator
  | 0, _, _ => throw .stackExhausted
  | fuel + 1, form, env =>
    let run := evaluateStep (evaluate tracing fuel) tracing form env
    if tracing then traced form run else run

end MiniLisp
