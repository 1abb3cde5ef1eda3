import MiniLisp.Eval.Run

/-!
# Special forms

The forms that decide themselves which of their operands are evaluated, when, and in which frame. Each
takes the evaluator as a parameter, so that this module says only what one form does. Every form
checks the shape of its operands before it evaluates any of them, with one exception: the clauses of
`cond` are checked one by one as they are reached.
-/

namespace MiniLisp

/-- How forms are evaluated in a frame. -/
abbrev Evaluator := Value → FrameId → Run Value

namespace Evaluator

/-- Evaluates forms in order and gives all values. -/
def all (ev : Evaluator) (env : FrameId) : List Value → Run (List Value)
  | [] => pure []
  | e :: es => do
    let v ← ev e env
    let vs ← all ev env es
    return v :: vs

/-- Evaluates forms in order and gives the last value, `nil` for no forms. -/
def body (ev : Evaluator) (env : FrameId) : List Value → Run Value
  | [] => pure .nil
  | [e] => ev e env
  | e :: es => do
    let _ ← ev e env
    body ev env es

end Evaluator

/-- The special forms. -/
inductive SpecialForm where
  | quote | if_ | and | or | define | set | lambda | cond | let_ | letStar | letrec
  deriving DecidableEq, Repr

namespace SpecialForm

/-- The symbol that heads a form. -/
def name : SpecialForm → String
  | .quote => "quote"
  | .if_ => "if"
  | .and => "and"
  | .or => "or"
  | .define => "define"
  | .set => "set!"
  | .lambda => "lambda"
  | .cond => "cond"
  | .let_ => "let"
  | .letStar => "let*"
  | .letrec => "letrec"

def all : List SpecialForm :=
  [.quote, .if_, .and, .or, .define, .set, .lambda, .cond, .let_, .letStar, .letrec]

/-- The special form that a symbol heads. -/
def ofName? (name : String) : Option SpecialForm := all.find? (·.name == name)

/-- The special form that a list with this head is. -/
def ofHead? (head : Value) : Option SpecialForm := head.symbolName?.bind ofName?

/-! ### Quoting and choosing -/

/-- `(quote x)` is `x`. -/
def runQuote : List Value → Run Value
  | [x] => pure x
  | _ => throw (.arityError .quoteForm)

/-- Notes in the trace how a condition came out. -/
def traceCondition (tracing : Bool) (condition : Value) : Run Unit := do
  if tracing then
    let text ← Run.ofExcept condition.print
    Run.record (.condition text condition.isTruthy)

/-- `(if test then else)`; without an `else` a false test gives `nil`. -/
def runIf (ev : Evaluator) (tracing : Bool) (env : FrameId) : List Value → Run Value
  | [test, yes] => do
    let condition ← ev test env
    traceCondition tracing condition
    if condition.isTruthy then ev yes env else return .nil
  | [test, yes, no] => do
    let condition ← ev test env
    traceCondition tracing condition
    if condition.isTruthy then ev yes env else ev no env
  | _ => throw (.arityError .ifForm)

/-- Evaluates operands up to the first false one, which gives `nil`; otherwise the last value counts,
`t` for no operands. -/
def runAnd (ev : Evaluator) (env : FrameId) : List Value → Run Value
  | [] => pure (.bool true)
  | [e] => do
    let v ← ev e env
    return if v.isTruthy then v else .nil
  | e :: es => do
    let v ← ev e env
    if v.isTruthy then runAnd ev env es else return .nil

/-- Evaluates operands up to the first true one, which is the value; otherwise `nil`. -/
def runOr (ev : Evaluator) (env : FrameId) : List Value → Run Value
  | [] => pure .nil
  | e :: es => do
    let v ← ev e env
    if v.isTruthy then return v else runOr ev env es

/-- A clause of `cond`: its test and its body. -/
def clause? : Value → Option (Value × List Value)
  | .list _ (test :: body) => some (test, body)
  | _ => none

/-- Whether a clause is selected without a test. -/
def isElse (test : Value) : Bool := test.symbolName? == some "else"

/-- Takes the first clause whose test is true; a clause without a body gives the test's value. -/
def runClauses (ev : Evaluator) (env : FrameId) : List Value → Run Value
  | [] => pure .nil
  | c :: cs =>
    match clause? c with
    | none => throw (.typeError .condClause)
    | some (test, body) => do
      let v ← if isElse test then pure (.bool true) else ev test env
      if v.isTruthy then
        if body.isEmpty then return v else ev.body env body
      else runClauses ev env cs

/-- `(cond (test body...)...)`. -/
def runCond (ev : Evaluator) (env : FrameId) (clauses : List Value) : Run Value :=
  if clauses.isEmpty then throw (.arityError .condForm) else runClauses ev env clauses

/-! ### Functions and variables -/

/-- The names of a parameter list. -/
def formals (form : String) : List Value → Except Failure (List String)
  | [] => .ok []
  | p :: ps =>
    match p.symbolName? with
    | some name => (name :: ·) <$> formals form ps
    | none => .error (.typeError (.parameter form p.type))

/-- Makes a function that remembers its frame. -/
def makeClosure (formals : List String) (body : List Value) (env : FrameId) (name : String) :
    Run Value := do
  let id ← Run.newId
  return .closure id formals body env name

/-- `(lambda (params...) body...)`. -/
def runLambda (env : FrameId) : List Value → Run Value
  | .list _ params :: form :: body => do
    let names ← Run.ofExcept (formals "lambda" params)
    makeClosure names (form :: body) env "lambda"
  | params :: _ :: _ => throw (.typeError (.parameterList "lambda" params.type))
  | _ => throw (.arityError .lambdaForm)

/-- What a definition binds its name to. -/
inductive Definition where
  | function (name : String) (formals : List String) (body : List Value)
  | variable (name : String) (value : Value)

/-- The names of a parameter list, if it is one. -/
def formals? : Value → Option (List String)
  | .list _ params => params.mapM Value.symbolName?
  | _ => none

/-- The definition with a symbol as its target: a function if there are parameters and a body. -/
def definitionOf (name : String) (operand : Value) (body : List Value) : Except Failure Definition :=
  match body, formals? operand with
  | [], _ => .ok (.variable name operand)
  | body, some names => .ok (.function name names body)
  | _, none => .error (.arityError .defineTooMany)

/-- Checks the operands of a definition. -/
def definition : List Value → Except Failure Definition
  | target :: operand :: body =>
    match target with
    | .list id (head :: params) =>
      match head.symbolName? with
      | some name => do
        let names ← formals "define" params
        return .function name names (operand :: body)
      | none => .error (.typeError (.target "define" (Value.list id (head :: params)).type))
    | target =>
      match target.symbolName? with
      | some name => definitionOf name operand body
      | none => .error (.typeError (.target "define" target.type))
  | _ => .error (.arityError .defineTooFew)

/-- `(define name value)`, `(define (name params...) body...)` or `(define name (params...) body...)`:
binds the name in the current frame. -/
def runDefine (ev : Evaluator) (env : FrameId) (operands : List Value) : Run Value := do
  match ← Run.ofExcept (definition operands) with
  | .function name names body =>
    let f ← makeClosure names body env name
    Run.define env name f
    return f
  | .variable name value =>
    let v ← ev value env
    Run.define env name v
    return v

/-- `(set! name value)`: changes the name's nearest binding. -/
def runSet (ev : Evaluator) (env : FrameId) : List Value → Run Value
  | [target, value] =>
    match target.symbolName? with
    | some name => do
      let v ← ev value env
      Run.assign env name v
      return v
    | none => throw (.typeError (.target "set!" target.type))
  | _ => throw (.arityError .setForm)

/-! ### Local variables -/

/-- One binding of a `let` form: a name and the form of its value. -/
def binding (form : String) : Value → Except Failure (String × Value)
  | .list _ [target, value] =>
    match target.symbolName? with
    | some name => .ok (name, value)
    | none => .error (.typeError (.bindingName form))
  | _ => .error (.typeError (.binding form))

/-- The bindings of a `let` form. -/
def bindings (form : String) : List Value → Except Failure (List (String × Value))
  | [] => .ok []
  | b :: bs => do
    let pair ← binding form b
    let pairs ← bindings form bs
    return pair :: pairs

/-- The bindings and the body of a `let` form. -/
def letParts (form : String) : List Value → Except Failure (List (String × Value) × List Value)
  | .list _ bs :: e :: es => do
    let pairs ← bindings form bs
    return (pairs, e :: es)
  | _ :: _ :: _ => .error (.typeError (.bindingList form))
  | _ => .error (.arityError (.letForm form))

/-- `(let ((name value)...) body...)`: the values do not see the names. -/
def runLet (ev : Evaluator) (env : FrameId) (operands : List Value) : Run Value := do
  let (pairs, forms) ← Run.ofExcept (letParts "let" operands)
  let values ← ev.all env (pairs.map (·.2))
  let inner ← Run.newFrame env
  Run.defineAll inner ((pairs.map (·.1)).zip values)
  ev.body inner forms

/-- Binds names one after the other in a frame, where each value sees the names before it. -/
def defineInTurn (ev : Evaluator) (inner : FrameId) : List (String × Value) → Run Unit
  | [] => pure ()
  | (name, value) :: pairs => do
    let v ← ev value inner
    Run.define inner name v
    defineInTurn ev inner pairs

/-- `(let* ((name value)...) body...)`. -/
def runLetStar (ev : Evaluator) (env : FrameId) (operands : List Value) : Run Value := do
  let (pairs, forms) ← Run.ofExcept (letParts "let*" operands)
  let inner ← Run.newFrame env
  defineInTurn ev inner pairs
  ev.body inner forms

/-- Assigns names one after the other in a frame that binds them all. -/
def assignInTurn (ev : Evaluator) (inner : FrameId) : List (String × Value) → Run Unit
  | [] => pure ()
  | (name, value) :: pairs => do
    let v ← ev value inner
    Run.assign inner name v
    assignInTurn ev inner pairs

/-- `(letrec ((name value)...) body...)`: all names are bound to `nil` first, so that the values see
them all. -/
def runLetrec (ev : Evaluator) (env : FrameId) (operands : List Value) : Run Value := do
  let (pairs, forms) ← Run.ofExcept (letParts "letrec" operands)
  let inner ← Run.newFrame env
  Run.defineAll inner (pairs.map fun p => (p.1, .nil))
  assignInTurn ev inner pairs
  ev.body inner forms

/-- Evaluates a special form. -/
def run (form : SpecialForm) (ev : Evaluator) (tracing : Bool) (env : FrameId)
    (operands : List Value) : Run Value :=
  match form with
  | .quote => runQuote operands
  | .if_ => runIf ev tracing env operands
  | .and => runAnd ev env operands
  | .or => runOr ev env operands
  | .define => runDefine ev env operands
  | .set => runSet ev env operands
  | .lambda => runLambda env operands
  | .cond => runCond ev env operands
  | .let_ => runLet ev env operands
  | .letStar => runLetStar ev env operands
  | .letrec => runLetrec ev env operands

end SpecialForm

end MiniLisp
