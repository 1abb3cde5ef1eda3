import MiniLisp.DateTime.Text
import MiniLisp.Decimal.Arithmetic
import MiniLisp.Number
import MiniLisp.Text.Quoted
import MiniLisp.Token.Basic

/-!
# Failures

Everything that can go wrong while text is read and evaluated, as causes. `Failure.kind` sorts them,
and `Failure.report` words them: a syntax error gives its reason and its place apart, so that reports
can show them apart.

The kinds from `malformedValue` on do not belong to the language: they report a limit of the machine
that runs it, a number that is none, or a file.
-/

namespace MiniLisp

/-! ### Types of values -/

/-- The types that programs can tell apart, and the types of a host's own objects. -/
inductive ValueType where
  | nil
  | boolean
  | integer
  | decimal
  | string
  | symbol
  | date
  | list
  | function
  | foreign (name : String)
  deriving DecidableEq, Repr

def ValueType.name : ValueType → String
  | .nil => "Nil"
  | .boolean => "Boolean"
  | .integer => "Integer"
  | .decimal => "DecimalNumber"
  | .string => "String"
  | .symbol => "Symbol"
  | .date => "Date"
  | .list => "List"
  | .function => "Function"
  | .foreign name => name

/-! ### Causes -/

/-- What is wrong with a token, or with a text that ends too early. -/
inductive SyntaxFault where
  | badNumber (literal : String)
  | badDate (literal : String)
  | nothingQuoted
  | unexpectedCloser
  | unclosedList
  deriving DecidableEq, Repr

def SyntaxFault.message : SyntaxFault → String
  | .badNumber literal => Number.Fault.malformed.message literal
  | .badDate literal => DateTime.Fault.unreadable.message literal
  | .nothingQuoted => "Expected an expression after quote"
  | .unexpectedCloser => "Unexpected ')'"
  | .unclosedList => "Expected ')' at end of list"

/-- A wrong number of operands or arguments. -/
inductive ArityFault where
  | closure (name : String) (expected got : Nat)
  | builtin (name : String) (expected got : Nat)
  | operator (name : String)
  | extremum (name : String)
  | comparison (name : String)
  | oneNumber (name : String)
  | logarithm
  | quoteForm
  | ifForm
  | defineTooFew
  | defineTooMany
  | setForm
  | lambdaForm
  | condForm
  | letForm (form : String)
  deriving DecidableEq, Repr

def ArityFault.message : ArityFault → String
  | .closure name expected got =>
    name ++ " expects " ++ toString expected ++ " arguments, got " ++ toString got
  | .builtin name expected got =>
    name ++ " expects " ++ toString expected ++
      (if expected = 1 then " argument, got " else " arguments, got ") ++ toString got
  | .operator name => name ++ " requires at least one argument"
  | .extremum name => name ++ " expects at least one argument"
  | .comparison name => name ++ " requires at least 2 arguments"
  | .oneNumber name => name ++ " expects exactly one argument"
  | .logarithm => "log expects one or two arguments"
  | .quoteForm => "quote expects exactly one argument"
  | .ifForm => "if expects 2 or 3 arguments: (if condition then-expr [else-expr])"
  | .defineTooFew => "define expects at least 2 arguments"
  | .defineTooMany => "define expects exactly 2 arguments: (define name value)"
  | .setForm => "set! expects exactly 2 arguments: (set! name value)"
  | .lambdaForm => "lambda expects at least 2 arguments: (lambda (params...) body...)"
  | .condForm => "cond expects at least one clause"
  | .letForm form => form ++ " expects a bindings list and at least one body expression"

/-- A value or a form of the wrong type. -/
inductive TypeFault where
  | expected (name wanted : String) (got : ValueType)
  | incomparable (left right : ValueType)
  | notNumeric (printed : String)
  | notCallable (got : ValueType)
  | notEvaluable (got : ValueType)
  | target (form : String) (got : ValueType)
  | parameterList (form : String) (got : ValueType)
  | parameter (form : String) (got : ValueType)
  | condClause
  | bindingList (form : String)
  | binding (form : String)
  | bindingName (form : String)
  deriving DecidableEq, Repr

def TypeFault.message : TypeFault → String
  | .expected name wanted got => name ++ " expected a " ++ wanted ++ ", got " ++ got.name
  | .incomparable left right => "Cannot compare " ++ left.name ++ " and " ++ right.name
  | .notNumeric printed => "Cannot convert " ++ printed ++ " to a number"
  | .notCallable got => "Cannot call " ++ got.name ++ " as a function"
  | .notEvaluable got => "Cannot evaluate " ++ got.name
  | .target form got => form ++ " expects a symbol as the first argument, got " ++ got.name
  | .parameterList form got => form ++ " expects a parameter list, got " ++ got.name
  | .parameter form got => form ++ " parameters must be symbols, got " ++ got.name
  | .condClause => "cond clauses must be non-empty lists"
  | .bindingList form => form ++ " expects a list of bindings as its first argument"
  | .binding form => form ++ " bindings must be lists of the form (name value)"
  | .bindingName form => form ++ " binding name must be a symbol"

/-- Why a function of the math library has no result. -/
inductive MathFault where
  | notFinite
  | domain
  | range
  | division
  deriving DecidableEq, Repr

def MathFault.message : MathFault → String
  | .notFinite => "result is not a finite number"
  | .domain => "math domain error"
  | .range => "math range error"
  | .division => "float division by zero"

/-- A number outside the domain of an operation. -/
inductive DomainFault where
  | arithmetic (operation : String) (fault : Decimal.RangeFault)
  | wideInteger (name : String)
  | negativeRoot
  | nonPositiveLogarithm
  | badLogarithm
  | math (name : String) (fault : MathFault)
  deriving DecidableEq, Repr

def DomainFault.message : DomainFault → String
  | .arithmetic operation .overflow => operation ++ ": result out of range (Overflow)"
  | .arithmetic operation .invalid => operation ++ ": result out of range (InvalidOperation)"
  | .wideInteger name => name ++ ": integer is too large for decimal arithmetic"
  | .negativeRoot => "sqrt domain error: negative input"
  | .nonPositiveLogarithm => "log domain error: non-positive input"
  | .badLogarithm => "log domain error: invalid base or input"
  | .math name fault => name ++ " domain error: " ++ fault.message

/-- Why the bytes of a file are no text. -/
inductive EncodingFault where
  | invalidStart (byte : UInt8) (position : Nat)
  | invalidContinuation (byte : UInt8) (first last : Nat)
  | unexpectedEnd (byte : UInt8) (first last : Nat)
  deriving DecidableEq, Repr

/-- The byte as two hexadecimal digits. -/
def hexByte (b : UInt8) : String := "0x" ++ String.ofList (Text.hexDigits 2 b.toNat)

/-- The bytes at fault, from the first to the last. -/
def encodingSpan (byte : UInt8) (first last : Nat) : String :=
  if first = last then "byte " ++ hexByte byte ++ " in position " ++ toString first
  else "bytes in position " ++ toString first ++ "-" ++ toString last

def EncodingFault.message : EncodingFault → String
  | .invalidStart byte position =>
    "'utf-8' codec can't decode " ++ encodingSpan byte position position ++ ": invalid start byte"
  | .invalidContinuation byte first last =>
    "'utf-8' codec can't decode " ++ encodingSpan byte first last ++ ": invalid continuation byte"
  | .unexpectedEnd byte first last =>
    "'utf-8' codec can't decode " ++ encodingSpan byte first last ++ ": unexpected end of data"

/-- Why a file cannot be read. -/
inductive FileFault where
  | missing (path : String)
  | directory (path : String)
  | blocked (path : String)
  | overlong (path : String)
  deriving DecidableEq, Repr

def FileFault.message : FileFault → String
  | .missing path => "[Errno 2] No such file or directory: " ++ Text.quoted path
  | .directory path => "[Errno 21] Is a directory: " ++ Text.quoted path
  | .blocked path => "[Errno 20] Not a directory: " ++ Text.quoted path
  | .overlong path => "[Errno 36] File name too long: " ++ Text.quoted path

/-! ### Reports -/

/-- A failure in words. -/
inductive Report where
  | syntaxError (reason : String) (line column : Option Nat)
  | other (message : String)
  deriving DecidableEq, Repr

/-- The whole message; a syntax error names its place where it has one. -/
def Report.message : Report → String
  | .syntaxError reason (some line) (some column) =>
    reason ++ " (line " ++ toString line ++ ", column " ++ toString column ++ ")"
  | .syntaxError reason _ _ => reason
  | .other message => message

/-! ### Failures -/

/-- What went wrong. -/
inductive Failure where
  | syntaxError (fault : SyntaxFault) (place : Place)
  | undefinedSymbol (name : String)
  | undefinedVariable (name : String)
  | typeError (fault : TypeFault)
  | arityError (fault : ArityFault)
  | divisionByZero
  | domainError (fault : DomainFault)
  | overlongInteger
  | dateOutOfCalendar
  | incomparableNumber
  | infiniteIndex
  | undefinedIndex
  | stackExhausted
  | noSearchPath
  | excessiveNesting
  | badEncoding (fault : EncodingFault)
  | invalidPath
  | unreadableFile (fault : FileFault)
  deriving DecidableEq, Repr

namespace Failure

/-- The kinds of failures. -/
inductive Kind where
  | syntaxError
  | undefinedSymbol
  | undefinedVariable
  | typeError
  | arityError
  | divisionByZero
  | domainError
  | malformedValue
  | outOfRange
  | invalidComparison
  | missingItem
  | badEncoding
  | missingFile
  | directoryFile
  | blockedFile
  | overlongPath
  | stackExhausted
  deriving DecidableEq, Repr

def kind : Failure → Kind
  | .syntaxError .. => .syntaxError
  | .undefinedSymbol _ => .undefinedSymbol
  | .undefinedVariable _ => .undefinedVariable
  | .typeError _ => .typeError
  | .arityError _ => .arityError
  | .divisionByZero => .divisionByZero
  | .domainError _ => .domainError
  | .overlongInteger => .malformedValue
  | .dateOutOfCalendar => .outOfRange
  | .incomparableNumber => .invalidComparison
  | .infiniteIndex => .outOfRange
  | .undefinedIndex => .malformedValue
  | .stackExhausted => .stackExhausted
  | .noSearchPath => .missingItem
  | .excessiveNesting => .outOfRange
  | .badEncoding _ => .badEncoding
  | .invalidPath => .malformedValue
  | .unreadableFile (.missing _) => .missingFile
  | .unreadableFile (.directory _) => .directoryFile
  | .unreadableFile (.blocked _) => .blockedFile
  | .unreadableFile (.overlong _) => .overlongPath

/-- Whether programs of the language can fail this way on a machine without limits. -/
def Kind.isLanguage : Kind → Bool
  | .syntaxError | .undefinedSymbol | .undefinedVariable | .typeError | .arityError
  | .divisionByZero | .domainError => true
  | _ => false

/-- The failure in words. -/
def report : Failure → Report
  | .syntaxError fault place => .syntaxError fault.message place.line place.column
  | .undefinedSymbol name => .other ("Undefined symbol: " ++ name)
  | .undefinedVariable name => .other ("Undefined variable: " ++ name)
  | .typeError fault => .other fault.message
  | .arityError fault => .other fault.message
  | .divisionByZero => .other "Division by zero"
  | .domainError fault => .other fault.message
  | .overlongInteger => .other ("Exceeds the limit (4300 digits) for integer string conversion; " ++
      "use sys.set_int_max_str_digits() to increase the limit")
  | .dateOutOfCalendar => .other (DateTime.Fault.outOfCalendar.message "")
  | .incomparableNumber => .other "[<class 'decimal.InvalidOperation'>]"
  | .infiniteIndex => .other "cannot convert Infinity to integer"
  | .undefinedIndex => .other "cannot convert NaN to integer"
  | .stackExhausted => .other "maximum recursion depth exceeded"
  | .noSearchPath => .other "list index out of range"
  | .excessiveNesting => .other "Python int too large to convert to C int"
  | .badEncoding fault => .other fault.message
  | .invalidPath => .other "embedded null byte"
  | .unreadableFile fault => .other fault.message

/-- The failure's message. -/
def message (f : Failure) : String := f.report.message

end Failure

end MiniLisp
