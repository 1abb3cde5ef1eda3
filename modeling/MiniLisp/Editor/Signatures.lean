import MiniLisp.Assoc

/-!
# Signatures

How the builtin functions and the special forms are called, as an editor shows it.
-/

namespace MiniLisp.Editor

def functionSignatures : Assoc String :=
  [("+", "(+ nums...)"), ("-", "(- x nums...)"), ("*", "(* nums...)"), ("/", "(/ x nums...)"),
   ("=", "(= a b more...)"), ("<", "(< a b more...)"), (">", "(> a b more...)"),
   ("<=", "(<= a b more...)"), (">=", "(>= a b more...)"), ("min", "(min x nums...)"),
   ("max", "(max x nums...)"), ("sin", "(sin x)"), ("cos", "(cos x)"), ("tan", "(tan x)"),
   ("sqrt", "(sqrt x)"), ("exp", "(exp x)"), ("log", "(log x base)"),
   ("concat", "(concat values...)"), ("str-length", "(str-length s)"),
   ("substr", "(substr s start length)"), ("index-of", "(index-of s needle)"),
   ("to-lower", "(to-lower s)"), ("now", "(now)"), ("date-year", "(date-year d)"),
   ("date-month", "(date-month d)"), ("date-day", "(date-day d)"), ("list", "(list xs...)"),
   ("car", "(car xs)"), ("cdr", "(cdr xs)"), ("cons", "(cons x xs)"), ("nth", "(nth xs index)"),
   ("empty?", "(empty? xs)"), ("list?", "(list? x)"), ("number?", "(number? x)"),
   ("not", "(not x)"), ("xor", "(xor a b)"), ("number", "(number s)"), ("symbol", "(symbol s)"),
   ("print", "(print values...)")]

def formSignatures : Assoc String :=
  [("quote", "(quote expr)"), ("if", "(if test then else)"), ("and", "(and exprs...)"),
   ("or", "(or exprs...)"), ("define", "(define name value)"), ("set!", "(set! name value)"),
   ("lambda", "(lambda (params...) body...)"), ("cond", "(cond (test exprs...)...)"),
   ("let", "(let ((name value)...) body...)"), ("let*", "(let* ((name value)...) body...)"),
   ("letrec", "(letrec ((name value)...) body...)")]

/-- The signatures of all names that need no definition. -/
def signatures : Assoc String := functionSignatures ++ formSignatures

end MiniLisp.Editor
