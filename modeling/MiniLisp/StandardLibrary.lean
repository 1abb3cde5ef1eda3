/-!
# The standard library

The part of the language that is written in the language. It is loaded into the global environment
before any other program, unless the interpreter is told not to.
-/

namespace MiniLisp.StandardLibrary

/-- The absolute value of a number. -/
def absSource : String :=
  "(define (abs x)\n" ++
  "  (if (< x 0) (- x) x))"

/-- The first element of a list. -/
def firstSource : String :=
  "(define (first lst) (car lst))"

/-- The first element of a list. -/
def headSource : String :=
  "(define (head lst) (car lst))"

/-- A list without its first element. -/
def tailSource : String :=
  "(define (tail lst) (cdr lst))"

/-- The number of elements of a list. -/
def lengthSource : String :=
  "(define (length lst)\n" ++
  "  (if (empty? lst)\n" ++
  "      0\n" ++
  "      (+ 1 (length (cdr lst)))))"

/-- The results of a function on the elements of a list, from the left. -/
def mapSource : String :=
  "(define (map f lst)\n" ++
  "  (if (empty? lst)\n" ++
  "      (list)\n" ++
  "      (cons (f (car lst)) (map f (cdr lst)))))"

/-- The elements of a list for which a function is true. -/
def filterSource : String :=
  "(define (filter pred lst)\n" ++
  "  (cond ((empty? lst) (list))\n" ++
  "        ((pred (car lst)) (cons (car lst) (filter pred (cdr lst))))\n" ++
  "        (else (filter pred (cdr lst)))))"

/-- The fold of a list from the left. -/
def reduceSource : String :=
  "(define (reduce f acc lst)\n" ++
  "  (if (empty? lst)\n" ++
  "      acc\n" ++
  "      (reduce f (f acc (car lst)) (cdr lst))))"

/-- The function that applies one function after another. -/
def composeSource : String :=
  "(define (compose f g)\n" ++
  "  (lambda (x) (f (g x))))"

/-- The whole numbers from one to another, both included. -/
def rangeSource : String :=
  "(define (range from to)\n" ++
  "  (if (> from to)\n" ++
  "      (list)\n" ++
  "      (cons from (range (+ from 1) to))))"

/-- A list backwards. -/
def reverseSource : String :=
  "(define (reverse lst)\n" ++
  "  (reduce (lambda (acc x) (cons x acc)) (list) lst))"

/-- A list followed by another. -/
def mergeSource : String :=
  "(define (merge a b)\n" ++
  "  (if (empty? a)\n" ++
  "      b\n" ++
  "      (cons (car a) (merge (cdr a) b))))"

/-- The definitions, in order. -/
def definitions : List String :=
  [absSource, firstSource, headSource, tailSource, lengthSource, mapSource,
   filterSource, reduceSource, composeSource, rangeSource, reverseSource, mergeSource]

/-- The program text. -/
def source : String := "\n".intercalate definitions

end MiniLisp.StandardLibrary
