import MiniLisp.Value.Order

/-!
# Comparing values

The comparing functions take two or more values. Equality compares each with the first; the orders
compare neighbours, from the left, and stop at the first pair that fails.
-/

namespace MiniLisp.Comparison

/-- Whether a test holds of all neighbours, asked from the left until it fails. -/
def neighbours (test : Value → Value → Except Failure Bool) : List Value → Except Failure Bool
  | a :: b :: vs => do
    let holds ← test a b
    if holds then neighbours test (b :: vs) else return false
  | _ => .ok true

/-- Whether the first value is less than or equal to the second. -/
def atMost (a b : Value) : Except Failure Bool :=
  if a.equal b then .ok true else (!·) <$> b.less a

/-- Whether the first value is greater than or equal to the second. -/
def atLeast (a b : Value) : Except Failure Bool :=
  if a.equal b then .ok true else (!·) <$> a.less b

/-- Refuses to compare fewer than two values. -/
def withTwo (name : String) (test : List Value → Except Failure Bool) (args : List Value) :
    Except Failure Bool :=
  if args.length < 2 then .error (.arityError (.comparison name)) else test args

/-- Whether all values equal the first. -/
def allEqual : List Value → Except Failure Bool
  | [] => .ok true
  | a :: vs => .ok (vs.all a.equal)

end MiniLisp.Comparison
