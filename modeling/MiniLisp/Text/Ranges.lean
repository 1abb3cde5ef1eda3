/-!
# Ranges of characters

A class of characters is given by the list of its ranges of code points, both ends included. The
modules beside this one hold the classes that reading and printing need.
-/

namespace MiniLisp.Text

/-- Whether the character lies in one of the ranges. -/
def inRanges (ranges : List (Nat × Nat)) (c : Char) : Bool :=
  ranges.any fun r => r.1 ≤ c.toNat && c.toNat ≤ r.2

end MiniLisp.Text
