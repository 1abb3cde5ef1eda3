import MiniLisp.Decimal.Basic

/-!
# The shortest decimal of a double

A finite double is `m * 2 ^ q`. The numbers that round to it form an interval, whose ends belong to it
when `m` is even. `shortest` looks at coarser and coarser fractions of ten from above: on the first
grid of powers of ten that has a point in the interval it takes the point nearest to the double, and
of two equally near ones the even one. All comparisons are between whole numbers.
-/

namespace MiniLisp.Decimal

/-- A finite double without its sign, `mantissa * 2 ^ exponent`; `binade` tells that the double
below is only half as far away as the one above. -/
structure Binary where
  mantissa : Nat
  exponent : Int
  binade : Bool
  deriving DecidableEq, Repr

namespace Binary

/-- The parts of a double's bits, if they are those of a finite number. -/
def ofBits? (bits : UInt64) : Option Binary :=
  let fraction : Nat := bits.toNat % Nat.pow 2 52
  let biased : Nat := bits.toNat / Nat.pow 2 52 % Nat.pow 2 11
  if biased = 2047 then none
  else if biased = 0 then some ⟨fraction, -1074, false⟩
  else some ⟨Nat.pow 2 52 + fraction, (biased : Int) - 1075, fraction = 0 && 1 < biased⟩

/-- The lower end of the interval, in quarters of the last place. -/
def low (b : Binary) : Nat := 4 * b.mantissa - (if b.binade then 1 else 2)

/-- The upper end of the interval, in quarters of the last place. -/
def high (b : Binary) : Nat := 4 * b.mantissa + 2

/-- The factors that compare quarters of the last place, times the first, with multiples of
`10 ^ k`, times the second. -/
def factors (b : Binary) (k : Int) : Nat × Nat :=
  let e := b.exponent - 2
  (Nat.pow 2 e.toNat * Nat.pow 10 (-k).toNat, Nat.pow 2 (-e).toNat * Nat.pow 10 k.toNat)

/-- Whether `d * 10 ^ k` rounds to the double. -/
def holds (b : Binary) (k : Int) (d : Nat) : Bool :=
  let (quarter, ten) := b.factors k
  if b.mantissa % 2 = 0 then b.low * quarter ≤ d * ten && d * ten ≤ b.high * quarter
  else b.low * quarter < d * ten && d * ten < b.high * quarter

/-- The multiple of `10 ^ k` that rounds to the double and is nearest to it, if any does. -/
def onGrid? (b : Binary) (k : Int) : Option Nat :=
  let (quarter, ten) := b.factors k
  let value := 4 * b.mantissa * quarter
  let d := value / ten
  match b.holds k d, b.holds k (d + 1) with
  | false, false => none
  | true, false => some d
  | false, true => some (d + 1)
  | true, true =>
    let below := 2 * (value % ten)
    if below < ten || (below == ten && d % 2 == 0) then some d else some (d + 1)

/-- An exponent of ten above the double. -/
def aboveExponent (b : Binary) : Int :=
  let bits : Int := b.exponent + b.mantissa.log2 + 1
  if 0 ≤ bits then bits * 302 / 1000 + 1 else bits * 301 / 1000 + 1

/-- Searches `grids` grids from `k` downwards. -/
def search (b : Binary) : Nat → Int → Nat × Int
  | 0, k => (b.onGrid? k |>.getD 0, k)
  | grids + 1, k =>
    match b.onGrid? k with
    | some d => (d, k)
    | none => search b grids (k - 1)

/-- The digits and the exponent of the shortest decimal that rounds to the double. -/
def shortest (b : Binary) : Nat × Int :=
  if b.mantissa = 0 then (0, 0) else b.search 40 b.aboveExponent

end Binary

/-- Writes a whole number below `10 ^ 16` with one zero after the point. -/
def withTenths (d : Nat) (k : Int) : Nat × Int :=
  if 0 ≤ k ∧ digitCount d + k ≤ 16 then (d * Nat.pow 10 (k.toNat + 1), -1) else (d, k)

/-- The shortest decimal that rounds to a finite double. -/
def ofBits? (bits : UInt64) : Option Decimal :=
  (Binary.ofBits? bits).map fun b =>
    let (c, e) := withTenths b.shortest.1 b.shortest.2
    .finite (Nat.pow 2 63 ≤ bits.toNat) c e

/-- The shortest decimal that rounds to a finite double. -/
def ofDouble? (x : Float) : Option Decimal := ofBits? x.toBits

/-- The double nearest to a number. -/
def toDouble : Decimal → Float
  | .finite s c e =>
    let x :=
      if c = 0 || adjusted c e < -400 then 0
      else if 400 < adjusted c e then 1 / 0
      else Float.ofScientific c (e < 0) e.natAbs
    if s then -x else x
  | .infinite s => if s then -1 / 0 else 1 / 0
  | .nan => 0 / 0

end MiniLisp.Decimal
