import MiniLisp.Decimal.Text

/-!
# Numbers as they are written

A number is a whole number of any size or a decimal. Its literal is an optional minus, ASCII digits and,
for a decimal, a point with digits or nothing after it; the point alone decides the kind. Whole numbers
of more than 4300 digits are neither read nor printed.
-/

namespace MiniLisp

/-- A whole number or a decimal number. -/
inductive Number where
  | int (n : Int)
  | decimal (d : Decimal)
  deriving DecidableEq, Inhabited, Repr

namespace Number

/-- The most digits that a whole number may have in a text. -/
def maxDigits : Nat := 4300

/-- Why a text is no number. -/
inductive Fault where
  | malformed
  | tooLong (digits : Nat)
  deriving DecidableEq, Repr

/-- The message about a text that is no number. -/
def Fault.message (text : String) : Fault → String
  | .malformed => "Invalid number literal: " ++ text
  | .tooLong digits => "Exceeds the limit (4300 digits) for integer string conversion: value has " ++
      toString digits ++ " digits; use sys.set_int_max_str_digits() to increase the limit"

/-- The number of a literal with the digits `whole` and, after a point, `fraction`. -/
def ofParts (negative : Bool) (whole : List Char) (fraction : Option (List Char)) :
    Except Fault Number :=
  match fraction with
  | some ds =>
    .ok (.decimal (.finite negative (Nat.ofDigitChars 10 (whole ++ ds) 0) (-(ds.length : Int))))
  | none =>
    if maxDigits < whole.length then .error (.tooLong whole.length)
    else
      let n : Int := Nat.ofDigitChars 10 whole 0
      .ok (.int (if negative then -n else n))

/-- The literal without its sign: digits, and whatever follows them. -/
def ofUnsigned (negative : Bool) (cs : List Char) : Except Fault Number :=
  let whole := cs.takeWhile Char.isDigit
  if whole.isEmpty then .error .malformed
  else match cs.dropWhile Char.isDigit with
    | [] => ofParts negative whole none
    | '.' :: ds => if ds.all Char.isDigit then ofParts negative whole (some ds) else .error .malformed
    | _ => .error .malformed

/-- Reads a literal. -/
def ofChars : List Char → Except Fault Number
  | '-' :: cs => ofUnsigned true cs
  | cs => ofUnsigned false cs

/-- Reads a literal. -/
def ofText (s : String) : Except Fault Number := ofChars s.toList

/-- The digits of a whole number after its sign. -/
def intChars (n : Int) : List Char := Decimal.signText (n < 0) ++ Nat.toDigits 10 n.natAbs

/-- The text of a number. -/
def textChars : Number → List Char
  | .int n => intChars n
  | .decimal d => d.textChars

/-- Whether the number has too many digits to be printed. -/
def isOverlong : Number → Bool
  | .int n => Nat.pow 10 maxDigits ≤ n.natAbs
  | .decimal _ => false

end Number

end MiniLisp
