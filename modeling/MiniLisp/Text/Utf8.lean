import MiniLisp.Failure

/-!
# Bytes of a text

Text files hold UTF-8. `decode` reads the bytes from the left and stops at the first sequence that is
none: a byte that starts no character, a character that the next byte does not continue, or the end of
the bytes inside a character. Surrogates, codes above the last one and codes written with too many
bytes count as not continued.

`unifyLineEnds` makes a line feed of every line end.
-/

namespace MiniLisp.Text

/-- Whether the byte continues a character. -/
def isContinuation (b : UInt8) : Bool := 0x80 ≤ b && b < 0xc0

/-- Whether the byte may be the second one of a character with this first byte. -/
def isSecond (first b : UInt8) : Bool :=
  isContinuation b &&
    (if first = 0xe0 then 0xa0 ≤ b else if first = 0xed then b < 0xa0
     else if first = 0xf0 then 0x90 ≤ b else if first = 0xf4 then b < 0x90 else true)

/-- How many bytes a character with this first byte takes, if one can start with it. -/
def sequenceLength? (b : UInt8) : Option Nat :=
  if b < 0x80 then some 1
  else if b < 0xc2 then none
  else if b < 0xe0 then some 2
  else if b < 0xf0 then some 3
  else if b < 0xf5 then some 4
  else none

/-- How many of the bytes after the first continue it, up to `count` of them. -/
def continued (first : UInt8) (count : Nat) (rest : List UInt8) : Nat :=
  match count, rest with
  | count + 1, b :: bs =>
    if isSecond first b then 1 + ((bs.take count).takeWhile isContinuation).length else 0
  | _, _ => 0

/-- The code that some bytes of a character add to the code so far. -/
def addBits (code : Nat) (bytes : List UInt8) : Nat :=
  bytes.foldl (fun n b => n * 64 + b.toNat % 64) code

/-- The first byte's part of a code. -/
def leadBits (b : UInt8) (length : Nat) : Nat :=
  if length = 1 then b.toNat else b.toNat % Nat.pow 2 (7 - length)

/-- Reads bytes from a position on; `fuel` bounds the number of characters. -/
def decodeFrom (fuel position : Nat) (bytes : List UInt8) : Except EncodingFault (List Char) :=
  match fuel, bytes with
  | 0, _ => .ok []
  | _, [] => .ok []
  | fuel + 1, b :: bs =>
    match sequenceLength? b with
    | none => .error (.invalidStart b position)
    | some length =>
      let found := continued b (length - 1) bs
      if found = length - 1 then do
        let c := Char.ofNat (addBits (leadBits b length) (bs.take found))
        let cs ← decodeFrom fuel (position + length) (bs.drop found)
        return c :: cs
      else if bs.length = found then .error (.unexpectedEnd b position (position + found))
      else .error (.invalidContinuation b position (position + found))

/-- The text that bytes hold. -/
def decode (bytes : List UInt8) : Except EncodingFault (List Char) :=
  decodeFrom bytes.length 0 bytes

/-- Makes a line feed of a carriage return, alone or before a line feed. -/
def unifyLineEnds : List Char → List Char
  | [] => []
  | '\r' :: '\n' :: cs => '\n' :: unifyLineEnds cs
  | '\r' :: cs => '\n' :: unifyLineEnds cs
  | c :: cs => c :: unifyLineEnds cs

end MiniLisp.Text
