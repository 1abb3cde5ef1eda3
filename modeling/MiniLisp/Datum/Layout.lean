import MiniLisp.Datum.Basic

/-!
# Laying data out over lines

A list of atoms stays on one line. Any other list opens on a line of its own, together with the atoms
that it starts with if the first of them is a symbol; its further items follow one level deeper, and
its parenthesis closes on a line of its own. A level is two spaces; levels below zero have none.
-/

namespace MiniLisp.Datum

/-- The spaces in front of a line. -/
def margin (level : Int) : List Char := List.replicate (2 * level.toNat) ' '

/-- Whether the items start with a symbol. -/
def startsWithSymbol : List Datum → Bool
  | d :: _ => d.isSymbol
  | [] => false

/-- The atoms that share the first line with the parenthesis. -/
def leading (items : List Datum) : List Datum :=
  if startsWithSymbol items then items.takeWhile isAtom else []

mutual

/-- The lines of a datum. -/
def lines (level : Int) : Datum → List (List Char)
  | .atom a => [margin level ++ a.chars]
  | .list items =>
    if items.all isAtom then [margin level ++ (Datum.list items).chars]
    else
      (margin level ++ '(' :: itemChars (leading items)) ::
        (itemLines (level + 1) (startsWithSymbol items) items ++ [margin level ++ [')']])

/-- The lines of the items of a list, without the atoms in front if they stand on its first line. -/
def itemLines (level : Int) (skip : Bool) : List Datum → List (List Char)
  | [] => []
  | d :: ds =>
    if skip && d.isAtom then itemLines level true ds
    else lines level d ++ itemLines level false ds

end

/-- Lines with a line feed between them. -/
def joinLines : List (List Char) → List Char
  | [] => []
  | [l] => l
  | l :: ls => l ++ '\n' :: joinLines ls

/-- A datum laid out over lines. -/
def layout (level : Int) (d : Datum) : String := String.ofList (joinLines (d.lines level))

end MiniLisp.Datum
