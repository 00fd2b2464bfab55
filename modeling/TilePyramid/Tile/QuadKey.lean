import TilePyramid.Tile.Code

/-!
# Quad keys

A quad key writes the way from the root to a tile with one digit per level, the number of the
child taken there. Leaving out the last digit gives the parent. The root has no digits and is
written `-`, and "no tile" is the empty text.
-/

namespace TilePyramid.Tile

/-- The digits on the way from the root to a tile. -/
def digits : (level row column : Nat) → List Nat
  | 0, _, _ => []
  | level + 1, row, column => digits level (row / 2) (column / 2) ++ [digit row column]

/-- The character of a digit below 4. -/
def digitChar : Nat → Char
  | 0 => '0'
  | 1 => '1'
  | 2 => '2'
  | _ => '3'

/-- The digit that a character stands for. -/
def digit? : Char → Option Nat
  | '0' => some 0
  | '1' => some 1
  | '2' => some 2
  | '3' => some 3
  | _ => none

/-- The quad key of a tile. -/
def quadKey (t : Tile) : String :=
  if t.IsValid then
    if t.level = 0 then "-"
    else String.ofList ((digits t.level.toNat t.row.toNat t.column.toNat).map digitChar)
  else ""

/-- The tile at the end of the way that a quad key describes. A key that is empty, longer than
the tree is deep or has another character than the four digits gives the invalid tile. -/
def ofQuadKey (key : String) : Tile :=
  if key.isEmpty || maxLevel < key.utf8ByteSize then invalid
  else if key = "-" then root
  else
    match key.toList.mapM digit? with
    | some way => way.foldl child root
    | none => invalid

end TilePyramid.Tile
