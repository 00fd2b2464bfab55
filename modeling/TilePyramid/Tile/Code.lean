import TilePyramid.Tile.Basic

/-!
# Morton codes

A Morton code writes the position of a tile as one number with two bits per level: the bit of
the row above the bit of the column, level by level from the root, behind a leading 1 that marks
the level. So the root has the code 1, the children of a tile with code `c` have the codes
`4 * c` to `4 * c + 3`, and a code below `2 ^ 63` names one valid tile.
-/

namespace TilePyramid

/-- A Morton code in one word. -/
structure Code where
  word : UInt64
deriving DecidableEq, Hashable, Repr

namespace Code

instance : Inhabited Code := ⟨⟨0⟩⟩

/-- The bits of `row` and `column`, each taken up to `width`, alternating with a row's bit
above the column's. -/
def interleave : (width row column : Nat) → Nat
  | 0, _, _ => 0
  | width + 1, row, column =>
      Tile.digit row column + 4 * interleave width (row / 2) (column / 2)

/-- The leading 1 that marks a level, which has no room below the deepest level. -/
def levelMark (level : Nat) : Nat :=
  if level < levelCount then tilesAt level else 0

/-- The row, the column and the level that a code stands for. The codes 0 and 1 both stand for
the root. -/
def position (code : Nat) : Nat × Nat × Nat :=
  if code ≤ 1 then (0, 0, 0)
  else
    let (row, column, level) := position (code / 4)
    (2 * row + code % 4 / 2, 2 * column + code % 2, level + 1)
termination_by code

/-- The code of the tile one level up. -/
def parent (code : Code) : Code := ⟨code.word >>> 2⟩

/-- The code of the first child, in the south west. Bits pushed out of the word are lost. -/
def child (code : Code) : Code := ⟨code.word <<< 2⟩

/-- The last `depth` levels of a code, as a code of their own: the position relative to the
ancestor `depth` levels up. -/
def suffix (code : Code) (depth : Nat) : Code :=
  ⟨UInt64.ofNat (code.word.toNat % tilesAt depth + tilesAt depth)⟩

/-- The number of levels that a code is long: the number of base 4 digits after its first. -/
def depth (code : Nat) : Nat :=
  if code < 4 then 0 else depth (code / 4) + 1

/-- The code of the tile whose position relative to `code` is `sub`. Bits pushed out of the word
are lost. -/
def append (code sub : Code) : Code :=
  let n := depth sub.word.toNat
  ⟨UInt64.ofNat (code.word.toNat * tilesAt n + sub.word.toNat % tilesAt n)⟩

end Code

namespace Tile

/-- The Morton code of a tile. -/
def code (t : Tile) : Code :=
  ⟨UInt64.ofNat
    (Code.levelMark t.level.toNat ||| Code.interleave 32 t.row.toNat t.column.toNat)⟩

/-- The tile with the given Morton code. -/
def ofCode (code : Code) : Tile :=
  let (row, column, level) := Code.position code.word.toNat
  ⟨UInt32.ofNat row, UInt32.ofNat column, UInt32.ofNat level⟩

end Tile

end TilePyramid
