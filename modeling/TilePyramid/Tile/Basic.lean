/-!
# Tiles of a quad tree

The root tile at level 0 is the whole world. Every level splits each tile into two rows and two
columns, so level `n` has `2 ^ n` rows and `2 ^ n` columns. Row 0 is the southernmost row and
column 0 the westernmost column. `Tile.zoomBy` moves a tile up and down the levels,
`Tile.child` and `Tile.parent` are its single steps.

A tile is an address only: any three words are one, and `Tile.IsValid` says which of them name
a place in the tree.
-/

namespace TilePyramid

/-- The number of levels that can be addressed. -/
def levelCount : Nat := 32

/-- The deepest level that can be addressed. -/
def maxLevel : Nat := levelCount - 1

/-- The number of rows of a level, which is also its number of columns. -/
def rowsAt (level : Nat) : Nat := Nat.pow 2 level

/-- The number of tiles of a level. -/
def tilesAt (level : Nat) : Nat := Nat.pow 4 level

/-- The address of a tile: its row and its column on a level. -/
structure Tile where
  row : UInt32
  column : UInt32
  level : UInt32
deriving DecidableEq, Repr

/-- The place of a tile within its parent. The root has no place. -/
inductive Quadrant where
  | southWest
  | southEast
  | northWest
  | northEast
  | none
deriving DecidableEq, Repr

namespace Quadrant

/-- The number of a quadrant: bit 0 is set in the east, bit 1 in the north. -/
def index : Quadrant → Nat
  | southWest => 0
  | southEast => 1
  | northWest => 2
  | northEast => 3
  | none => 4

/-- The short name of a quadrant. -/
def abbreviation : Quadrant → String
  | southWest => "SW"
  | southEast => "SE"
  | northWest => "NW"
  | northEast => "NE"
  | none => "Invalid"

end Quadrant

/-- The number `w` on a level taken `n` levels down: shifted towards the high bits. Bits pushed
out of the word are lost. -/
def shiftUp (w : UInt32) (n : Nat) : UInt32 :=
  if n < 32 then UInt32.ofNat (w.toNat * rowsAt n) else 0

/-- The number `w` on a level taken `n` levels up: shifted towards the low bits. -/
def shiftDown (w : UInt32) (n : Nat) : UInt32 :=
  if n < 32 then UInt32.ofNat (w.toNat / rowsAt n) else 0

namespace Tile

/-- The root of the tree. -/
def root : Tile := ⟨0, 0, 0⟩

/-- The tile that stands for "no tile". -/
def invalid : Tile := ⟨0, 0, 32⟩

instance : Inhabited Tile := ⟨invalid⟩

/-- The number of rows at the level of a tile, which is 0 below the deepest level. -/
def rowCount (t : Tile) : UInt32 :=
  shiftUp 1 t.level.toNat

/-- The number of columns at the level of a tile, which equals the number of rows. -/
def columnCount (t : Tile) : UInt32 :=
  t.rowCount

/-- A tile is valid when it lies in the tree: its level can be addressed, and the level has its
row and its column. -/
def IsValid (t : Tile) : Prop :=
  t.level.toNat < levelCount ∧ t.row.toNat < rowsAt t.level.toNat ∧
    t.column.toNat < rowsAt t.level.toNat

/-- Validity is decidable. The level is looked at first, so no large power is computed. -/
instance (t : Tile) : Decidable t.IsValid :=
  if h : t.level.toNat < levelCount then
    decidable_of_iff (t.row.toNat < rowsAt t.level.toNat ∧ t.column.toNat < rowsAt t.level.toNat)
      ⟨fun inside => ⟨h, inside⟩, fun valid => valid.2⟩
  else isFalse fun valid => h valid.1

/-- The tile that contains `t` one level up. The root has none. -/
def parent (t : Tile) : Tile :=
  if 0 < t.level then ⟨shiftDown t.row 1, shiftDown t.column 1, t.level - 1⟩ else invalid

/-- The tile `delta` levels below `t`, or above it where `delta` is negative. The way down leads
to the descendant with the lowest row and column, the way up to the ancestor. A level above the
root is the root's level. -/
def zoomBy (t : Tile) (delta : Int) : Tile :=
  let level := UInt32.ofNat (t.level.toNat + delta).toNat
  let distance := delta.natAbs
  -- The level stops at the root but the shift does not, which leaves row and column 0 there.
  if 0 < delta then ⟨shiftUp t.row distance, shiftUp t.column distance, level⟩
  else ⟨shiftDown t.row distance, shiftDown t.column distance, level⟩

/-- A level as a signed number: levels from `2 ^ 31` on are negative. -/
def signedLevel (level : UInt32) : Int :=
  level.toInt32.toInt

/-- The tile at `level` that contains `t`, or the descendant of `t` there with the lowest row
and column. -/
def zoomTo (t : Tile) (level : UInt32) : Tile :=
  t.zoomBy (signedLevel level - signedLevel t.level)

/-- The tile `t` lies inside the larger tile `ancestor`. -/
def isDescendantOf (t ancestor : Tile) : Bool :=
  ancestor.level < t.level && t.zoomTo ancestor.level == ancestor

/-- The tile `t` contains the smaller tile `descendant`. -/
def isAncestorOf (t descendant : Tile) : Bool :=
  descendant.isDescendantOf t

/-- The child with the given number, which is the number of a quadrant. -/
def child (t : Tile) (index : Nat) : Tile :=
  let first := t.zoomBy 1
  { first with
    row := first.row ||| UInt32.ofNat (index / 2)
    column := first.column ||| UInt32.ofNat (index % 2) }

/-- The child in the given quadrant. -/
def childIn (t : Tile) (quadrant : Quadrant) : Tile :=
  t.child quadrant.index

/-- The digit of a tile among the four children of its parent. -/
def digit (row column : Nat) : Nat :=
  2 * (row % 2) + column % 2

/-- The quadrant of its parent in which a tile lies. -/
def quadrant (t : Tile) : Quadrant :=
  if t.level = 0 then .none
  else
    match digit t.row.toNat t.column.toNat with
    | 0 => .southWest
    | 1 => .southEast
    | 2 => .northWest
    | _ => .northEast

/-- There is a row to the north of a tile. -/
def hasNorth (t : Tile) : Bool := t.row < t.rowCount - 1

/-- There is a row to the south of a tile. -/
def hasSouth (t : Tile) : Bool := 0 < t.row

/-- There is a column to the east of a tile. -/
def hasEast (t : Tile) : Bool := t.column < t.columnCount - 1

/-- There is a column to the west of a tile. -/
def hasWest (t : Tile) : Bool := 0 < t.column

/-- The tile one row to the north. -/
def north (t : Tile) : Tile := { t with row := t.row + 1 }

/-- The tile one row to the south. It wraps around below row 0. -/
def south (t : Tile) : Tile := { t with row := t.row - 1 }

/-- The tile one column to the east. -/
def east (t : Tile) : Tile := { t with column := t.column + 1 }

/-- The tile one column to the west. It wraps around below column 0. -/
def west (t : Tile) : Tile := { t with column := t.column - 1 }

/-- Tiles are ordered by level, then by row, then by column. -/
instance : Ord Tile where
  compare a b :=
    (compare a.level b.level).then ((compare a.row b.row).then (compare a.column b.column))

/-- The text of a tile in messages. -/
instance : ToString Tile where
  toString t :=
    "(l:" ++ toString t.level.toNat ++ " r:" ++ toString t.row.toNat ++
      " c:" ++ toString t.column.toNat ++ ")"

/-- The tiles in ascending order. -/
def sort (tiles : List Tile) : List Tile :=
  tiles.mergeSort fun a b => (compare a b).isLE

end Tile

end TilePyramid
