import TilePyramid.Tile.Basic

/-!
# Descendants of a tile

`Descendants` is the set of tiles a fixed number of levels below a tile, with a mask of 16 bits
that selects some of them. Up to two levels down a bit stands for a single tile. Further down
the tiles, counted row by row, fall into 16 blocks of equal size, and a bit stands for a block.
The set is walked through row by row with a `Cursor`.
-/

namespace TilePyramid

/-- The descendants of `tile`, `depth` levels down, that `mask` selects. -/
structure Descendants where
  tile : Tile
  depth : Nat
  mask : UInt16
deriving DecidableEq, Repr

namespace Descendants

/-- The mask that selects all descendants. -/
def fullMask : UInt16 := 0xFFFF

/-- The four children of a tile. -/
def children (tile : Tile) : Descendants := ⟨tile, 1, fullMask⟩

/-- The number of descendants, selected or not. From 16 levels down on the set is empty, because
its tiles can no longer be counted in a word of 32 bits. -/
def size (d : Descendants) : Nat :=
  if d.depth < 16 then tilesAt d.depth else 0

/-- The number of tiles that one bit of the mask stands for. -/
def blockSize (d : Descendants) : Nat :=
  tilesAt (d.depth - 2)

/-- The mask selects the descendant with number `index`. -/
def selects (d : Descendants) (index : Nat) : Bool :=
  d.mask.toNat.testBit (index / d.blockSize)

/-- The descendant with number `index`, counted row by row from the south west. -/
def get (d : Descendants) (index : Nat) : Tile :=
  ⟨shiftUp d.tile.row d.depth ||| UInt32.ofNat (index / rowsAt d.depth),
    shiftUp d.tile.column d.depth ||| UInt32.ofNat (index % rowsAt d.depth),
    d.tile.level + UInt32.ofNat d.depth⟩

/-- The first selected number from `index` on, or the size of the set if there is none. A block
that is not selected is passed over at once. -/
def nextSelected (d : Descendants) (index : Nat) : Nat :=
  if index < d.size then
    if d.selects index then index
    else d.nextSelected ((index / d.blockSize + 1) * d.blockSize)
  else d.size
termination_by d.size - index
decreasing_by
  have positive : 0 < d.blockSize := Nat.pow_pos (by decide)
  have below := Nat.lt_div_mul_add positive (a := index)
  rw [Nat.add_mul, Nat.one_mul]
  omega

/-- A place in the walk through a set of descendants: the number of the next one. -/
structure Cursor where
  index : Nat
deriving DecidableEq, Repr

/-- The start of the walk. -/
def start (d : Descendants) : Cursor := ⟨d.nextSelected 0⟩

/-- The next descendant and the place behind it, or nothing at the end of the walk. -/
def next? (d : Descendants) (cursor : Cursor) : Option (Tile × Cursor) :=
  if cursor.index < d.size then
    some (d.get cursor.index, ⟨d.nextSelected (cursor.index + 1)⟩)
  else none

/-- The least number of tiles still to come that can be told without walking on. -/
def atLeast (d : Descendants) (cursor : Cursor) : Nat :=
  if d.mask = fullMask then d.size - cursor.index else 0

/-- The greatest number of tiles still to come that can be told without walking on. -/
def atMost (d : Descendants) (cursor : Cursor) : Nat :=
  d.size - cursor.index

/-- The next tiles of the walk, at most `limit` of them, and the place behind them. -/
def take (d : Descendants) : (limit : Nat) → Cursor → List Tile × Cursor
  | 0, cursor => ([], cursor)
  | limit + 1, cursor =>
      match d.next? cursor with
      | none => ([], cursor)
      | some (tile, behind) =>
          let (tiles, last) := d.take limit behind
          (tile :: tiles, last)

/-- The selected descendants in the order of the walk. -/
def toList (d : Descendants) : List Tile :=
  (d.take d.size d.start).1

end Descendants

end TilePyramid
