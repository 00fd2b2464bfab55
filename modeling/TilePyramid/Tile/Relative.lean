import TilePyramid.Tile.QuadKey
import TilePyramid.Tile.Decimal

/-!
# Positions relative to a tile

A descendant of a tile can be named relative to it: by the end of its Morton code, by the end of
its quad key, or by a tile of a tree whose root is the given tile. This module takes such names
and adds them to a tile again.
-/

namespace TilePyramid.Tile

/-- The position of a tile relative to its ancestor `depth` levels up, as a Morton code. -/
def relativeCode (t : Tile) (depth : Nat) : Code :=
  t.code.suffix depth

/-- The position of a tile relative to its ancestor at `level`, as a tile. -/
def relativeTo (t : Tile) (level : UInt32) : Tile :=
  let first := (t.zoomTo level).zoomTo t.level
  ⟨t.row - first.row, t.column - first.column, t.level - level⟩

/-- The descendant at the position `sub` relative to a tile. -/
def addCode (t : Tile) (sub : Code) : Tile :=
  ofCode (t.code.append sub)

/-- The descendant of `t` that lies in `t` as `sub` lies in the root. -/
def addTile (t sub : Tile) : Tile :=
  let first := t.zoomBy (signedLevel sub.level)
  { first with row := first.row + sub.row, column := first.column + sub.column }

/-- The descendant at the end of a relative quad key. The empty key leads nowhere else. -/
def addQuadKey (t : Tile) (key : String) : Tile :=
  t.addTile (ofQuadKey (if key.isEmpty then "-" else key))

/-- The descendant with a relative decimal name. -/
def addDecimalName (t : Tile) (name : String) : Tile :=
  t.addTile (ofDecimalName name)

end TilePyramid.Tile
