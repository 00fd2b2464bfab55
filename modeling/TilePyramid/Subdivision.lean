import TilePyramid.GridSize
import TilePyramid.Log
import TilePyramid.Tile.Descendants

/-!
# Subdivisions

A `Subdivision` says into how many columns and rows a tile of each level is divided, and how many
columns and rows each level has. `Subdivision.children` walks down a tree of tiles along a
subdivision.
-/

namespace TilePyramid

/-- The size of a level when the tiles of each level above it are divided as `division` says. -/
def GridSize.product (division : Nat → GridSize) (level : Nat) : GridSize :=
  Nat.fold level (fun above _ size => size.refine (division above)) ⟨1, 1⟩

/-- A way of dividing the tiles of each level. Unless said otherwise, the size of a level is the
product of the divisions above it. -/
structure Subdivision where
  name : String
  division : (level : Nat) → GridSize
  size : (level : Nat) → GridSize := GridSize.product division

namespace Subdivision

/-- Every tile is divided into two columns and two rows. -/
def quadTree : Subdivision where
  name := "quad_tree"
  division _ := ⟨2, 2⟩
  size level := ⟨shiftUp 1 level, shiftUp 1 level⟩

/-- The root is divided into two columns only. The tiles of a world that is twice as wide as high
are squares then. -/
def halfQuadTree : Subdivision where
  name := "half_quad_tree"
  division
    | 0 => ⟨2, 1⟩
    | _ + 1 => ⟨2, 2⟩
  size
    | 0 => ⟨1, 1⟩
    | above + 1 => ⟨shiftUp 1 (above + 1), shiftUp 1 above⟩

/-- The subdivisions that can be named. -/
def all : List Subdivision := [quadTree, halfQuadTree]

/-- The subdivision with the given name. -/
def ofName? (name : String) : Option Subdivision :=
  all.find? fun subdivision => subdivision.name == name

/-- The largest number of children that a mask can select. -/
def maxChildren : Nat := 16

/-- The mask that selects the first `count` children, or all if there are too many for a mask. -/
def childMask (count : Nat) : UInt16 :=
  if count < maxChildren then UInt16.ofNat (Nat.pow 2 count - 1) else Descendants.fullMask

/-- The children of a tile: the first ones of its four descendants one level down, as many as the
division of its level has. So a division into two columns selects the southern two. -/
def children (s : Subdivision) (t : Tile) : Descendants :=
  ⟨t, 1, childMask (s.division t.level.toNat).area⟩

/-- The warning about a division of a tile into more children than a mask can select. -/
def warning? (s : Subdivision) (t : Tile) : Option Message :=
  let division := s.division t.level.toNat
  if maxChildren < division.area then
    some ⟨.warning,
      s.name ++ " subdivision " ++ toString division.width.toNat ++ "x" ++
        toString division.height.toNat ++ " at level " ++ toString t.level.toNat ++ " exceeds " ++
        toString maxChildren ++ " children"⟩
  else none

/-- The children of all given tiles. -/
def childrenOf (s : Subdivision) (tiles : List Tile) : List Tile :=
  tiles.flatMap fun t => (s.children t).toList

/-- The tiles `depth` levels below `t`. -/
def descend (s : Subdivision) (t : Tile) : (depth : Nat) → List Tile
  | 0 => [t]
  | depth + 1 => s.childrenOf (s.descend t depth)

end Subdivision

end TilePyramid
