import TilePyramid.Tile.Basic

/-!
# Sets of levels

A `LevelSet` has one bit for each level. `LevelSet.nearest?` finds the level of the set nearest
to a given one, the upper one of two that are equally near.
-/

namespace TilePyramid

/-- A set of levels: bit `n` is set when level `n` is in the set. -/
structure LevelSet where
  bits : UInt32
deriving DecidableEq, Repr

namespace LevelSet

/-- The set without levels. -/
def empty : LevelSet := ⟨0⟩

/-- The set has no level. -/
def isEmpty (levels : LevelSet) : Bool := levels.bits = 0

/-- The level is in the set. -/
def contains (levels : LevelSet) (level : Nat) : Bool :=
  level < levelCount && levels.bits.toNat.testBit level

/-- The set with one level more. A level that cannot be addressed is left out. -/
def insert (levels : LevelSet) (level : Nat) : LevelSet :=
  if level < levelCount then ⟨levels.bits ||| UInt32.ofNat (1 <<< level)⟩ else levels

/-- The levels of the set in ascending order. -/
def toList (levels : LevelSet) : List Nat :=
  (List.range levelCount).filter levels.contains

/-- The lowest level of the set. -/
def min? (levels : LevelSet) : Option Nat :=
  (List.range levelCount).find? levels.contains

/-- The highest level of the set. -/
def max? (levels : LevelSet) : Option Nat :=
  (List.range levelCount).reverse.find? levels.contains

/-- The level of the set at the given distance from `level`, the upper one if there are two. -/
def atDistance? (levels : LevelSet) (level distance : Nat) : Option Nat :=
  if levels.contains (level + distance) then some (level + distance)
  else if distance ≤ level ∧ levels.contains (level - distance) then some (level - distance)
  else none

/-- The level of the set that is met first on the way from `level` outwards to both sides, as far
as the lowest and the highest level. -/
def outwards? (levels : LevelSet) (lowest highest level : Nat) : Option Nat :=
  let furthest := max (level - lowest) (highest - level)
  (List.range (furthest + 1)).findSome? (levels.atDistance? level)

/-- The level of the set that is nearest to `reference`. The way outwards begins at the level
between the lowest and the highest one that is nearest to it, which is also the answer if no level
is met. -/
def nearest? (levels : LevelSet) (reference : Nat) : Option Nat := do
  let lowest ← levels.min?
  let highest ← levels.max?
  let level := max (min reference highest) lowest
  (levels.outwards? lowest highest level).or (some level)

end LevelSet

end TilePyramid
