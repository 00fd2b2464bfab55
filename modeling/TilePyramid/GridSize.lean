/-!
# Grid sizes

The number of columns and rows of a grid of tiles.
-/

namespace TilePyramid

/-- The number of columns and the number of rows of a grid. -/
structure GridSize where
  width : UInt32
  height : UInt32
deriving DecidableEq, Repr

namespace GridSize

/-- The largest word. -/
def wordMax : Nat := 0xFFFFFFFF

/-- The product of two words, or the largest word where the product is larger. -/
def saturatingMul (a b : UInt32) : UInt32 :=
  UInt32.ofNat (min (a.toNat * b.toNat) wordMax)

/-- The number of cells of a grid. -/
def area (size : GridSize) : Nat := size.width.toNat * size.height.toNat

/-- The grid in which every cell of `size` is divided into a grid of size `division`. Numbers too
large for a word become the largest word. -/
def refine (size division : GridSize) : GridSize :=
  ⟨saturatingMul size.width division.width, saturatingMul size.height division.height⟩

end GridSize

end TilePyramid
