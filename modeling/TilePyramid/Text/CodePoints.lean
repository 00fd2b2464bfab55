/-!
# Sets of code points

A property of characters holds on ranges of code points. Such a set is written as the ascending
list of the points at which it begins or ends. The sets of this library, and the letter cases, are
those of version 17 of Unicode.
-/

namespace TilePyramid.Text

/-- A set of code points by its borders: the first code point of each range and the first one
behind it, in ascending order. -/
structure CodePoints where
  borders : List Nat

/-- The code point is in the set: an odd number of borders do not lie above it. -/
def CodePoints.contains (set : CodePoints) (code : Nat) : Bool :=
  set.borders.countP (· ≤ code) % 2 = 1

end TilePyramid.Text
