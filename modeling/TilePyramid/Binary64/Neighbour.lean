import TilePyramid.Binary64.Basic

/-!
# Neighbouring numbers

The words of the numbers of one sign are consecutive, with the smaller magnitude first. So the
neighbour of a number is one word further, or one word back, and only the neighbours of zero are
a case of their own.
-/

namespace TilePyramid.Binary64

/-- The number next to `x` on the way to `toward`. -/
def nextAfter (x toward : UInt64) : UInt64 :=
  if isNaN x || isNaN toward then nan
  else if rank x = rank toward then toward
  else if rank x = 0 then ofParts (rank toward < rank x) 1
  else if rank x < rank toward ↔ 0 < rank x then x + 1
  else x - 1

end TilePyramid.Binary64
