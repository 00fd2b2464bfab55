import TilePyramid.Binary64.Basic

/-!
# The remainder of a division

Numbers are whole numbers of units, so the remainder of dividing one by another is a remainder
of natural numbers. It is always a number itself: nothing is rounded.
-/

namespace TilePyramid.Binary64

/-- The remainder of dividing `x` by `y` with the quotient rounded towards zero. It has the sign
of `x`. -/
def remainder (x y : UInt64) : UInt64 :=
  if isNaN x || isNaN y || isInfinite x || magnitude y = 0 then nan
  else if isInfinite y then x
  else ofParts (isNegative x) (ofUnits (units x % units y))

end TilePyramid.Binary64
