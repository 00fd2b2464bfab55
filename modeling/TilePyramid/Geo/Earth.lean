import TilePyramid.Scalar

/-!
# The size of the earth

Lengths of the earth of the World Geodetic System, in metres.
-/

namespace TilePyramid.Earth

variable {α : Type} [Scalar α]

/-- The distance from the centre to the equator. -/
def equatorialRadius : α := 6378137.0

/-- The distance from the centre to a pole. -/
def polarRadius : α := 6356752.3142

/-- The length of the equator. -/
def equatorialCircumference : α := Scalar.twoPi * equatorialRadius

/-- The altitude of the deepest point of the sea. -/
def leastElevation : α := -10994.0

/-- The altitude of the highest mountain. -/
def greatestElevation : α := 8848.0

end TilePyramid.Earth
