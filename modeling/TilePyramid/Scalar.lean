/-!
# Scalars

The geometry of this library is written once for every kind of number that has the operations of
`Scalar`. A program runs it on 64-bit floating point numbers, where every operation rounds. A
statement about exact arithmetic takes a field of real numbers instead.
-/

namespace TilePyramid

/-- The operations on numbers that the geometry needs. -/
class Scalar (α : Type) extends
    Add α, Sub α, Mul α, Div α, Neg α, LT α, LE α, OfScientific α where
  decidableLT : DecidableLT α
  decidableLE : DecidableLE α
  /-- Half the length of the unit circle. -/
  pi : α
  /-- The number that a word stands for. -/
  ofWord : UInt32 → α
  /-- The nearest word on the way from the number to zero. -/
  toWord : α → UInt32
  /-- The value is the result of an undefined operation. -/
  isNaN : α → Bool
  /-- The remainder of the division that rounds its quotient towards zero. -/
  rem : α → α → α
  abs : α → α
  sqrt : α → α
  /-- The nearest whole number, a half going away from zero. -/
  round : α → α
  /-- The number next to the first one on the way to the second. -/
  nextAfter : α → α → α
  sin : α → α
  cos : α → α
  atan : α → α
  /-- The angle of the direction with the given second and first coordinate. -/
  atan2 : α → α → α
  /-- The length of the hypotenuse over the two sides. -/
  hypot : α → α → α

namespace Scalar

attribute [reducible, instance] decidableLT decidableLE

variable {α : Type} [Scalar α]

/-- A quarter turn. -/
def halfPi : α := pi / 2.0

/-- A full turn. -/
def twoPi : α := 2.0 * pi

/-- The angle of `x` degrees. -/
def radians (x : α) : α := x * (pi / 180.0)

/-- The number of degrees of the angle `x`. -/
def degrees (x : α) : α := x * (180.0 / pi)

/-- The lesser of two numbers. An undefined value yields to the other one. -/
def min (a b : α) : α :=
  if isNaN a then b else if b < a then b else a

/-- The greater of two numbers. An undefined value yields to the other one. -/
def max (a b : α) : α :=
  if isNaN a then b else if a < b then b else a

/-- The numbers are equal. An undefined value equals no number. -/
def equal (a b : α) : Bool := a ≤ b && b ≤ a

/-- The number from `lower` to `upper` that differs from `value` by a multiple of the length of that
range. A value whole lengths above `lower` gives `lower`, and one whole lengths below it gives
`upper`. An empty range gives its lower end. -/
def wrap (value lower upper : α) : α :=
  if upper ≤ lower then lower
  else if value < lower then upper - rem (lower - value) (upper - lower)
  else lower + rem (value - lower) (upper - lower)

/-- The number of `[lower, upper]` that is nearest to `value`. An undefined value is kept. -/
def clamp (value lower upper : α) : α :=
  if value < lower then lower else if upper < value then upper else value

/-- The greatest difference, not reached, between numbers that count as equal: the distance from
1 to the next floating point number of 64 bits. -/
def epsilon : α := 2.220446049250313e-16

/-- Two numbers are equal but for a rounding error near 1. -/
def isClose (a b : α) : Bool := abs (a - b) < epsilon

end Scalar

end TilePyramid
