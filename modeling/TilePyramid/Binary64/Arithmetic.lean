import TilePyramid.Scalar
import TilePyramid.Binary64.Neighbour
import TilePyramid.Binary64.Remainder

/-!
# Floating point numbers as scalars

The operations that round are those of `Float`. The neighbour of a number and the remainder of a
division are exact and come from the words of the numbers. The hypotenuse is computed without
overflow and underflow of the squares.
-/

namespace TilePyramid.Binary64

/-- The length of the hypotenuse over sides with `short ≤ long`, where no square is too large or
too small. One correction step removes the error of the rounded squares. -/
def hypotNormal (long short : Float) : Float :=
  let h := Float.sqrt (long * long + short * short)
  let error :=
    if h ≤ 2.0 * short then
      let delta := h - short
      long * (2.0 * delta - long) + (delta - 2.0 * (long - short)) * delta
    else
      let delta := h - long
      2.0 * delta * (long - 2.0 * short) + ((4.0 * delta - short) * short + delta * delta)
  h - error / (2.0 * h)

/-- The power of two that scales large and small sides, `2 ^ (-600)`. -/
def hypotScale : Float := Float.ofBits 0x1A70000000000000

/-- The length of the hypotenuse over sides with `short ≤ long`. A side too short to change the
length in more than the last place is just added. -/
def hypotOrdered (long short : Float) : Float :=
  if short ≤ long * Float.ofBits 0x3C90000000000000 then long + short
  else if Float.ofBits 0x5FE0000000000000 < long then
    hypotNormal (long * hypotScale) (short * hypotScale) / hypotScale
  else if short < Float.ofBits 0x2340000000000000 then
    hypotNormal (long / hypotScale) (short / hypotScale) * hypotScale
  else hypotNormal long short

/-- The length of the hypotenuse. It is infinite when a side is, even if the other side is
undefined. -/
def hypot (x y : Float) : Float :=
  let a := x.abs
  let b := y.abs
  if a.isInf || b.isInf then Float.ofBits 0x7FF0000000000000
  else if a.isNaN || b.isNaN then Float.ofBits nan
  else if a < b then hypotOrdered b a
  else hypotOrdered a b

end TilePyramid.Binary64

namespace TilePyramid

/-- Floating point numbers of 64 bits. -/
instance : Scalar Float where
  decidableLT := inferInstance
  decidableLE := inferInstance
  pi := Float.ofBits 0x400921FB54442D18
  ofWord := Float.ofNat ∘ UInt32.toNat
  toWord := Float.toUInt32
  isNaN := Float.isNaN
  rem x y := Float.ofBits (Binary64.remainder x.toBits y.toBits)
  abs := Float.abs
  sqrt := Float.sqrt
  round := Float.round
  nextAfter x toward := Float.ofBits (Binary64.nextAfter x.toBits toward.toBits)
  sin := Float.sin
  cos := Float.cos
  atan := Float.atan
  atan2 := Float.atan2
  hypot := Binary64.hypot

end TilePyramid
