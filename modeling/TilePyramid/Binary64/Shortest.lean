import TilePyramid.Binary64.Basic

/-!
# Shortest decimals

The shortest decimal of a number is the one with the fewest digits among those that lie nearer
to it than to any other number, and the nearest of these to the number. Distances are measured
exactly, in half units: the numbers that round to a given one lie between the midpoints to its
neighbours, and the midpoints belong to it when its significand is even.
-/

namespace TilePyramid.Binary64

/-- A decimal number `digits * 10 ^ exponent`. -/
structure Decimal where
  digits : Nat
  exponent : Int
deriving DecidableEq, Repr

/-- A range of sizes in half units, with its ends when `closed`. -/
structure Interval where
  lower : Nat
  upper : Nat
  closed : Bool

/-- The sizes that round to a finite number. Below a power of two the numbers lie twice as
dense as above it. -/
def rounding (bits : UInt64) : Interval :=
  let size := 2 * units bits
  let above := Nat.pow 2 (scale bits)
  let below := if significand bits = fractionCount ∧ 0 < scale bits then above / 2 else above
  ⟨size - below, size + above, significand bits % 2 = 0⟩

/-- The number of half units in one. -/
def halfUnits : Nat := Nat.pow 2 1075

/-- The numerator of `10 ^ exponent`. -/
def tenUp (exponent : Int) : Nat := Nat.pow 10 exponent.toNat

/-- The denominator of `10 ^ exponent`. -/
def tenDown (exponent : Int) : Nat := Nat.pow 10 (-exponent).toNat

/-- The decimal lies in the range. -/
def Interval.holds (range : Interval) (d : Decimal) : Bool :=
  let size := d.digits * tenUp d.exponent * halfUnits
  let lower := range.lower * tenDown d.exponent
  let upper := range.upper * tenDown d.exponent
  if range.closed then lower ≤ size && size ≤ upper else lower < size && size < upper

/-- The best decimal with the given exponent that rounds to the number: of the two decimals
around the number the nearer one, and the larger one when both are equally near. -/
def candidate? (bits : UInt64) (exponent : Int) : Option Decimal :=
  let range := rounding bits
  let size := 2 * units bits * tenDown exponent
  let step := tenUp exponent * halfUnits
  let below : Decimal := ⟨size / step, exponent⟩
  let above : Decimal := ⟨size / step + 1, exponent⟩
  match range.holds below, range.holds above with
  | true, true => some (if size % step * 2 < step then below else above)
  | true, false => some below
  | false, true => some above
  | false, false => none

/-- A power of ten that is no less than any number. -/
def topExponent : Int := 309

/-- The first candidate among the given number of exponents from `exponent` down. -/
def firstCandidate? (bits : UInt64) : (count : Nat) → (exponent : Int) → Option Decimal
  | 0, _ => none
  | count + 1, exponent =>
      match candidate? bits exponent with
      | some decimal => some decimal
      | none => firstCandidate? bits count (exponent - 1)

/-- The shortest decimal of a finite number that is not zero. A decimal with fewer digits has a
larger exponent, so the exponents are tried from the top. -/
def shortest (bits : UInt64) : Decimal :=
  (firstCandidate? bits 640 topExponent).getD ⟨0, 0⟩

end TilePyramid.Binary64
