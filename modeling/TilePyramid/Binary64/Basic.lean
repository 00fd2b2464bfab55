/-!
# Floating point numbers of 64 bits

A floating point number is a word with a sign bit, eleven bits of exponent and 52 bits of
fraction. Every finite one is a whole number of *units* of `2 ^ (-1074)`, the least positive
number. This module reads words as numbers, exactly and without floating point arithmetic:
`rank` says how numbers are ordered and `units` how large they are.
-/

namespace TilePyramid.Binary64

/-- The sign bit. -/
def signBit : Nat := 0x8000000000000000

/-- The number of fractions that share an exponent. -/
def fractionCount : Nat := 0x10000000000000

/-- The magnitude of the infinities. -/
def infinity : Nat := 2047 * fractionCount

/-- A word for an undefined value. -/
def nan : UInt64 := 0x7FF8000000000000

/-- The word without its sign bit. It orders the positive numbers. -/
def magnitude (bits : UInt64) : Nat := bits.toNat % signBit

/-- The sign bit is set. -/
def isNegative (bits : UInt64) : Bool := signBit ≤ bits.toNat

/-- The word stands for an undefined value. -/
def isNaN (bits : UInt64) : Bool := infinity < magnitude bits

/-- The word stands for an infinity. -/
def isInfinite (bits : UInt64) : Bool := magnitude bits = infinity

/-- The position of a number in the order of all numbers, with both zeros at 0. -/
def rank (bits : UInt64) : Int :=
  if isNegative bits then -(magnitude bits : Int) else magnitude bits

/-- The binary exponent of the distance between a finite number and its neighbour away from
zero, in units. -/
def scale (bits : UInt64) : Nat := magnitude bits / fractionCount - 1

/-- The size of a finite number divided by `2 ^ scale`. -/
def significand (bits : UInt64) : Nat :=
  if magnitude bits < fractionCount then magnitude bits
  else fractionCount + magnitude bits % fractionCount

/-- The size of a finite number in units. -/
def units (bits : UInt64) : Nat := significand bits * Nat.pow 2 (scale bits)

/-- The magnitude of the number with the given size in units. Sizes between two numbers go
towards zero. -/
def ofUnits (size : Nat) : Nat :=
  if size < fractionCount then size
  else
    let scale := Nat.log2 size - 52
    scale * fractionCount + size / Nat.pow 2 scale

/-- The word with the given sign and magnitude. -/
def ofParts (negative : Bool) (magnitude : Nat) : UInt64 :=
  UInt64.ofNat (if negative then signBit + magnitude else magnitude)

end TilePyramid.Binary64
