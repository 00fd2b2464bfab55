import TilePyramid.Tile.Code

/-!
# Decimal tile names

A tile can be named by the decimal digits of its Morton code. Reading takes an optional plus
sign and leading zeros, writing uses neither.
-/

namespace TilePyramid

namespace Code

/-- The text without a plus sign at its front. -/
def dropPlus : List Char → List Char
  | '+' :: rest => rest
  | cs => cs

/-- A word written as decimal digits, with at most one plus sign before them. -/
def ofDecimal? (text : String) : Option Code :=
  let digits := dropPlus text.toList
  let value := Nat.ofDigitChars 10 digits 0
  if digits ≠ [] ∧ digits.all Char.isDigit ∧ value < 0x10000000000000000 then
    some ⟨UInt64.ofNat value⟩
  else none

/-- The decimal digits of a code. -/
def decimal (code : Code) : String :=
  toString code.word.toNat

end Code

namespace Tile

/-- The name of a tile: its Morton code in decimal digits. -/
def decimalName (t : Tile) : String :=
  t.code.decimal

/-- The tile with the given name. A text that is no number in one word gives the invalid tile. -/
def ofDecimalName (name : String) : Tile :=
  match Code.ofDecimal? name with
  | some code => ofCode code
  | none => invalid

end Tile

end TilePyramid
