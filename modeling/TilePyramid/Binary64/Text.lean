import TilePyramid.Binary64.Shortest

/-!
# Numbers in text

A number is written with its shortest decimal. A `Layout` says how the digits are laid out.
-/

namespace TilePyramid.Binary64

/-- How the digits of a number are laid out. -/
structure Layout where
  /-- The text behind the digits of a whole number. -/
  wholeEnd : String
  /-- The numbers with this power of ten in front are written without an exponent. -/
  isPositional : Int → Bool

namespace Layout

/-- Digits and a point where one is needed, never an exponent. -/
def plain : Layout := ⟨"", fun _ => true⟩

/-- Digits and always a point, never an exponent. -/
def pointed : Layout := ⟨".0", fun _ => true⟩

/-- Always a point, and an exponent from 10^16 on and below 10^(-4). -/
def general : Layout := ⟨".0", fun power => -4 ≤ power && power < 16⟩

end Layout

/-- The given number of zeros. -/
def zeros (count : Nat) : String := String.ofList (List.replicate count '0')

/-- A decimal written without an exponent. -/
def positional (layout : Layout) (d : Decimal) : String :=
  let digits := toString d.digits
  if 0 ≤ d.exponent then digits ++ zeros d.exponent.toNat ++ layout.wholeEnd
  else
    let places := (-d.exponent).toNat
    let padded := (zeros (places + 1 - digits.length) ++ digits).toList
    let whole := padded.length - places
    String.ofList (padded.take whole) ++ "." ++ String.ofList (padded.drop whole)

/-- A decimal written with one digit before the point and an exponent. -/
def exponential (d : Decimal) : String :=
  let digits := (toString d.digits).toList
  let power := d.exponent + (digits.length - 1 : Nat)
  let rest := digits.drop 1
  let point := if rest.isEmpty then "" else "."
  String.ofList (digits.take 1) ++ point ++ String.ofList rest ++ "e" ++ toString power

/-- The text of a number without its sign. -/
def unsignedText (layout : Layout) (bits : UInt64) : String :=
  if isInfinite bits then "inf"
  else if magnitude bits = 0 then "0" ++ layout.wholeEnd
  else
    let d := shortest bits
    let power := d.exponent + ((toString d.digits).length - 1 : Nat)
    if layout.isPositional power then positional layout d else exponential d

/-- The text of a number. -/
def text (layout : Layout) (bits : UInt64) : String :=
  if isNaN bits then "NaN"
  else if isNegative bits then "-" ++ unsignedText layout bits
  else unsignedText layout bits

end TilePyramid.Binary64
