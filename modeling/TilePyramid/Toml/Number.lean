import TilePyramid.Toml.Item
import TilePyramid.Toml.Text

/-!
# Numbers of a document

Whole numbers are written in base 10, or in base 16, 8 or 2 behind `0x`, `0o` or `0b`, and lie in
64 bits. A number with a point or an exponent is a floating point number. Underscores may stand
between digits.
-/

namespace TilePyramid.Toml

/-- The characters of a word at the front of a text. -/
def word (cs : List Char) : List Char := cs.takeWhile isWordChar

/-- The text behind the word at its front. -/
def behindWord (cs : List Char) : List Char := cs.dropWhile isWordChar

namespace Number

/-- The value of a digit in a base up to 16. -/
def digit? (base : Nat) (c : Char) : Option Nat :=
  (hexDigit? c).filter (· < base)

/-- The character is a digit or stands between digits. -/
def isDigitOrGap (base : Nat) (c : Char) : Bool := c = '_' || (digit? base c).isSome

/-- Each underscore stands between two digits. -/
def isWellSpaced : List Char → Bool
  | [] => false
  | ['_'] => false
  | '_' :: _ => false
  | [_] => true
  | _ :: '_' :: rest => isWellSpaced rest
  | _ :: rest => isWellSpaced rest

/-- Digits at the front of a text, without underscores, and the text behind them. A leading zero
is refused where `mayLead` does not allow it, unless it stands alone. -/
def readDigits? (base : Nat) (mayLead : Bool) : Reader (List Char) := fun cs =>
  let run := cs.takeWhile (isDigitOrGap base)
  let digits := run.filter (· ≠ '_')
  if isWellSpaced run ∧ (mayLead ∨ digits.length = 1 ∨ digits.head? ≠ some '0') then
    some (digits, cs.dropWhile (isDigitOrGap base))
  else none

/-- The number that digits stand for. -/
def ofDigits (base : Nat) (digits : List Char) : Nat :=
  digits.foldl (fun value c => base * value + (digit? base c).getD 0) 0

/-- A sign at the front of a text, and the text behind it. -/
def readSign : List Char → Bool × List Char
  | '-' :: rest => (true, rest)
  | '+' :: rest => (false, rest)
  | cs => (false, cs)

/-- The whole number with the given sign. -/
def signed (negative : Bool) (size : Nat) : Int := if negative then -size else size

/-- A whole number of 64 bits. -/
def integer? (value : Int) : Option Item :=
  if -0x8000000000000000 ≤ value ∧ value < 0x8000000000000000 then some (.integer value) else none

/-- A word that is a whole number in base 10 with a sign. -/
def ofWord? (word : List Char) : Option Item := do
  let (negative, digits) := readSign word
  let (digits, behind) ← readDigits? 10 false digits
  if behind.isEmpty then integer? (signed negative (ofDigits 10 digits)) else none

/-- Digits in another base. -/
def ofBase? (base : Nat) (word : List Char) : Option Item := do
  let (digits, behind) ← readDigits? base true word
  if behind.isEmpty then integer? (ofDigits base digits) else none

/-- The floating point number `± size * 10 ^ exponent`, if it is not too large. A number beyond
the range of all floating point numbers is not computed first. -/
def float? (negative : Bool) (size : Nat) (exponent : Int) : Option Item :=
  let places : Int := (Nat.toDigits 10 size).length
  let value :=
    if size = 0 ∨ exponent + places < -400 then 0.0
    else if 400 < exponent + places then Float.ofBits 0x7FF0000000000000
    else if exponent < 0 then Float.ofScientific size true exponent.natAbs
    else Float.ofScientific size false exponent.natAbs
  if value.isInf then none else some (.float (if negative then -value else value))

/-- The exponent behind the letter `e`, if there is one, and the text behind it. A plus sign
parts the word in which the exponent begins from the one in which it ends. -/
def readExponent? (suffix behind : List Char) : Option (Int × List Char) :=
  match suffix with
  | [] => some (0, behind)
  | c :: rest =>
      if c = 'e' ∨ c = 'E' then
        if rest.isEmpty then
          let behind :=
            match behind with
            | '+' :: behind => behind
            | _ => behind
          match readDigits? 10 true (word behind) with
          | some (digits, []) => some (ofDigits 10 digits, behindWord behind)
          | _ => none
        else
          let (negative, digits) := readSign rest
          match readDigits? 10 true digits with
          | some (digits, []) => some (signed negative (ofDigits 10 digits), behind)
          | _ => none
      else none

/-- A floating point number that begins with a word, with the text behind the word. -/
def readFloat? (word : List Char) (fraction : Option (List Char)) (behind : List Char) :
    Option (Item × List Char) := do
  let (negative, digits) := readSign word
  let (whole, suffix) ← readDigits? 10 false digits
  let (places, suffix) ←
    match fraction with
    | none => some ([], suffix)
    | some fraction => if suffix.isEmpty then readDigits? 10 true fraction else none
  let (exponent, behind) ← readExponent? suffix behind
  let value ← float? negative (ofDigits 10 (whole ++ places)) (exponent - places.length)
  pure (value, behind)

/-- A number that begins with a word, with the text behind the word. -/
def readFrom? (start behind : List Char) : Option (Item × List Char) :=
  match start with
  | '0' :: 'x' :: digits => (ofBase? 16 digits).map (·, behind)
  | '0' :: 'o' :: digits => (ofBase? 8 digits).map (·, behind)
  | '0' :: 'b' :: digits => (ofBase? 2 digits).map (·, behind)
  | _ =>
      if start.contains 'e' || start.contains 'E' then readFloat? start none behind
      else
        match behind with
        | '.' :: rest =>
            if (word rest).isEmpty then none
            else readFloat? start (some (word rest)) (behindWord rest)
        | _ =>
            match String.ofList start with
            | "inf" => some (.float (Float.ofBits 0x7FF0000000000000), behind)
            | "-inf" => some (.float (Float.ofBits 0xFFF0000000000000), behind)
            | "nan" | "-nan" => some (.float (Float.ofBits 0x7FF8000000000000), behind)
            | _ => (ofWord? start).map (·, behind)

/-- A number. A plus sign may stand before any of them. -/
def read? : Reader Item
  | '+' :: rest => if (word rest).isEmpty then none else readFrom? (word rest) (behindWord rest)
  | cs => if (word cs).isEmpty then none else readFrom? (word cs) (behindWord cs)

end Number

end TilePyramid.Toml
