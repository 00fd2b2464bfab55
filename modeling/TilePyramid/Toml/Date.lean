import TilePyramid.Toml.Text

/-!
# Dates of a document

A date, a time, or a date and a time with an offset. The months have up to 31 days each and the
day has up to 24 hours; the calendar is not consulted. A date is kept as a text in a usual form:
a `T` between date and time, a `Z` or a signed offset at the end, and no zeros at the end of a
fraction of a second, of which nine digits count.
-/

namespace TilePyramid.Toml.Date

/-- Digits and the number they stand for. -/
def readNumber? : (count : Nat) → (start : Nat) → Reader Nat
  | 0, value, cs => some (value, cs)
  | count + 1, value, c :: rest =>
      if c.isDigit then readNumber? count (10 * value + (c.toNat - '0'.toNat)) rest else none
  | _ + 1, _, [] => none

/-- A character that has to come next. -/
def expect? (char : Char) : List Char → Option (List Char)
  | c :: rest => if c = char then some rest else none
  | [] => none

/-- Two digits for a number up to `greatest`. -/
def readPair? (greatest : Nat) : Reader Nat := fun cs => do
  let (value, rest) ← readNumber? 2 0 cs
  if value ≤ greatest then some (value, rest) else none

/-- A number in at least the given count of digits. -/
def padded (count value : Nat) : String :=
  let digits := Nat.toDigits 10 value
  String.ofList (List.replicate (count - digits.length) '0' ++ digits)

/-- A day in the order year, month, day. -/
def readDay? : Reader String := fun cs => do
  let (year, rest) ← readNumber? 4 0 cs
  let rest ← expect? '-' rest
  let (month, rest) ← readPair? 12 rest
  let rest ← expect? '-' rest
  let (day, rest) ← readPair? 31 rest
  if month = 0 ∨ day = 0 then none
  else pure (padded 4 year ++ "-" ++ padded 2 month ++ "-" ++ padded 2 day, rest)

/-- A fraction of a second. -/
def readFraction? : Reader String
  | '.' :: rest =>
      let digits := rest.takeWhile Char.isDigit
      let kept := ((digits.take 9).reverse.dropWhile (· = '0')).reverse
      if digits.isEmpty then none
      else
        some (if kept.isEmpty then "" else "." ++ String.ofList kept, rest.dropWhile Char.isDigit)
  | cs => some ("", cs)

/-- A time of the day. -/
def readTime? : Reader String := fun cs => do
  let (hour, rest) ← readPair? 24 cs
  let rest ← expect? ':' rest
  let (minute, rest) ← readPair? 59 rest
  let rest ← expect? ':' rest
  let (second, rest) ← readPair? 59 rest
  let (fraction, rest) ← readFraction? rest
  pure (padded 2 hour ++ ":" ++ padded 2 minute ++ ":" ++ padded 2 second ++ fraction, rest)

/-- The hours and minutes of an offset. -/
def readOffsetFrom? (sign : String) (cs : List Char) : Option (String × List Char) := do
  let (hours, rest) ← readNumber? 2 0 cs
  let rest ← expect? ':' rest
  let (minutes, rest) ← readNumber? 2 0 rest
  let sign := if hours = 0 then "+" else sign
  pure (sign ++ padded 2 hours ++ ":" ++ padded 2 minutes, rest)

/-- The offset of a time, if there is one. A letter stands for an offset of nothing. -/
def readOffset? : Reader String
  | 'Z' :: rest => some ("Z", rest)
  | 'z' :: rest => some ("Z", rest)
  | '+' :: rest => readOffsetFrom? "+" rest
  | '-' :: rest => readOffsetFrom? "-" rest
  | cs => some ("", cs)

/-- The time behind a day, if there is one: behind the letter `T`, or behind a blank that a word
follows. -/
def timeBehind? : List Char → Option (List Char)
  | 'T' :: rest => some rest
  | 't' :: rest => some rest
  | ' ' :: c :: rest => if isWordChar c then some (c :: rest) else none
  | _ => none

/-- A date, a time, or both. Only both together take an offset. -/
def read? : Reader String := fun cs =>
  if cs[2]? = some ':' then readTime? cs
  else do
    let (day, rest) ← readDay? cs
    match timeBehind? rest with
    | some start => do
        let (time, rest) ← readTime? start
        let (offset, rest) ← readOffset? rest
        pure (day ++ "T" ++ time ++ offset, rest)
    | none => pure (day, rest)

end TilePyramid.Toml.Date
