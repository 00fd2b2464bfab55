import TilePyramid.Text.LetterCase

/-!
# Lower case

A text in lower case has each letter replaced by its small form. Most letters have one small form
of one character. A capital I with a dot becomes an i with a combining dot. A capital sigma at
the end of a word becomes the final sigma.
-/

namespace TilePyramid.Text

/-- The range that gives the small form of a letter. -/
def CaseRange.holds (range : CaseRange) (code : Nat) : Bool :=
  range.first ≤ code && code ≤ range.last && (code - range.first) % range.stride = 0

/-- The small form of a letter that has one of a single character, and any other character as it
is. -/
def lowerChar (c : Char) : Char :=
  match capitals.find? (·.holds c.toNat) with
  | some range => Char.ofNat (c.toNat + range.offset).toNat
  | none => c

/-- The first character that the rule for sigma does not pass over is a cased letter. -/
def meetsCased (cs : List Char) : Bool :=
  match cs.dropWhile fun c => caseIgnorable.contains c.toNat with
  | [] => false
  | c :: _ => cased.contains c.toNat

/-- The small form of a character between the characters before it, the nearest first, and the
characters behind it. -/
def lowerBetween (before : List Char) (c : Char) (behind : List Char) : List Char :=
  if c = '\u0130' then ['i', '\u0307']
  else if c = '\u03A3' then
    [if meetsCased before && !meetsCased behind then '\u03C2' else '\u03C3']
  else [lowerChar c]

/-- The small forms of characters behind the given ones. -/
def lowerFrom (before : List Char) : List Char → List Char
  | [] => []
  | c :: behind => lowerBetween before c behind ++ lowerFrom (c :: before) behind

/-- A text in lower case. -/
def lowercase (text : String) : String := String.ofList (lowerFrom [] text.toList)

end TilePyramid.Text
