import TilePyramid.Text.Printable

/-!
# Quoted text

A text is quoted in messages between double quotes. Quotes, backslashes and line breaks in it are
escaped, and so is each character that would not be seen by itself.
-/

namespace TilePyramid.Text

/-- The characters that show one character in a quoted text. -/
def quotedChar (c : Char) : List Char :=
  if c = '\x00' then ['\\', '0']
  else if c = '\t' then ['\\', 't']
  else if c = '\r' then ['\\', 'r']
  else if c = '\n' then ['\\', 'n']
  else if c = '"' ∨ c = '\\' then ['\\', c]
  else if printable.contains c.toNat then [c]
  else ['\\', 'u', '\x7b'] ++ Nat.toDigits 16 c.toNat ++ ['\x7d']

/-- A text in quotes. -/
def quoted (text : String) : String :=
  String.ofList ('"' :: text.toList.flatMap quotedChar ++ ['"'])

end TilePyramid.Text
