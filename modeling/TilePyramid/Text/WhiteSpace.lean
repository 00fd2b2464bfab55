import TilePyramid.Text.CodePoints

/-!
# White space

The characters of Unicode that are white space, and a text without them at one of its ends.
-/

namespace TilePyramid.Text

/-- The characters that are white space. -/
def whiteSpace : CodePoints where
  borders := [
    0x9, 0xE, 0x20, 0x21, 0x85, 0x86, 0xA0, 0xA1, 0x1680, 0x1681, 0x2000, 0x200B, 0x2028, 0x202A,
    0x202F, 0x2030, 0x205F, 0x2060, 0x3000, 0x3001]

/-- The text without the white space at its front. -/
def trimFront (cs : List Char) : List Char := cs.dropWhile fun c => whiteSpace.contains c.toNat

/-- The text without the white space at its back. -/
def trimBack (cs : List Char) : List Char := (trimFront cs.reverse).reverse

end TilePyramid.Text
