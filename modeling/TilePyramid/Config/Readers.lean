import TilePyramid.Config.Decode
import TilePyramid.Config.Template
import TilePyramid.Text.Pattern
import TilePyramid.Toml.Document

/-!
# The readers of this library

`Libraries.own` reads configurations with small readers for what they need of regular expressions,
templates, documents and values.
-/

namespace TilePyramid

/-- The value of a document. -/
def Toml.read (text : String) : Except String Toml.Value :=
  match parse? text with
  | some entries => .ok (.table (tableOf entries))
  | none => .error "malformed document"

/-- The readers of this library. -/
def Libraries.own : Libraries where
  pattern := Text.Pattern.compile
  template := Template.compile
  document := Toml.read
  decode kind value := (kind.fit value).mapError Mismatch.text

end TilePyramid
