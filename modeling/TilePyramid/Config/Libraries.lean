import TilePyramid.Config.Kind
import TilePyramid.Toml.Value

/-!
# Libraries

Regular expressions, templates, documents and the values in them are left to libraries. What a
configuration is read with is given by `Libraries`.
-/

namespace TilePyramid

namespace Template

/-- The values of the environment by their names. -/
abbrev Environment := List (String × String)

/-- What the places of a template can refer to: environments by their names. -/
abbrev Context := List (String × Environment)

/-- Why a template is not filled in, with what caused it if that is known. -/
structure Failure where
  text : String
  cause? : Option String
deriving DecidableEq, Repr

end Template

/-- The libraries with which configurations are read. -/
structure Libraries where
  /-- The test for a regular expression: whether it matches somewhere in a text. -/
  pattern : String → Except String (String → Bool)
  /-- The template with the given name and text, as a function that fills it in. -/
  template : (name text : String) →
    Except Template.Failure (Template.Context → Except Template.Failure String)
  /-- The value of a document in the TOML format. -/
  document : String → Except String Toml.Value
  /-- A value read as what a kind describes. -/
  decode : {α : Type} → Kind α → Toml.Value → Except String α

end TilePyramid
