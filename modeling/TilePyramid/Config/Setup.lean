import TilePyramid.Config.Settings
import TilePyramid.Log
import TilePyramid.Path.Walk
import TilePyramid.Text.Lowercase

/-!
# Objects made from settings

Tiling schemes and path options are made from settings, and written as settings again: the text
that `Configured.current` gives for an object makes the same object when it is read.
-/

namespace TilePyramid

/-- Why settings make no object. -/
inductive SetupError where
  | unknownScheme (name : String)
  | unknownName (name : String)
  | noScheme
  | levelTooDeep (level : Nat)
deriving DecidableEq, Repr

namespace SetupError

/-- The message about settings that make no object. -/
def message : SetupError → String
  | unknownScheme name => "Unkown tiling scheme '" ++ name ++ "'"
  | unknownName name => "Unexpected enum value '" ++ name ++ "'"
  | noScheme => "Invalid tiling scheme definition"
  | levelTooDeep level =>
      "Path level " ++ toString level ++ " exceeds maximum level " ++ toString maxLevel

/-- The warning that goes with an error. -/
def warning? : SetupError → Option Message
  | unknownScheme name => some ⟨.warning, "Unknown predefined tiling scheme '" ++ name ++ "'"⟩
  | _ => none

end SetupError

/-- Objects that are made from settings. -/
class Configured (settings : Type) (object : Type) where
  /-- The object that settings make. -/
  ofSettings : settings → Except SetupError object
  /-- A text with settings to begin with. -/
  sample : String
  /-- A text with the settings of an object. Without a better one the sample does. -/
  current : object → String := fun _ => sample

/-- The projection with the given name. -/
def Projection.ofName (name : String) : Except SetupError Projection :=
  match Projection.ofName? name with
  | some projection => .ok projection
  | none => .error (.unknownName name)

/-- The subdivision with the given name in any letter case. -/
def Subdivision.ofAnyCase (name : String) : Except SetupError Subdivision :=
  match Subdivision.ofName? (Text.lowercase name) with
  | some subdivision => .ok subdivision
  | none => .error (.unknownName name)

namespace Scheme

/-- The scheme with the given parts, whose names are in any letter case. -/
def ofParts (parts : PartNames) : Except SetupError Scheme := do
  let subdivision ← Subdivision.ofAnyCase parts.subdivision
  let projection ← Projection.ofName (Text.lowercase parts.projection)
  pure ⟨subdivision, projection⟩

/-- The scheme that settings ask for. A name of its own goes before the names of its parts. -/
def ofSettings (settings : SchemeSettings) : Except SetupError Scheme :=
  match settings.predefined, settings.parts with
  | some name, _ =>
      match Scheme.ofName? name with
      | some scheme => .ok scheme
      | none => .error (.unknownScheme name)
  | none, some parts => ofParts parts
  | none, none => .error .noScheme

/-- A text with settings for a scheme. -/
def sampleText : String :=
  "\n[tiling]\n# quad_tree_equirectangular, half_quad_tree_equirectangular, quad_tree_identity, " ++
    "quad_tree_sphere\npredefined = \"half_quad_tree_equirectangular\"\n"

/-- The settings of a scheme as a text. -/
def currentText (scheme : Scheme) : String :=
  "\n[tiling.user]\nsubdivision = \"" ++ scheme.subdivision.name ++ "\"\nprojection = \"" ++
    scheme.projection.name ++ "\"\n"

instance : Configured SchemeSettings Scheme := ⟨ofSettings, sampleText, currentText⟩

end Scheme

namespace PathOptions

/-- The options that settings ask for. The level has to be one that can be addressed. -/
def ofSettings (settings : PathSettings) : Except SetupError PathOptions :=
  if settings.level < levelCount then .ok ⟨settings.level, settings.width⟩
  else .error (.levelTooDeep settings.level)

/-- A text with settings for a path. -/
def sampleText : String :=
  "\n[path]\nlevel = 14\n# Number of neighbour tiles on every side of the path\narea_offset = 0\n"

/-- The options of a path as a text. -/
def currentText (options : PathOptions) : String :=
  "\n[path]\nlevel = " ++ toString options.level ++ "\narea_offset = " ++
    toString options.width ++ "\n"

instance : Configured PathSettings PathOptions := ⟨ofSettings, sampleText, currentText⟩

end PathOptions

/-- A text with settings for everything. -/
def Settings.sampleText : String :=
  "\n[tiling]\npredefined = \"half_quad_tree_equirectangular\"\n" ++
    "\n[path]\nlevel = 14\narea_offset = 0\n"

end TilePyramid
