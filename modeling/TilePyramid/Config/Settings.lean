import TilePyramid.Config.Kind

/-!
# Settings

What a configuration document says about the tiling and about the path, before it is checked that
it makes sense. Each kind of settings is a record, with a field for each key of its table.
-/

namespace TilePyramid

/-- A tiling scheme put together from names. -/
structure PartNames where
  subdivision : String
  projection : String
deriving DecidableEq, Repr

/-- How the names of parts are read. -/
def PartNames.kind : Kind PartNames :=
  .record "struct UserTilingSchemeCfg"
    (((Fields.make PartNames.mk).field "subdivision" .text none).field "projection" .text none)

/-- A tiling scheme, by its own name or by the names of its parts. -/
structure SchemeSettings where
  predefined : Option String
  parts : Option PartNames
deriving DecidableEq, Repr

/-- How the settings of a scheme are read. -/
def SchemeSettings.kind : Kind SchemeSettings :=
  .record "struct TilingSchemeCfg"
    (((Fields.make SchemeSettings.mk).field "predefined" (.optional .text) none).field
      "user" (.optional PartNames.kind) none)

/-- How a path is followed. -/
structure PathSettings where
  level : Nat
  width : Nat
deriving DecidableEq, Repr

namespace PathSettings

/-- The level where a document gives none. -/
def defaultLevel : Nat := 14

/-- The width where a document gives none. -/
def defaultWidth : Nat := 0

/-- How the settings of a path are read. -/
def kind : Kind PathSettings :=
  .record "struct PathTilingCfg"
    (((Fields.make PathSettings.mk).field "level" .word (some defaultLevel)).field
      "area_offset" .word (some defaultWidth))

end PathSettings

/-- All settings of an application. -/
structure Settings where
  tiling : SchemeSettings
  path : Option PathSettings
deriving DecidableEq, Repr

/-- How all settings are read. -/
def Settings.kind : Kind Settings :=
  .record "struct ApplicationCfg"
    (((Fields.make Settings.mk).field "tiling" SchemeSettings.kind none).field
      "path" (.optional PathSettings.kind) none)

end TilePyramid
