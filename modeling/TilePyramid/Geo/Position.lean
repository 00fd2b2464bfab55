import TilePyramid.Binary64.Arithmetic
import TilePyramid.Binary64.Text

/-!
# Positions on the earth

A `Position` is a latitude and a longitude, a `Position3` has an altitude too. Angles are in
radians, altitudes in metres. `Position.normalized` brings a position to the latitudes from pole
to pole and to the longitudes from `-π` to `π`.
-/

namespace TilePyramid

/-- A latitude and a longitude. -/
structure Position (α : Type) where
  latitude : α
  longitude : α
deriving Repr

namespace Position

variable {α : Type} [Scalar α]

/-- The position with the given degrees of latitude and longitude. -/
def ofDegrees (latitude longitude : α) : Position α :=
  ⟨Scalar.radians latitude, Scalar.radians longitude⟩

/-- No angle is undefined. -/
def isValid (p : Position α) : Bool :=
  !Scalar.isNaN p.latitude && !Scalar.isNaN p.longitude

/-- The latitude held between the poles and the longitude brought to the range from `-π` to `π`. The
longitude `π` becomes `-π`. -/
def bounded (p : Position α) : Position α :=
  ⟨Scalar.clamp p.latitude (-Scalar.halfPi) Scalar.halfPi,
    Scalar.wrap p.longitude (-Scalar.pi) Scalar.pi⟩

/-- The usual angles of a position. An invalid position is kept. -/
def normalized (p : Position α) : Position α :=
  if p.isValid then p.bounded else p

/-- The angles of both positions are equal but for a rounding error. -/
def isClose (p q : Position α) : Bool :=
  Scalar.isClose p.latitude q.latitude && Scalar.isClose p.longitude q.longitude

/-- The position without defined angles, which is not valid. -/
def undefined : Position Float :=
  ⟨Float.ofBits Binary64.nan, Float.ofBits Binary64.nan⟩

instance : Inhabited (Position Float) := ⟨undefined⟩

/-- The text of a position in messages. -/
def text (p : Position Float) : String :=
  "(" ++ Binary64.text .plain p.latitude.toBits ++ ", " ++
    Binary64.text .plain p.longitude.toBits ++ ")"

end Position

/-- A position with an altitude. -/
structure Position3 (α : Type) extends Position α where
  altitude : α
deriving Repr

namespace Position3

variable {α : Type} [Scalar α]

/-- No angle is undefined and neither is the altitude. -/
def isValid (p : Position3 α) : Bool :=
  !Scalar.isNaN p.altitude && p.toPosition.isValid

/-- The position with the given degrees of latitude and longitude. -/
def ofDegrees (latitude longitude altitude : α) : Position3 α :=
  ⟨Position.ofDegrees latitude longitude, altitude⟩

/-- Angles and altitude of both positions are equal but for a rounding error. -/
def isClose (p q : Position3 α) : Bool :=
  Scalar.isClose p.altitude q.altitude && p.toPosition.isClose q.toPosition

/-- A position whose altitude is not known. It is not valid. -/
def ofPosition (p : Position Float) : Position3 Float :=
  ⟨p, Float.ofBits Binary64.nan⟩

instance : Inhabited (Position3 Float) := ⟨ofPosition default⟩

end Position3

end TilePyramid
