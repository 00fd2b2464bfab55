import TilePyramid.Space
import TilePyramid.Geo.Rectangle
import TilePyramid.Geo.Earth

/-!
# Projections

A projection takes positions on the earth to points in space and back. `Projection.project` gives
the point of a position, `Projection.unproject` the position of a point, and `Projection.extent` is
a box that holds the points of all positions between two altitudes.
-/

namespace TilePyramid

/-- The projections. -/
inductive Projection where
  /-- Longitude and latitude scaled so that the world is one unit wide. -/
  | equirectangular
  /-- The point of a sphere. -/
  | sphere
  /-- Longitude and latitude as they are. -/
  | identity
deriving DecidableEq, Repr

namespace Projection

/-- The name of a projection. -/
def name : Projection → String
  | equirectangular => "equirectangular"
  | sphere => "sphere"
  | identity => "identity"

/-- All projections. -/
def all : List Projection := [equirectangular, sphere, identity]

/-- The projection with the given name. -/
def ofName? (name : String) : Option Projection :=
  all.find? fun projection => projection.name == name

variable {α : Type} [Scalar α]

/-- The positions that a projection covers. -/
def bounds (_ : Projection) : Rectangle α := .world

/-- The box of all points that come from positions between two altitudes. -/
def extent (projection : Projection) (lowest highest : α) : Box α :=
  match projection with
  | equirectangular => ⟨⟨0.0, 0.0, lowest⟩, ⟨1.0, 0.5, highest⟩⟩
  | sphere =>
      let radius := Earth.equatorialRadius + highest
      ⟨⟨-radius, -radius, -radius⟩, ⟨radius, radius, radius⟩⟩
  | identity =>
      ⟨⟨-Scalar.pi, -Scalar.halfPi, lowest⟩, ⟨Scalar.pi, Scalar.halfPi, highest⟩⟩

/-- The point of a position. On the sphere the x axis goes through latitude 0 and longitude 0,
the y axis through longitude `π / 2`, and the z axis through the north pole. -/
def project (projection : Projection) (p : Position3 α) : Vec α :=
  match projection with
  | equirectangular =>
      ⟨(p.longitude + Scalar.pi) / Scalar.twoPi,
        (p.latitude + Scalar.halfPi) / Scalar.twoPi, p.altitude⟩
  | sphere =>
      let radius := Earth.equatorialRadius + p.altitude
      ⟨radius * Scalar.cos p.latitude * Scalar.cos p.longitude,
        radius * Scalar.cos p.latitude * Scalar.sin p.longitude,
        radius * Scalar.sin p.latitude⟩
  | identity => ⟨p.longitude, p.latitude, p.altitude⟩

/-- The position of a point. The centre of the sphere has no direction and gets latitude 0 and
longitude 0. -/
def unproject (projection : Projection) (v : Vec α) : Position3 α :=
  match projection with
  | equirectangular =>
      ⟨⟨v.y * Scalar.twoPi - Scalar.halfPi, v.x * Scalar.twoPi - Scalar.pi⟩, v.z⟩
  | sphere =>
      let parallel := Scalar.hypot v.x v.y
      let slope := v.z / parallel
      if Scalar.isNaN slope then ⟨⟨0.0, 0.0⟩, -Earth.equatorialRadius⟩
      else
        ⟨⟨Scalar.atan slope, Scalar.atan2 v.y v.x⟩,
          Scalar.hypot parallel v.z - Earth.equatorialRadius⟩
  | identity => ⟨⟨v.y, v.x⟩, v.z⟩

end Projection

end TilePyramid
