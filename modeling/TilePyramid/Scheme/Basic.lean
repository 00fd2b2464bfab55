import TilePyramid.Subdivision
import TilePyramid.Projection

/-!
# Tiling schemes

A `Scheme` divides the world into tiles: a projection takes the world to a box, and a subdivision
cuts the box into columns and rows.
-/

namespace TilePyramid

/-- A subdivision of the world of a projection. -/
structure Scheme where
  subdivision : Subdivision
  projection : Projection

namespace Scheme

/-- The name of a scheme: the names of its parts. -/
def name (s : Scheme) : String := s.subdivision.name ++ "_" ++ s.projection.name

/-- The quad tree of a world that is one unit wide and half a unit high. -/
def quadTreeEquirectangular : Scheme := ⟨.quadTree, .equirectangular⟩

/-- The same world in square tiles. -/
def halfQuadTreeEquirectangular : Scheme := ⟨.halfQuadTree, .equirectangular⟩

/-- The quad tree of longitudes and latitudes. -/
def quadTreeIdentity : Scheme := ⟨.quadTree, .identity⟩

/-- The quad tree of the points of a sphere, seen along the axis through the poles. -/
def quadTreeSphere : Scheme := ⟨.quadTree, .sphere⟩

/-- The schemes that have a name of their own. -/
def predefined : List Scheme :=
  [quadTreeEquirectangular, halfQuadTreeEquirectangular, quadTreeIdentity, quadTreeSphere]

/-- The predefined scheme with the given name. -/
def ofName? (name : String) : Option Scheme :=
  predefined.find? fun scheme => scheme.name == name

end Scheme

end TilePyramid
