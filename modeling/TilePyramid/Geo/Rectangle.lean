import TilePyramid.Geo.Position

/-!
# Rectangles on the earth

A `Rectangle` lies between two latitudes and between two longitudes. One whose western longitude
is greater than its eastern one crosses the antimeridian. `Rectangle.contains` says which
positions it holds, `Rectangle.overlaps` when two of them share an area, `Rectangle.union` and
`Rectangle.growToContain` make them larger.
-/

namespace TilePyramid

/-- A rectangle with its south west and its north east corner. -/
structure Rectangle (α : Type) where
  southWest : Position α
  northEast : Position α
deriving Repr

namespace Rectangle

variable {α : Type} [Scalar α]

/-- The empty rectangle from which a bounding rectangle grows. -/
def empty : Rectangle α :=
  ⟨⟨Scalar.halfPi, Scalar.pi⟩, ⟨-Scalar.halfPi, -Scalar.pi⟩⟩

/-- The rectangle of all positions. -/
def world : Rectangle α :=
  ⟨⟨-Scalar.halfPi, -Scalar.pi⟩, ⟨Scalar.halfPi, Scalar.pi⟩⟩

/-- The least latitude. -/
def south (r : Rectangle α) : α := r.southWest.latitude

/-- The greatest latitude. -/
def north (r : Rectangle α) : α := r.northEast.latitude

/-- The longitude at which the rectangle begins. -/
def west (r : Rectangle α) : α := r.southWest.longitude

/-- The longitude at which the rectangle ends. -/
def east (r : Rectangle α) : α := r.northEast.longitude

/-- The south east corner. -/
def southEast (r : Rectangle α) : Position α := ⟨r.south, r.east⟩

/-- The north west corner. -/
def northWest (r : Rectangle α) : Position α := ⟨r.north, r.west⟩

/-- The difference of the latitudes, which is negative for an empty rectangle. -/
def latitudeSpan (r : Rectangle α) : α := r.north - r.south

/-- The angle from the western to the eastern longitude, across the antimeridian if need be. -/
def longitudeSpan (r : Rectangle α) : α :=
  let width := r.east - r.west
  if width < 0.0 then width + Scalar.twoPi else width

/-- The rectangle has no position. -/
def isEmpty (r : Rectangle α) : Bool := r.latitudeSpan < 0.0

/-- The position in the middle. Whatever is not west before east is taken to cross the antimeridian.
That is too much: a rectangle with equal longitudes does not cross it, and its `longitudeSpan` is
zero, but here its middle is on the far side of the earth. -/
def center (r : Rectangle α) : Position α :=
  let latitude := (r.south + r.north) * 0.5
  if r.west < r.east then ⟨latitude, (r.west + r.east) * 0.5⟩
  else
    ⟨latitude,
      Scalar.wrap ((Scalar.twoPi + r.east + r.west) * 0.5) (-Scalar.pi) Scalar.pi⟩

/-- The position lies in the rectangle or on its boundary. Outside a rectangle that crosses the
antimeridian is the wedge between its eastern and its western longitude. A rectangle with equal
longitudes, which does not cross it, is taken for one that does, as in `center`: positions at every
longitude are found inside instead of those on the one meridian only. -/
def contains (r : Rectangle α) (p : Position α) : Bool :=
  if p.latitude < r.south ∨ r.north < p.latitude then false
  else if r.west < r.east then r.west ≤ p.longitude && p.longitude ≤ r.east
  else r.west ≤ p.longitude || p.longitude ≤ r.east

/-- The longitude at which the rectangle ends, counted on beyond the antimeridian if the
rectangle crosses it. -/
def unwrappedEast (r : Rectangle α) : α :=
  if r.east ≤ r.west then r.west + r.longitudeSpan else r.east

/-- The rectangles share an area, each with its longitudes counted on to the east from its western
side. Rectangles that only touch do not. -/
def overlaps (r s : Rectangle α) : Bool :=
  if s.north ≤ r.south ∨ r.north ≤ s.south then false
  else !(decide (s.unwrappedEast ≤ r.west) || decide (r.unwrappedEast ≤ s.west))

/-- A rectangle that contains both. If it reaches beyond the antimeridian, its eastern longitude
is wrapped around and stays west of the western one. -/
def union (r s : Rectangle α) : Rectangle α :=
  if r.isEmpty then s
  else if s.isEmpty then r
  else
    let west := Scalar.min r.west s.west
    let furthest := Scalar.max r.unwrappedEast s.unwrappedEast
    let east :=
      -- The turn is taken off again, but the side may not come to lie on the western one.
      if Scalar.pi < furthest then
        Scalar.min (furthest - Scalar.twoPi) (Scalar.nextAfter west (west - 1.0))
      else furthest
    ⟨⟨Scalar.min r.south s.south, west⟩, ⟨Scalar.max r.north s.north, east⟩⟩

/-- The rectangle with each of its sides moved outwards as far as the position needs. The
antimeridian is an edge of the world here. -/
def growToContain (r : Rectangle α) (p : Position α) : Rectangle α :=
  ⟨⟨if p.latitude < r.south then p.latitude else r.south,
      if p.longitude < r.west then p.longitude else r.west⟩,
    ⟨if r.north < p.latitude then p.latitude else r.north,
      if r.east < p.longitude then p.longitude else r.east⟩⟩

/-- The corners of both rectangles are equal but for a rounding error. -/
def isClose (r s : Rectangle α) : Bool :=
  r.southWest.isClose s.southWest && r.northEast.isClose s.northEast

end Rectangle

end TilePyramid
