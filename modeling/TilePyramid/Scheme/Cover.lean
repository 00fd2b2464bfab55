import TilePyramid.Log
import TilePyramid.Scheme.Locate

/-!
# The tiles of a rectangle

`Scheme.cover` lists the tiles of a level that a rectangle meets, row by row from south to north
and from west to east in a row. Behind the last column a rectangle that crosses the antimeridian
goes on with the first one. Whether it crosses is decided on bounded corners, where an eastern
longitude of `π` is the same as `-π`.
-/

namespace TilePyramid.Scheme

variable {α : Type} [Scalar α]

/-- The tiles in which the corners of a rectangle lie, if both have one. -/
def cornerTiles? (s : Scheme) (r : Rectangle α) (level : Nat) : Option (Tile × Tile) :=
  let first := s.locate r.southWest.bounded level
  let last := s.locate r.northEast.bounded level
  if first.IsValid ∧ last.IsValid then some (first, last) else none

/-- The last column of a rectangle, counted on behind the last column of the level. A rectangle
that crosses the antimeridian and ends in the column in which it begins has every column once. -/
def lastColumn (columns first last : Nat) (crosses : Bool) : Nat :=
  if crosses then
    if first = last then last + (columns - 1) else last + columns
  else last

/-- The tiles between the tiles of two corners. -/
def tilesBetween (columns : Nat) (first last : Tile) (crosses : Bool) : List Tile :=
  let rows := List.range' first.row.toNat (last.row.toNat + 1 - first.row.toNat)
  let west := first.column.toNat
  let east := lastColumn columns west last.column.toNat crosses
  rows.flatMap fun row =>
    (List.range' west (east + 1 - west)).map fun column =>
      ⟨UInt32.ofNat row, UInt32.ofNat (column % columns), first.level⟩

/-- The tiles of `level` that a rectangle meets. An empty rectangle, and one with a corner that
has no tile, meets none. -/
def cover (s : Scheme) (r : Rectangle α) (level : Nat) : List Tile :=
  if r.isEmpty then []
  else
    match s.cornerTiles? r level with
    | none => []
    | some (first, last) =>
        tilesBetween (s.subdivision.size level).width.toNat first last
          (r.northEast.bounded.longitude < r.southWest.bounded.longitude)

/-- A rectangle has positions but no tiles, because one of its corners has none. -/
def lacksTiles (s : Scheme) (r : Rectangle α) (level : Nat) : Bool :=
  !r.isEmpty && (s.cornerTiles? r level).isNone

/-- The text of a position in a message about a rectangle. -/
def cornerText (p : Position Float) : String :=
  "GeoCoordinates \x7b latitude: " ++ Binary64.text .general p.latitude.toBits ++
    ", longitude: " ++ Binary64.text .general p.longitude.toBits ++ " \x7d"

/-- The message about a rectangle without tiles. -/
def coverMessage? (s : Scheme) (r : Rectangle Float) (level : Nat) : Option Message :=
  if s.lacksTiles r level then
    some ⟨.debug,
      "No tiles for rectangle GeoRectangle \x7b south_west: " ++ cornerText r.southWest ++
        ", north_east: " ++ cornerText r.northEast ++ " \x7d at level " ++ toString level⟩
  else none

end TilePyramid.Scheme
