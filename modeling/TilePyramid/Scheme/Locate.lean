import TilePyramid.Scheme.Basic

/-!
# The tile of a position

`Scheme.locate` finds the tile of a level in which a position lies, and `Scheme.tileBox` is the
box in space that a tile covers. A tile holds its western and its southern side. Its eastern and
its northern side belong to the next tile, but those of the world belong to the last one.
-/

namespace TilePyramid.Scheme

variable {α : Type} [Scalar α]

/-- The number of the cell, among `count` cells of equal length that make up `length`, in which
`offset` lies. An offset behind the last cell counts to it. -/
def cell (count : UInt32) (offset length : α) : UInt32 :=
  min (count - 1) (Scalar.toWord (Scalar.ofWord count * offset / length))

/-- The tile of `level` in which a point lies. A point outside the world has none. -/
def locatePoint (s : Scheme) (v : Vec α) (level : Nat) : Tile :=
  let world : Box α := s.projection.extent 0.0 0.0
  if v.x < world.minimum.x ∨ world.maximum.x < v.x then .invalid
  else if v.y < world.minimum.y ∨ world.maximum.y < v.y then .invalid
  else
    let size := s.subdivision.size level
    if size.width = 0 ∨ size.height = 0 then .invalid
    else
      ⟨cell size.height (v.y - world.minimum.y) world.size.y,
        cell size.width (v.x - world.minimum.x) world.size.x, UInt32.ofNat level⟩

/-- The tile of `level` in which a position lies. Levels below the deepest one have no tiles, and
a position that is undefined or outside the world has none. -/
def locate (s : Scheme) (p : Position α) (level : Nat) : Tile :=
  if maxLevel < level ∨ p.isValid = false then .invalid
  else s.locatePoint (s.projection.project ⟨p, 0.0⟩) level

/-- The box of a tile, at altitude 0. -/
def tileBox (s : Scheme) (t : Tile) : Box α :=
  let world : Box α := s.projection.extent 0.0 0.0
  let size := s.subdivision.size t.level.toNat
  let dx := world.size.x / Scalar.ofWord size.width
  let dy := world.size.y / Scalar.ofWord size.height
  let minimum :=
    world.minimum + (⟨Scalar.ofWord t.column * dx, Scalar.ofWord t.row * dy, 0.0⟩ : Vec α)
  ⟨minimum, minimum + (⟨dx, dy, 0.0⟩ : Vec α)⟩

end TilePyramid.Scheme
