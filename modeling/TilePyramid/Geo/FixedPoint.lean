import TilePyramid.Geo.Position

/-!
# Fixed point positions

A position in two words. Both words count steps of the same length, of which `2 ^ 32 - 1` make a
full turn, from longitude `-π` and from the south pole.
-/

namespace TilePyramid

/-- A position as the number of steps to the east and to the north. -/
structure FixedPoint where
  x : UInt32
  y : UInt32
deriving DecidableEq, Repr

namespace FixedPoint

/-- The position at the south west corner of the world. -/
def zero : FixedPoint := ⟨0, 0⟩

/-- The sum of the steps, which wraps around. -/
instance : Add FixedPoint := ⟨fun p q => ⟨p.x + q.x, p.y + q.y⟩⟩

variable {α : Type} [Scalar α]

/-- The number of steps of a full turn. -/
def fullTurn : α := Scalar.ofWord 0xFFFFFFFF

/-- The position that lies the given steps from the south west corner. -/
def toPosition (p : FixedPoint) : Position α :=
  let step : α := Scalar.twoPi / fullTurn
  ⟨Scalar.ofWord p.y * step - Scalar.halfPi, Scalar.ofWord p.x * step - Scalar.pi⟩

/-- The steps that lead nearest to a position. -/
def ofPosition (p : Position α) : FixedPoint :=
  let q := p.normalized
  let steps : α := fullTurn / Scalar.twoPi
  ⟨Scalar.toWord (Scalar.round ((q.longitude + Scalar.pi) * steps)),
    Scalar.toWord (Scalar.round ((q.latitude + Scalar.halfPi) * steps))⟩

end FixedPoint

end TilePyramid
