import TilePyramid.Scalar

/-!
# Points and boxes in space

`Vec` is a point or a displacement in space with its arithmetic, `Box` a box whose sides are
parallel to the axes.
-/

namespace TilePyramid

/-- A point in space. -/
structure Vec (α : Type) where
  x : α
  y : α
  z : α
deriving Repr

namespace Vec

variable {α : Type} [Scalar α]

/-- The origin. -/
def zero : Vec α := ⟨0.0, 0.0, 0.0⟩

/-- The sum, coordinate by coordinate. -/
instance : Add (Vec α) := ⟨fun a b => ⟨a.x + b.x, a.y + b.y, a.z + b.z⟩⟩

/-- The difference, coordinate by coordinate. -/
instance : Sub (Vec α) := ⟨fun a b => ⟨a.x - b.x, a.y - b.y, a.z - b.z⟩⟩

/-- The product of every coordinate with a number. -/
instance : HMul (Vec α) α (Vec α) :=
  ⟨fun v factor => ⟨v.x * factor, v.y * factor, v.z * factor⟩⟩

/-- The quotient of every coordinate and a number. -/
instance : HDiv (Vec α) α (Vec α) :=
  ⟨fun v divisor => ⟨v.x / divisor, v.y / divisor, v.z / divisor⟩⟩

/-- The distance from the origin. -/
def length (v : Vec α) : α := Scalar.sqrt (v.x * v.x + v.y * v.y + v.z * v.z)

/-- All coordinates are equal as numbers. An undefined coordinate equals none. -/
def equal (a b : Vec α) : Bool :=
  Scalar.equal a.x b.x && Scalar.equal a.y b.y && Scalar.equal a.z b.z

end Vec

/-- A box given by its least and its greatest corner. -/
structure Box (α : Type) where
  minimum : Vec α
  maximum : Vec α
deriving Repr

namespace Box

variable {α : Type} [Scalar α]

/-- The corners are in the wrong order along some axis. -/
def isEmpty (b : Box α) : Bool :=
  b.maximum.x < b.minimum.x || b.maximum.y < b.minimum.y || b.maximum.z < b.minimum.z

/-- The lengths of the sides. -/
def size (b : Box α) : Vec α := b.maximum - b.minimum

/-- The middle of the box. -/
def center (b : Box α) : Vec α := (b.minimum + b.maximum) / (2.0 : α)

/-- The point lies in the box or on its boundary. -/
def contains (b : Box α) (point : Vec α) : Bool :=
  b.minimum.x ≤ point.x && point.x ≤ b.maximum.x &&
    b.minimum.y ≤ point.y && point.y ≤ b.maximum.y &&
    b.minimum.z ≤ point.z && point.z ≤ b.maximum.z

end Box

end TilePyramid
