import TilePyramid.Geo.Position

/-!
# The segments of a path

A path given by its vertices has a segment between each vertex and the next. A single vertex is a
segment of no length.
-/

namespace TilePyramid

/-- A piece of a path between two positions. -/
structure Segment (α : Type) where
  start : Position α
  stop : Position α
deriving Repr

namespace Segment

variable {α : Type}

/-- The segments from `start` along the given vertices. -/
def along (start : Position α) : List (Position α) → List (Segment α)
  | [] => []
  | next :: rest => ⟨start, next⟩ :: along next rest

/-- The segments of the path with the given vertices. -/
def ofVertices : List (Position α) → List (Segment α)
  | [] => []
  | [vertex] => [⟨vertex, vertex⟩]
  | first :: rest => along first rest

end Segment

end TilePyramid
