import TilePyramid.GridSize

/-!
# Lines of cells

A `Line` goes from one cell of a grid to another. It takes one cell on each step along its longer
side, the one nearest to the straight line, and widens each of them to a square. `Line.get` gives
the cells in their order: square by square, with the longer side of the line ascending.
-/

namespace TilePyramid

/-- A cell of a grid without bounds. -/
structure Cell where
  column : Int
  row : Int
deriving DecidableEq, Repr

/-- The cell with column and row exchanged. -/
def Cell.swapped (c : Cell) : Cell := ⟨c.row, c.column⟩

/-- A line between two cells, in the direction in which its longer side ascends. -/
structure Line where
  /-- The longer side goes along the rows, and columns stand for rows until the end. -/
  isSteep : Bool
  /-- The first cell. -/
  start : Cell
  /-- The number of steps along the longer side. -/
  length : Nat
  /-- The number of steps along the shorter side. -/
  rise : Nat
  /-- The shorter side descends. -/
  isFalling : Bool
  /-- The number of cells added on each side. -/
  radius : Nat
deriving DecidableEq, Repr

namespace Line

/-- The line between two cells whose columns are the longer side. -/
def flat (isSteep : Bool) (a b : Cell) (radius : Nat) : Line :=
  let start := if b.column < a.column then b else a
  let stop := if b.column < a.column then a else b
  { isSteep
    start
    length := (stop.column - start.column).natAbs
    rise := (stop.row - start.row).natAbs
    isFalling := stop.row < start.row
    radius }

/-- The line between two cells. -/
def between (a b : Cell) (radius : Nat) : Line :=
  if (b.column - a.column).natAbs < (b.row - a.row).natAbs then
    flat true a.swapped b.swapped radius
  else flat false a b radius

/-- The length of the side of a square. -/
def side (line : Line) : Nat := 2 * line.radius + 1

/-- The number of cells, those of overlapping squares counted for each square. -/
def size (line : Line) : Nat := (line.length + 1) * (line.side * line.side)

/-- The number of steps along the shorter side after `k` steps along the longer one: the whole
number nearest to `k * rise / length`, a half counting up. -/
def climb (line : Line) (k : Nat) : Nat :=
  (2 * k * line.rise + line.length) / (2 * line.length)

/-- The cell after `k` steps, before rows and columns are exchanged back. -/
def centre (line : Line) (k : Nat) : Cell :=
  let climb : Int := line.climb k
  ⟨line.start.column + k, if line.isFalling then line.start.row - climb else line.start.row + climb⟩

/-- The cell with number `index` of the widened line. -/
def get (line : Line) (index : Nat) : Cell :=
  let side := line.side
  let centre := line.centre (index / (side * side))
  let place := index % (side * side)
  -- The longer side counts slowly and the shorter side fast.
  let cell : Cell :=
    ⟨centre.column + (place / side : Nat) - line.radius,
      centre.row + (place % side : Nat) - line.radius⟩
  if line.isSteep then cell.swapped else cell

/-- All cells of the widened line. -/
def toList (line : Line) : List Cell := (List.range line.size).map line.get

end Line

end TilePyramid
