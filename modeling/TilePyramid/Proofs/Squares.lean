import Mathlib
import TilePyramid.Proofs.Line

/-!
# The squares of a widened line

A `Brush` draws a widened line cell by cell. It goes over the square around the cell at which its
pen stands, and behind the last cell of the square it moves the pen on. What it draws are the cells
of `Line.toList` in their order (`Line.draws_toList`), square by square. The squares are centred on
cells that trace the line between its ends (`Line.traces_middle`).
-/

namespace TilePyramid

/-- Where the drawing of a widened line stands: the pen at the centre of a square, and the offsets
of the next cell of the square from that centre. -/
structure Brush where
  pen : Pen
  along : Int
  across : Int

namespace Line

/-! ## The brush -/

/-- The brush at the first cell of a line. -/
def brush (line : Line) : Brush := ⟨⟨line.start, 0⟩, -line.radius, -line.radius⟩

/-- The pen moved on by one step along the longer side. -/
def advance (line : Line) (pen : Pen) : Pen :=
  pen.advance line.length line.rise (if line.isFalling then -1 else 1)

/-- The brush moved on by one cell. Behind the last cell of a square the pen is moved on. -/
def move (line : Line) (brush : Brush) : Brush :=
  if brush.across + 1 ≤ line.radius then ⟨brush.pen, brush.along, brush.across + 1⟩
  else if brush.along + 1 ≤ line.radius then ⟨brush.pen, brush.along + 1, -line.radius⟩
  else ⟨line.advance brush.pen, -line.radius, -line.radius⟩

/-- The cell at which the brush stands and the brush moved on, or nothing behind the end of the
line. -/
def draw (line : Line) (brush : Brush) : Option Cell × Brush :=
  if line.start.column + line.length < brush.pen.cell.column then (none, brush)
  else
    (some (line.turned ⟨brush.pen.cell.column + brush.along, brush.pen.cell.row + brush.across⟩),
      line.move brush)

/-- Drawing gives the cells of a list one after the other, and nothing for ever behind the last of
them. -/
inductive Draws (line : Line) : Brush → List Cell → Prop where
  | nil {brush} (h : line.draw brush = (none, brush)) : Draws line brush []
  | cons {brush behind cell cells} (h : line.draw brush = (some cell, behind))
      (hrest : Draws line behind cells) : Draws line brush (cell :: cells)

variable {line : Line} {pen : Pen} {rest : List Cell}

theorem Draws.of_move {along across : Int}
    (hpen : pen.cell.column ≤ line.start.column + line.length)
    (h : line.Draws (line.move ⟨pen, along, across⟩) rest) :
    line.Draws ⟨pen, along, across⟩
      (line.turned ⟨pen.cell.column + along, pen.cell.row + across⟩ :: rest) :=
  .cons (if_neg hpen.not_gt) h

/-- From the cell with number `v` on, the brush draws the rest of a column of a square. -/
theorem Draws.column {along : Int} (hpen : pen.cell.column ≤ line.start.column + line.length)
    (h : line.Draws (line.move ⟨pen, along, line.radius⟩) rest) {v left : Nat}
    (hv : v + left = 2 * line.radius) :
    line.Draws ⟨pen, along, v - line.radius⟩
      (((List.range' v (left + 1)).map fun v : Nat =>
        line.turned ⟨pen.cell.column + along, pen.cell.row + (v - line.radius)⟩) ++ rest) := by
  induction left generalizing v with
  | zero =>
      have hlast : (v : Int) - line.radius = line.radius := by omega
      rw [List.range'_succ, List.range'_zero, List.map_singleton, List.singleton_append, hlast]
      exact h.of_move hpen
  | succ left ih =>
      have hrest := ih (v := v + 1) (by omega)
      have hmove : line.move ⟨pen, along, v - line.radius⟩ =
          ⟨pen, along, (v + 1 : Nat) - line.radius⟩ := by
        rw [move, if_pos (by simp only; omega)]
        congr 1
        push_cast
        ring
      rw [List.range'_succ, List.map_cons, List.cons_append]
      exact .of_move hpen (hmove ▸ hrest)

/-- From the column with number `u` on, the brush draws the rest of a square. -/
theorem Draws.columns (hpen : pen.cell.column ≤ line.start.column + line.length)
    (h : line.Draws ⟨line.advance pen, -line.radius, -line.radius⟩ rest) {u left : Nat}
    (hu : u + left = 2 * line.radius) :
    line.Draws ⟨pen, u - line.radius, -line.radius⟩
      (((List.range' u (left + 1)).flatMap fun u : Nat =>
        (List.range (2 * line.radius + 1)).map fun v : Nat =>
          line.turned
            ⟨pen.cell.column + (u - line.radius), pen.cell.row + (v - line.radius)⟩) ++ rest) := by
  have hfirst : (-line.radius : Int) = (0 : Nat) - line.radius := by
    rw [Nat.cast_zero, zero_sub]
  induction left generalizing u with
  | zero =>
      have hmove : line.move ⟨pen, u - line.radius, line.radius⟩ =
          ⟨line.advance pen, -line.radius, -line.radius⟩ := by
        rw [move, if_neg (by simp only; omega), if_neg (by simp only; omega)]
      rw [List.range'_succ, List.range'_zero, List.flatMap_singleton, List.range_eq_range', hfirst]
      exact .column hpen (hmove ▸ h) (Nat.zero_add _)
  | succ left ih =>
      have hrest := ih (u := u + 1) (by omega)
      have hmove : line.move ⟨pen, u - line.radius, line.radius⟩ =
          ⟨pen, (u + 1 : Nat) - line.radius, -line.radius⟩ := by
        rw [move, if_neg (by simp only; omega), if_pos (by simp only; omega)]
        congr 1
        push_cast
        ring
      rw [List.range'_succ, List.flatMap_cons, List.append_assoc, List.range_eq_range', hfirst]
      rw [List.range_eq_range'] at hrest
      exact .column hpen (hmove ▸ hrest) (Nat.zero_add _)

/-- Around a cell of the line the brush draws the square. -/
theorem Draws.square (hpen : pen.cell.column ≤ line.start.column + line.length)
    (h : line.Draws ⟨line.advance pen, -line.radius, -line.radius⟩ rest) :
    line.Draws ⟨pen, -line.radius, -line.radius⟩
      ((pen.cell.square line.radius).map line.turned ++ rest) := by
  have hcolumns := Draws.columns hpen h (Nat.zero_add _)
  rw [← List.range_eq_range', Nat.cast_zero, zero_sub] at hcolumns
  simpa only [Cell.square, List.map_flatMap, List.map_map, Function.comp_def] using hcolumns

theorem column_advance (line : Line) (pen : Pen) :
    (line.advance pen).cell.column = pen.cell.column + 1 := by
  unfold advance Pen.advance
  dsimp only
  split <;> rfl

/-- From the centre with number `k` on, the brush draws the squares around the rest of the
centres. -/
theorem Draws.squares (hrise : line.rise ≤ line.length) {k left : Nat}
    (hk : k + left = line.length) :
    line.Draws ⟨⟨line.centre k, line.error k⟩, -line.radius, -line.radius⟩
      ((List.range' k (left + 1)).flatMap fun k =>
        ((line.centre k).square line.radius).map line.turned) := by
  induction left generalizing k with
  | zero =>
      -- Behind the last centre the pen stands behind the end of the line.
      have hend : line.start.column + line.length <
          (line.advance ⟨line.centre k, line.error k⟩).cell.column := by
        rw [column_advance]
        show line.start.column + line.length < line.start.column + k + 1
        omega
      have hpen : (line.centre k).column ≤ line.start.column + line.length := by
        show line.start.column + k ≤ _
        omega
      have hsquare := Draws.square hpen (.nil (if_pos hend))
      rw [List.append_nil] at hsquare
      rwa [List.range'_succ, List.range'_zero, List.flatMap_singleton]
  | succ left ih =>
      have hnext : line.advance ⟨line.centre k, line.error k⟩ =
          ⟨line.centre (k + 1), line.error (k + 1)⟩ := by
        rw [← advance_iterate hrise (show k + 1 ≤ line.length by omega),
          Function.iterate_succ_apply', advance_iterate hrise (show k ≤ line.length by omega)]
        rfl
      rw [List.range'_succ, List.flatMap_cons]
      refine .square (show line.start.column + k ≤ _ by omega) ?_
      rw [hnext]
      exact ih (by omega)

/-- The brush draws the cells of a line whose first side is the longer one. -/
theorem draws_toList (hrise : line.rise ≤ line.length) : line.Draws line.brush line.toList := by
  have hsquares := Draws.squares hrise (Nat.zero_add line.length)
  have herror : line.error 0 = 0 := by
    simp [error, climb_zero]
  have hstart : line.centre 0 = line.start := by
    simp [centre, climb_zero]
  rw [herror, hstart, ← List.range_eq_range', ← toList_eq_flatMap] at hsquares
  exact hsquares

/-! ## Blocks -/

/-- The cells of square `k` of a widened line. -/
def block (line : Line) (k : Nat) : List Cell :=
  ((line.centre k).square line.radius).map line.turned

/-- The cell on which square `k` of a widened line is centred. -/
def middle (line : Line) (k : Nat) : Cell := line.turned (line.centre k)

theorem length_block (line : Line) (k : Nat) :
    (line.block k).length = (2 * line.radius + 1) ^ 2 := by
  rw [block, List.length_map, Cell.length_square]

theorem nodup_block (line : Line) (k : Nat) : (line.block k).Nodup :=
  (Cell.nodup_square _ _).map fun c d h => by
    rw [← line.turned_turned c, h, turned_turned]

/-- A square holds the cells within the radius of its middle. -/
theorem mem_block_iff {line : Line} {k : Nat} {c : Cell} :
    c ∈ line.block k ↔ c.distance (line.middle k) ≤ line.radius := by
  rw [block, List.mem_map]
  constructor
  · rintro ⟨d, hd, rfl⟩
    rw [middle, distance_turned]
    exact Cell.mem_square_iff.1 hd
  · intro h
    refine ⟨line.turned c, Cell.mem_square_iff.2 ?_, line.turned_turned c⟩
    rwa [← line.distance_turned, turned_turned]

/-! ## Lines between cells -/

theorem flat_comm {isSteep : Bool} {a b : Cell} (radius : Nat)
    (h : (b.row - a.row).natAbs ≤ (b.column - a.column).natAbs) :
    flat isSteep b a radius = flat isSteep a b radius := by
  rcases lt_trichotomy a.column b.column with hlt | heq | hgt
  · simp only [flat, if_pos hlt, if_neg hlt.not_gt]
  · -- The line is a single cell.
    have hsame : a = b := by
      cases a
      cases b
      simp only [Cell.mk.injEq] at heq h ⊢
      omega
    rw [hsame]
  · simp only [flat, if_pos hgt, if_neg hgt.not_gt]

/-- A line along the columns begins at the western one of its ends and finishes at the other. -/
theorem centre_flat_of_le (isSteep : Bool) {a b : Cell} (radius : Nat)
    (h : (b.row - a.row).natAbs ≤ (b.column - a.column).natAbs) (heast : a.column ≤ b.column) :
    (flat isSteep a b radius).centre 0 = a ∧
      (flat isSteep a b radius).centre (b.column - a.column).natAbs = b := by
  have hlength := length_flat isSteep a b radius
  have hrise := rise_flat isSteep a b radius
  have hclimb : (flat isSteep a b radius).climb (flat isSteep a b radius).length = _ :=
    climb_length (by omega)
  have hstart : (flat isSteep a b radius).start = a := if_neg heast.not_gt
  have hfalling : (flat isSteep a b radius).isFalling = decide (b.row < a.row) := by
    simp only [flat, if_neg heast.not_gt]
  rw [hlength] at hclimb
  simp only [centre, climb_zero, hclimb, hrise, hstart, hfalling, decide_eq_true_eq]
  constructor
  · simp
  · obtain ⟨column, row⟩ := b
    simp only [Cell.mk.injEq] at heast ⊢
    constructor
    · omega
    · split <;> omega

/-- The ends of a line along the columns are its first and its last centre. -/
theorem centre_flat_ends (isSteep : Bool) {a b : Cell} (radius : Nat)
    (h : (b.row - a.row).natAbs ≤ (b.column - a.column).natAbs) :
    let line := flat isSteep a b radius
    line.centre 0 = a ∧ line.centre (b.column - a.column).natAbs = b ∨
      line.centre 0 = b ∧ line.centre (b.column - a.column).natAbs = a := by
  rcases le_total a.column b.column with heast | hwest
  · exact .inl (centre_flat_of_le isSteep radius h heast)
  · have hcolumns : (b.column - a.column).natAbs = (a.column - b.column).natAbs := by omega
    rw [← flat_comm radius h, hcolumns]
    exact .inr (centre_flat_of_le isSteep radius (by omega) hwest)

/-- A line goes in the direction in which its longer side ascends, whichever end is named first. -/
theorem between_comm (a b : Cell) (radius : Nat) : between b a radius = between a b radius := by
  have hcolumns : (a.column - b.column).natAbs = (b.column - a.column).natAbs := by omega
  have hrows : (a.row - b.row).natAbs = (b.row - a.row).natAbs := by omega
  unfold between
  rw [hcolumns, hrows]
  split
  · rename_i hsteep
    exact flat_comm radius hsteep.le
  · rename_i hflat
    exact flat_comm radius (Nat.not_lt.1 hflat)

end Line

namespace Cell

/-- The coordinate of `c` along the longer side of the line between `a` and `b`. -/
def lengthwise (a b c : Cell) : Int :=
  if (b.column - a.column).natAbs < (b.row - a.row).natAbs then c.row else c.column

/-- The coordinate of `c` along the shorter side of the line between `a` and `b`. -/
def crosswise (a b c : Cell) : Int :=
  if (b.column - a.column).natAbs < (b.row - a.row).natAbs then c.column else c.row

/-- Cells that lead from one end of a line to the other as straight as cells can. -/
structure Traces (a b : Cell) (centre : Nat → Cell) : Prop where
  /-- The first cell is one end of the line and the last one the other. -/
  ends : centre 0 = a ∧ centre (a.distance b) = b ∨ centre 0 = b ∧ centre (a.distance b) = a
  /-- Along the longer side every cell is one step further. -/
  lengthwise_succ : ∀ k < a.distance b,
    lengthwise a b (centre (k + 1)) = lengthwise a b (centre k) + 1
  /-- Along the shorter side every cell is at most one step further, always in one direction. -/
  crosswise_succ : ∃ step : Int, |step| = 1 ∧ ∀ k < a.distance b,
    crosswise a b (centre (k + 1)) = crosswise a b (centre k) ∨
      crosswise a b (centre (k + 1)) = crosswise a b (centre k) + step
  /-- The steps taken along the shorter side are at most half a step off the straight line. -/
  nearest : ∀ k ≤ a.distance b,
    |2 * (k * |crosswise a b b - crosswise a b a| -
      |crosswise a b (centre k) - crosswise a b (centre 0)| * a.distance b)| ≤ a.distance b

end Cell

namespace Line

section
variable (a b : Cell) (radius : Nat)

theorem length_between : (between a b radius).length = a.distance b := by
  unfold between Cell.distance
  split
  · rw [length_flat]
    simp only [Cell.swapped]
    omega
  · rw [length_flat]
    omega

theorem rise_between :
    ((between a b radius).rise : Int) = |Cell.crosswise a b b - Cell.crosswise a b a| := by
  unfold between Cell.crosswise
  split
  · rw [rise_flat]
    exact Int.natCast_natAbs _
  · rw [rise_flat]
    exact Int.natCast_natAbs _

theorem lengthwise_turned (c : Cell) :
    Cell.lengthwise a b ((between a b radius).turned c) = c.column := by
  unfold between Cell.lengthwise
  split <;> rfl

theorem crosswise_turned (c : Cell) :
    Cell.crosswise a b ((between a b radius).turned c) = c.row := by
  unfold between Cell.crosswise
  split <;> rfl

theorem rise_between_le : (between a b radius).rise ≤ (between a b radius).length := by
  unfold between
  split
  · rename_i hsteep
    rw [length_flat, rise_flat]
    exact hsteep.le
  · rename_i hflat
    rw [length_flat, rise_flat]
    exact Nat.not_lt.1 hflat

/-- The first and the last square of the line between two cells are centred on these. -/
theorem middle_between_ends :
    let line := between a b radius
    line.middle 0 = a ∧ line.middle line.length = b ∨
      line.middle 0 = b ∧ line.middle line.length = a := by
  intro line
  by_cases hsteep : (b.column - a.column).natAbs < (b.row - a.row).natAbs
  · have hline : line = flat true a.swapped b.swapped radius := if_pos hsteep
    rw [hline, length_flat, middle, middle]
    rcases centre_flat_ends true (a := a.swapped) (b := b.swapped) radius hsteep.le with
      ⟨hfirst, hlast⟩ | ⟨hfirst, hlast⟩
    · exact .inl ⟨congrArg Cell.swapped hfirst, congrArg Cell.swapped hlast⟩
    · exact .inr ⟨congrArg Cell.swapped hfirst, congrArg Cell.swapped hlast⟩
  · have hline : line = flat false a b radius := if_neg hsteep
    rw [hline, length_flat]
    exact centre_flat_ends false radius (Nat.not_lt.1 hsteep)

theorem middle_mem_bresenham {k : Nat} (hk : k ≤ (between a b radius).length) :
    (between a b radius).middle k ∈ bresenham a b := by
  rw [← centres_between a b radius]
  exact List.mem_map_of_mem (List.mem_range.2 (Nat.lt_succ_of_le hk))

end

/-- A line goes through both of its ends. -/
theorem ends_mem_bresenham (a b : Cell) : a ∈ bresenham a b ∧ b ∈ bresenham a b := by
  have hfirst := middle_mem_bresenham a b 0 (Nat.zero_le _)
  have hlast := middle_mem_bresenham a b 0 le_rfl
  rcases middle_between_ends a b 0 with ⟨hstart, hstop⟩ | ⟨hstop, hstart⟩
  · rw [hstart] at hfirst
    rw [hstop] at hlast
    exact ⟨hfirst, hlast⟩
  · rw [hstop] at hfirst
    rw [hstart] at hlast
    exact ⟨hlast, hfirst⟩

/-- The rows of a line lie the steps of its shorter side away from its first row. -/
theorem abs_row_centre_sub (line : Line) (k : Nat) :
    |(line.centre k).row - (line.centre 0).row| = line.climb k := by
  simp only [centre, climb_zero, Nat.cast_zero, sub_zero, add_zero, ite_self]
  split
  · rw [sub_sub_cancel_left, abs_neg, Nat.abs_cast]
  · rw [add_sub_cancel_left, Nat.abs_cast]

/-- The squares of the line between two cells are centred on cells that trace it. -/
theorem traces_middle (a b : Cell) (radius : Nat) :
    Cell.Traces a b (between a b radius).middle where
  ends := by
    rw [← length_between a b radius]
    exact middle_between_ends a b radius
  lengthwise_succ := by
    intro k _
    rw [middle, middle, lengthwise_turned, lengthwise_turned]
    simp only [centre]
    push_cast
    ring
  crosswise_succ := by
    refine ⟨if (between a b radius).isFalling then -1 else 1, by split <;> rfl, ?_⟩
    intro k hk
    rw [← length_between a b radius] at hk
    have hclimb := climb_succ (by omega) (rise_between_le a b radius) k
    rw [middle, middle, crosswise_turned, crosswise_turned]
    simp only [centre]
    split at hclimb
    · right
      rw [hclimb]
      split <;> push_cast <;> ring
    · left
      rw [hclimb]
  nearest := by
    intro k hk
    rw [← length_between a b radius] at hk ⊢
    rw [← rise_between a b radius, middle, middle, crosswise_turned, crosswise_turned,
      abs_row_centre_sub]
    exact abs_error_le hk

/-- The line between two cells. A brush draws its cells and then nothing for ever. They are one
square behind another, as many as the ends lie apart and one more, and each holds every cell within
the radius of its middle once. The middles trace the line from one end to the other. Which end is
named first makes no difference. -/
theorem between_draws_squares (a b : Cell) (radius : Nat) :
    let line := between a b radius
    line.Draws line.brush line.toList ∧
      line.toList.length = (a.distance b + 1) * (2 * radius + 1) ^ 2 ∧
      line.toList = (List.range (a.distance b + 1)).flatMap line.block ∧
      (∀ k, (line.block k).length = (2 * radius + 1) ^ 2 ∧ (line.block k).Nodup ∧
        ∀ c, c ∈ line.block k ↔ c.distance (line.middle k) ≤ radius) ∧
      Cell.Traces a b line.middle ∧
      between b a radius = line := by
  intro line
  have hradius : line.radius = radius := radius_between a b radius
  have hblocks : line.toList = (List.range (a.distance b + 1)).flatMap line.block := by
    rw [← length_between a b radius]
    exact toList_eq_flatMap line
  refine ⟨draws_toList (rise_between_le a b radius), ?_, hblocks, fun k => ⟨?_, nodup_block line k,
    fun c => ?_⟩, traces_middle a b radius, between_comm a b radius⟩
  · rw [hblocks, List.length_flatMap]
    simp [length_block, hradius]
  · rw [length_block, hradius]
  · rw [mem_block_iff, hradius]

example : (between ⟨5, 2⟩ ⟨0, 0⟩ 0).toList =
    [⟨0, 0⟩, ⟨1, 0⟩, ⟨2, 1⟩, ⟨3, 1⟩, ⟨4, 2⟩, ⟨5, 2⟩] := by decide

end Line

end TilePyramid
