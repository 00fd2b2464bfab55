import Mathlib
import TilePyramid.Path.Line

/-!
# Lines and Bresenham's algorithm

`Line.centre` computes each cell of a line by a division. `bresenham` is the same line walked cell
by cell with an error term in place of the division, and `Line.centres_between` says that they
agree. The invariant of the walk is `Line.climb_succ`: the shorter side takes a step exactly when
the error reaches half a step. A widened line goes over the squares around these cells
(`Line.toList_eq_flatMap`), so it holds the cells within a distance of them
(`Line.mem_toList_between_iff`).
-/

namespace TilePyramid

/-- The number of steps, diagonal ones included, from one cell to another. -/
def Cell.distance (a b : Cell) : Nat :=
  max (a.column - b.column).natAbs (a.row - b.row).natAbs

theorem Cell.distance_self (c : Cell) : c.distance c = 0 := by
  simp [distance]

theorem Cell.distance_swapped (a b : Cell) : a.swapped.distance b.swapped = a.distance b :=
  Nat.max_comm _ _

namespace Cell

/-- The square around a cell, column by column from the south west. -/
def square (c : Cell) (radius : Nat) : List Cell :=
  (List.range (2 * radius + 1)).flatMap fun u : Nat =>
    (List.range (2 * radius + 1)).map fun v : Nat => ⟨c.column + (u - radius), c.row + (v - radius)⟩

variable {c d : Cell} {radius : Nat}

/-- The square around a cell holds the cells within its radius. -/
theorem mem_square_iff : d ∈ c.square radius ↔ d.distance c ≤ radius := by
  simp only [square, List.mem_flatMap, List.mem_map, List.mem_range]
  constructor
  · rintro ⟨u, hu, v, hv, rfl⟩
    apply max_le
    · show (c.column + (u - radius) - c.column).natAbs ≤ radius
      omega
    · show (c.row + (v - radius) - c.row).natAbs ≤ radius
      omega
  · intro h
    obtain ⟨hcolumn, hrow⟩ := max_le_iff.1 h
    have hu : c.column + ((d.column - c.column + radius).toNat - radius) = d.column := by omega
    have hv : c.row + ((d.row - c.row + radius).toNat - radius) = d.row := by omega
    refine ⟨_, ?_, _, ?_, by rw [hu, hv]⟩ <;> omega

theorem length_square (c : Cell) (radius : Nat) :
    (c.square radius).length = (2 * radius + 1) ^ 2 := by
  simp [square, List.length_flatMap, sq]

theorem nodup_square (c : Cell) (radius : Nat) : (c.square radius).Nodup := by
  rw [square, List.nodup_flatMap]
  refine ⟨fun u _ => List.nodup_range.map fun v w h => ?_, List.nodup_range.imp ?_⟩
  · have hrow := congrArg Cell.row h
    simp only at hrow
    omega
  · intro u w hne d hu hw
    obtain ⟨v, -, rfl⟩ := List.mem_map.1 hu
    obtain ⟨x, -, h⟩ := List.mem_map.1 hw
    have hcolumn := congrArg Cell.column h
    simp only at hcolumn
    omega

end Cell

/-- Where Bresenham's algorithm stands: at a cell, with an error that says how far the straight line
has risen above it. -/
structure Pen where
  cell : Cell
  error : Int

/-- One step along the longer side. Where the error reaches half a step, the shorter side takes a
step too, which takes a whole step off the error. -/
def Pen.advance (length rise step : Int) (pen : Pen) : Pen :=
  let error := pen.error + rise
  if length ≤ 2 * error then
    ⟨⟨pen.cell.column + 1, pen.cell.row + step⟩, error - length⟩
  else ⟨⟨pen.cell.column + 1, pen.cell.row⟩, error⟩

/-- The cells of Bresenham's line along the columns, from `a` to a cell `b` that does not lie to the
west of it. -/
def bresenhamEast (a b : Cell) : List Cell :=
  let step := if b.row < a.row then -1 else 1
  (List.range ((b.column - a.column).natAbs + 1)).map fun k =>
    ((Pen.advance (b.column - a.column).natAbs (b.row - a.row).natAbs step)^[k] ⟨a, 0⟩).cell

/-- The cells of Bresenham's line along the columns, from the western of two cells. -/
def bresenhamFlat (a b : Cell) : List Cell :=
  if b.column < a.column then bresenhamEast b a else bresenhamEast a b

/-- The cells of Bresenham's line between two cells, along the longer side in the direction in which
it ascends. -/
def bresenham (a b : Cell) : List Cell :=
  if (b.column - a.column).natAbs < (b.row - a.row).natAbs then
    (bresenhamFlat a.swapped b.swapped).map Cell.swapped
  else bresenhamFlat a b

/-- The numbers below a product are those below its first factor, each with a row of numbers behind
it. -/
theorem range_mul (m n : Nat) :
    List.range (m * n) = (List.range m).flatMap fun k => (List.range n).map (k * n + ·) := by
  induction m with
  | zero => simp
  | succ m ih =>
      rw [Nat.succ_mul, List.range_add, ih, List.range_succ, List.flatMap_append,
        List.flatMap_singleton]

namespace Line

/-- A cell with rows and columns exchanged where the line is steep. -/
def turned (line : Line) (c : Cell) : Cell :=
  if line.isSteep then c.swapped else c

@[simp] theorem turned_turned (line : Line) (c : Cell) : line.turned (line.turned c) = c := by
  unfold turned
  split <;> rfl

theorem distance_turned (line : Line) (a b : Cell) :
    (line.turned a).distance (line.turned b) = a.distance b := by
  unfold turned
  split
  · exact Cell.distance_swapped a b
  · rfl

/-! ## The shorter side

After `k` steps the straight line stands `k * rise / length` steps high. -/

theorem climb_zero (line : Line) : line.climb 0 = 0 := by
  simp only [climb, Nat.mul_zero, Nat.zero_mul, Nat.zero_add]
  rcases Nat.eq_zero_or_pos line.length with hlength | hlength
  · rw [hlength, Nat.zero_div]
  · exact Nat.div_eq_of_lt (by omega)

/-- The steps taken along the shorter side are at most half a step above the straight line. -/
theorem climb_lower (line : Line) (k : Nat) :
    2 * line.length * line.climb k ≤ 2 * k * line.rise + line.length :=
  Nat.mul_div_le _ _

/-- The steps taken along the shorter side are less than half a step below the straight line. -/
theorem climb_upper {line : Line} (hlength : 0 < line.length) (k : Nat) :
    2 * k * line.rise + line.length < 2 * line.length * (line.climb k + 1) :=
  Nat.lt_mul_div_succ _ (by omega)

theorem climb_eq {line : Line} {k m : Nat}
    (hlower : 2 * line.length * m ≤ 2 * k * line.rise + line.length)
    (hupper : 2 * k * line.rise + line.length < 2 * line.length * (m + 1)) :
    line.climb k = m :=
  Nat.div_eq_of_lt_le (by linarith) (by linarith)

/-- On its whole length a line climbs its whole rise. -/
theorem climb_length {line : Line} (hrise : line.rise ≤ line.length) :
    line.climb line.length = line.rise := by
  rcases Nat.eq_zero_or_pos line.length with hlength | hlength
  · rw [hlength, climb_zero]
    omega
  · apply climb_eq
    · linarith
    · linarith

/-- The height of the straight line above the cell after `k` steps, in parts of a step. -/
def error (line : Line) (k : Nat) : Int :=
  k * line.rise - line.climb k * line.length

/-- The climb of a line stays within half a step of the straight line. -/
theorem abs_error_le {line : Line} {k : Nat} (hk : k ≤ line.length) :
    |2 * line.error k| ≤ line.length := by
  rcases Nat.eq_zero_or_pos line.length with hlength | hlength
  · obtain rfl : k = 0 := by omega
    simp [error, climb_zero]
  · have hlower : 2 * (line.length : Int) * line.climb k ≤ 2 * k * line.rise + line.length := by
      exact_mod_cast line.climb_lower k
    have hupper : 2 * (k : Int) * line.rise + line.length <
        2 * line.length * (line.climb k + 1) := by
      exact_mod_cast climb_upper hlength k
    rw [error, abs_le]
    constructor <;> linarith

/-- The shorter side takes a step when the error reaches half a step. -/
theorem climb_succ {line : Line} (hlength : 0 < line.length) (hrise : line.rise ≤ line.length)
    (k : Nat) :
    line.climb (k + 1) =
      if line.length ≤ 2 * (line.error k + line.rise) then line.climb k + 1
      else line.climb k := by
  have hlower : 2 * (line.length : Int) * line.climb k ≤ 2 * k * line.rise + line.length := by
    exact_mod_cast line.climb_lower k
  have hupper : 2 * (k : Int) * line.rise + line.length <
      2 * line.length * (line.climb k + 1) := by
    exact_mod_cast climb_upper hlength k
  have hrise' : (line.rise : Int) ≤ line.length := by exact_mod_cast hrise
  unfold error
  split
  · rename_i hreached
    apply climb_eq
    · zify
      linarith
    · zify
      linarith
  · rename_i hbelow
    apply climb_eq
    · zify
      have : (0 : Int) ≤ line.rise := Int.natCast_nonneg _
      linarith
    · zify
      linarith

/-- Bresenham's algorithm on the line stands at the cell of the line after each step. -/
theorem advance_iterate {line : Line} (hrise : line.rise ≤ line.length) {k : Nat}
    (hk : k ≤ line.length) :
    (Pen.advance line.length line.rise (if line.isFalling then -1 else 1))^[k] ⟨line.start, 0⟩ =
      ⟨line.centre k, line.error k⟩ := by
  induction k with
  | zero => simp [centre, error, climb_zero]
  | succ k ih =>
      rw [Function.iterate_succ_apply', ih (by omega)]
      have hclimb := climb_succ (by omega) hrise k
      unfold Pen.advance
      by_cases hreached : (line.length : Int) ≤ 2 * (line.error k + line.rise)
      · rw [if_pos hreached] at hclimb
        have herror : line.error (k + 1) = line.error k + line.rise - line.length := by
          unfold error
          rw [hclimb]
          push_cast
          ring
        simp only [if_pos hreached, herror, centre, hclimb, Pen.mk.injEq, Cell.mk.injEq]
        refine ⟨⟨by push_cast; ring, ?_⟩, trivial⟩
        cases line.isFalling <;> simp <;> ring
      · rw [if_neg hreached] at hclimb
        have herror : line.error (k + 1) = line.error k + line.rise := by
          unfold error
          rw [hclimb]
          push_cast
          ring
        simp only [if_neg hreached, herror, centre, hclimb, Pen.mk.injEq, Cell.mk.injEq]
        exact ⟨⟨by push_cast; ring, trivial⟩, trivial⟩

/-- Bresenham's line to the east is the line with the same ends. -/
theorem bresenhamEast_eq {line : Line} {a b : Cell} (hstart : line.start = a)
    (hlength : line.length = (b.column - a.column).natAbs)
    (hrise : line.rise = (b.row - a.row).natAbs)
    (hfalling : line.isFalling = decide (b.row < a.row)) (hflat : line.rise ≤ line.length) :
    bresenhamEast a b = (List.range (line.length + 1)).map line.centre := by
  unfold bresenhamEast
  rw [← hlength, ← hrise]
  apply List.map_congr_left
  intro k hk
  have hpen := advance_iterate hflat (Nat.lt_succ_iff.1 (List.mem_range.1 hk))
  simp only [hfalling, decide_eq_true_eq, hstart] at hpen
  rw [hpen]

theorem length_flat (isSteep : Bool) (a b : Cell) (radius : Nat) :
    (flat isSteep a b radius).length = (b.column - a.column).natAbs := by
  by_cases hwest : b.column < a.column
  · simp only [flat, if_pos hwest]
    omega
  · simp only [flat, if_neg hwest]

theorem rise_flat (isSteep : Bool) (a b : Cell) (radius : Nat) :
    (flat isSteep a b radius).rise = (b.row - a.row).natAbs := by
  by_cases hwest : b.column < a.column
  · simp only [flat, if_pos hwest]
    omega
  · simp only [flat, if_neg hwest]

/-- A line whose columns are the longer side is Bresenham's. -/
theorem centre_flat (isSteep : Bool) {a b : Cell} (radius : Nat)
    (h : (b.row - a.row).natAbs ≤ (b.column - a.column).natAbs) :
    (List.range ((flat isSteep a b radius).length + 1)).map (flat isSteep a b radius).centre =
      bresenhamFlat a b := by
  have hflat : (flat isSteep a b radius).rise ≤ (flat isSteep a b radius).length := by
    rw [length_flat, rise_flat]
    exact h
  unfold bresenhamFlat
  split
  · rename_i hwest
    refine (bresenhamEast_eq ?_ ?_ ?_ ?_ hflat).symm <;> simp only [flat, if_pos hwest]
  · rename_i heast
    refine (bresenhamEast_eq ?_ ?_ ?_ ?_ hflat).symm <;> simp only [flat, if_neg heast]

/-- The cells on which the squares of a widened line are centred. -/
def centres (line : Line) : List Cell :=
  (List.range (line.length + 1)).map fun k => line.turned (line.centre k)

/-- The squares of the line between two cells are centred on Bresenham's line. -/
theorem centres_between (a b : Cell) (radius : Nat) :
    (between a b radius).centres = bresenham a b := by
  unfold bresenham between
  split
  · rename_i hsteep
    have hflat : (b.swapped.row - a.swapped.row).natAbs ≤
        (b.swapped.column - a.swapped.column).natAbs := Nat.le_of_lt hsteep
    rw [← centre_flat true radius hflat, List.map_map]
    rfl
  · rename_i hflat
    rw [← centre_flat false radius (Nat.not_lt.1 hflat)]
    rfl

/-! ## The widened line -/

theorem get_eq (line : Line) (index : Nat) :
    line.get index = line.turned
      ⟨(line.centre (index / (line.side * line.side))).column +
          (index % (line.side * line.side) / line.side : Nat) - line.radius,
        (line.centre (index / (line.side * line.side))).row +
          (index % (line.side * line.side) % line.side : Nat) - line.radius⟩ := rfl

/-- The cell of a widened line with the place `(u, v)` in square `k`. -/
theorem get_place (line : Line) (k : Nat) {u v : Nat} (hu : u < line.side) (hv : v < line.side) :
    line.get (k * (line.side * line.side) + (u * line.side + v)) =
      line.turned ⟨(line.centre k).column + (u - line.radius),
        (line.centre k).row + (v - line.radius)⟩ := by
  have hside : 0 < line.side := Nat.succ_pos _
  have hplace : u * line.side + v < line.side * line.side := by
    calc u * line.side + v < u * line.side + line.side := by omega
      _ = (u + 1) * line.side := by ring
      _ ≤ line.side * line.side := Nat.mul_le_mul_right _ hu
  have hsquare : (k * (line.side * line.side) + (u * line.side + v)) /
      (line.side * line.side) = k := by
    rw [Nat.mul_comm k, Nat.mul_add_div (by positivity), Nat.div_eq_of_lt hplace, Nat.add_zero]
  have hmod : (k * (line.side * line.side) + (u * line.side + v)) %
      (line.side * line.side) = u * line.side + v := by
    rw [Nat.mul_comm k, Nat.mul_add_mod, Nat.mod_eq_of_lt hplace]
  have hdiv : (u * line.side + v) / line.side = u := by
    rw [Nat.mul_comm u, Nat.mul_add_div hside, Nat.div_eq_of_lt hv, Nat.add_zero]
  have hrest : (u * line.side + v) % line.side = v := by
    rw [Nat.mul_comm u, Nat.mul_add_mod, Nat.mod_eq_of_lt hv]
  rw [get_eq, hsquare, hmod, hdiv, hrest, add_sub_assoc, add_sub_assoc]

/-- A widened line goes over the squares around its centres, one behind the other. -/
theorem toList_eq_flatMap (line : Line) :
    line.toList = (List.range (line.length + 1)).flatMap fun k =>
      ((line.centre k).square line.radius).map line.turned := by
  rw [toList, size, range_mul, List.map_flatMap]
  congr 1
  funext k
  rw [range_mul, Cell.square, List.map_flatMap, List.map_flatMap, List.map_flatMap]
  refine List.flatMap_congr fun u hu => ?_
  simp only [List.map_map]
  refine List.map_congr_left fun v hv => ?_
  exact line.get_place k (List.mem_range.1 hu) (List.mem_range.1 hv)

theorem radius_between (a b : Cell) (radius : Nat) : (between a b radius).radius = radius := by
  unfold between
  split <;> rfl

/-- A widened line holds the cells within its radius of Bresenham's line. -/
theorem mem_toList_between_iff {a b c : Cell} {radius : Nat} :
    c ∈ (between a b radius).toList ↔ ∃ centre ∈ bresenham a b, c.distance centre ≤ radius := by
  rw [← centres_between a b radius, toList_eq_flatMap, radius_between]
  simp only [centres, List.mem_flatMap, List.mem_map, Cell.mem_square_iff]
  constructor
  · intro h
    obtain ⟨k, hk, cell, hdistance, rfl⟩ := h
    exact ⟨_, ⟨k, hk, rfl⟩, (distance_turned _ _ _).trans_le hdistance⟩
  · intro h
    obtain ⟨_, ⟨k, hk, rfl⟩, hdistance⟩ := h
    refine ⟨k, hk, (between a b radius).turned c, ?_, turned_turned _ c⟩
    rwa [← distance_turned (between a b radius), turned_turned]

end Line

end TilePyramid
