import Mathlib
import TilePyramid.Geo.Rectangle
import TilePyramid.Proofs.Exact

/-!
# Rectangles in exact arithmetic

What the operations of rectangles say, in inequalities between real numbers.
-/

namespace TilePyramid.Rectangle

variable {circle : Circle}

/-- A rectangle holds the latitudes from its southern to its northern side. Its longitudes lie
between its sides if these are in order, and outside of them otherwise. -/
theorem contains_iff (r : Rectangle (Exact circle)) (p : Position (Exact circle)) :
    r.contains p = true ↔
      (r.south.value ≤ p.latitude.value ∧ p.latitude.value ≤ r.north.value) ∧
        if r.west.value < r.east.value then
          r.west.value ≤ p.longitude.value ∧ p.longitude.value ≤ r.east.value
        else r.west.value ≤ p.longitude.value ∨ p.longitude.value ≤ r.east.value := by
  rw [contains]
  split
  · rename_i hout
    simp only [Exact.lt_iff] at hout
    simp only [Bool.false_eq_true, false_iff]
    intro h
    rcases hout with hsouth | hnorth
    · exact absurd h.1.1 hsouth.not_ge
    · exact absurd h.1.2 hnorth.not_ge
  · rename_i hout
    simp only [Exact.lt_iff, not_or, not_lt] at hout
    simp only [Exact.lt_iff, Exact.le_iff, hout, and_self, true_and]
    split <;> simp

/-- The bounds of a projection hold the positions from pole to pole and once around the world. -/
theorem world_contains_iff (p : Position (Exact circle)) :
    (world : Rectangle (Exact circle)).contains p = true ↔
      (-(circle.pi / 2) ≤ p.latitude.value ∧ p.latitude.value ≤ circle.pi / 2) ∧
        -circle.pi ≤ p.longitude.value ∧ p.longitude.value ≤ circle.pi := by
  have hpi := circle.pi_pos
  have horder : -circle.pi < circle.pi := by linarith
  rw [contains_iff]
  simp [world, south, north, west, east, horder]

/-- The middle of the world and both corners of its bounds are within these. -/
theorem world_contains_middle (circle : Circle) :
    (world : Rectangle (Exact circle)).contains ⟨0.0, 0.0⟩ ∧
      (world : Rectangle (Exact circle)).contains world.southWest ∧
      (world : Rectangle (Exact circle)).contains world.northEast := by
  have hpi := circle.pi_pos
  have hzero : (0.0 : ℝ) = 0 := by norm_num
  simp only [world_contains_iff]
  simp only [world, Exact.value_ofScientific, Exact.value_neg, Exact.value_halfPi, Exact.value_pi,
    hzero]
  refine ⟨⟨⟨?_, ?_⟩, ?_, ?_⟩, ⟨⟨?_, ?_⟩, ?_, ?_⟩, ⟨⟨?_, ?_⟩, ?_, ?_⟩⟩ <;> linarith

/-- A rectangle is empty if its northern side is south of its southern one. -/
theorem isEmpty_iff (r : Rectangle (Exact circle)) :
    r.isEmpty = true ↔ r.north.value < r.south.value := by
  have hzero : (0.0 : ℝ) = 0 := by norm_num
  simp [isEmpty, latitudeSpan, hzero]

theorem south_le_north {r : Rectangle (Exact circle)} (hempty : r.isEmpty = false) :
    r.south.value ≤ r.north.value := by
  rw [← not_lt, ← isEmpty_iff, hempty]
  exact Bool.false_ne_true

/-- A rectangle with a position is not empty. -/
theorem isEmpty_eq_false_of_contains {r : Rectangle (Exact circle)} {p : Position (Exact circle)}
    (h : r.contains p) : r.isEmpty = false := by
  obtain ⟨⟨hsouth, hnorth⟩, -⟩ := (r.contains_iff p).1 h
  rw [← Bool.not_eq_true, isEmpty_iff, not_lt]
  exact hsouth.trans hnorth

/-- The span of a rectangle goes from its western side to its eastern one, once around the world if
the eastern one has the lesser longitude. -/
theorem value_longitudeSpan (r : Rectangle (Exact circle)) :
    r.longitudeSpan.value =
      if r.east.value < r.west.value then r.east.value - r.west.value + 2 * circle.pi
      else r.east.value - r.west.value := by
  have hzero : (0.0 : ℝ) = 0 := by norm_num
  simp only [longitudeSpan, apply_ite Exact.value, Exact.lt_iff, Exact.value_add, Exact.value_sub,
    Exact.value_twoPi, Exact.value_ofScientific, hzero, sub_neg]

/-- The span of a rectangle ends at its eastern side, a turn later if this has the lesser longitude. -/
theorem west_add_span (r : Rectangle (Exact circle)) :
    r.west.value + r.longitudeSpan.value =
      if r.east.value < r.west.value then r.east.value + 2 * circle.pi else r.east.value := by
  rw [value_longitudeSpan]
  split <;> ring

/-- As counted on, the eastern side is where the span ends. -/
theorem value_unwrappedEast (r : Rectangle (Exact circle)) :
    r.unwrappedEast.value = r.west.value + r.longitudeSpan.value := by
  rw [unwrappedEast]
  split
  · rfl
  · rename_i horder
    rw [Exact.le_iff, not_le] at horder
    rw [west_add_span, if_neg horder.not_gt]

end TilePyramid.Rectangle
