import Mathlib
import TilePyramid.Proofs.Union

/-!
# The span of a rectangle

A rectangle contains the positions between its latitudes that its span reaches, going to the east
from its western side (`Rectangle.contains_iff_reaches`). The span is counted on beyond the
antimeridian, so it reaches a longitude that lies in it up to whole turns. A rectangle whose sides
are at one longitude has no span, but it contains every longitude.
-/

namespace TilePyramid.Rectangle

variable {circle : Circle} {r : Rectangle (Exact circle)} {longitude : ℝ}

/-- The longitude, counted on by whole turns, is on the way to the east from the western side of a
rectangle over its span. -/
def Reaches (r : Rectangle (Exact circle)) (longitude : ℝ) : Prop :=
  ∃ turns : ℤ, longitude + turns * (Scalar.twoPi : Exact circle).value ∈
    Set.Icc r.west.value (r.west.value + r.longitudeSpan.value)

/-- A rectangle whose sides are at one longitude spans every longitude. -/
theorem spans_of_west_eq_east (h : r.west.value = r.east.value) (longitude : ℝ) :
    r.Spans longitude := by
  rw [Spans, if_neg h.not_lt, ← h]
  exact le_total _ _

section
variable (hwest : r.west.value ∈ Set.Icc (-circle.pi) circle.pi)
  (heast : r.east.value ∈ Set.Icc (-circle.pi) circle.pi)

include hwest heast

/-- What is between the sides of a rectangle is reached, unless these are at one longitude. -/
theorem Spans.reaches (hlongitude : longitude ∈ Set.Icc (-circle.pi) circle.pi)
    (hne : r.west.value ≠ r.east.value) (h : r.Spans longitude) : r.Reaches longitude := by
  rw [Reaches, west_add_span, Exact.value_twoPi]
  rcases hne.lt_or_gt with horder | horder
  · rw [Spans, if_pos horder] at h
    exact ⟨0, by simpa [horder.not_gt] using h⟩
  · rw [Spans, if_neg horder.not_gt] at h
    rw [if_pos horder]
    rcases h with hbefore | hbehind
    · refine ⟨0, ?_, ?_⟩
      · simpa using hbefore
      · push_cast
        linarith [hlongitude.2, heast.1]
    · refine ⟨1, ?_, ?_⟩
      · push_cast
        linarith [hlongitude.1, hwest.2]
      · push_cast
        linarith

/-- What is on the way is reached before the antimeridian or one turn later behind it. -/
theorem Reaches.before_or_behind (hlongitude : longitude ∈ Set.Ioo (-circle.pi) circle.pi)
    (h : r.Reaches longitude) :
    (r.west.value ≤ longitude ∧ longitude ≤ r.west.value + r.longitudeSpan.value) ∨
      longitude + 2 * circle.pi ≤ r.west.value + r.longitudeSpan.value := by
  have hturn : 0 < 2 * circle.pi := by linarith [circle.pi_pos]
  have hspan : r.west.value + r.longitudeSpan.value ≤ 3 * circle.pi := by
    rw [west_add_span]
    split <;> linarith [heast.2]
  rw [Reaches, Exact.value_twoPi] at h
  obtain ⟨turns, hbegin, hend⟩ := h
  have hfirst : (-1 : ℝ) < turns := by
    refine lt_of_mul_lt_mul_right ?_ hturn.le
    linarith [hwest.1, hlongitude.2]
  have hlast : (turns : ℝ) < 2 := by
    refine lt_of_mul_lt_mul_right ?_ hturn.le
    linarith [hlongitude.1]
  obtain rfl | rfl : turns = 0 ∨ turns = 1 := by
    norm_cast at hfirst hlast
    omega
  · exact .inl ⟨by simpa using hbegin, by simpa using hend⟩
  · exact .inr (by simpa using hend)

/-- What is reached is between the sides of the rectangle. -/
theorem Reaches.spans (hlongitude : longitude ∈ Set.Ioo (-circle.pi) circle.pi)
    (h : r.Reaches longitude) : r.Spans longitude := by
  have hway := h.before_or_behind hwest heast hlongitude
  rw [west_add_span] at hway
  rw [Spans]
  by_cases horder : r.west.value < r.east.value
  · rw [if_neg horder.not_gt] at hway
    rw [if_pos horder]
    refine hway.resolve_right fun hbehind => ?_
    linarith [heast.2, hlongitude.1]
  · rw [if_neg horder]
    refine hway.imp And.left fun hbehind => ?_
    split at hbehind
    · linarith
    · linarith [heast.2, hlongitude.1]

/-- The positions of a rectangle whose sides are at two longitudes are those between its latitudes
that its span reaches. The antimeridian itself has two longitudes, and the rectangle may contain but
one of them. A rectangle whose sides are at one longitude contains every longitude. -/
theorem contains_iff_reaches (p : Position (Exact circle))
    (hlongitude : p.longitude.value ∈ Set.Icc (-circle.pi) circle.pi) :
    (r.contains p → (r.south.value ≤ p.latitude.value ∧ p.latitude.value ≤ r.north.value) ∧
      (r.west.value ≠ r.east.value → r.Reaches p.longitude.value)) ∧
    (r.west.value ≠ r.east.value → p.longitude.value ∈ Set.Ioo (-circle.pi) circle.pi →
      (r.contains p = true ↔
        (r.south.value ≤ p.latitude.value ∧ p.latitude.value ≤ r.north.value) ∧
          r.Reaches p.longitude.value)) ∧
    (r.west.value = r.east.value →
      (r.contains p = true ↔
        r.south.value ≤ p.latitude.value ∧ p.latitude.value ≤ r.north.value)) := by
  simp only [contains_iff_spans]
  refine ⟨fun h => ?_, fun hne hinner => and_congr_right' ?_, fun heq => ?_⟩
  · obtain ⟨hlatitude, hspans⟩ := h
    exact ⟨hlatitude, fun hne => hspans.reaches hwest heast hlongitude hne⟩
  · exact ⟨fun h => h.reaches hwest heast hlongitude hne, fun h => h.spans hwest heast hinner⟩
  · exact and_iff_left (spans_of_west_eq_east heq _)

end

/-- A strip across the antimeridian reaches the longitude -3.1 of a position in it after a turn. -/
theorem contains_iff_reaches_across :
    let r : Rectangle (Exact (.usual fun value _ => value)) := strip 3 (-3)
    let p : Position (Exact (.usual fun value _ => value)) := ⟨⟨0⟩, ⟨-3.1⟩⟩
    r.west.value ∈ Set.Icc (-Real.pi) Real.pi ∧ r.east.value ∈ Set.Icc (-Real.pi) Real.pi ∧
      p.longitude.value ∈ Set.Icc (-Real.pi) Real.pi ∧ r.west.value ≠ r.east.value ∧
      r.contains p ∧ r.Reaches p.longitude.value := by
  intro r p
  have hrange : ∀ longitude : ℝ, |longitude| ≤ 3.14 → longitude ∈ Set.Icc (-Real.pi) Real.pi := by
    intro longitude h
    have hpi := Real.pi_gt_d2
    exact abs_le.1 (h.trans hpi.le)
  have hwest : r.west.value ∈ Set.Icc (-Real.pi) Real.pi := hrange 3 (by norm_num)
  have heast : r.east.value ∈ Set.Icc (-Real.pi) Real.pi := hrange (-3) (by norm_num)
  have hlongitude : p.longitude.value ∈ Set.Icc (-Real.pi) Real.pi := hrange (-3.1) (by norm_num)
  have hne : r.west.value ≠ r.east.value := by norm_num [r, strip, west, east]
  have hin : r.contains p = true := by
    rw [contains_iff_spans]
    norm_num [r, p, Spans, strip, south, north, west, east]
  obtain ⟨hreaches, -⟩ := contains_iff_reaches hwest heast p hlongitude
  exact ⟨hwest, heast, hlongitude, hne, hin, (hreaches hin).2 hne⟩

/-- A strip whose sides are both at the longitude 1 has no span and contains the longitude 2. -/
theorem not_forall_contains_reaches :
    ¬ ∀ (circle : Circle) (r : Rectangle (Exact circle)) (p : Position (Exact circle)),
      r.isEmpty = false → r.west.value ∈ Set.Icc (-circle.pi) circle.pi →
      r.east.value ∈ Set.Icc (-circle.pi) circle.pi →
      p.longitude.value ∈ Set.Icc (-circle.pi) circle.pi → r.contains p →
      (r.south.value ≤ p.latitude.value ∧ p.latitude.value ≤ r.north.value) ∧
        r.Reaches p.longitude.value := by
  intro h
  let circle : Circle := .usual fun value _ => value
  let r : Rectangle (Exact circle) := strip 1 1
  let p : Position (Exact circle) := ⟨⟨0⟩, ⟨2⟩⟩
  have hside : (1 : ℝ) ∈ Set.Icc (-circle.pi) circle.pi :=
    Set.Ioc_subset_Icc_self (mem_usual_of_abs_le (by norm_num))
  have hlongitude : (2 : ℝ) ∈ Set.Ioo (-circle.pi) circle.pi := by
    constructor <;> linarith [show (3 : ℝ) < circle.pi from Real.pi_gt_three]
  have hin : r.contains p = true := by
    rw [contains_iff_spans]
    norm_num [r, p, Spans, strip, south, north, west, east]
  have hreaches := (h circle r p (isEmpty_strip 1 1) hside hside
    (Set.Ioo_subset_Icc_self hlongitude) hin).2
  have hway := hreaches.before_or_behind hside hside hlongitude
  rw [west_add_span] at hway
  norm_num [r, p, strip, west, east] at hway
  linarith [circle.pi_pos]

end TilePyramid.Rectangle
