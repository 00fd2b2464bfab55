import Mathlib
import TilePyramid.Proofs.Overlap
import TilePyramid.Proofs.Wrapping

/-!
# The middle of a rectangle

The middle lies half the span of the rectangle to the east of its western side, up to whole turns
(`Rectangle.center_halfway`). Without a crossing this is the mean of the two sides. A rectangle
whose eastern side has the lesser longitude goes on behind the antimeridian, so half a turn is added
to the mean and the sum is wrapped. The same is done where the sides are at one longitude, although
the span is nothing there: the middle comes out on the far side of the earth.
-/

namespace TilePyramid

variable {circle : Circle}

/-- The angles differ by whole turns, so that they lead to one place of the circle. -/
def Circle.SamePlace (circle : Circle) (a b : ℝ) : Prop :=
  ∃ turns : ℤ, a - b = turns * (Scalar.twoPi : Exact circle).value

/-- Half a turn leads to the other side of the circle. -/
theorem Circle.SamePlace.not_add_pi {a b : ℝ} (h : circle.SamePlace a (b + circle.pi)) :
    ¬ circle.SamePlace a b := by
  intro h'
  obtain ⟨turns, hturns⟩ := h
  obtain ⟨turns', hturns'⟩ := h'
  rw [Exact.value_twoPi] at hturns hturns'
  have hhalf : (2 * (turns' - turns) : ℝ) * circle.pi = 1 * circle.pi := by linarith
  have hone : (2 * (turns' - turns) : ℝ) = 1 := mul_right_cancel₀ circle.pi_pos.ne' hhalf
  have hodd : 2 * (turns' - turns) = 1 := by exact_mod_cast hone
  omega

theorem Exact.value_half : (0.5 : Exact circle).value = 1 / 2 := by
  rw [value_ofScientific]
  norm_num

namespace Rectangle

variable {r : Rectangle (Exact circle)}

theorem latitude_center (r : Rectangle (Exact circle)) :
    r.center.latitude.value = (r.south.value + r.north.value) / 2 := by
  have hmean : ((r.south + r.north) * 0.5).value = (r.south.value + r.north.value) / 2 := by
    rw [Exact.value_mul, Exact.value_add, Exact.value_half, mul_one_div]
  rw [center]
  split <;> exact hmean

/-- Between sides in order the middle is their mean, half the span behind the western one. -/
theorem longitude_center_of_lt (h : r.west.value < r.east.value) :
    r.center.longitude.value = r.west.value + r.longitudeSpan.value / 2 := by
  rw [center, if_pos (show r.west < r.east from h), value_longitudeSpan, if_neg h.not_gt]
  show ((r.west + r.east) * 0.5).value = _
  rw [Exact.value_mul, Exact.value_add, Exact.value_half]
  ring

/-- The mean of sides that are not in order, moved by half a turn. -/
noncomputable def farMean (r : Rectangle (Exact circle)) : Exact circle :=
  (Scalar.twoPi + r.east + r.west) * 0.5

theorem value_farMean (r : Rectangle (Exact circle)) :
    r.farMean.value = (r.west.value + r.east.value) / 2 + circle.pi := by
  rw [farMean, Exact.value_mul, Exact.value_add, Exact.value_add, Exact.value_twoPi,
    Exact.value_half]
  ring

theorem longitude_center_of_le (h : r.east.value ≤ r.west.value) :
    r.center.longitude = Scalar.wrap r.farMean (-Scalar.pi) Scalar.pi := by
  rw [center, if_neg (show ¬ r.west < r.east from h.not_gt), farMean]

/-- Where the sides are not in order, the middle is at their mean moved by half a turn. -/
theorem samePlace_center_of_le (h : r.east.value ≤ r.west.value) :
    circle.SamePlace r.center.longitude.value
      ((r.west.value + r.east.value) / 2 + circle.pi) := by
  obtain ⟨turns, hturns⟩ : ∃ turns : ℤ,
      r.farMean.value - (Scalar.wrap r.farMean (-Scalar.pi) Scalar.pi).value =
        turns * (circle.pi - -circle.pi) := Exact.exists_sub_wrap_eq Exact.neg_pi_lt_pi
  refine ⟨-turns, ?_⟩
  rw [longitude_center_of_le h, ← value_farMean, Exact.value_twoPi]
  push_cast
  linarith

section
variable (hwest : r.west.value ∈ Set.Icc (-circle.pi) circle.pi)
  (heast : r.east.value ∈ Set.Icc (-circle.pi) circle.pi)

include hwest heast

/-- The middle has a usual longitude: the wrapped value does not come from below the range. -/
theorem longitude_center_mem : r.center.longitude.value ∈ Set.Ico (-circle.pi) circle.pi := by
  have hpi := circle.pi_pos
  obtain ⟨hwest, hwest'⟩ := hwest
  obtain ⟨heast, heast'⟩ := heast
  rcases lt_or_ge r.west.value r.east.value with h | h
  · rw [longitude_center_of_lt h, value_longitudeSpan, if_neg h.not_gt]
    constructor <;> linarith
  · have habove : ¬ r.farMean.IsLengthsBelow (-Scalar.pi) Scalar.pi := by
      intro hbelow
      obtain ⟨n, hn⟩ := hbelow
      rw [value_farMean, Exact.value_neg, Exact.value_pi] at hn
      have hdown : 0 < (n + 1 : ℝ) * (circle.pi - -circle.pi) := by
        have hturn : 0 < circle.pi - -circle.pi := by linarith
        positivity
      linarith
    rw [longitude_center_of_le h]
    exact ⟨(Exact.wrap_mem Exact.neg_pi_lt_pi).1,
      (Exact.wrap_lt_upper_iff Exact.neg_pi_lt_pi).2 habove⟩

/-- The middle of a rectangle. Its latitude is the mean of the sides, and its longitude is a usual
one. It lies half the span behind the western side exactly if the sides are at two longitudes. If
they are at one, the span is nothing and the middle lies half a turn behind them. -/
theorem center_halfway :
    r.center.latitude.value = (r.south.value + r.north.value) / 2 ∧
    r.center.longitude.value ∈ Set.Ico (-circle.pi) circle.pi ∧
    (circle.SamePlace r.center.longitude.value (r.west.value + r.longitudeSpan.value / 2) ↔
      r.west.value ≠ r.east.value) ∧
    (r.west.value = r.east.value → r.longitudeSpan.value = 0 ∧
      circle.SamePlace r.center.longitude.value (r.west.value + circle.pi)) := by
  have hfar : r.west.value = r.east.value → r.longitudeSpan.value = 0 ∧
      circle.SamePlace r.center.longitude.value (r.west.value + circle.pi) := by
    intro h
    have hplace := samePlace_center_of_le h.ge
    rw [value_longitudeSpan, if_neg h.not_gt, h, sub_self]
    rw [h, add_self_div_two] at hplace
    exact ⟨rfl, hplace⟩
  refine ⟨r.latitude_center, longitude_center_mem hwest heast, ⟨fun hplace h => ?_, fun h => ?_⟩,
    hfar⟩
  · obtain ⟨hspan, hopposite⟩ := hfar h
    rw [hspan, zero_div, add_zero] at hplace
    exact hopposite.not_add_pi hplace
  · rcases h.lt_or_gt with horder | horder
    · refine ⟨0, ?_⟩
      rw [longitude_center_of_lt horder, sub_self, Int.cast_zero, zero_mul]
    · have hplace := samePlace_center_of_le horder.le
      have hmean : (r.west.value + r.east.value) / 2 + circle.pi =
          r.west.value + r.longitudeSpan.value / 2 := by
        rw [value_longitudeSpan, if_pos horder]
        ring
      rwa [hmean] at hplace

end

/-- The middle of a strip from the longitude 3 across the antimeridian to -1 lies behind the
antimeridian. -/
theorem center_halfway_across :
    let circle : Circle := .usual fun value _ => value
    let r : Rectangle (Exact circle) := strip 3 (-1)
    r.west.value ∈ Set.Icc (-circle.pi) circle.pi ∧ r.east.value ∈ Set.Icc (-circle.pi) circle.pi ∧
      r.center.latitude.value = 0 ∧ r.west.value ≠ r.east.value ∧
      circle.SamePlace r.center.longitude.value (1 + circle.pi) := by
  intro circle r
  have hwest : r.west.value ∈ Set.Icc (-circle.pi) circle.pi :=
    Set.Ioc_subset_Icc_self (mem_usual_of_abs_le (by norm_num [r, strip, west]))
  have heast : r.east.value ∈ Set.Icc (-circle.pi) circle.pi :=
    Set.Ioc_subset_Icc_self (mem_usual_of_abs_le (by norm_num [r, strip, east]))
  have hne : r.west.value ≠ r.east.value := by norm_num [r, strip, west, east]
  obtain ⟨hlatitude, -, hplace, -⟩ := center_halfway hwest heast
  have hspan : r.west.value + r.longitudeSpan.value / 2 = 1 + circle.pi := by
    rw [value_longitudeSpan]
    norm_num [r, strip, west, east]
    ring
  refine ⟨hwest, heast, ?_, hne, ?_⟩
  · rw [hlatitude]
    norm_num [r, strip, south, north]
  · rw [← hspan]
    exact hplace.2 hne

/-- The middle of a strip whose sides are both at the longitude 1 lies on the far side of the
earth. -/
theorem not_forall_center_halfway :
    ¬ ∀ (circle : Circle) (r : Rectangle (Exact circle)), r.isEmpty = false →
      r.west.value ∈ Set.Icc (-circle.pi) circle.pi →
      r.east.value ∈ Set.Icc (-circle.pi) circle.pi →
      r.center.latitude.value = (r.south.value + r.north.value) / 2 ∧
      r.center.longitude.value ∈ Set.Ico (-circle.pi) circle.pi ∧
      circle.SamePlace r.center.longitude.value (r.west.value + r.longitudeSpan.value / 2) := by
  intro h
  let circle : Circle := .usual fun value _ => value
  let r : Rectangle (Exact circle) := strip 1 1
  have hside : (1 : ℝ) ∈ Set.Icc (-circle.pi) circle.pi :=
    Set.Ioc_subset_Icc_self (mem_usual_of_abs_le (by norm_num))
  have hempty : r.isEmpty = false := by
    rw [← Bool.not_eq_true, isEmpty_iff]
    norm_num [r, strip, south, north]
  have hplace := (h circle r hempty hside hside).2.2
  have hspan : r.longitudeSpan.value = 0 := by
    rw [value_longitudeSpan]
    norm_num [r, strip, west, east]
  rw [hspan, zero_div, add_zero] at hplace
  have hopposite := samePlace_center_of_le (r := r) le_rfl
  rw [show (r.west.value + r.east.value) / 2 = r.west.value from add_self_div_two _] at hopposite
  exact hopposite.not_add_pi hplace

end Rectangle

end TilePyramid
