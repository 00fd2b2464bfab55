import Mathlib
import TilePyramid.Proofs.Cover

/-!
# Wrapped values

Wrapping moves a value by whole lengths of a range into the range. The lower end belongs to the range
and the upper end does not, but a value whole lengths below the range comes out at the upper end
(`Exact.wrap_lt_upper_iff`), and only a second wrapping takes it to the lower one. Longitudes are
wrapped in this way between `-π` and `π`. `Exact.wrap_range` says of both which values come out
right.
-/

namespace TilePyramid

variable {circle : Circle}

namespace Exact

variable {value lower upper : Exact circle}

/-- The value lies one or more whole lengths of a range below the lower end of the range. -/
def IsLengthsBelow (value lower upper : Exact circle) : Prop :=
  ∃ n : ℕ, value.value = lower.value - (n + 1) * (upper.value - lower.value)

/-- A value below the lower end of a range is a number of whole lengths below it if it differs from
the upper end by whole lengths. -/
theorem isLengthsBelow_iff (hrange : lower.value < upper.value) (hbelow : value.value < lower.value) :
    value.IsLengthsBelow lower upper ↔
      ∃ turns : ℤ, value.value = upper.value + turns • (upper.value - lower.value) := by
  have hlength : 0 < upper.value - lower.value := sub_pos.2 hrange
  constructor
  · intro h
    obtain ⟨n, hn⟩ := h
    refine ⟨-(n + 2), ?_⟩
    rw [hn, zsmul_eq_mul]
    push_cast
    ring
  · intro h
    obtain ⟨turns, hturns⟩ := h
    rw [zsmul_eq_mul] at hturns
    -- From the upper end there is more than one length to go.
    have hback : ((turns + 1 : ℤ) : ℝ) < 0 := by
      refine neg_of_mul_neg_left ?_ hlength.le
      push_cast
      linarith
    obtain ⟨n, hn⟩ : ∃ n : ℕ, turns = -(n + 2) := by
      have hback' : turns + 1 < 0 := by exact_mod_cast hback
      exact ⟨(-turns - 2).toNat, by omega⟩
    refine ⟨n, ?_⟩
    rw [hturns, hn]
    push_cast
    ring

/-- A value differs from what it is wrapped to by whole lengths of the range. -/
theorem exists_sub_wrap_eq (hrange : lower.value < upper.value) :
    ∃ turns : ℤ, value.value - (Scalar.wrap value lower upper).value =
      turns * (upper.value - lower.value) := by
  rw [value_wrap hrange]
  split
  · exact ⟨_, self_sub_toIocMod_eq_mul _ _ _⟩
  · exact ⟨_, self_sub_toIcoMod_eq_mul _ _ _⟩

/-- A value is wrapped below the upper end unless it lies whole lengths below the lower end. -/
theorem wrap_lt_upper_iff (hrange : lower.value < upper.value) :
    (Scalar.wrap value lower upper).value < upper.value ↔ ¬ value.IsLengthsBelow lower upper := by
  have hlength : 0 < upper.value - lower.value := sub_pos.2 hrange
  have hupper : (Scalar.wrap value lower upper).value ≤ upper.value := (wrap_mem hrange).2
  rw [hupper.lt_iff_ne, not_iff_not, value_wrap hrange]
  split
  · rename_i hbelow
    rw [isLengthsBelow_iff hrange hbelow, toIocMod_eq_iff, add_sub_cancel]
    exact and_iff_right ⟨hrange, le_rfl⟩
  · rename_i habove
    have hmem := (toIcoMod_mem_Ico hlength lower.value value.value).2
    rw [add_sub_cancel] at hmem
    refine iff_of_false hmem.ne fun h => ?_
    obtain ⟨n, hn⟩ := h
    have hdown : 0 < (n + 1 : ℝ) * (upper.value - lower.value) := by positivity
    linarith

/-- Wrapping again changes nothing unless the first wrapping gave the upper end. -/
theorem wrap_wrap_eq_iff (hrange : lower.value < upper.value) :
    Scalar.wrap (Scalar.wrap value lower upper) lower upper = Scalar.wrap value lower upper ↔
      (Scalar.wrap value lower upper).value < upper.value := by
  obtain ⟨hlower, hupper⟩ : lower.value ≤ (Scalar.wrap value lower upper).value ∧
      (Scalar.wrap value lower upper).value ≤ upper.value := wrap_mem hrange
  refine ⟨fun h => ?_, wrap_eq_self hlower⟩
  refine hupper.lt_of_ne fun hend => ?_
  have hends : Scalar.wrap value lower upper = upper := Exact.ext hend
  rw [hends, wrap_upper hrange] at h
  exact hrange.ne (congrArg Exact.value h)

end Exact

namespace Position

/-- Every position is valid in exact arithmetic, so its usual angles are the bounded ones. -/
theorem normalized_eq_bounded (p : Position (Exact circle)) : p.normalized = p.bounded := if_pos rfl

/-- Bounding a position again changes nothing unless the first time gave the longitude `π`. -/
theorem bounded_bounded_eq_iff (p : Position (Exact circle)) :
    p.bounded.bounded = p.bounded ↔ p.bounded.longitude.value < circle.pi := by
  have hpi := circle.pi_pos
  have hmem := p.contains_bounded
  obtain ⟨-, -, heastern⟩ := (Rectangle.world_contains_iff _).1 hmem
  refine ⟨fun h => heastern.lt_of_ne fun hend => ?_, bounded_of_lt hmem⟩
  rw [bounded_of_eastern hmem hend] at h
  have hwest : -circle.pi = circle.pi := (congrArg (·.longitude.value) h).trans hend
  linarith

end Position

/-! ## What wrapping gives -/

/-- A wrapped value is in the range, whole lengths away from where it was. Below the upper end, and
unchanged when it is wrapped again, it is unless it came from whole lengths below the range. The
usual angles of a position are between the poles and from `-π` to `π`, and the longitude `π` is
found only where the longitude was whole turns below `-π`. -/
theorem Exact.wrap_range :
    (∀ value lower upper : Exact circle, lower.value < upper.value →
      let wrapped := Scalar.wrap value lower upper
      (lower.value ≤ wrapped.value ∧ wrapped.value ≤ upper.value) ∧
      (∃ turns : ℤ, value.value - wrapped.value = turns * (upper.value - lower.value)) ∧
      (wrapped.value < upper.value ↔ ¬ value.IsLengthsBelow lower upper) ∧
      (Scalar.wrap wrapped lower upper = wrapped ↔ ¬ value.IsLengthsBelow lower upper)) ∧
    ∀ p : Position (Exact circle),
      (Rectangle.world : Rectangle (Exact circle)).contains p.normalized ∧
      (p.normalized.longitude.value < circle.pi ↔
        ¬ p.longitude.IsLengthsBelow (-Scalar.pi) Scalar.pi) ∧
      (p.normalized.normalized = p.normalized ↔
        ¬ p.longitude.IsLengthsBelow (-Scalar.pi) Scalar.pi) := by
  refine ⟨fun value lower upper hrange => ?_, fun p => ?_⟩
  · exact ⟨wrap_mem hrange, exists_sub_wrap_eq hrange, wrap_lt_upper_iff hrange,
      (wrap_wrap_eq_iff hrange).trans (wrap_lt_upper_iff hrange)⟩
  · have hpi := circle.pi_pos
    have hrange : (-Scalar.pi : Exact circle).value < (Scalar.pi : Exact circle).value := by
      rw [value_neg, value_pi]
      linarith
    have hbelow : p.bounded.longitude.value < circle.pi ↔
        ¬ p.longitude.IsLengthsBelow (-Scalar.pi) Scalar.pi := wrap_lt_upper_iff hrange
    rw [p.normalized_eq_bounded, p.bounded.normalized_eq_bounded]
    exact ⟨p.contains_bounded, hbelow, p.bounded_bounded_eq_iff.trans hbelow⟩

/-- Half a length below a range is wrapped into its middle, where it stays. -/
theorem Exact.wrap_range_halfBelow :
    let value : Exact (.usual fun value _ => value) := ⟨-2⟩
    let lower : Exact (.usual fun value _ => value) := ⟨-1⟩
    let upper : Exact (.usual fun value _ => value) := ⟨1⟩
    lower.value < upper.value ∧ (Scalar.wrap value lower upper).value < upper.value ∧
      Scalar.wrap (Scalar.wrap value lower upper) lower upper = Scalar.wrap value lower upper := by
  intro value lower upper
  have hrange : lower.value < upper.value := by norm_num [lower, upper]
  have hbetween : ¬ value.IsLengthsBelow lower upper := by
    intro h
    obtain ⟨n, hn⟩ := h
    have htwice : (2 * (n + 1) : ℝ) = 1 := by
      norm_num [value, lower, upper] at hn
      linarith
    have hodd : 2 * (n + 1) = 1 := by exact_mod_cast htwice
    omega
  obtain ⟨-, -, hlt, hagain⟩ := wrap_range.1 value lower upper hrange
  exact ⟨hrange, hlt.2 hbetween, hagain.2 hbetween⟩

/-- One length below the range from -1 to 1, the value -3 is wrapped to 1. -/
theorem Exact.not_forall_wrap_lt :
    ¬ ∀ (circle : Circle) (value lower upper : Exact circle), lower.value < upper.value →
      let wrapped := Scalar.wrap value lower upper
      (lower.value ≤ wrapped.value ∧ wrapped.value < upper.value) ∧
      (∃ turns : ℤ, value.value - wrapped.value = turns * (upper.value - lower.value)) ∧
      Scalar.wrap wrapped lower upper = wrapped := by
  intro h
  let circle : Circle := .usual fun value _ => value
  have hrange : (⟨-1⟩ : Exact circle).value < (⟨1⟩ : Exact circle).value := by norm_num
  have hbelow : (⟨-3⟩ : Exact circle).IsLengthsBelow ⟨-1⟩ ⟨1⟩ := ⟨0, by norm_num⟩
  obtain ⟨⟨-, hlt⟩, -⟩ := h circle ⟨-3⟩ ⟨-1⟩ ⟨1⟩ hrange
  exact (wrap_lt_upper_iff hrange).1 hlt hbelow

end TilePyramid
