import Mathlib
import TilePyramid.Geo.Position

/-!
# Exact arithmetic

`Exact circle` are the real numbers as scalars, so that no operation rounds and none is undefined.
How long the half turn is, and what the functions of angles give, is left open in `Circle`. The
`value_` lemmas take every operation of the geometry to the real numbers.
-/

namespace TilePyramid

/-- What exact arithmetic leaves open: the length of the half turn, the functions of angles, and
which numbers are neighbours. Sine and cosine stay within the unit circle. -/
structure Circle where
  pi : ℝ
  pi_pos : 0 < pi
  sin : ℝ → ℝ
  cos : ℝ → ℝ
  abs_sin_le : ∀ angle, |sin angle| ≤ 1
  abs_cos_le : ∀ angle, |cos angle| ≤ 1
  atan : ℝ → ℝ
  atan2 : ℝ → ℝ → ℝ
  nextAfter : ℝ → ℝ → ℝ

/-- The circle of the usual half turn and the usual functions, with any neighbours. -/
noncomputable def Circle.usual (nextAfter : ℝ → ℝ → ℝ) : Circle where
  pi := Real.pi
  pi_pos := Real.pi_pos
  sin := Real.sin
  cos := Real.cos
  abs_sin_le := Real.abs_sin_le_one
  abs_cos_le := Real.abs_cos_le_one
  atan := Real.arctan
  atan2 y x := (⟨x, y⟩ : ℂ).arg
  nextAfter := nextAfter

/-- A real number as a scalar. -/
@[ext]
structure Exact (circle : Circle) where
  value : ℝ

namespace Exact

/-- A real number rounded to a whole one towards zero. -/
noncomputable def truncate (x : ℝ) : ℤ := if 0 ≤ x then ⌊x⌋ else ⌈x⌉

/-- A real number rounded to the nearest whole one, a half going away from zero. -/
noncomputable def nearest (x : ℝ) : ℤ := if 0 ≤ x then round x else -round (-x)

variable {circle : Circle}

noncomputable instance : Scalar (Exact circle) where
  add a b := ⟨a.value + b.value⟩
  sub a b := ⟨a.value - b.value⟩
  mul a b := ⟨a.value * b.value⟩
  div a b := ⟨a.value / b.value⟩
  neg a := ⟨-a.value⟩
  lt a b := a.value < b.value
  le a b := a.value ≤ b.value
  ofScientific mantissa negative exponent := ⟨OfScientific.ofScientific mantissa negative exponent⟩
  decidableLT := Classical.decRel _
  decidableLE := Classical.decRel _
  pi := ⟨circle.pi⟩
  ofWord word := ⟨word.toNat⟩
  toWord a := UInt32.ofNat (min ⌊a.value⌋₊ (2 ^ 32 - 1))
  isNaN _ := false
  rem a b := ⟨a.value - b.value * truncate (a.value / b.value)⟩
  abs a := ⟨|a.value|⟩
  sqrt a := ⟨√a.value⟩
  round a := ⟨nearest a.value⟩
  nextAfter a b := ⟨circle.nextAfter a.value b.value⟩
  sin a := ⟨circle.sin a.value⟩
  cos a := ⟨circle.cos a.value⟩
  atan a := ⟨circle.atan a.value⟩
  atan2 a b := ⟨circle.atan2 a.value b.value⟩
  hypot a b := ⟨√(a.value ^ 2 + b.value ^ 2)⟩

/-! ## Values of the operations -/

section
variable (a b : Exact circle)

@[simp] theorem value_add : (a + b).value = a.value + b.value := rfl

@[simp] theorem value_sub : (a - b).value = a.value - b.value := rfl

@[simp] theorem value_mul : (a * b).value = a.value * b.value := rfl

@[simp] theorem value_div : (a / b).value = a.value / b.value := rfl

@[simp] theorem value_neg : (-a).value = -a.value := rfl

@[simp] theorem lt_iff : a < b ↔ a.value < b.value := Iff.rfl

@[simp] theorem le_iff : a ≤ b ↔ a.value ≤ b.value := Iff.rfl

@[simp] theorem value_ofScientific (mantissa : Nat) (negative : Bool) (exponent : Nat) :
    (OfScientific.ofScientific mantissa negative exponent : Exact circle).value =
      OfScientific.ofScientific mantissa negative exponent := rfl

@[simp] theorem value_pi : (Scalar.pi : Exact circle).value = circle.pi := rfl

/-- Longitudes have a range to be wrapped into. -/
theorem neg_pi_lt_pi : (-Scalar.pi : Exact circle).value < (Scalar.pi : Exact circle).value := by
  rw [value_neg, value_pi]
  linarith [circle.pi_pos]

@[simp] theorem value_halfPi : (Scalar.halfPi : Exact circle).value = circle.pi / 2 := by
  show circle.pi / 2.0 = circle.pi / 2
  norm_num

@[simp] theorem value_twoPi : (Scalar.twoPi : Exact circle).value = 2 * circle.pi := by
  show 2.0 * circle.pi = 2 * circle.pi
  norm_num

@[simp] theorem value_ofWord (word : UInt32) :
    (Scalar.ofWord word : Exact circle).value = word.toNat := rfl

@[simp] theorem isNaN_eq_false : Scalar.isNaN a = false := rfl

theorem toNat_toWord : (Scalar.toWord a).toNat = min ⌊a.value⌋₊ (2 ^ 32 - 1) := by
  have hword : min ⌊a.value⌋₊ (2 ^ 32 - 1) < 2 ^ 32 := by omega
  exact UInt32.toNat_ofNat_of_lt' hword

theorem value_rem :
    (Scalar.rem a b).value = a.value - b.value * truncate (a.value / b.value) := rfl

@[simp] theorem value_nextAfter :
    (Scalar.nextAfter a b).value = circle.nextAfter a.value b.value := rfl

@[simp] theorem value_min : (Scalar.min a b).value = min a.value b.value := by
  rw [Scalar.min, isNaN_eq_false, if_neg Bool.false_ne_true]
  split
  · rename_i h
    exact (min_eq_right (le_of_lt h)).symm
  · rename_i h
    exact (min_eq_left (not_lt.1 h)).symm

@[simp] theorem value_max : (Scalar.max a b).value = max a.value b.value := by
  rw [Scalar.max, isNaN_eq_false, if_neg Bool.false_ne_true]
  split
  · rename_i h
    exact (max_eq_right (le_of_lt h)).symm
  · rename_i h
    exact (max_eq_left (not_lt.1 h)).symm

end

/-! ## Clamping and wrapping -/

variable {value lower upper : Exact circle}

theorem clamp_eq_self (hlower : lower.value ≤ value.value) (hupper : value.value ≤ upper.value) :
    Scalar.clamp value lower upper = value := by
  rw [Scalar.clamp, if_neg (by simpa using hlower), if_neg (by simpa using hupper)]

theorem value_clamp (hrange : lower.value ≤ upper.value) :
    (Scalar.clamp value lower upper).value = max lower.value (min value.value upper.value) := by
  unfold Scalar.clamp
  split
  · rename_i hbelow
    rw [max_eq_left (min_le_of_left_le (le_of_lt hbelow))]
  · rename_i hbelow
    split
    · rename_i habove
      rw [min_eq_right (le_of_lt habove), max_eq_right hrange]
    · rename_i habove
      rw [min_eq_left (not_lt.1 habove), max_eq_right (not_lt.1 hbelow)]

/-- What remains of a number that is not negative is what whole divisors leave of it. -/
theorem value_rem_of_nonneg {a b : Exact circle} (ha : 0 ≤ a.value) (hb : 0 < b.value) :
    (Scalar.rem a b).value = Int.fract (a.value / b.value) * b.value := by
  rw [value_rem, truncate, if_pos (div_nonneg ha hb.le), ← Int.self_sub_floor, sub_mul,
    div_mul_cancel₀ _ hb.ne', mul_comm b.value]

/-- Wrapping takes whole lengths of the range off a value. A value from below the range is taken to
the half-open range with the upper end, any other one to that with the lower end. -/
theorem value_wrap (hrange : lower.value < upper.value) :
    (Scalar.wrap value lower upper).value =
      if value.value < lower.value then toIocMod (sub_pos.2 hrange) lower.value value.value
      else toIcoMod (sub_pos.2 hrange) lower.value value.value := by
  have hlength : 0 < (upper - lower).value := sub_pos.2 hrange
  rw [Scalar.wrap, if_neg (show ¬ upper ≤ lower from hrange.not_ge), apply_ite Exact.value]
  refine ite_congr rfl (fun hbelow => ?_) fun habove => ?_
  · have hdistance : 0 ≤ (lower - value).value := sub_nonneg.2 (le_of_lt hbelow)
    have hturn : (lower.value + (upper.value - lower.value) - value.value) /
        (upper.value - lower.value) = (lower - value).value / (upper - lower).value + 1 := by
      rw [add_sub_right_comm, add_div, div_self (sub_pos.2 hrange).ne']
      rfl
    rw [toIocMod_eq_sub_fract_mul, hturn, Int.fract_add_one, value_sub,
      value_rem_of_nonneg hdistance hlength, add_sub_cancel]
    rfl
  · have hdistance : 0 ≤ (value - lower).value := sub_nonneg.2 (not_lt.1 habove)
    rw [toIcoMod_eq_add_fract_mul, value_add, value_rem_of_nonneg hdistance hlength]
    rfl

/-- A value of the range is wrapped to itself, unless it is the upper end. -/
theorem wrap_eq_self (hlower : lower.value ≤ value.value) (hupper : value.value < upper.value) :
    Scalar.wrap value lower upper = value := by
  ext
  rw [value_wrap (hlower.trans_lt hupper), if_neg hlower.not_gt, toIcoMod_eq_self, add_sub_cancel]
  exact ⟨hlower, hupper⟩

/-- The upper end of the range is wrapped to the lower one. -/
theorem wrap_upper (hrange : lower.value < upper.value) :
    Scalar.wrap upper lower upper = lower := by
  have hend := toIcoMod_apply_right (sub_pos.2 hrange) lower.value
  rw [add_sub_cancel] at hend
  ext
  rw [value_wrap hrange, if_neg hrange.not_gt, hend]

/-- Every value is wrapped into the range. -/
theorem wrap_mem (hrange : lower.value < upper.value) :
    lower.value ≤ (Scalar.wrap value lower upper).value ∧
      (Scalar.wrap value lower upper).value ≤ upper.value := by
  rw [value_wrap hrange]
  split
  · have hmem := toIocMod_mem_Ioc (sub_pos.2 hrange) lower.value value.value
    rw [add_sub_cancel] at hmem
    exact ⟨hmem.1.le, hmem.2⟩
  · have hmem := toIcoMod_mem_Ico (sub_pos.2 hrange) lower.value value.value
    rw [add_sub_cancel] at hmem
    exact ⟨hmem.1, hmem.2.le⟩

end Exact

end TilePyramid
