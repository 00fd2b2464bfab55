import Mathlib
import TilePyramid.Geo.FixedPoint
import TilePyramid.Proofs.Wrapping

/-!
# Steps of fixed point positions

Both words of a fixed point position count steps from an angle on, so each direction of the
conversion is one function that is used twice: `FixedPoint.angle` gives the angle over a number of
steps, and `FixedPoint.steps` the nearest number of steps in an angle. Bounding a position changes
nothing before the eastern edge of the world.

The main result is `FixedPoint.position_round_trips`. Steps that end before the eastern edge of the
world and not behind the north pole are found again from their position, and a position is moved by
half a step at most.
-/

namespace TilePyramid

variable {circle : Circle}

/-- A number that is nearest to a word is rounded to it. -/
theorem Exact.toNat_toWord_round {a : Exact circle} (hlow : 0 ≤ a.value)
    (hhigh : a.value ≤ 2 ^ 32 - 1) :
    ((Scalar.toWord (Scalar.round a)).toNat : ℤ) = round a.value := by
  have hnonneg : 0 ≤ round a.value := by
    rw [round_eq]
    exact Int.floor_nonneg.2 (by linarith)
  obtain ⟨n, hn⟩ := Int.eq_ofNat_of_zero_le hnonneg
  have hvalue : (Scalar.round a).value = n := by
    show ((nearest a.value : ℤ) : ℝ) = n
    rw [nearest, if_pos hlow, hn, Int.cast_natCast]
  have hword : n < 2 ^ 32 := by
    have hle := round_le_add_half a.value
    rw [hn, Int.cast_natCast] at hle
    exact_mod_cast (show (n : ℝ) < 2 ^ 32 by linarith)
  rw [toNat_toWord, hvalue, Nat.floor_natCast, hn, min_eq_left (Nat.le_sub_one_of_lt hword)]

theorem Exact.sub_add_cancel (a b : Exact circle) : a - b + b = a := by
  ext
  simp

namespace FixedPoint

/-! ## Steps and angles -/

/-- The angle over a number of steps. -/
noncomputable def angle (steps : UInt32) : Exact circle :=
  Scalar.ofWord steps * (Scalar.twoPi / fullTurn)

/-- How many steps there are in an angle. -/
noncomputable def count (angle : Exact circle) : Exact circle :=
  angle * (fullTurn / Scalar.twoPi)

/-- The whole number of steps that is nearest to an angle. -/
noncomputable def steps (angle : Exact circle) : UInt32 :=
  Scalar.toWord (Scalar.round (count angle))

/-- The angle over one step. -/
noncomputable def stepLength (circle : Circle) : ℝ :=
  (Scalar.twoPi / fullTurn : Exact circle).value

theorem value_fullTurn : (fullTurn : Exact circle).value = 2 ^ 32 - 1 := by
  have hword : UInt32.toNat 0xFFFFFFFF = 2 ^ 32 - 1 := rfl
  rw [fullTurn, Exact.value_ofWord, hword]
  norm_num

theorem fullTurn_pos : 0 < (fullTurn : Exact circle).value := by
  rw [value_fullTurn]
  norm_num

theorem stepLength_eq (circle : Circle) :
    stepLength circle = 2 * (circle.pi / (2 ^ 32 - 1)) := by
  rw [stepLength, Exact.value_div, Exact.value_twoPi, value_fullTurn, mul_div_assoc]

theorem stepLength_pos (circle : Circle) : 0 < stepLength circle :=
  div_pos (by rw [Exact.value_twoPi]; linarith [circle.pi_pos]) fullTurn_pos

theorem value_angle (word : UInt32) :
    (angle word : Exact circle).value = word.toNat * stepLength circle := rfl

theorem value_angle_nonneg (word : UInt32) : 0 ≤ (angle word : Exact circle).value :=
  mul_nonneg (Nat.cast_nonneg _) (stepLength_pos circle).le

theorem fullTurn_mul_stepLength (circle : Circle) :
    (2 ^ 32 - 1) * stepLength circle = 2 * circle.pi := by
  rw [stepLength_eq, mul_left_comm, mul_div_cancel₀ _ (by norm_num)]

/-- Steps that do not fill a full turn when they are taken some times over make up an angle that
does not either. -/
theorem mul_value_angle_lt (times : ℕ) {word : UInt32} (h : times * word.toNat < 2 ^ 32 - 1) :
    times * (angle word : Exact circle).value < 2 * circle.pi := by
  have hcast : (times * word.toNat : ℝ) < 2 ^ 32 - 1 := by
    rw [lt_sub_iff_add_lt]
    exact_mod_cast Nat.add_lt_of_lt_sub h
  rw [value_angle, ← mul_assoc, ← fullTurn_mul_stepLength]
  exact mul_lt_mul_of_pos_right hcast (stepLength_pos circle)

theorem count_mul_stepLength (a : Exact circle) :
    (count a).value * stepLength circle = a.value := by
  have hturn : (Scalar.twoPi : Exact circle).value ≠ 0 := by
    rw [Exact.value_twoPi]
    linarith [circle.pi_pos]
  rw [count, stepLength, Exact.value_mul, Exact.value_div, Exact.value_div, mul_assoc,
    div_mul_div_cancel₀ hturn, div_self fullTurn_pos.ne', mul_one]

theorem count_angle (word : UInt32) : (count (angle word : Exact circle)).value = word.toNat := by
  refine mul_right_cancel₀ (stepLength_pos circle).ne' ?_
  rw [count_mul_stepLength, value_angle]

/-- Whole steps are found again from the angle over them. -/
theorem steps_angle (word : UInt32) : steps (angle word : Exact circle) = word := by
  have hlow : 0 ≤ (count (angle word : Exact circle)).value := by
    rw [count_angle]
    exact Nat.cast_nonneg _
  have hhigh : (count (angle word : Exact circle)).value ≤ 2 ^ 32 - 1 := by
    have hword : word.toNat + 1 ≤ 2 ^ 32 := word.toNat_lt
    rw [count_angle, le_sub_iff_add_le]
    exact_mod_cast hword
  have hsteps := Exact.toNat_toWord_round hlow hhigh
  rw [count_angle, round_natCast] at hsteps
  exact UInt32.toNat_inj.1 (by exact_mod_cast hsteps)

/-- The angle over the nearest steps is half a step away at most. -/
theorem abs_angle_steps_sub_le {a : Exact circle} (hlow : 0 ≤ a.value)
    (hhigh : a.value ≤ 2 * circle.pi) :
    |(angle (steps a) : Exact circle).value - a.value| ≤ circle.pi / (2 ^ 32 - 1) := by
  have hstep := stepLength_pos circle
  have hnonneg : 0 ≤ (count a).value := by
    refine nonneg_of_mul_nonneg_left ?_ hstep
    rwa [count_mul_stepLength]
  have hword : (count a).value ≤ 2 ^ 32 - 1 := by
    refine le_of_mul_le_mul_right ?_ hstep
    rwa [count_mul_stepLength, fullTurn_mul_stepLength]
  have hsteps : ((steps a).toNat : ℝ) = round (count a).value := by
    exact_mod_cast congrArg (Int.cast : ℤ → ℝ) (Exact.toNat_toWord_round hnonneg hword)
  have hmoved : (angle (steps a) : Exact circle).value - a.value =
      (round (count a).value - (count a).value) * stepLength circle := by
    rw [value_angle, hsteps, sub_mul, count_mul_stepLength]
  calc |(angle (steps a) : Exact circle).value - a.value|
      = |(count a).value - round (count a).value| * stepLength circle := by
        rw [hmoved, abs_mul, abs_of_pos hstep, abs_sub_comm]
    _ ≤ 1 / 2 * stepLength circle := mul_le_mul_of_nonneg_right (abs_sub_round _) hstep.le
    _ = circle.pi / (2 ^ 32 - 1) := by rw [stepLength_eq]; ring

/-! ## Positions -/

theorem toPosition_eq (p : FixedPoint) :
    (p.toPosition : Position (Exact circle)) =
      ⟨angle p.y - Scalar.halfPi, angle p.x - Scalar.pi⟩ := rfl

/-- A position of the world west of its eastern edge has its angles counted as they are. -/
theorem ofPosition_of_lt {p : Position (Exact circle)}
    (hp : (Rectangle.world : Rectangle (Exact circle)).contains p)
    (h : p.longitude.value < circle.pi) :
    ofPosition p = ⟨steps (p.longitude + Scalar.pi), steps (p.latitude + Scalar.halfPi)⟩ := by
  rw [ofPosition, p.normalized_eq_bounded, Position.bounded_of_lt hp h]
  rfl

/-- Steps are found again from their position before the eastern edge of the world and up to the
north pole, which lies between two numbers of steps. -/
theorem ofPosition_toPosition {p : FixedPoint} (hx : p.x.toNat < 2 ^ 32 - 1)
    (hy : p.y.toNat < 2 ^ 31) : ofPosition (p.toPosition : Position (Exact circle)) = p := by
  have hsouth : 0 ≤ (angle p.y : Exact circle).value := value_angle_nonneg p.y
  have hwest : 0 ≤ (angle p.x : Exact circle).value := value_angle_nonneg p.x
  have hnorth : 2 * (angle p.y : Exact circle).value < 2 * circle.pi :=
    mul_value_angle_lt 2 (by omega)
  have heast : 1 * (angle p.x : Exact circle).value < 2 * circle.pi := by
    exact_mod_cast mul_value_angle_lt 1 (by omega)
  have hworld : (Rectangle.world : Rectangle (Exact circle)).contains p.toPosition := by
    rw [Rectangle.world_contains_iff, toPosition_eq]
    simp only [Exact.value_sub, Exact.value_halfPi, Exact.value_pi]
    refine ⟨⟨?_, ?_⟩, ?_, ?_⟩ <;> linarith
  have hedge : (p.toPosition : Position (Exact circle)).longitude.value < circle.pi := by
    rw [toPosition_eq, Exact.value_sub, Exact.value_pi]
    linarith
  rw [ofPosition_of_lt hworld hedge, toPosition_eq, Exact.sub_add_cancel, Exact.sub_add_cancel,
    steps_angle, steps_angle]

/-- Each angle of a position of the world is moved by half a step at most. -/
theorem abs_toPosition_ofPosition_sub_le {p : Position (Exact circle)}
    (hp : (Rectangle.world : Rectangle (Exact circle)).contains p)
    (h : p.longitude.value < circle.pi) :
    |((ofPosition p).toPosition : Position (Exact circle)).latitude.value - p.latitude.value| ≤
        circle.pi / (2 ^ 32 - 1) ∧
      |((ofPosition p).toPosition : Position (Exact circle)).longitude.value - p.longitude.value| ≤
        circle.pi / (2 ^ 32 - 1) := by
  have hpi := circle.pi_pos
  obtain ⟨⟨hsouth, hnorth⟩, hwest, -⟩ := (Rectangle.world_contains_iff p).1 hp
  rw [ofPosition_of_lt hp h, toPosition_eq]
  have hlatitude : |(angle (steps (p.latitude + Scalar.halfPi)) : Exact circle).value -
      (p.latitude + Scalar.halfPi).value| ≤ circle.pi / (2 ^ 32 - 1) := by
    apply abs_angle_steps_sub_le <;> rw [Exact.value_add, Exact.value_halfPi] <;> linarith
  have hlongitude : |(angle (steps (p.longitude + Scalar.pi)) : Exact circle).value -
      (p.longitude + Scalar.pi).value| ≤ circle.pi / (2 ^ 32 - 1) := by
    apply abs_angle_steps_sub_le <;> rw [Exact.value_add, Exact.value_pi] <;> linarith
  rw [Exact.value_add, ← sub_sub, sub_right_comm] at hlatitude hlongitude
  exact ⟨hlatitude, hlongitude⟩

/-- Fixed point positions. The steps of a position before the eastern edge of the world and not
behind the north pole are found again exactly. A position from pole to pole and from longitude `-π`
to before `π` is moved by half a step at most in each direction, the poles and the places half a
step between two numbers of steps included. -/
theorem position_round_trips :
    (∀ p : FixedPoint, p.x.toNat < 2 ^ 32 - 1 → p.y.toNat < 2 ^ 31 →
      ofPosition (p.toPosition : Position (Exact circle)) = p) ∧
    ∀ p : Position (Exact circle),
      p.latitude.value ∈ Set.Icc (-(circle.pi / 2)) (circle.pi / 2) →
      p.longitude.value ∈ Set.Ico (-circle.pi) circle.pi →
      |((ofPosition p).toPosition : Position (Exact circle)).latitude.value - p.latitude.value| ≤
          circle.pi / (2 ^ 32 - 1) ∧
        |((ofPosition p).toPosition : Position (Exact circle)).longitude.value -
            p.longitude.value| ≤ circle.pi / (2 ^ 32 - 1) := by
  refine ⟨fun p hx hy => ofPosition_toPosition hx hy, fun p hlatitude hlongitude => ?_⟩
  have hworld : (Rectangle.world : Rectangle (Exact circle)).contains p :=
    (Rectangle.world_contains_iff p).2 ⟨hlatitude, hlongitude.1, hlongitude.2.le⟩
  exact abs_toPosition_ofPosition_sub_le hworld hlongitude.2

/-- The last steps before the eastern edge and the north pole are found again. The pole itself lies
between two numbers of steps. -/
theorem position_round_trips_corner :
    let circle : Circle := .usual fun value _ => value
    let p : FixedPoint := ⟨0xFFFFFFFE, 0x7FFFFFFF⟩
    let pole : Position (Exact circle) := ⟨Scalar.halfPi, -Scalar.pi⟩
    (p.x.toNat < 2 ^ 32 - 1 ∧ p.y.toNat < 2 ^ 31) ∧
      ofPosition (p.toPosition : Position (Exact circle)) = p ∧
      pole.latitude.value ∈ Set.Icc (-(circle.pi / 2)) (circle.pi / 2) ∧
      pole.longitude.value ∈ Set.Ico (-circle.pi) circle.pi ∧
      |((ofPosition pole).toPosition : Position (Exact circle)).latitude.value -
        pole.latitude.value| ≤ circle.pi / (2 ^ 32 - 1) := by
  intro circle p pole
  have hpi := circle.pi_pos
  have hx : p.x.toNat < 2 ^ 32 - 1 := by decide
  have hy : p.y.toNat < 2 ^ 31 := by decide
  have hlatitude : pole.latitude.value ∈ Set.Icc (-(circle.pi / 2)) (circle.pi / 2) := by
    rw [show pole.latitude.value = circle.pi / 2 from Exact.value_halfPi]
    exact ⟨by linarith, le_rfl⟩
  have hlongitude : pole.longitude.value ∈ Set.Ico (-circle.pi) circle.pi :=
    ⟨le_rfl, Exact.neg_pi_lt_pi⟩
  exact ⟨⟨hx, hy⟩, position_round_trips.1 p hx hy, hlatitude, hlongitude,
    (position_round_trips.2 pole hlatitude hlongitude).1⟩

end FixedPoint

end TilePyramid
