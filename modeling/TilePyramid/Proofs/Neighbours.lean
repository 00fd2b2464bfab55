import TilePyramid.Proofs.Ranks

/-!
# Neighbouring numbers

The ranks of the numbers are the whole numbers from that of one infinity to that of the other, and
`nextAfter` goes one rank on (`rank_nextAfter_of_lt`, `rank_nextAfter_of_gt`). So nothing lies
between a number and its neighbour. What a word stands for is `number`, an extended real number,
and ranks are in the order of these (`number_lt_iff`). The main statement, `nextAfter_isNeighbour`,
is about the numbers, and about the comparisons of `Float`.
-/

namespace TilePyramid.Binary64

open Float.Model.UnpackedFloat

variable {x y toward : UInt64}

/-! ## Numbers -/

/-- The size of a number in units with the sign of the number. -/
def signedUnits (bits : UInt64) : ℤ := (sign bits).apply (units bits)

/-- What a word stands for if it is defined, in units. -/
noncomputable def number (bits : UInt64) : EReal :=
  if isInfinite bits then if isNegative bits then ⊥ else ⊤ else ((signedUnits bits : ℝ) : EReal)

theorem units_lt_of_magnitude_lt (h : magnitude x < magnitude y) : units x < units y := by
  have hx := significand_add_scale x
  have hy := significand_add_scale y
  unfold units
  rcases lt_trichotomy (scale x) (scale y) with hscale | hscale | hscale
  · obtain ⟨rest, hrest⟩ := Nat.exists_eq_add_of_lt hscale
    have hpow : Nat.pow 2 (scale y) = 2 * Nat.pow 2 rest * Nat.pow 2 (scale x) := by
      rw [hrest, Nat.pow_eq, Nat.pow_eq, Nat.pow_eq, pow_succ, pow_add]
      ring
    -- A significand of a scale above the least has its leading bit, so one place makes up for it.
    calc significand x * Nat.pow 2 (scale x)
        < fractionCount * 2 * Nat.pow 2 (scale x) := by
          refine Nat.mul_lt_mul_of_pos_right ?_ (Nat.pow_pos (by decide))
          rw [Nat.mul_comm]
          exact significand_lt x
      _ ≤ significand y * (2 * Nat.pow 2 rest) * Nat.pow 2 (scale x) := by
          refine Nat.mul_le_mul_right _ (Nat.mul_le_mul (le_significand (by omega)) ?_)
          exact Nat.le_mul_of_pos_right 2 (Nat.pow_pos (by decide))
      _ = significand y * Nat.pow 2 (scale y) := by rw [hpow, Nat.mul_assoc]
  · rw [hscale] at hx ⊢
    exact Nat.mul_lt_mul_of_pos_right (by omega) (Nat.pow_pos (by decide))
  · exact absurd h (magnitude_lt_of_scale_lt hscale).not_gt

/-- Sizes are in the order of the magnitudes. -/
theorem units_lt_iff : units x < units y ↔ magnitude x < magnitude y := by
  refine ⟨fun h => ?_, units_lt_of_magnitude_lt⟩
  by_contra hle
  rcases (not_lt.1 hle).lt_or_eq with hlt | heq
  · exact h.not_gt (units_lt_of_magnitude_lt hlt)
  · have hscale : scale x = scale y := by rw [scale, scale, heq]
    have hsignificand : significand x = significand y := by
      rw [significand, significand, heq]
    rw [units, units, hscale, hsignificand] at h
    exact lt_irrefl _ h

theorem units_pos_iff : 0 < units x ↔ 0 < magnitude x := units_lt_iff (x := 0)

theorem signedUnits_lt_iff : signedUnits x < signedUnits y ↔ rank x < rank y := by
  have hboth := @units_lt_iff x y
  have hboth' := @units_lt_iff y x
  have hx := @units_pos_iff x
  have hy := @units_pos_iff y
  rw [signedUnits, signedUnits, rank_eq, rank_eq]
  cases sign x <;> cases sign y <;> simp only [Sign.apply] <;> omega

/-- A defined word stands for an infinity or for its units. -/
theorem number_cases (h : isNaN x = false) :
    (rank x = -infinity ∧ number x = ⊥) ∨ (rank x = infinity ∧ number x = ⊤) ∨
      (-(infinity : ℤ) < rank x ∧ rank x < infinity ∧ number x = ((signedUnits x : ℝ) : EReal)) := by
  have hdefined : ¬ infinity < magnitude x := of_decide_eq_false h
  rw [number, rank]
  by_cases hinfinite : isInfinite x = true
  · rw [if_pos hinfinite, of_decide_eq_true hinfinite]
    split
    · exact .inl ⟨rfl, rfl⟩
    · exact .inr (.inl ⟨rfl, rfl⟩)
  · have hfinite : magnitude x ≠ infinity := fun heq => hinfinite (decide_eq_true heq)
    rw [if_neg hinfinite]
    refine .inr (.inr ⟨?_, ?_, rfl⟩) <;> split <;> omega

/-- Numbers are in the order of the ranks. -/
theorem number_lt_iff (hx : isNaN x = false) (hy : isNaN y = false) :
    number x < number y ↔ rank x < rank y := by
  have hinfinity := infinity_pos
  rcases number_cases hx with ⟨hrank, hx⟩ | ⟨hrank, hx⟩ | ⟨hlower, hupper, hx⟩ <;>
    rcases number_cases hy with ⟨hrank', hy⟩ | ⟨hrank', hy⟩ | ⟨hlower', hupper', hy⟩ <;>
    rw [hx, hy]
  · exact iff_of_false (lt_irrefl _) (by omega)
  · exact iff_of_true bot_lt_top (by omega)
  · exact iff_of_true (EReal.bot_lt_coe _) (by omega)
  · exact iff_of_false not_top_lt (by omega)
  · exact iff_of_false not_top_lt (by omega)
  · exact iff_of_false not_top_lt (by omega)
  · exact iff_of_false not_lt_bot (by omega)
  · exact iff_of_true (EReal.coe_lt_top _) (by omega)
  · exact EReal.coe_lt_coe_iff.trans (Int.cast_lt.trans signedUnits_lt_iff)

theorem number_le_iff (hx : isNaN x = false) (hy : isNaN y = false) :
    number x ≤ number y ↔ rank x ≤ rank y := by
  rw [← not_lt, number_lt_iff hy hx, not_lt]

/-! ## One rank further -/

/-- A word is defined exactly if its rank is not beyond those of the infinities. -/
theorem isNaN_eq_false_iff : isNaN x = false ↔ -(infinity : ℤ) ≤ rank x ∧ rank x ≤ infinity := by
  rw [isNaN, rank, decide_eq_false_iff_not]
  split <;> omega

/-- The words with the sign bit count downwards. -/
theorem rank_eq_toNat (x : UInt64) :
    rank x = if x.toNat < 9223372036854775808 then (x.toNat : ℤ)
      else 9223372036854775808 - x.toNat := by
  have hword := x.toNat_lt
  have hsign : signBit = 9223372036854775808 := rfl
  rw [rank, isNegative, magnitude, hsign]
  by_cases h : x.toNat < 9223372036854775808
  · rw [if_pos h, decide_eq_false (not_le.2 h), if_neg Bool.false_ne_true, Nat.mod_eq_of_lt h]
  · rw [if_neg h, decide_eq_true (not_lt.1 h), if_pos rfl]
    omega

/-- The next word is one rank further from zero. -/
theorem rank_add_one (hlower : -(infinity : ℤ) < rank x) (hupper : rank x < infinity)
    (hzero : rank x ≠ 0) : rank (x + 1) = if 0 < rank x then rank x + 1 else rank x - 1 := by
  have hinfinity : infinity = 9218868437227405312 := rfl
  have hrank := rank_eq_toNat x
  have hrank' := rank_eq_toNat (x + 1)
  have hnext : (x + 1).toNat = x.toNat + 1 := by
    rw [UInt64.toNat_add]
    refine Nat.mod_eq_of_lt ?_
    show x.toNat + 1 < 18446744073709551616
    omega
  omega

/-- The word before is one rank nearer to zero. -/
theorem rank_sub_one (hzero : rank x ≠ 0) :
    rank (x - 1) = if 0 < rank x then rank x - 1 else rank x + 1 := by
  have hrank := rank_eq_toNat x
  have hrank' := rank_eq_toNat (x - 1)
  have hbefore : (x - 1).toNat = x.toNat - 1 := by
    refine UInt64.toNat_sub_of_le _ _ (UInt64.le_iff_toNat_le.2 ?_)
    show 1 ≤ x.toNat
    omega
  omega

/-- On the way up the neighbour has the next rank. -/
theorem rank_nextAfter_of_lt (hx : isNaN x = false) (htoward : isNaN toward = false)
    (h : rank x < rank toward) : rank (nextAfter x toward) = rank x + 1 := by
  obtain ⟨hlower, -⟩ := isNaN_eq_false_iff.1 hx
  obtain ⟨-, hupper⟩ := isNaN_eq_false_iff.1 htoward
  rw [nextAfter, hx, htoward, if_neg (by decide), if_neg h.ne]
  rcases lt_trichotomy (rank x) 0 with hnegative | hzero | hpositive
  · rw [if_neg hnegative.ne, if_neg (by omega), rank_sub_one hnegative.ne, if_neg hnegative.not_gt]
  · rw [if_pos hzero, decide_eq_false h.not_gt, hzero]
    decide
  · rw [if_neg hpositive.ne', if_pos (by omega),
      rank_add_one (by omega) (by omega) hpositive.ne', if_pos hpositive]

/-- On the way down the neighbour has the rank before. -/
theorem rank_nextAfter_of_gt (hx : isNaN x = false) (htoward : isNaN toward = false)
    (h : rank toward < rank x) : rank (nextAfter x toward) = rank x - 1 := by
  obtain ⟨-, hupper⟩ := isNaN_eq_false_iff.1 hx
  obtain ⟨hlower, -⟩ := isNaN_eq_false_iff.1 htoward
  rw [nextAfter, hx, htoward, if_neg (by decide), if_neg h.ne']
  rcases lt_trichotomy (rank x) 0 with hnegative | hzero | hpositive
  · rw [if_neg hnegative.ne, if_pos (by omega),
      rank_add_one (by omega) (by omega) hnegative.ne, if_neg hnegative.not_gt]
  · rw [if_pos hzero, decide_eq_true h, hzero]
    decide
  · rw [if_neg hpositive.ne', if_neg (by omega), rank_sub_one hpositive.ne', if_pos hpositive]

/-! ## Neighbours -/

/-- The word `y` is the neighbour of `x` on the way to `toward`: it lies past `x` and not past
`toward`, and no number lies between `x` and it. -/
structure IsNeighbour (x toward y : UInt64) : Prop where
  isNaN_eq_false : isNaN y = false
  upward : number x < number toward → number x < number y ∧ number y ≤ number toward
  downward : number toward < number x → number y < number x ∧ number toward ≤ number y
  nothing_between : ∀ z, isNaN z = false →
    ¬ (number x < number z ∧ number z < number y) ∧ ¬ (number y < number z ∧ number z < number x)

theorem isNaN_nextAfter (hx : isNaN x = false) (htoward : isNaN toward = false)
    (h : rank x ≠ rank toward) : isNaN (nextAfter x toward) = false := by
  have hrange := isNaN_eq_false_iff.1 hx
  have hrange' := isNaN_eq_false_iff.1 htoward
  rw [isNaN_eq_false_iff]
  rcases lt_or_gt_of_ne h with hlt | hgt
  · rw [rank_nextAfter_of_lt hx htoward hlt]
    omega
  · rw [rank_nextAfter_of_gt hx htoward hgt]
    omega

theorem isNeighbour_nextAfter (hx : isNaN x = false) (htoward : isNaN toward = false)
    (h : number x ≠ number toward) : IsNeighbour x toward (nextAfter x toward) := by
  have hranks : rank x ≠ rank toward := by
    rcases lt_or_gt_of_ne h with hlt | hgt
    · exact ((number_lt_iff hx htoward).1 hlt).ne
    · exact ((number_lt_iff htoward hx).1 hgt).ne'
  have hdefined := isNaN_nextAfter hx htoward hranks
  have hup := rank_nextAfter_of_lt hx htoward
  have hdown := rank_nextAfter_of_gt hx htoward
  refine ⟨hdefined, fun hlt => ?_, fun hgt => ?_, fun z hz => ?_⟩
  · rw [number_lt_iff hx htoward] at hlt
    rw [number_lt_iff hx hdefined, number_le_iff hdefined htoward, hup hlt]
    omega
  · rw [number_lt_iff htoward hx] at hgt
    rw [number_lt_iff hdefined hx, number_le_iff htoward hdefined, hdown hgt]
    omega
  · rw [number_lt_iff hx hz, number_lt_iff hz hdefined, number_lt_iff hdefined hz,
      number_lt_iff hz hx]
    omega

/-! ## Neighbours of floating point numbers -/

/-- A word that is defined is kept. -/
theorem toBits_ofBits (h : isNaN x = false) : (Float.ofBits x).toBits = x := by
  have hvalid : Float.Model.Format.binary64.Valid x.toBitVec := by
    refine ⟨fun hones hfraction => ?_⟩
    rw [unpackExponent_eq_ones_iff] at hones
    have hinfinite : magnitude x = infinity := (not_lt.1 (of_decide_eq_false h)).antisymm hones
    rw [Ne, unpackMantissa_eq_zero_iff, hinfinite] at hfraction
    exact absurd (Nat.mul_mod_left 2047 fractionCount) hfraction
  exact congrArg Float.toBits (Float.ofBits_toBits ⟨⟨x, hvalid⟩⟩)

theorem toBits_nextAfter {a b : Float} (ha : a.isNaN = false) (hb : b.isNaN = false)
    (h : rank a.toBits ≠ rank b.toBits) :
    (Scalar.nextAfter a b).toBits = nextAfter a.toBits b.toBits ∧
      (Scalar.nextAfter a b).isNaN = false := by
  have hdefined := isNaN_nextAfter ((isNaN_toBits a).trans ha) ((isNaN_toBits b).trans hb) h
  have hbits : (Scalar.nextAfter a b).toBits = nextAfter a.toBits b.toBits := toBits_ofBits hdefined
  rw [← isNaN_toBits, hbits]
  exact ⟨rfl, hdefined⟩

/-- Of all numbers above a number, its neighbour on the way up is the least. -/
theorem nextAfter_of_lt {a b : Float} (h : a < b) :
    a < Scalar.nextAfter a b ∧ Scalar.nextAfter a b ≤ b ∧ ∀ z, a < z → Scalar.nextAfter a b ≤ z := by
  obtain ⟨ha, hb, hlt⟩ := (lt_iff_rank_lt a b).1 h
  obtain ⟨hbits, hdefined⟩ := toBits_nextAfter ha hb hlt.ne
  have hrank := rank_nextAfter_of_lt ((isNaN_toBits a).trans ha) ((isNaN_toBits b).trans hb) hlt
  simp only [lt_iff_rank_lt, le_iff_rank_le, hbits, hrank, hdefined, ha, hb, true_and]
  exact ⟨by omega, by omega, fun z hz => ⟨hz.1, by omega⟩⟩

/-- Of all numbers below a number, its neighbour on the way down is the greatest. -/
theorem nextAfter_of_gt {a b : Float} (h : b < a) :
    Scalar.nextAfter a b < a ∧ b ≤ Scalar.nextAfter a b ∧ ∀ z, z < a → z ≤ Scalar.nextAfter a b := by
  obtain ⟨hb, ha, hgt⟩ := (lt_iff_rank_lt b a).1 h
  obtain ⟨hbits, hdefined⟩ := toBits_nextAfter ha hb hgt.ne'
  have hrank := rank_nextAfter_of_gt ((isNaN_toBits a).trans ha) ((isNaN_toBits b).trans hb) hgt
  simp only [lt_iff_rank_lt, le_iff_rank_le, hbits, hrank, hdefined, ha, hb, true_and]
  exact ⟨by omega, by omega, fun z hz => ⟨hz.1, by omega⟩⟩

/-- Neighbouring numbers. For two words of different numbers, with the infinities among the numbers
and both zeros the same number, `nextAfter` gives the neighbour of the first one on the way to the
second. For floating point numbers it gives the least number above, or the greatest number below,
and does not pass the second. -/
theorem nextAfter_isNeighbour :
    (∀ x toward : UInt64, isNaN x = false → isNaN toward = false → number x ≠ number toward →
      IsNeighbour x toward (nextAfter x toward)) ∧
    (∀ a b : Float, a < b →
      a < Scalar.nextAfter a b ∧ Scalar.nextAfter a b ≤ b ∧
        ∀ z, a < z → Scalar.nextAfter a b ≤ z) ∧
    ∀ a b : Float, b < a →
      Scalar.nextAfter a b < a ∧ b ≤ Scalar.nextAfter a b ∧
        ∀ z, z < a → z ≤ Scalar.nextAfter a b :=
  ⟨fun _ _ => isNeighbour_nextAfter, fun _ _ => nextAfter_of_lt, fun _ _ => nextAfter_of_gt⟩

/-- The neighbour of the greatest number below zero on the way to zero is zero, that of zero on the
way down is the greatest number below it, that of the largest finite number is the infinity, and that
of 1 on the way to 2 is the least number above 1. -/
theorem nextAfter_isNeighbour_zero :
    let below : UInt64 := 0x8000000000000001
    let largest : UInt64 := 0x7FEFFFFFFFFFFFFF
    let infinite : UInt64 := 0x7FF0000000000000
    isNaN below = false ∧ isNaN 0 = false ∧ number below ≠ number 0 ∧
      nextAfter below 0 = 0x8000000000000000 ∧ IsNeighbour below 0 (nextAfter below 0) ∧
      number 0 ≠ number below ∧
      nextAfter 0 below = below ∧ IsNeighbour 0 below (nextAfter 0 below) ∧
      isNaN largest = false ∧ isNaN infinite = false ∧ number largest ≠ number infinite ∧
      nextAfter largest infinite = infinite ∧
      IsNeighbour largest infinite (nextAfter largest infinite) ∧
      (1.0 : Float) < 2.0 ∧ ∀ z : Float, 1.0 < z → Scalar.nextAfter 1.0 2.0 ≤ z := by
  intro below largest infinite
  obtain ⟨hnext, hup, -⟩ := nextAfter_isNeighbour
  have hbelow : number below < number 0 :=
    (number_lt_iff (by decide) (by decide)).2 (by decide)
  have hlargest : number largest < number infinite :=
    (number_lt_iff (by decide) (by decide)).2 (by decide)
  have hone : (1.0 : Float) < 2.0 := by decide
  exact ⟨by decide, by decide, hbelow.ne, by decide,
    hnext below 0 (by decide) (by decide) hbelow.ne, hbelow.ne', by decide,
    hnext 0 below (by decide) (by decide) hbelow.ne', by decide, by decide, hlargest.ne, by decide,
    hnext largest infinite (by decide) (by decide) hlargest.ne, hone, (hup 1.0 2.0 hone).2.2⟩

end TilePyramid.Binary64
