import TilePyramid.Binary64.Arithmetic
import TilePyramid.Proofs.Ordered

/-!
# The order of floating point numbers

The words of floating point numbers order them: `rank` is the place of a number on a line. This
module shows that the comparisons of `Float` are those of the ranks, with nothing compared to an
undefined value, and that the rounded difference of two numbers in order is not below zero. So
floating point numbers are ordered scalars.

`Reads` takes a word apart as the arithmetic does: a number that is neither zero nor infinite is
its significand, scaled. Scale and significand make up the magnitude, and they order it first by
the scale and then by the significand.
-/

namespace TilePyramid.Binary64

open Float.Model (Format UnpackedFloat)
open Float.Model.UnpackedFloat

/-- The sign of a number. -/
def sign (bits : UInt64) : Sign := if isNegative bits then .negative else .positive

theorem rank_eq (bits : UInt64) : rank bits = (sign bits).apply (magnitude bits) := by
  rw [rank, sign]
  split <;> rfl

theorem fractionCount_eq : fractionCount = 4503599627370496 := rfl

theorem infinity_pos : 0 < infinity := by decide

/-! ## Magnitudes -/

theorem magnitude_lt (bits : UInt64) : magnitude bits < 9223372036854775808 :=
  Nat.mod_lt _ (by decide)

theorem significand_of_lt {bits : UInt64} (h : magnitude bits < fractionCount) :
    significand bits = magnitude bits := if_pos h

theorem significand_of_le {bits : UInt64} (h : fractionCount ≤ magnitude bits) :
    significand bits = fractionCount + magnitude bits % fractionCount := if_neg (not_lt.2 h)

/-- The words of one scale are as many as there are fractions. -/
theorem significand_add_scale (bits : UInt64) :
    significand bits + fractionCount * scale bits = magnitude bits := by
  rw [significand, scale, fractionCount_eq]
  split <;> omega

theorem significand_lt (bits : UInt64) : significand bits < 2 * fractionCount := by
  rw [significand, fractionCount_eq]
  split <;> omega

theorem le_significand {bits : UInt64} (h : 0 < scale bits) :
    fractionCount ≤ significand bits := by
  rw [scale, fractionCount_eq] at h
  rw [significand, fractionCount_eq]
  split <;> omega

theorem magnitude_lt_of_scale_lt {x y : UInt64} (h : scale x < scale y) :
    magnitude x < magnitude y := by
  have hx := significand_add_scale x
  have hy := significand_add_scale y
  have hlt := significand_lt x
  have hle : fractionCount ≤ significand y := le_significand (by omega)
  rw [fractionCount_eq] at *
  omega

/-- Comparing scales and then significands compares magnitudes. -/
theorem scale_then_significand_compares (x y : UInt64) :
    ((compare (scale x - 1074 : ℤ) (scale y - 1074)).then
      (compare (significand x) (significand y))).Compares
        (magnitude x : ℤ) (magnitude y) := by
  have hx := significand_add_scale x
  have hy := significand_add_scale y
  rcases lt_trichotomy (scale x) (scale y) with h | h | h
  · rw [compare_lt_iff_lt.2 (by omega)]
    exact Int.ofNat_lt.2 (magnitude_lt_of_scale_lt h)
  · rw [h, compare_eq_iff_eq.2 rfl, Ordering.eq_then]
    rw [h] at hx
    rcases lt_trichotomy (significand x) (significand y) with h' | h' | h'
    · rw [compare_lt_iff_lt.2 h']
      show (magnitude x : ℤ) < magnitude y
      omega
    · rw [compare_eq_iff_eq.2 h']
      show (magnitude x : ℤ) = magnitude y
      omega
    · rw [compare_gt_iff_gt.2 h']
      show (magnitude y : ℤ) < magnitude x
      omega
  · rw [compare_gt_iff_gt.2 (by omega)]
    exact Int.ofNat_lt.2 (magnitude_lt_of_scale_lt h)

/-- Significands that are shifted to the lesser of their scales are in the order of the
magnitudes. -/
theorem significand_shift_le {x y : UInt64} (h : magnitude x ≤ magnitude y) :
    significand x <<< (scale x - min (scale x) (scale y)) ≤
      significand y <<< (scale y - min (scale x) (scale y)) := by
  have hx := significand_add_scale x
  have hy := significand_add_scale y
  rcases lt_trichotomy (scale x) (scale y) with hscale | hscale | hscale
  · rw [min_eq_left hscale.le, Nat.sub_self, Nat.shiftLeft_zero, Nat.shiftLeft_eq]
    -- A significand of a scale above the least has its leading bit, so one place makes up for it.
    calc significand x
        ≤ fractionCount * 2 := by
          have := significand_lt x
          omega
      _ ≤ significand y * 2 ^ (scale y - scale x) :=
          Nat.mul_le_mul (le_significand (by omega)) (Nat.le_self_pow (by omega) 2)
  · rw [hscale] at hx ⊢
    rw [min_self, Nat.sub_self, Nat.shiftLeft_zero, Nat.shiftLeft_zero]
    omega
  · exact absurd h (not_le.2 (magnitude_lt_of_scale_lt hscale))

/-! ## What a word stands for -/

theorem toNat_unpackMantissa (bits : UInt64) :
    (@unpackMantissa Format.binary64 bits.toBitVec).toNat =
      magnitude bits % fractionCount := by
  rw [unpackMantissa_def, BitVec.extractLsb'_toNat]
  show bits.toNat >>> 0 % 2 ^ 52 = bits.toNat % 9223372036854775808 % 4503599627370496
  rw [Nat.shiftRight_zero]
  omega

theorem toNat_unpackExponent (bits : UInt64) :
    (@unpackExponent Format.binary64 bits.toBitVec).toNat =
      magnitude bits / fractionCount := by
  rw [unpackExponent_def, BitVec.extractLsb'_toNat]
  show bits.toNat >>> 52 % 2 ^ 11 = bits.toNat % 9223372036854775808 / 4503599627370496
  rw [Nat.shiftRight_eq_div_pow]
  omega

theorem ofBitVec_unpackSign (bits : UInt64) :
    Sign.ofBitVec (@unpackSign Format.binary64 bits.toBitVec) = sign bits := by
  have hword := bits.toNat_lt
  have hsign : @unpackSign Format.binary64 bits.toBitVec = 0#1 ↔
      ¬ isNegative bits = true := by
    rw [unpackSign_def, ← BitVec.toNat_inj, BitVec.extractLsb'_toNat, isNegative,
      decide_eq_true_iff]
    show bits.toNat >>> 63 % 2 ^ 1 = 0 ↔ ¬ 9223372036854775808 ≤ bits.toNat
    rw [Nat.shiftRight_eq_div_pow]
    omega
  simp only [Sign.ofBitVec, sign, hsign, ite_not]

theorem unpackMantissa_eq_zero_iff (bits : UInt64) :
    @unpackMantissa Format.binary64 bits.toBitVec = 0#_ ↔
      magnitude bits % fractionCount = 0 := by
  rw [← BitVec.toNat_inj, toNat_unpackMantissa]
  rfl

theorem unpackExponent_eq_zero_iff (bits : UInt64) :
    @unpackExponent Format.binary64 bits.toBitVec = 0#_ ↔
      magnitude bits < fractionCount := by
  rw [← BitVec.toNat_inj, toNat_unpackExponent]
  show magnitude bits / 4503599627370496 = 0 ↔ magnitude bits < 4503599627370496
  omega

theorem unpackExponent_eq_ones_iff (bits : UInt64) :
    @unpackExponent Format.binary64 bits.toBitVec = -1#_ ↔
      infinity ≤ magnitude bits := by
  have hword := magnitude_lt bits
  rw [← BitVec.toNat_inj, toNat_unpackExponent]
  show magnitude bits / 4503599627370496 = 2047 ↔ 2047 * 4503599627370496 ≤ magnitude bits
  omega

/-- The number, or the undefined value, that a word stands for. -/
inductive Reads (bits : UInt64) : UnpackedFloat → Prop
  | notANumber (h : infinity < magnitude bits) : Reads bits .notANumber
  | infinity (h : magnitude bits = infinity) : Reads bits (.infinity (sign bits))
  | zero (h : magnitude bits = 0) : Reads bits (.zero (sign bits))
  | finite {mantissa : Nat} {exponent : Int} (hmantissa : 0 < mantissa)
      (hpos : 0 < magnitude bits) (hlt : magnitude bits < infinity)
      (hsignificand : mantissa = significand bits) (hscale : exponent = scale bits - 1074) :
      Reads bits (.finite (sign bits) mantissa exponent hmantissa)

theorem reads_unpack (bits : UInt64) :
    Reads bits (UnpackedFloat.unpack Format.binary64 bits.toBitVec) := by
  have hinfinity : infinity = 2047 * 4503599627370496 := rfl
  unfold UnpackedFloat.unpack
  simp only [ofBitVec_unpackSign]
  split
  case isTrue hones =>
    rw [unpackExponent_eq_ones_iff] at hones
    split
    case isTrue hzero =>
      rw [unpackMantissa_eq_zero_iff, fractionCount_eq] at hzero
      have := magnitude_lt bits
      exact .infinity (by omega)
    case isFalse hzero =>
      rw [unpackMantissa_eq_zero_iff, fractionCount_eq] at hzero
      exact .notANumber (by omega)
  case isFalse hones =>
    rw [unpackExponent_eq_ones_iff] at hones
    split
    case isTrue hleast =>
      rw [unpackExponent_eq_zero_iff] at hleast
      split
      case isTrue hzero =>
        rw [unpackMantissa_eq_zero_iff, Nat.mod_eq_of_lt hleast] at hzero
        exact .zero hzero
      case isFalse hzero =>
        rw [unpackMantissa_eq_zero_iff, Nat.mod_eq_of_lt hleast] at hzero
        refine .finite _ (Nat.pos_of_ne_zero hzero) (not_le.1 hones) ?_ ?_
        · rw [toNat_unpackMantissa, significand_of_lt hleast, Nat.mod_eq_of_lt hleast]
        · rw [toNat_unpackExponent, scale, Nat.div_eq_of_lt hleast]
          rfl
    case isFalse hleast =>
      rw [unpackExponent_eq_zero_iff, not_lt] at hleast
      refine .finite _ (lt_of_lt_of_le (by decide) hleast) (not_le.1 hones) ?_ ?_
      · rw [BitVec.toNat_append, ← Nat.shiftLeft_add_eq_or_of_lt (BitVec.isLt _),
          toNat_unpackMantissa, significand_of_le hleast]
        rfl
      · rw [toNat_unpackExponent, scale]
        rw [fractionCount_eq] at hleast ⊢
        show (magnitude bits / 4503599627370496 : ℕ) - (1023 + 52 : ℤ) =
          (magnitude bits / 4503599627370496 - 1 : ℕ) - 1074
        omega

theorem Reads.isNaN_eq {bits : UInt64} {a : UnpackedFloat} (h : Reads bits a) :
    a.isNaN = isNaN bits := by
  have hinfinity := infinity_pos
  cases h with
  | notANumber h => exact (decide_eq_true h).symm
  | infinity h | zero h | finite _ _ h => exact (decide_eq_false (by omega)).symm

/-! ## Comparisons -/

theorem compares_swap_neg {o : Ordering} {i j : ℤ} (h : o.Compares i j) :
    o.swap.Compares (-i) (-j) := by
  cases o with
  | lt => exact neg_lt_neg h
  | eq => exact congrArg Neg.neg h
  | gt => exact neg_lt_neg h

theorem Reads.compare_compares {x y : UInt64} {a b : UnpackedFloat} (hx : Reads x a)
    (hy : Reads y b) (hdefined : magnitude x ≤ Binary64.infinity)
    (hdefined' : magnitude y ≤ Binary64.infinity) :
    ∃ o, a.compare b = some o ∧ o.Compares (rank x) (rank y) := by
  have hinfinity := infinity_pos
  rw [rank_eq, rank_eq]
  cases hx <;> cases hy
  case finite.finite hpos _ hsignificand hscale _ _ _ hpos' _ hsignificand' hscale' =>
    subst hsignificand hscale hsignificand' hscale'
    have hsame := scale_then_significand_compares x y
    cases sign x <;> cases sign y
    · exact ⟨_, rfl, compares_swap_neg hsame⟩
    · exact ⟨.lt, rfl, show -(magnitude x : ℤ) < magnitude y by omega⟩
    · exact ⟨.gt, rfl, show -(magnitude y : ℤ) < magnitude x by omega⟩
    · exact ⟨_, rfl, hsame⟩
  -- With a zero or an infinity the kinds of both numbers and their signs decide.
  all_goals
    cases sign x <;> cases sign y <;> simp only [Sign.apply] <;>
      first
      | omega
      | refine ⟨.lt, rfl, ?_⟩; show (_ : ℤ) < _; omega
      | refine ⟨.gt, rfl, ?_⟩; show (_ : ℤ) < _; omega
      | refine ⟨.eq, rfl, ?_⟩; show (_ : ℤ) = _; omega

theorem compare_eq_none {a b : UnpackedFloat} (h : a.isNaN = true ∨ b.isNaN = true) :
    a.compare b = none := by
  cases a <;> cases b <;> simp_all [UnpackedFloat.isNaN, UnpackedFloat.compare]

theorem reads_toBits (x : Float) : Reads x.toBits x.toModel.unpack := reads_unpack _

theorem isNaN_toBits (x : Float) : isNaN x.toBits = x.isNaN := (reads_toBits x).isNaN_eq.symm

/-- A condition on the outcome of a comparison is one on the ranks, and nothing compares with an
undefined value. -/
theorem any_compare_iff {accepts : Ordering → Bool} {relation : ℤ → ℤ → Prop}
    (haccepts : ∀ {o : Ordering} {i j : ℤ}, o.Compares i j → (accepts o = true ↔ relation i j))
    (x y : Float) :
    (x.toModel.unpack.compare y.toModel.unpack).any accepts = true ↔
      x.isNaN = false ∧ y.isNaN = false ∧ relation (rank x.toBits) (rank y.toBits) := by
  by_cases h : x.isNaN = true ∨ y.isNaN = true
  · rw [compare_eq_none h]
    refine ⟨nofun, fun ⟨hx, hy, _⟩ => ?_⟩
    rw [hx, hy] at h
    rcases h with h | h <;> cases h
  · rw [not_or, Bool.not_eq_true, Bool.not_eq_true] at h
    have hx := not_lt.1 (of_decide_eq_false ((isNaN_toBits x).trans h.1))
    have hy := not_lt.1 (of_decide_eq_false ((isNaN_toBits y).trans h.2))
    obtain ⟨o, hsome, ho⟩ := (reads_toBits x).compare_compares (reads_toBits y) hx hy
    rw [hsome, Option.any_some, haccepts ho]
    exact ⟨fun hrelation => ⟨h.1, h.2, hrelation⟩, fun hall => hall.2.2⟩

theorem lt_iff_rank_lt (x y : Float) :
    x < y ↔ x.isNaN = false ∧ y.isNaN = false ∧ rank x.toBits < rank y.toBits := by
  have hlt : x < y ↔
      (x.toModel.unpack.compare y.toModel.unpack).any (· == .lt) = true := by
    show decide _ = true ↔ _
    rw [decide_eq_true_iff]
    show (x.toModel.unpack.compare y.toModel.unpack == some .lt) = true ↔ _
    cases x.toModel.unpack.compare y.toModel.unpack <;> rfl
  rw [hlt]
  exact any_compare_iff (fun ho => beq_iff_eq.trans ho.eq_lt) x y

theorem le_iff_rank_le (x y : Float) :
    x ≤ y ↔ x.isNaN = false ∧ y.isNaN = false ∧ rank x.toBits ≤ rank y.toBits := by
  have hle : x ≤ y ↔ (x.toModel.unpack.compare y.toModel.unpack).any Ordering.isLE = true := by
    show decide _ = true ↔ _
    rw [decide_eq_true_iff]
    rfl
  rw [hle]
  refine any_compare_iff (fun {o i j} ho => ?_) x y
  have hisLE : o.isLE = true ↔ ¬ o = .gt := by cases o <;> decide
  rw [hisLE, ho.eq_gt, not_lt]

/-! ## Differences -/

/-- The value is zero, positive or undefined. -/
def IsNotNegative : UnpackedFloat → Prop
  | .infinity s | .finite s _ _ _ => s = .positive
  | .zero _ | .notANumber => True

/-- Rounding keeps the sign. -/
theorem isNotNegative_round (spec : Format) (mantissa : Nat) (exponent : Int) :
    IsNotNegative (UnpackedFloat.round spec .positive mantissa exponent) := by
  unfold UnpackedFloat.round roundWithAccuracy
  dsimp only
  split
  · trivial
  · rfl

theorem isNotNegative_normalize (spec : Format) {mantissa : Int} (exponent : Int)
    (h : 0 ≤ mantissa) :
    IsNotNegative (UnpackedFloat.normalize spec mantissa exponent .positive) := by
  unfold UnpackedFloat.normalize
  split
  case h_1 hlt => exact absurd (compare_lt_iff_lt.1 hlt) (not_lt.2 h)
  case h_2 => trivial
  case h_3 => exact isNotNegative_round spec _ exponent

/-- The difference of two numbers in order is not negative, however it is rounded. -/
theorem isNotNegative_sub {x y : UInt64} {a b : UnpackedFloat} (hx : Reads x a) (hy : Reads y b)
    (h : rank x ≤ rank y) : IsNotNegative (UnpackedFloat.sub Format.binary64 b a) := by
  have hinfinity := infinity_pos
  rw [rank_eq, rank_eq] at h
  cases hx <;> cases hy
  case finite.finite _ _ hsignificand hscale _ _ _ _ _ hsignificand' hscale' =>
    subst hsignificand hscale hsignificand' hscale'
    refine isNotNegative_normalize _ _ ?_
    -- Both significands are shifted to the lesser of the scales before they are subtracted.
    show 0 ≤ (sign y).apply (significand y <<< (_ : ℤ).toNat : ℕ) -
      (sign x).apply (significand x <<< (_ : ℤ).toNat : ℕ)
    have hshift (k l : ℕ) :
        ((l : ℤ) - 1074 - min ((l : ℤ) - 1074) (k - 1074)).toNat = l - min k l := by omega
    have hshift' (k l : ℕ) :
        ((k : ℤ) - 1074 - min ((l : ℤ) - 1074) (k - 1074)).toNat = k - min k l := by omega
    rw [hshift, hshift']
    have hle := @significand_shift_le x y
    have hge := @significand_shift_le y x
    rw [min_comm (scale y)] at hge
    generalize significand x <<< (scale x - min (scale x) (scale y)) = m at *
    generalize significand y <<< (scale y - min (scale x) (scale y)) = n at *
    revert h
    cases sign x <;> cases sign y <;> simp only [Sign.apply] <;> intro h <;> omega
  all_goals
    revert h
    cases sign x <;> cases sign y <;> simp only [Sign.apply] <;> intro h <;>
      first
      | omega
      | trivial

theorem rank_nonneg_of_positive {word : BitVec 64}
    (h : @unpackSign Format.binary64 word = Sign.positive.toBitVec) :
    0 ≤ rank (UInt64.ofBitVec word) := by
  have hsign := ofBitVec_unpackSign (UInt64.ofBitVec word)
  rw [UInt64.toBitVec_ofBitVec, h, Sign.ofBitVec_toBitVec] at hsign
  rw [rank_eq, ← hsign]
  exact Int.natCast_nonneg _

theorem rank_pack_nonneg {a : UnpackedFloat} (h : IsNotNegative a) :
    0 ≤ rank (UInt64.ofBitVec (UnpackedFloat.pack Format.binary64 a)) := by
  cases a with
  | notANumber => exact rank_nonneg_of_positive (unpackSign_packComponents _ _ _)
  | infinity s =>
      obtain rfl : s = .positive := h
      exact rank_nonneg_of_positive (unpackSign_packComponents _ _ _)
  | zero s => cases s <;> decide
  | finite s mantissa exponent hmantissa =>
      obtain rfl : s = .positive := h
      refine rank_nonneg_of_positive ?_
      unfold UnpackedFloat.pack
      dsimp only
      split
      · exact unpackSign_packComponents _ _ _
      · split <;> exact unpackSign_packComponents _ _ _

theorem not_sub_lt_zero {x y : Float} (h : x ≤ y) : ¬ y - x < 0.0 := by
  rw [lt_iff_rank_lt]
  rintro ⟨-, -, hlt⟩
  have hsub :=
    isNotNegative_sub (reads_toBits x) (reads_toBits y) ((le_iff_rank_le x y).1 h).2.2
  exact absurd hlt (not_lt.2 (rank_pack_nonneg hsub))

end TilePyramid.Binary64

namespace TilePyramid

/-- The place of a floating point number is its rank. -/
noncomputable instance : Scalar.Ordered Float where
  place x := Binary64.rank x.toBits
  lt_iff_place x y := by
    rw [Int.cast_lt]
    exact Binary64.lt_iff_rank_lt x y
  le_iff_place x y := by
    rw [Int.cast_le]
    exact Binary64.le_iff_rank_le x y
  not_sub_lt_zero := Binary64.not_sub_lt_zero

end TilePyramid
