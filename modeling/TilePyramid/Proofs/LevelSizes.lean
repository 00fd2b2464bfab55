import Mathlib
import TilePyramid.Proofs.Grid

/-!
# Sizes of levels

The size of a level is computed from level to level, and every level cuts off numbers that are too
large for a word. Cutting off early or late is the same (`min_mul_min`), so the size of a level is
the product of the divisions above it, cut off once (`Subdivision.size_eq_saturated_product`).
-/

namespace TilePyramid

/-- A factor may be cut off at the limit of the product, whatever the other factor is. -/
theorem min_mul_min (a b limit : ℕ) : min (min a limit * b) limit = min (a * b) limit := by
  rcases Nat.eq_zero_or_pos b with rfl | hb
  · rw [Nat.mul_zero, Nat.mul_zero]
  · rcases Nat.le_total a limit with hle | hle
    · rw [Nat.min_eq_left hle]
    · have hlimit : limit ≤ limit * b := Nat.le_mul_of_pos_right limit hb
      rw [Nat.min_eq_right hle, Nat.min_eq_right hlimit,
        Nat.min_eq_right (hlimit.trans (Nat.mul_le_mul_right b hle))]

namespace GridSize

open Finset

/-- One side of a grid, its number of columns or that of its rows. -/
structure IsSide (side : GridSize → UInt32) : Prop where
  root : side ⟨1, 1⟩ = 1
  refine (size division : GridSize) :
    side (size.refine division) = saturatingMul (side size) (side division)

theorem isSide_width : IsSide width := ⟨rfl, fun _ _ => rfl⟩

theorem isSide_height : IsSide height := ⟨rfl, fun _ _ => rfl⟩

variable {side : GridSize → UInt32}

/-- A side of a level is the product of that side of the divisions above, or the largest word where
that is larger. -/
theorem IsSide.toNat_product (hside : IsSide side) (division : Nat → GridSize) (level : Nat) :
    (side (product division level)).toNat =
      min (∏ above ∈ range level, (side (division above)).toNat) wordMax := by
  induction level with
  | zero =>
      rw [prod_range_zero]
      exact congrArg UInt32.toNat hside.root
  | succ level ih =>
      rw [product_succ, hside.refine, toNat_saturatingMul, ih, min_mul_min, prod_range_succ]

/-- A level below a division into nothing has nothing on that side. -/
theorem IsSide.product_eq_zero (hside : IsSide side) {division : Nat → GridSize}
    {level above : Nat} (h : above < level) (hzero : side (division above) = 0) :
    side (product division level) = 0 := by
  have hproduct : ∏ other ∈ range level, (side (division other)).toNat = 0 :=
    prod_eq_zero (mem_range.2 h) (congrArg UInt32.toNat hzero)
  rw [← UInt32.toNat_inj, hside.toNat_product, hproduct, Nat.zero_min]
  rfl

end GridSize

namespace Subdivision

open Finset GridSize

variable {s : Subdivision} {level : Nat}

/-- The sizes of the subdivisions that can be named are small enough to be the products
themselves. -/
theorem toNat_size_of_mem_all (hnamed : s ∈ all) (h : level ≤ maxLevel) :
    (s.size level).width.toNat = ∏ above ∈ range level, (s.division above).width.toNat ∧
      (s.size level).height.toNat = ∏ above ∈ range level, (s.division above).height.toNat := by
  have hfits := fits_of_mem_all hnamed h
  have hwidth := isSide_width.toNat_product s.division level
  have hheight := isSide_height.toNat_product s.division level
  rw [← size_eq_product_of_mem_all hnamed h] at hwidth hheight
  have hrows : rowsAt level < wordMax := (rowsAt_mono h).trans_lt (by decide)
  have hcolumns_lt := hfits.width_le.trans_lt hrows
  have hrows_lt := hfits.height_le.trans_lt hrows
  omega

/-- The sizes of levels. Where a subdivision does not state them itself, the number of columns and
that of rows are the product of the numbers in the divisions above, or the largest word where that
is larger, and a division into nothing leaves nothing on every level below it. The subdivisions that
can be named state the same sizes for the levels that can be addressed, and these are the products
themselves. -/
theorem size_eq_saturated_product :
    (∀ s : Subdivision, s.size = product s.division → ∀ level : Nat,
      (s.size level).width.toNat =
          min (∏ above ∈ range level, (s.division above).width.toNat) wordMax ∧
        (s.size level).height.toNat =
          min (∏ above ∈ range level, (s.division above).height.toNat) wordMax ∧
        ∀ above < level,
          ((s.division above).width = 0 → (s.size level).width = 0) ∧
            ((s.division above).height = 0 → (s.size level).height = 0)) ∧
    ∀ s ∈ all, ∀ level ≤ maxLevel,
      s.size level = product s.division level ∧
        (s.size level).width.toNat = ∏ above ∈ range level, (s.division above).width.toNat ∧
        (s.size level).height.toNat = ∏ above ∈ range level, (s.division above).height.toNat := by
  refine ⟨fun s hsize level => ?_, fun s hnamed level h =>
    ⟨size_eq_product_of_mem_all hnamed h, toNat_size_of_mem_all hnamed h⟩⟩
  rw [hsize]
  exact ⟨isSide_width.toNat_product _ _, isSide_height.toNat_product _ _, fun above h =>
    ⟨isSide_width.product_eq_zero h, isSide_height.product_eq_zero h⟩⟩

/-- A subdivision whose columns outgrow a word on level 2 has the largest word of columns there, and
still on level 4, behind divisions into one column. On level 5 it divides into no columns, and there
are none on level 7. The quad tree states the product on its deepest level. -/
theorem size_eq_saturated_product_emptied :
    let s : Subdivision :=
      { name := "emptied"
        division := fun level =>
          if level < 2 then ⟨0x10000, 2⟩ else if level < 5 then ⟨1, 3⟩ else ⟨0, 1⟩ }
    s.size = product s.division ∧
      (s.size 4).width.toNat = min (∏ above ∈ range 4, (s.division above).width.toNat) wordMax ∧
      5 < 7 ∧ (s.division 5).width = 0 ∧ (s.size 7).width = 0 ∧
      quadTree ∈ all ∧ 31 ≤ maxLevel ∧ quadTree.size 31 = product quadTree.division 31 := by
  intro s
  obtain ⟨hproduct, hnamed⟩ := size_eq_saturated_product
  have hsize : s.size = product s.division := rfl
  have hquad : quadTree ∈ all := List.mem_cons_self
  exact ⟨hsize, (hproduct s hsize 4).1, by decide, rfl,
    ((hproduct s hsize 7).2.2 5 (by decide)).1 rfl, hquad, le_rfl,
    (hnamed quadTree hquad 31 le_rfl).1⟩

end Subdivision

end TilePyramid
