import Mathlib
import TilePyramid.Subdivision
import TilePyramid.Proofs.Code

/-!
# Grids that fit a level

A subdivision may give a level any number of columns and rows. `GridSize.Fits` says that the level
has at least one of each, and no more than the tree has tiles for. The subdivisions that can be
named fit every level.
-/

namespace TilePyramid

/-- The level has columns and rows, and the tree has a tile for each of its cells. -/
structure GridSize.Fits (size : GridSize) (level : Nat) : Prop where
  width_pos : 1 ≤ size.width.toNat
  height_pos : 1 ≤ size.height.toNat
  width_le : size.width.toNat ≤ rowsAt level
  height_le : size.height.toNat ≤ rowsAt level

instance (size : GridSize) (level : Nat) : Decidable (size.Fits level) :=
  decidable_of_iff (1 ≤ size.width.toNat ∧ 1 ≤ size.height.toNat ∧
      size.width.toNat ≤ rowsAt level ∧ size.height.toNat ≤ rowsAt level)
    ⟨fun h => ⟨h.1, h.2.1, h.2.2.1, h.2.2.2⟩, fun h => ⟨h.1, h.2, h.3, h.4⟩⟩

namespace Subdivision

/-- Shifting 1 by a level counts its rows. -/
theorem toNat_shiftUp_one {level : Nat} (h : level ≤ maxLevel) :
    (shiftUp 1 level).toNat = rowsAt level := by
  have hlevel : level < 32 := Nat.lt_succ_of_le h
  have hword : rowsAt level < 2 ^ 32 := rowsAt_lt_word hlevel
  rw [shiftUp, if_pos hlevel, UInt32.toNat_ofNat']
  simpa using Nat.mod_eq_of_lt hword

theorem quadTree_fits {level : Nat} (h : level ≤ maxLevel) : (quadTree.size level).Fits level := by
  have hrows := toNat_shiftUp_one h
  have hpos := rowsAt_pos level
  constructor <;> simp only [quadTree, hrows] <;> omega

theorem halfQuadTree_fits {level : Nat} (h : level ≤ maxLevel) :
    (halfQuadTree.size level).Fits level := by
  cases level with
  | zero => decide
  | succ above =>
      have hwidth := toNat_shiftUp_one h
      have hheight := toNat_shiftUp_one (Nat.le_of_succ_le h)
      have hpos := rowsAt_pos above
      have hrows := rowsAt_succ above
      constructor <;> simp only [halfQuadTree, hwidth, hheight] <;> omega

/-- The subdivisions that can be named fit every level. -/
theorem fits_of_mem_all {subdivision : Subdivision} (hnamed : subdivision ∈ all) {level : Nat}
    (h : level ≤ maxLevel) : (subdivision.size level).Fits level := by
  rcases List.mem_cons.1 hnamed with rfl | hrest
  · exact quadTree_fits h
  · obtain rfl := List.mem_singleton.1 hrest
    exact halfQuadTree_fits h

end Subdivision

end TilePyramid
