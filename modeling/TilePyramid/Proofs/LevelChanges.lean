import Mathlib
import TilePyramid.Proofs.Descendants

/-!
# Changing levels

A change of level shifts the row and the column of a tile, and shifts lose bits: on the way down
those that leave the word, on the way up those of the levels that are left behind. The way up ends
at the root, the shift goes on. This module shows that two changes are one change by their sum
unless the first one goes down and the tile does not come back from too deep a level
(`Tile.changes_of_level`), with the way down leading to the first tile of the level that lies in the
tile.

A way up by parents does not end at the root. The root has the invalid tile as its parent, which is
an address below the deepest level, so a further step leads back into the tree
(`Tile.parent_iterate_root`), and a way past the root is one around all levels
(`Tile.climb_and_return`).
-/

namespace TilePyramid

theorem toNat_shiftUp_mod (w : UInt32) (n : Nat) :
    (shiftUp w n).toNat = w.toNat * rowsAt n % 2 ^ 32 := by
  unfold shiftUp
  split
  · exact UInt32.toNat_ofNat'
  · rename_i hn
    have hword : 2 ^ 32 ∣ rowsAt n := pow_dvd_pow 2 (not_lt.1 hn)
    exact (Nat.mod_eq_zero_of_dvd (hword.mul_left _)).symm

/-- Two shifts towards the high bits push out what one shift pushes out. -/
theorem shiftUp_shiftUp (w : UInt32) (m n : Nat) :
    shiftUp (shiftUp w m) n = shiftUp w (m + n) := by
  rw [← UInt32.toNat_inj, toNat_shiftUp_mod, toNat_shiftUp_mod, toNat_shiftUp_mod, Nat.mod_mul_mod,
    rowsAt_add, Nat.mul_assoc]

theorem shiftDown_zero (w : UInt32) : shiftDown w 0 = w := by
  rw [← UInt32.toNat_inj, toNat_shiftDown (by decide), rowsAt_zero, Nat.div_one]

/-- A number of a level is shifted out by as many levels. -/
theorem shiftDown_eq_zero {w : UInt32} {n : Nat} (h : w.toNat < rowsAt n) : shiftDown w n = 0 := by
  by_cases hn : n < 32
  · rw [← UInt32.toNat_inj, toNat_shiftDown hn, Nat.div_eq_of_lt h]
    rfl
  · exact if_neg hn

namespace Tile

variable {k t x : Tile} {m n : Nat} {d e : Int}

theorem zoomBy_zero (t : Tile) : t.zoomBy 0 = t := by
  have hlevel : UInt32.ofNat ((t.level.toNat : Int) + 0).toNat = t.level := UInt32.ofNat_toNat
  rw [zoomBy, if_neg (lt_irrefl 0), hlevel, Int.natAbs_zero, shiftDown_zero, shiftDown_zero]

/-! ## Down -/

theorem zoomBy_down (t : Tile) (h : 0 < n) :
    t.zoomBy n =
      ⟨shiftUp t.row n, shiftUp t.column n, UInt32.ofNat (t.level.toNat + n)⟩ := by
  have hdown : (0 : Int) < n := Int.natCast_pos.2 h
  rw [zoomBy, if_pos hdown, Int.natAbs_natCast, ← Int.natCast_add, Int.toNat_natCast]

/-- Two ways down are one way down, also past the deepest level. -/
theorem zoomBy_zoomBy_down (t : Tile) (m n : Nat) :
    (t.zoomBy m).zoomBy n = t.zoomBy (m + n : Nat) := by
  rcases Nat.eq_zero_or_pos m with rfl | hm
  · rw [Int.natCast_zero, zoomBy_zero, Nat.zero_add]
  · rcases Nat.eq_zero_or_pos n with rfl | hn
    · rw [Int.natCast_zero, zoomBy_zero, Nat.add_zero]
    · have hlevel : UInt32.ofNat ((UInt32.ofNat (t.level.toNat + m)).toNat + n) =
          UInt32.ofNat (t.level.toNat + (m + n)) := by
        rw [← UInt32.toNat_inj, UInt32.toNat_ofNat', UInt32.toNat_ofNat', UInt32.toNat_ofNat',
          Nat.mod_add_mod, Nat.add_assoc]
      rw [zoomBy_down t hm, zoomBy_down _ hn, zoomBy_down t (Nat.add_pos_left hm n), hlevel,
        shiftUp_shiftUp, shiftUp_shiftUp]

theorem isValid_zoomBy_down (hk : k.IsValid) (h : k.level.toNat + n ≤ maxLevel) :
    (k.zoomBy n).IsValid := by
  obtain ⟨hrow, hcolumn, hlevel⟩ := toNat_zoomBy_down hk h
  rw [IsValid, hrow, hcolumn, hlevel]
  exact ⟨Nat.lt_succ_of_le h, mul_rowsAt_lt hk.2.1, mul_rowsAt_lt hk.2.2⟩

/-! ## Up -/

/-- The way up ends at the root. -/
theorem zoomBy_up_eq_root (hk : k.IsValid) (h : k.level.toNat ≤ n) : k.zoomBy (-n) = root := by
  have hup : ¬ (0 : Int) < -(n : Int) := by omega
  have hlevel : (k.level.toNat + -n : Int).toNat = 0 := by omega
  have hrow := shiftDown_eq_zero (hk.2.1.trans_le (rowsAt_mono h))
  have hcolumn := shiftDown_eq_zero (hk.2.2.trans_le (rowsAt_mono h))
  rw [zoomBy, if_neg hup, hlevel, Int.natAbs_neg, Int.natAbs_natCast, hrow, hcolumn]
  rfl

/-- Two ways up are one way up, wherever they pass the root. -/
theorem zoomBy_zoomBy_up (hk : k.IsValid) (m n : Nat) :
    (k.zoomBy (-m)).zoomBy (-n) = k.zoomBy (-(m + n : Nat)) := by
  have hroot : root.IsValid := by decide
  by_cases hm : m ≤ k.level.toNat
  · have hdeepest : k.level.toNat ≤ maxLevel := Nat.le_sub_one_of_lt hk.1
    obtain ⟨hrow, hcolumn, hlevel⟩ := toNat_zoomBy_up hdeepest hm
    by_cases hn : n ≤ k.level.toNat - m
    · obtain ⟨hrow', hcolumn', hlevel'⟩ :=
        toNat_zoomBy_up (t := k.zoomBy (-m)) (n := n) (by omega) (by omega)
      obtain ⟨hrow'', hcolumn'', hlevel''⟩ := toNat_zoomBy_up (n := m + n) hdeepest (by omega)
      rw [hrow, Nat.div_div_eq_div_mul, ← rowsAt_add] at hrow'
      rw [hcolumn, Nat.div_div_eq_div_mul, ← rowsAt_add] at hcolumn'
      exact eq_of_toNat (hrow'.trans hrow''.symm) (hcolumn'.trans hcolumn''.symm) (by omega)
    · rw [zoomBy_up_eq_root (isValid_zoomBy_up hk hm) (by omega),
        zoomBy_up_eq_root hk (by omega)]
  · rw [zoomBy_up_eq_root hk (by omega), zoomBy_up_eq_root hroot (Nat.zero_le n),
      zoomBy_up_eq_root hk (by omega)]

/-! ## Down and up -/

/-- The way back up leads to the tile again. -/
theorem zoomBy_down_up (hk : k.IsValid) (h : k.level.toNat + n ≤ maxLevel) :
    (k.zoomBy n).zoomBy (-n) = k := by
  obtain ⟨hrow, hcolumn, hlevel⟩ := toNat_zoomBy_down hk h
  obtain ⟨hrow', hcolumn', hlevel'⟩ :=
    toNat_zoomBy_up (t := k.zoomBy n) (n := n) (by omega) (by omega)
  rw [hrow, Nat.mul_div_cancel _ (rowsAt_pos n)] at hrow'
  rw [hcolumn, Nat.mul_div_cancel _ (rowsAt_pos n)] at hcolumn'
  exact eq_of_toNat hrow' hcolumn' (by omega)

/-- After a way down to a level that can be addressed, a way up leaves the difference of the two. -/
theorem zoomBy_zoomBy_down_up (hk : k.IsValid) (h : k.level.toNat + m ≤ maxLevel) (n : Nat) :
    (k.zoomBy m).zoomBy (-n) = k.zoomBy (m - n) := by
  rcases Nat.le_total m n with hle | hle
  · obtain ⟨rest, rfl⟩ := Nat.exists_eq_add_of_le hle
    have hdistance : (m - (m + rest : Nat) : Int) = -rest := by omega
    rw [← zoomBy_zoomBy_up (isValid_zoomBy_down hk h), zoomBy_down_up hk h, hdistance]
  · obtain ⟨rest, rfl⟩ := Nat.exists_eq_add_of_le' hle
    have hdistance : ((rest + n : Nat) - n : Int) = rest := by omega
    have habove : k.level.toNat + rest ≤ maxLevel := by omega
    have hlevel := (toNat_zoomBy_down hk habove).2.2
    rw [← zoomBy_zoomBy_down, zoomBy_down_up (isValid_zoomBy_down hk habove) (by omega), hdistance]

/-- Two changes of level are one change by the sum, if the first one leads down to a level that can
be addressed or if both lead up. -/
theorem zoomBy_zoomBy (hk : k.IsValid)
    (h : 0 ≤ d ∧ k.level.toNat + d ≤ maxLevel ∨ d ≤ 0 ∧ e ≤ 0) :
    (k.zoomBy d).zoomBy e = k.zoomBy (d + e) := by
  rcases h with ⟨hd, hlevel⟩ | ⟨hd, he⟩
  · obtain ⟨m, rfl⟩ := Int.eq_ofNat_of_zero_le hd
    rcases Int.le_total 0 e with he | he
    · obtain ⟨n, rfl⟩ := Int.eq_ofNat_of_zero_le he
      exact zoomBy_zoomBy_down k m n
    · obtain ⟨n, rfl⟩ := Int.exists_eq_neg_ofNat he
      exact zoomBy_zoomBy_down_up hk (by omega) n
  · obtain ⟨m, rfl⟩ := Int.exists_eq_neg_ofNat hd
    obtain ⟨n, rfl⟩ := Int.exists_eq_neg_ofNat he
    rw [zoomBy_zoomBy_up hk, Int.natCast_add, Int.neg_add]

/-! ## The first tile of a level -/

/-- The way down leads to the first of the tiles there that lie in the tile. -/
theorem zoomBy_eq_or_compare_lt (hk : k.IsValid) (h : k.level.toNat + n ≤ maxLevel)
    (hlevel : x.level.toNat = k.level.toNat + n) (hup : x.zoomBy (-n) = k) :
    x = k.zoomBy n ∨ compare (k.zoomBy n) x = .lt := by
  obtain ⟨hrow, hcolumn, hdepth⟩ := toNat_zoomBy_down hk h
  obtain ⟨hr, hc, -⟩ := toNat_zoomBy_up (t := x) (n := n) (by omega) (by omega)
  rw [hup] at hr hc
  have hrow_le : (k.zoomBy n).row.toNat ≤ x.row.toNat := by
    rw [hrow, hr]
    exact Nat.div_mul_le_self _ _
  have hcolumn_le : (k.zoomBy n).column.toNat ≤ x.column.toNat := by
    rw [hcolumn, hc]
    exact Nat.div_mul_le_self _ _
  have hsame : (k.zoomBy n).level = x.level := UInt32.toNat_inj.1 (by omega)
  rw [compare_eq_lt_iff]
  rcases hrow_le.lt_or_eq with hlt | heq
  · exact .inr (.inr ⟨hsame, .inl hlt⟩)
  · rcases hcolumn_le.lt_or_eq with hlt | heq'
    · exact .inr (.inr ⟨hsame, .inr ⟨UInt32.toNat_inj.1 heq, hlt⟩⟩)
    · exact .inl (eq_of_toNat heq.symm heq'.symm (by omega))

/-- Changes of level. Two of them are one change by their sum, if the first one leads down to a
level that can be addressed or if both lead up, also where the root is passed. A way up takes the
parent once for each level, and a way up that is longer than the level leads to the root. A way down
leads to the first tile of its level among the valid tiles there that lie in the tile. -/
theorem changes_of_level (hk : k.IsValid) :
    (∀ d e : Int, (0 ≤ d ∧ k.level.toNat + d ≤ maxLevel ∨ d ≤ 0 ∧ e ≤ 0) →
      (k.zoomBy d).zoomBy e = k.zoomBy (d + e)) ∧
    (∀ n : Nat, (n ≤ k.level.toNat → k.zoomBy (-n) = parent^[n] k) ∧
      (k.level.toNat < n → k.zoomBy (-n) = root)) ∧
    ∀ n : Nat, k.level.toNat + n ≤ maxLevel →
      ((k.zoomBy n).IsValid ∧ (k.zoomBy n).level.toNat = k.level.toNat + n ∧
        (k.zoomBy n).zoomBy (-n) = k) ∧
      ∀ x : Tile, x.IsValid → x.level.toNat = k.level.toNat + n → x.zoomBy (-n) = k →
        x = k.zoomBy n ∨ compare (k.zoomBy n) x = .lt := by
  refine ⟨fun d e => zoomBy_zoomBy hk, fun n => ⟨fun h => ?_, fun h => ?_⟩, fun n h => ⟨?_, ?_⟩⟩
  · exact (parent_iterate (Nat.le_sub_one_of_lt hk.1) h).symm
  · exact zoomBy_up_eq_root hk h.le
  · exact ⟨isValid_zoomBy_down hk h, (toNat_zoomBy_down hk h).2.2, zoomBy_down_up hk h⟩
  · exact fun x _ hlevel hup => zoomBy_eq_or_compare_lt hk h hlevel hup

/-- A tile goes down to the deepest level and comes back past where it was, it goes up past the root
in two steps, and below it on the deepest level lies a tile behind the first one there. -/
theorem changes_of_level_pastRoot :
    let k : Tile := ⟨5, 6, 3⟩
    let x : Tile := ⟨0x57654321, 0x6FFFFFFF, 31⟩
    k.IsValid ∧ (0 ≤ (28 : Int) ∧ k.level.toNat + (28 : Int) ≤ maxLevel) ∧
      (k.zoomBy 28).zoomBy (-30) = k.zoomBy (28 + -30) ∧
      ((-2 : Int) ≤ 0 ∧ (-3 : Int) ≤ 0) ∧ (k.zoomBy (-2)).zoomBy (-3) = k.zoomBy (-2 + -3) ∧
      2 ≤ k.level.toNat ∧ k.zoomBy (-(2 : Nat)) = parent^[2] k ∧
      k.level.toNat < 5 ∧ k.zoomBy (-(5 : Nat)) = root ∧
      x.IsValid ∧ x.level.toNat = k.level.toNat + 28 ∧ x.zoomBy (-(28 : Nat)) = k ∧
      (x = k.zoomBy (28 : Nat) ∨ compare (k.zoomBy (28 : Nat)) x = .lt) := by
  intro k x
  have hk : k.IsValid := by decide
  have hx : x.IsValid := by decide
  have hup : x.zoomBy (-(28 : Nat)) = k := by decide
  obtain ⟨hsum, hparents, hfirst⟩ := changes_of_level hk
  exact ⟨hk, by decide, hsum 28 (-30) (.inl (by decide)), by decide,
    hsum (-2) (-3) (.inr (by decide)), by decide, (hparents 2).1 (by decide), by decide,
    (hparents 5).2 (by decide), hx, rfl, hup, (hfirst 28 (by decide)).2 x hx rfl hup⟩

/-! ## Past the root -/

/-- The tile in the south west of a level. -/
def corner (level : Nat) : Tile := ⟨0, 0, UInt32.ofNat level⟩

/-- The corner below the deepest level stands for no tile. -/
theorem isValid_corner_iff {level : Nat} (h : level ≤ levelCount) :
    (corner level).IsValid ↔ level < levelCount := by
  have hlevel : (corner level).level.toNat = level :=
    UInt32.toNat_ofNat_of_lt' (h.trans_lt (by decide))
  rw [IsValid, hlevel]
  exact ⟨fun hvalid => hvalid.1, fun hlt => ⟨hlt, rowsAt_pos level, rowsAt_pos level⟩⟩

/-- The parent of a corner is the corner of the level above, also from below the deepest level. -/
theorem parent_corner_succ {level : Nat} (h : level < levelCount) :
    (corner (level + 1)).parent = corner level := by
  have hcount : levelCount = 32 := rfl
  have hbelow : (corner (level + 1)).level.toNat = level + 1 :=
    UInt32.toNat_ofNat_of_lt' (show level + 1 < 2 ^ 32 by omega)
  have hlevel : (corner level).level.toNat = level :=
    UInt32.toNat_ofNat_of_lt' (show level < 2 ^ 32 by omega)
  obtain ⟨hrow, hcolumn, hup⟩ := toNat_parent (t := corner (level + 1)) (by omega)
  exact eq_of_toNat (hrow.trans (Nat.zero_div 2)) (hcolumn.trans (Nat.zero_div 2)) (by omega)

/-- The parents of the root go through the corners of all levels from below the deepest one, again
and again. -/
theorem parent_iterate_root (n : Nat) :
    parent^[n + 1] root = corner (levelCount - n % (levelCount + 1)) := by
  show parent^[n + 1] root = corner (32 - n % 33)
  induction n with
  | zero => rfl
  | succ n ih =>
      rw [Function.iterate_succ_apply', ih]
      by_cases hroot : n % 33 = 32
      · -- The corner is the root, which has the invalid tile as its parent.
        have hturn : (n + 1) % 33 = 0 := by omega
        rw [hroot, hturn]
        rfl
      · have hbelow : 32 - n % 33 = 32 - (n + 1) % 33 + 1 := by omega
        rw [hbelow, parent_corner_succ (show 32 - (n + 1) % 33 < 32 by omega)]

/-- The tile that contains `k` is reached some parents up and is valid. -/
theorem toNat_parent_iterate (hk : k.IsValid) (h : n ≤ k.level.toNat) :
    (parent^[n] k).row.toNat = k.row.toNat / rowsAt n ∧
      (parent^[n] k).column.toNat = k.column.toNat / rowsAt n ∧
      (parent^[n] k).level.toNat = k.level.toNat - n := by
  have hdeepest : k.level.toNat ≤ maxLevel := Nat.le_sub_one_of_lt hk.1
  rw [parent_iterate hdeepest h]
  exact toNat_zoomBy_up hdeepest h

theorem parent_iterate_level (hk : k.IsValid) : parent^[k.level.toNat] k = root := by
  rw [parent_iterate (Nat.le_sub_one_of_lt hk.1) le_rfl, zoomBy_up_eq_root hk le_rfl]

/-- Climbing. Up to the root the parents of a valid tile are the valid tiles that contain it, a level
apart. Past the root they are the corners of the levels, from below the deepest level upwards and
around again, so exactly every 33rd of them, beginning with the first one, is no tile. -/
theorem climb_and_return (hk : k.IsValid) (n : Nat) :
    (n ≤ k.level.toNat → (parent^[n] k).IsValid ∧
      (parent^[n] k).row.toNat = k.row.toNat / rowsAt n ∧
      (parent^[n] k).column.toNat = k.column.toNat / rowsAt n ∧
      (parent^[n] k).level.toNat = k.level.toNat - n) ∧
    (k.level.toNat < n →
      let past := n - k.level.toNat - 1
      parent^[n] k = corner (levelCount - past % (levelCount + 1)) ∧
        (¬ (parent^[n] k).IsValid ↔ past % (levelCount + 1) = 0)) := by
  refine ⟨fun h => ⟨isValid_parent_iterate hk h, toNat_parent_iterate hk h⟩, ?_⟩
  intro h past
  have hsteps : n = past + 1 + k.level.toNat := by omega
  have hcorner : parent^[n] k = corner (levelCount - past % (levelCount + 1)) := by
    rw [hsteps, Function.iterate_add_apply, parent_iterate_level hk, parent_iterate_root]
  refine ⟨hcorner, ?_⟩
  have hcount : levelCount = 32 := rfl
  rw [hcorner, isValid_corner_iff (Nat.sub_le _ _)]
  omega

/-- Three parents up from a tile of level 2 no tile is left, one further parent is a tile of the
deepest level, and after a way around all levels there is no tile again. -/
theorem climb_and_return_deepest :
    let k : Tile := ⟨3, 1, 2⟩
    k.IsValid ∧ 1 ≤ k.level.toNat ∧ (parent^[1] k).IsValid ∧ k.level.toNat < 3 ∧
      ¬ (parent^[3] k).IsValid ∧ k.level.toNat < 4 ∧ parent^[4] k = corner maxLevel ∧
      k.level.toNat < 36 ∧ ¬ (parent^[36] k).IsValid := by
  intro k
  have hk : k.IsValid := by decide
  exact ⟨hk, by decide, ((climb_and_return hk 1).1 (by decide)).1, by decide,
    ((climb_and_return hk 3).2 (by decide)).2.2 (by decide), by decide,
    ((climb_and_return hk 4).2 (by decide)).1, by decide,
    ((climb_and_return hk 36).2 (by decide)).2.2 (by decide)⟩

/-- Climbing past the root does not always leave the tree: two parents up from the root is the tile in
the south west of the deepest level. -/
theorem not_forall_climb_leaves_tree :
    ¬ ∀ (k : Tile) (n : Nat), k.IsValid →
      (n ≤ k.level.toNat → (parent^[n] k).IsValid ∧
        (parent^[n] k).row.toNat = k.row.toNat / rowsAt n ∧
        (parent^[n] k).column.toNat = k.column.toNat / rowsAt n ∧
        (parent^[n] k).level.toNat = k.level.toNat - n) ∧
      (k.level.toNat < n → ¬ (parent^[n] k).IsValid) := by
  intro h
  exact (h root 2 (by decide)).2 (by decide) (by decide)

end Tile

end TilePyramid
