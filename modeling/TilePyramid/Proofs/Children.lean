import Mathlib
import TilePyramid.Proofs.Zoom

/-!
# Children and parents

A tile above the deepest level has four children, and they are the tiles whose parent it is
(`Tile.isValid_and_parent_eq_iff`). Going to the parent again and again is zooming up
(`Tile.parent_iterate`). In codes a step down appends two bits (`Tile.code_child`), so a way up
drops them again (`Tile.code_parent_iterate`).
-/

namespace TilePyramid.Tile

open Code

variable {k t x : Tile} {index other n : Nat}

/-! ## One level down -/

theorem isValid_child (ht : t.IsValid) (hlevel : t.level.toNat < maxLevel) (hindex : index < 4) :
    (t.child index).IsValid := by
  obtain ⟨hrow, hcolumn, hdepth⟩ := toNat_child ht hlevel hindex
  obtain ⟨-, hr, hc⟩ := ht
  rw [IsValid, hrow, hcolumn, hdepth, rowsAt_succ]
  exact ⟨Nat.add_lt_of_lt_sub hlevel, by omega, by omega⟩

/-- Halving the row and the column of a child gives those of its parent, and its digit is its
number. -/
theorem halves_child (hk : k.IsValid) (hlevel : k.level.toNat < maxLevel) (hindex : index < 4) :
    (k.child index).row.toNat / 2 = k.row.toNat ∧
      (k.child index).column.toNat / 2 = k.column.toNat ∧
      digit (k.child index).row.toNat (k.child index).column.toNat = index := by
  obtain ⟨hrow, hcolumn, -⟩ := toNat_child hk hlevel hindex
  unfold digit
  omega

theorem level_child_ne_zero (hk : k.IsValid) (hlevel : k.level.toNat < maxLevel)
    (hindex : index < 4) : (k.child index).level ≠ 0 := by
  intro hzero
  have hdepth := (toNat_child hk hlevel hindex).2.2
  rw [hzero] at hdepth
  exact absurd hdepth.symm (Nat.succ_ne_zero _)

/-- A child tells its number by its place in the parent. -/
theorem index_quadrant_child (hk : k.IsValid) (hlevel : k.level.toNat < maxLevel)
    (hindex : index < 4) : (k.child index).quadrant.index = index := by
  rw [quadrant, if_neg (level_child_ne_zero hk hlevel hindex), (halves_child hk hlevel hindex).2.2]
  interval_cases index <;> rfl

theorem child_injOn (hk : k.IsValid) (hlevel : k.level.toNat < maxLevel) (hindex : index < 4)
    (hother : other < 4) (h : k.child index = k.child other) : index = other := by
  rw [← index_quadrant_child hk hlevel hindex, h, index_quadrant_child hk hlevel hother]

/-! ## One level up -/

theorem level_pos_iff : 0 < t.level ↔ 0 < t.level.toNat := UInt32.lt_iff_toNat_lt

theorem toNat_parent (h : 0 < t.level.toNat) :
    t.parent.row.toNat = t.row.toNat / 2 ∧ t.parent.column.toNat = t.column.toNat / 2 ∧
      t.parent.level.toNat = t.level.toNat - 1 := by
  have hone : (1 : UInt32) ≤ t.level := UInt32.le_iff_toNat_le.2 h
  rw [parent, if_pos (level_pos_iff.2 h)]
  exact ⟨toNat_shiftDown (by decide), toNat_shiftDown (by decide),
    UInt32.toNat_sub_of_le _ _ hone⟩

theorem isValid_parent (ht : t.IsValid) (h : 0 < t.level.toNat) : t.parent.IsValid := by
  obtain ⟨hlevel, hr, hc⟩ := ht
  obtain ⟨hrow, hcolumn, hup⟩ := toNat_parent h
  obtain ⟨above, habove⟩ := Nat.exists_eq_succ_of_ne_zero (Nat.ne_of_gt h)
  rw [habove, Nat.succ_eq_add_one, rowsAt_succ] at hr hc
  rw [IsValid, hrow, hcolumn, hup, habove]
  rw [Nat.succ_sub_one]
  exact ⟨by omega, by omega, by omega⟩

theorem parent_child (hk : k.IsValid) (hlevel : k.level.toNat < maxLevel) (hindex : index < 4) :
    (k.child index).parent = k := by
  obtain ⟨hrow, hcolumn, hdepth⟩ := toNat_child hk hlevel hindex
  obtain ⟨hr, hc, hl⟩ := toNat_parent (t := k.child index) (by omega)
  exact eq_of_toNat (by omega) (by omega) (by omega)

/-- A tile is the child of its parent whose number is its digit. -/
theorem child_parent (hx : x.IsValid) (h : 0 < x.level.toNat) :
    x.parent.child (digit x.row.toNat x.column.toNat) = x := by
  have hdeepest : x.level.toNat ≤ maxLevel := Nat.le_sub_one_of_lt hx.1
  obtain ⟨hrow, hcolumn, hup⟩ := toNat_parent h
  obtain ⟨hr, hc, hl⟩ :=
    toNat_child (isValid_parent hx h) (by omega) (digit_lt x.row.toNat x.column.toNat)
  unfold digit at hr hc
  exact eq_of_toNat (by unfold digit; omega) (by unfold digit; omega) (by omega)

/-- The children of a tile are the valid tiles whose parent it is. -/
theorem isValid_and_parent_eq_iff (hk : k.IsValid) (hlevel : k.level.toNat < maxLevel) :
    x.IsValid ∧ x.parent = k ↔ ∃ index < 4, x = k.child index := by
  constructor
  · rintro ⟨hx, rfl⟩
    have hdeep : 0 < x.level.toNat := by
      by_contra hroot
      -- The root has no parent, so the invalid tile stands for it, which is not valid.
      rw [parent, if_neg fun hpos => hroot (level_pos_iff.1 hpos)] at hk
      exact absurd hk (by decide)
    exact ⟨_, digit_lt x.row.toNat x.column.toNat, (child_parent hx hdeep).symm⟩
  · rintro ⟨index, hindex, rfl⟩
    exact ⟨isValid_child hk hlevel hindex, parent_child hk hlevel hindex⟩

/-- Lists of children of different tiles put behind each other repeat no tile. -/
theorem nodup_flatMap_of_parent {tiles : List Tile} {children : Tile → List Tile}
    (hchildren : ∀ t ∈ tiles, (children t).Nodup)
    (hparent : ∀ t ∈ tiles, ∀ x ∈ children t, x.parent = t) (h : tiles.Nodup) :
    (tiles.flatMap children).Nodup := by
  rw [List.nodup_flatMap]
  refine ⟨hchildren, h.imp_of_mem fun {s t} hs ht hne => ?_⟩
  intro x hxs hxt
  exact hne ((hparent s hs x hxs).symm.trans (hparent t ht x hxt))

/-! ## Many levels up -/

/-- The tile some levels up is the parent of the parent and so on. -/
theorem parent_iterate (ht : t.level.toNat ≤ maxLevel) (h : n ≤ t.level.toNat) :
    parent^[n] t = t.zoomBy (-n) := by
  induction n with
  | zero =>
      obtain ⟨hrow, hcolumn, hlevel⟩ := toNat_zoomBy_up ht (Nat.zero_le t.level.toNat)
      rw [rowsAt_zero, Nat.div_one] at hrow hcolumn
      exact eq_of_toNat hrow.symm hcolumn.symm hlevel.symm
  | succ n ih =>
      obtain ⟨hrow, hcolumn, hlevel⟩ := toNat_zoomBy_up ht (Nat.le_of_succ_le h)
      obtain ⟨hrow', hcolumn', hlevel'⟩ := toNat_zoomBy_up ht h
      obtain ⟨hr, hc, hl⟩ := toNat_parent (t := t.zoomBy (-n)) (by omega)
      rw [Function.iterate_succ_apply', ih (Nat.le_of_succ_le h)]
      rw [rowsAt_succ, Nat.mul_comm, ← Nat.div_div_eq_div_mul] at hrow' hcolumn'
      exact eq_of_toNat (by rw [hr, hrow, hrow']) (by rw [hc, hcolumn, hcolumn'])
        (by rw [hl, hlevel, hlevel', Nat.sub_sub])

theorem toNat_level_parent_iterate (ht : t.level.toNat ≤ maxLevel) (h : n ≤ t.level.toNat) :
    (parent^[n] t).level.toNat = t.level.toNat - n := by
  rw [parent_iterate ht h]
  exact (toNat_zoomBy_up ht h).2.2

theorem isValid_parent_iterate (ht : t.IsValid) (h : n ≤ t.level.toNat) :
    (parent^[n] t).IsValid := by
  rw [parent_iterate (Nat.le_sub_one_of_lt ht.1) h]
  exact isValid_zoomBy_up ht h

/-! ## Codes of children -/

/-- A child has the code of its parent with the two bits of its number behind it. -/
theorem code_child (hk : k.IsValid) (hlevel : k.level.toNat < maxLevel) (hindex : index < 4) :
    (k.child index).code.word.toNat = 4 * k.code.word.toNat + index := by
  have hposition := position_code hk
  have hmark : tilesAt k.level.toNat ≤ k.code.word.toNat := by
    rw [code_toNat hk]
    exact Nat.le_add_right _ _
  have hpos := tilesAt_pos k.level.toNat
  have hshort := lt_two_mul_tilesAt hposition
  have hdeepest : tilesAt (k.level.toNat + 1) ≤ tilesAt maxLevel := tilesAt_mono hlevel
  have htop : tilesAt maxLevel = 2 ^ 62 := by decide
  rw [tilesAt_succ] at hdeepest
  -- The code with the two bits behind it is canonical and stands for the child.
  let longer : Code := ⟨UInt64.ofNat (4 * k.code.word.toNat + index)⟩
  have hlonger : longer.word.toNat = 4 * k.code.word.toNat + index :=
    UInt64.toNat_ofNat_of_lt' (show 4 * k.code.word.toNat + index < 2 ^ 64 by omega)
  have hshift : longer.word.toNat / 4 = k.code.word.toNat := by omega
  have hlong : 1 < longer.word.toNat := by omega
  have hread := position_of_one_lt hlong (hshift ▸ hposition)
  obtain ⟨hrow, hcolumn, hdepth⟩ := toNat_ofCode hread
  obtain ⟨hrow', hcolumn', hdepth'⟩ := toNat_child hk hlevel hindex
  have hchild : ofCode longer = k.child index :=
    eq_of_toNat (by omega) (by omega) (by omega)
  have hcanonical : longer.IsCanonical := by
    rw [isCanonical_iff hread, tilesAt_succ]
    omega
  rw [← hchild, (code_ofCode_eq_iff longer).2 (.inl hcanonical), hlonger]

/-- Every level up drops two bits from a code. -/
theorem code_parent_iterate (ht : t.IsValid) (h : n ≤ t.level.toNat) :
    (parent^[n] t).code.word.toNat = t.code.word.toNat / tilesAt n := by
  have hdeepest : t.level.toNat ≤ maxLevel := Nat.le_sub_one_of_lt ht.1
  induction n with
  | zero => rw [tilesAt_zero, Nat.div_one, Function.iterate_zero_apply]
  | succ n ih =>
      have hup := toNat_level_parent_iterate hdeepest (Nat.le_of_succ_le h)
      have hdeep : 0 < (parent^[n] t).level.toNat := by omega
      have hvalid := isValid_parent_iterate ht (Nat.le_of_succ_le h)
      obtain ⟨-, -, hl⟩ := toNat_parent hdeep
      have hcode := code_child (isValid_parent hvalid hdeep) (by omega)
        (digit_lt (parent^[n] t).row.toNat (parent^[n] t).column.toNat)
      rw [child_parent hvalid hdeep, ih (Nat.le_of_succ_le h)] at hcode
      have hdigit := digit_lt (parent^[n] t).row.toNat (parent^[n] t).column.toNat
      rw [Function.iterate_succ_apply', tilesAt_succ, Nat.mul_comm, ← Nat.div_div_eq_div_mul]
      omega

end TilePyramid.Tile
