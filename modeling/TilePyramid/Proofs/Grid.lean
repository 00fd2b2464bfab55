import Mathlib
import TilePyramid.Proofs.Descendants
import TilePyramid.Proofs.Fits

/-!
# Walking down a subdivision

A subdivision describes each level twice: by the children that it selects for each tile and by the
size that it states for the level. Where the divisions first keep tiles whole, then cut them into
two columns and then into four children (`Subdivision.Cuts`), the two agree: walking down from the
root reaches every cell of the grid of the level once (`Subdivision.descend_reaches_grid`). A
subdivision never reaches a tile that the tree does not have
(`Subdivision.descend_sublist_expand`).
-/

namespace TilePyramid

/-! ## Sizes -/

namespace GridSize

theorem eq_of_toNat {a b : GridSize} (hheight : a.height.toNat = b.height.toNat)
    (hwidth : a.width.toNat = b.width.toNat) : a = b := by
  cases a
  cases b
  exact congrArg₂ GridSize.mk (UInt32.toNat_inj.1 hwidth) (UInt32.toNat_inj.1 hheight)

theorem toNat_saturatingMul (a b : UInt32) :
    (saturatingMul a b).toNat = min (a.toNat * b.toNat) wordMax :=
  UInt32.toNat_ofNat_of_lt' ((Nat.min_le_right _ _).trans_lt (by decide))

theorem product_succ (division : Nat → GridSize) (level : Nat) :
    product division (level + 1) = (product division level).refine (division level) :=
  Nat.fold_succ level _ _

end GridSize

namespace Subdivision

open GridSize

variable {s : Subdivision} {t x : Tile} {kept halved level depth index : Nat}

/-- The first `kept` levels of a subdivision keep their tiles whole, the next `halved` levels cut
them into two columns, and all further levels cut them into two columns and two rows. -/
def Cuts (s : Subdivision) (kept halved : Nat) : Prop :=
  ∀ level, s.division level =
    if level < kept then ⟨1, 1⟩ else if level < kept + halved then ⟨2, 1⟩ else ⟨2, 2⟩

theorem quadTree_cuts : quadTree.Cuts 0 0 := fun _ => rfl

theorem halfQuadTree_cuts : halfQuadTree.Cuts 0 1 := by
  intro level
  cases level with
  | zero => rfl
  | succ above => rfl

/-- What a level does to the number of rows and columns: tiles are kept where there is one tile
only, halved where there is one row only, and cut into four anywhere. -/
theorem Cuts.cases (hcuts : s.Cuts kept halved) (level : Nat) :
    (s.division level = ⟨1, 1⟩ ∧ rowsAt (level - (kept + halved)) = 1 ∧
        rowsAt (level - kept) = 1 ∧ rowsAt (level + 1 - (kept + halved)) = 1 ∧
        rowsAt (level + 1 - kept) = 1) ∨
      (s.division level = ⟨2, 1⟩ ∧ rowsAt (level - (kept + halved)) = 1 ∧
        rowsAt (level + 1 - (kept + halved)) = 1 ∧
        rowsAt (level + 1 - kept) = 2 * rowsAt (level - kept)) ∨
      (s.division level = ⟨2, 2⟩ ∧
        rowsAt (level + 1 - (kept + halved)) = 2 * rowsAt (level - (kept + halved)) ∧
        rowsAt (level + 1 - kept) = 2 * rowsAt (level - kept)) := by
  have hzero : ∀ {n}, n = 0 → rowsAt n = 1 := fun h => h ▸ rowsAt_zero
  have hsucc : ∀ {n m}, n = m + 1 → rowsAt n = 2 * rowsAt m := fun h => h ▸ rowsAt_succ _
  rw [hcuts level]
  split
  · exact .inl ⟨rfl, hzero (by omega), hzero (by omega), hzero (by omega), hzero (by omega)⟩
  · split
    · exact .inr (.inl ⟨rfl, hzero (by omega), hzero (by omega), hsucc (by omega)⟩)
    · exact .inr (.inr ⟨rfl, hsucc (by omega), hsucc (by omega)⟩)

theorem Cuts.mul_division (hcuts : s.Cuts kept halved) (level : Nat) :
    rowsAt (level - (kept + halved)) * (s.division level).height.toNat =
        rowsAt (level + 1 - (kept + halved)) ∧
      rowsAt (level - kept) * (s.division level).width.toNat = rowsAt (level + 1 - kept) := by
  rcases hcuts.cases level with ⟨hdivision, hr, hc, hr', hc'⟩ | ⟨hdivision, hr, hr', hc'⟩ |
    ⟨hdivision, hr', hc'⟩
  · rw [hdivision, hr, hc, hr', hc']
    exact ⟨rfl, rfl⟩
  · rw [hdivision, hr, hr', hc']
    exact ⟨rfl, Nat.mul_comm _ 2⟩
  · rw [hdivision, hr', hc']
    exact ⟨Nat.mul_comm _ 2, Nat.mul_comm _ 2⟩

/-- The numbers of rows and columns of a level, counted by the levels that cut them. -/
theorem Cuts.toNat_product (hcuts : s.Cuts kept halved) (h : level ≤ maxLevel) :
    (product s.division level).height.toNat = rowsAt (level - (kept + halved)) ∧
      (product s.division level).width.toNat = rowsAt (level - kept) := by
  induction level with
  | zero =>
      rw [Nat.zero_sub, Nat.zero_sub]
      exact ⟨rfl, rfl⟩
  | succ level ih =>
      obtain ⟨hheight, hwidth⟩ := ih (Nat.le_of_succ_le h)
      obtain ⟨hrows, hcolumns⟩ := hcuts.mul_division level
      have hword : ∀ cut, rowsAt (level + 1 - cut) ≤ wordMax := fun cut =>
        (rowsAt_mono ((Nat.sub_le (level + 1) cut).trans h)).trans (by decide)
      rw [product_succ, refine, toNat_saturatingMul, toNat_saturatingMul, hheight, hwidth, hrows,
        hcolumns]
      exact ⟨min_eq_left (hword _), min_eq_left (hword _)⟩

/-- The subdivisions that can be named state the product of their divisions as the size of each
level. -/
theorem size_eq_product_of_mem_all (hnamed : s ∈ all) (h : level ≤ maxLevel) :
    s.size level = product s.division level := by
  rcases List.mem_cons.1 hnamed with rfl | hrest
  · obtain ⟨hheight, hwidth⟩ := quadTree_cuts.toNat_product h
    refine GridSize.eq_of_toNat ?_ ?_
    · rw [hheight]
      exact toNat_shiftUp_one h
    · rw [hwidth]
      exact toNat_shiftUp_one h
  · obtain rfl := List.mem_singleton.1 hrest
    obtain ⟨hheight, hwidth⟩ := halfQuadTree_cuts.toNat_product h
    cases level with
    | zero => rfl
    | succ above =>
        refine GridSize.eq_of_toNat ?_ ?_
        · rw [hheight]
          exact toNat_shiftUp_one (Nat.le_of_succ_le h)
        · rw [hwidth]
          exact toNat_shiftUp_one h

/-! ## Children -/

/-- A mask of children selects as many of the four as there are. -/
theorem testBit_childMask {count : Nat} (hindex : index < 4) :
    (childMask count).toNat.testBit index = decide (index < count) := by
  unfold childMask
  split
  · rename_i hfew
    have hword : Nat.pow 2 count - 1 < 2 ^ 16 :=
      (Nat.sub_le _ _).trans_lt (Nat.pow_lt_pow_right (by decide) hfew)
    rw [UInt16.toNat_ofNat_of_lt' hword]
    exact Nat.testBit_two_pow_sub_one count index
  · rename_i hmany
    have hcount : maxChildren = 16 := rfl
    have hfull : Descendants.fullMask.toNat = 2 ^ 16 - 1 := rfl
    rw [hfull, Nat.testBit_two_pow_sub_one, decide_eq_true (show index < 16 by omega),
      decide_eq_true (show index < count by omega)]

/-- A subdivision selects the first of the four children of a tile. -/
theorem mem_toList_children_iff :
    x ∈ (s.children t).toList ↔
      ∃ index < 4, index < (s.division t.level.toNat).area ∧ x = t.child index := by
  rw [children, Descendants.mem_toList_one_iff]
  refine exists_congr fun index => and_congr_right fun hindex => ?_
  rw [testBit_childMask hindex, decide_eq_true_iff]

/-- What a subdivision reaches below a tile is a part of what the tree has there. -/
theorem descend_sublist_expand (s : Subdivision) (t : Tile) (depth : Nat) :
    (s.descend t depth).Sublist (t.expand depth) := by
  induction depth with
  | zero => exact List.Sublist.refl _
  | succ depth ih =>
      rw [descend, childrenOf, Tile.expand]
      exact (List.Sublist.flatMap_right _ fun _ _ => Descendants.toList_sublist_full _).trans
        (ih.flatMap _)

/-! ## Levels -/

/-- A cell of a level lies in a cell of the level above, which selects the child that it is. -/
theorem Cuts.cell_iff (hcuts : s.Cuts kept halved) (level row column : Nat) :
    row < rowsAt (level + 1 - (kept + halved)) ∧ column < rowsAt (level + 1 - kept) ↔
      row / 2 < rowsAt (level - (kept + halved)) ∧ column / 2 < rowsAt (level - kept) ∧
        Tile.digit row column < (s.division level).area := by
  unfold Tile.digit
  rcases hcuts.cases level with ⟨hdivision, hr, hc, hr', hc'⟩ | ⟨hdivision, hr, hr', hc'⟩ |
    ⟨hdivision, hr', hc'⟩
  · have harea : (s.division level).area = 1 := by rw [hdivision]; rfl
    rw [harea, hr, hc, hr', hc']
    omega
  · have harea : (s.division level).area = 2 := by rw [hdivision]; rfl
    rw [harea, hr, hr', hc']
    omega
  · have harea : (s.division level).area = 4 := by rw [hdivision]; rfl
    rw [harea, hr', hc']
    omega

/-- The children of the cells of a level are the cells of the next one. -/
theorem Cuts.exists_children_iff (hcuts : s.Cuts kept halved) (h : level < maxLevel) :
    (∃ t : Tile, (t.level.toNat = level ∧ t.row.toNat < rowsAt (level - (kept + halved)) ∧
        t.column.toNat < rowsAt (level - kept)) ∧ x ∈ (s.children t).toList) ↔
      x.level.toNat = level + 1 ∧ x.row.toNat < rowsAt (level + 1 - (kept + halved)) ∧
        x.column.toNat < rowsAt (level + 1 - kept) := by
  have hinside : ∀ {n number cut : Nat}, number < rowsAt (n - cut) → number < rowsAt n :=
    fun hlt => hlt.trans_le (rowsAt_mono (Nat.sub_le _ _))
  simp only [mem_toList_children_iff]
  rw [hcuts.cell_iff]
  constructor
  · rintro ⟨t, ⟨rfl, hr, hc⟩, index, hindex, harea, rfl⟩
    have ht : t.IsValid := ⟨Nat.lt_succ_of_lt h, hinside hr, hinside hc⟩
    obtain ⟨hnorth, heast, hdigit⟩ := Tile.halves_child ht h hindex
    rw [hnorth, heast, hdigit]
    exact ⟨(Tile.toNat_child ht h hindex).2.2, hr, hc, harea⟩
  · rintro ⟨hl, hr, hc, harea⟩
    have hpos : 0 < x.level.toNat := by omega
    obtain ⟨hrow, hcolumn, hup⟩ := Tile.toNat_parent hpos
    obtain ⟨hr', hc'⟩ := (hcuts.cell_iff level x.row.toNat x.column.toNat).2 ⟨hr, hc, harea⟩
    have hx : x.IsValid := by
      rw [Tile.IsValid, hl]
      exact ⟨Nat.add_lt_of_lt_sub h, hinside hr', hinside hc'⟩
    have hlevel : x.parent.level.toNat = level := by omega
    rw [← hrow] at hr
    rw [← hcolumn] at hc
    refine ⟨x.parent, ⟨hlevel, hr, hc⟩, Tile.digit x.row.toNat x.column.toNat,
      Code.digit_lt _ _, ?_, (Tile.child_parent hx hpos).symm⟩
    rw [hlevel]
    exact harea

/-- Walking down from the root reaches the cells of the level. -/
theorem Cuts.mem_descend_root_iff (hcuts : s.Cuts kept halved) (h : level ≤ maxLevel) :
    x ∈ s.descend .root level ↔
      x.level.toNat = level ∧ x.row.toNat < rowsAt (level - (kept + halved)) ∧
        x.column.toNat < rowsAt (level - kept) := by
  induction level generalizing x with
  | zero =>
      rw [descend, List.mem_singleton, Nat.zero_sub, Nat.zero_sub]
      constructor
      · rintro rfl
        decide
      · rintro ⟨hl, hr, hc⟩
        exact Tile.eq_of_toNat (Nat.lt_one_iff.1 hr) (Nat.lt_one_iff.1 hc) hl
  | succ level ih =>
      rw [← hcuts.exists_children_iff h]
      simp only [descend, childrenOf, List.mem_flatMap, ih (Nat.le_of_succ_le h)]

/-- Subdivisions that keep tiles whole on some levels, halve them on some more levels and cut them
into four from there on, with the product of the divisions above as the size of a level or with a
size of their own if they can be named. Walking down from the root to a level reaches every tile of
the level that lies in the grid of its size, each once, and no other tile. The subdivisions that can
be named are of this kind. -/
theorem descend_reaches_grid :
    (∀ (s : Subdivision) (kept halved level : Nat), s.Cuts kept halved →
      s.size = GridSize.product s.division ∨ s ∈ all → level ≤ maxLevel →
      (s.descend .root level).Nodup ∧
        ∀ x : Tile, x ∈ s.descend .root level ↔
          x.level.toNat = level ∧ x.row < (s.size level).height ∧
            x.column < (s.size level).width) ∧
    quadTree.Cuts 0 0 ∧ halfQuadTree.Cuts 0 1 := by
  refine ⟨fun s kept halved level hcuts hsize h => ?_, quadTree_cuts, halfQuadTree_cuts⟩
  have hproduct : s.size level = product s.division level := by
    rcases hsize with hdefault | hnamed
    · rw [hdefault]
    · exact size_eq_product_of_mem_all hnamed h
  obtain ⟨hheight, hwidth⟩ := hcuts.toNat_product h
  have hroot : Tile.root.level.toNat + level ≤ maxLevel := (Nat.zero_add level).trans_le h
  refine ⟨(s.descend_sublist_expand .root level).nodup (Tile.nodup_expand (by decide) hroot),
    fun x => ?_⟩
  rw [hcuts.mem_descend_root_iff h, UInt32.lt_iff_toNat_lt, UInt32.lt_iff_toNat_lt, hproduct,
    hheight, hwidth]

/-- A subdivision without a name that keeps the root whole, halves it twice and cuts into four from
then on reaches on its deepest level the tile in the north east of its grid, and not the one to the
north of it. The half quad tree reaches its grid too, with a size of its own. -/
theorem descend_reaches_grid_stripes :
    let stripes : Subdivision :=
      { name := "stripes"
        division := fun level =>
          if level < 1 then ⟨1, 1⟩ else if level < 1 + 2 then ⟨2, 1⟩ else ⟨2, 2⟩ }
    stripes.Cuts 1 2 ∧ stripes.size = GridSize.product stripes.division ∧
      halfQuadTree ∈ all ∧ (stripes.descend .root 31).Nodup ∧
      (⟨0x0FFFFFFF, 0x3FFFFFFF, 31⟩ : Tile) ∈ stripes.descend .root 31 ∧
      (⟨0x10000000, 0x3FFFFFFF, 31⟩ : Tile) ∉ stripes.descend .root 31 ∧
      (⟨0x3FFFFFFF, 0x7FFFFFFF, 31⟩ : Tile) ∈ halfQuadTree.descend .root 31 := by
  intro stripes
  obtain ⟨hreaches, -, hhalf⟩ := descend_reaches_grid
  have hcuts : stripes.Cuts 1 2 := fun _ => rfl
  have hsize : stripes.size = GridSize.product stripes.division := rfl
  have hnamed : halfQuadTree ∈ all := List.mem_cons_of_mem _ List.mem_cons_self
  obtain ⟨hnodup, hmem⟩ := hreaches stripes 1 2 31 hcuts (.inl hsize) (by decide)
  obtain ⟨-, hmem'⟩ := hreaches halfQuadTree 0 1 31 hhalf (.inr hnamed) (by decide)
  refine ⟨hcuts, hsize, hnamed, hnodup, ?_, ?_, ?_⟩
  · exact (hmem _).2 (by decide +kernel)
  · exact fun hreached => absurd ((hmem _).1 hreached) (by decide +kernel)
  · exact (hmem' _).2 (by decide)

end Subdivision

end TilePyramid
