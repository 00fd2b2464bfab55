import Mathlib
import TilePyramid.Proofs.Pyramid

/-!
# Boxes of tiles

The boxes of the tiles of a level cut the sides of the world into cells of equal length. In exact
arithmetic a point is in the box of a tile if its shares of the sides are in the cells of the tile
and it is at the bottom of the world (`Scheme.tileBox_contains_iff`). So with a flat projection the
tile of a position and the box of a tile are inverse (`Scheme.locate_tileBox`), and the boxes of a
level cover the world and meet at their sides only (`Scheme.exists_tileBox_contains_iff`). The world
of the sphere is not flat, and the boxes cover no more than the bottom of it.
-/

namespace TilePyramid

/-! ## Cells of equal length -/

/-- A share of a whole that is divided into `count` cells of equal length is in the cell with the
given number, or at one of its ends. -/
def InCell (count number : ℕ) (share : ℝ) : Prop :=
  (number : ℝ) / count ≤ share ∧ share ≤ (number + 1 : ℝ) / count

/-- The share is in the cell and at none of its ends. -/
def InsideCell (count number : ℕ) (share : ℝ) : Prop :=
  (number : ℝ) / count < share ∧ share < (number + 1 : ℝ) / count

section
variable {count number other : ℕ} {share : ℝ}

/-- A share of the whole is in the cell of its bucket. -/
theorem inCell_bucket (hcount : 1 ≤ count) (hshare : 0 ≤ share ∧ share ≤ 1) :
    InCell count (bucket count share) share := by
  have hcount' : (0 : ℝ) < count := Nat.cast_pos.2 hcount
  rw [InCell, div_le_iff₀' hcount', le_div_iff₀' hcount']
  have hfloor : (⌊count * share⌋₊ : ℝ) ≤ count * share :=
    Nat.floor_le (mul_nonneg hcount'.le hshare.1)
  have hbucket : (bucket count share : ℝ) ≤ ⌊count * share⌋₊ := Nat.cast_le.2 (min_le_right _ _)
  refine ⟨hbucket.trans hfloor, ?_⟩
  rcases le_total (count - 1) ⌊count * share⌋₊ with hlast | hinner
  · -- The last cell ends with the whole.
    rw [bucket, min_eq_left hlast, Nat.cast_sub hcount, Nat.cast_one, sub_add_cancel]
    exact mul_le_of_le_one_right hcount'.le hshare.2
  · rw [bucket, min_eq_right hinner]
    exact (Nat.lt_floor_add_one _).le

/-- The bucket of a share in a cell, but not at its end, is that cell. -/
theorem bucket_eq_of_inCell (hnumber : number < count) (hin : InCell count number share)
    (hend : share < (number + 1 : ℝ) / count) : bucket count share = number := by
  have hcount : (0 : ℝ) < count := Nat.cast_pos.2 (Nat.zero_lt_of_lt hnumber)
  have hbegin := (div_le_iff₀' hcount).1 hin.1
  rw [lt_div_iff₀' hcount] at hend
  have hfloor : ⌊count * share⌋₊ = number :=
    (Nat.floor_eq_iff (number.cast_nonneg.trans hbegin)).2 ⟨hbegin, hend⟩
  rw [bucket, hfloor]
  exact min_eq_right (Nat.le_sub_one_of_lt hnumber)

/-- The cells of a whole are in it. -/
theorem InCell.mem_whole (hnumber : number < count) (hin : InCell count number share) :
    0 ≤ share ∧ share ≤ 1 := by
  have hcount : (0 : ℝ) < count := Nat.cast_pos.2 (Nat.zero_lt_of_lt hnumber)
  have hlast : (number + 1 : ℝ) ≤ count := by exact_mod_cast hnumber
  exact ⟨(div_nonneg number.cast_nonneg hcount.le).trans hin.1,
    hin.2.trans ((div_le_one hcount).2 hlast)⟩

/-- A share inside a cell is in no other cell, not even at its end. -/
theorem InsideCell.eq (hcount : 1 ≤ count) (hin : InsideCell count number share)
    (hother : InCell count other share) : other = number := by
  have hcount' : (0 : ℝ) < count := Nat.cast_pos.2 hcount
  have hbegin := (div_lt_div_iff_of_pos_right hcount').1 (hother.1.trans_lt hin.2)
  have hend := (div_lt_div_iff_of_pos_right hcount').1 (hin.1.trans_le hother.2)
  norm_cast at hbegin hend
  omega

end

variable {circle : Circle}

/-! ## Shares of the sides of a box -/

namespace Box

/-- The share of the way along an axis, from the lesser side of a box to the greater one, at which a
point is. -/
noncomputable def share (b : Box (Exact circle)) (axis : Vec (Exact circle) → Exact circle)
    (v : Vec (Exact circle)) : ℝ :=
  ((axis v).value - (axis b.minimum).value) / ((axis b.maximum).value - (axis b.minimum).value)

/-- The point is in a box and neither on its eastern nor on its northern side, which belong to the
next boxes. -/
def Owns (b : Box (Exact circle)) (v : Vec (Exact circle)) : Prop :=
  b.contains v ∧ v.x.value < b.maximum.x.value ∧ v.y.value < b.maximum.y.value

/-- The point is between the western and the eastern side of a box and between the southern and the
northern one, on none of them, and at any height. -/
def Surrounds (b : Box (Exact circle)) (v : Vec (Exact circle)) : Prop :=
  (b.minimum.x.value < v.x.value ∧ v.x.value < b.maximum.x.value) ∧
    b.minimum.y.value < v.y.value ∧ v.y.value < b.maximum.y.value

section
variable {b : Box (Exact circle)} {axis : Vec (Exact circle) → Exact circle}
  {v w : Vec (Exact circle)} (hside : (axis b.minimum).value < (axis b.maximum).value)

include hside

theorem share_le_share_iff :
    b.share axis v ≤ b.share axis w ↔ (axis v).value ≤ (axis w).value := by
  rw [share, share, div_le_div_iff_of_pos_right (sub_pos.2 hside), sub_le_sub_iff_right]

theorem share_lt_share_iff :
    b.share axis v < b.share axis w ↔ (axis v).value < (axis w).value :=
  lt_iff_lt_of_le_iff_le (share_le_share_iff hside)

/-- The points between the sides are those with shares of the whole. -/
theorem share_mem_iff : (0 ≤ b.share axis v ∧ b.share axis v ≤ 1) ↔
    (axis b.minimum).value ≤ (axis v).value ∧ (axis v).value ≤ (axis b.maximum).value := by
  have hfirst : b.share axis b.minimum = 0 := by
    rw [share, sub_self, zero_div]
  have hlast : b.share axis b.maximum = 1 := div_self (sub_pos.2 hside).ne'
  rw [← hfirst, ← hlast, share_le_share_iff hside, share_le_share_iff hside]

end

end Box

namespace Projection

/-- The world of a projection is the box of its points at altitude 0. -/
noncomputable def world (projection : Projection) (circle : Circle) : Box (Exact circle) :=
  projection.extent 0.0 0.0

/-- The world of every projection has a width and a height. -/
theorem minimum_lt_maximum (projection : Projection) (circle : Circle) :
    (projection.world circle).minimum.x.value < (projection.world circle).maximum.x.value ∧
      (projection.world circle).minimum.y.value < (projection.world circle).maximum.y.value := by
  have hpi := circle.pi_pos
  cases projection with
  | equirectangular =>
      simp only [world, extent, Exact.value_ofScientific]
      norm_num
  | sphere =>
      simp only [world, extent, Earth.equatorialRadius, Exact.value_neg, Exact.value_add,
        Exact.value_ofScientific]
      norm_num
  | identity =>
      simp only [world, extent, Exact.value_neg, Exact.value_pi, Exact.value_halfPi]
      constructor <;> linarith

/-- The shares of a projected position are those of its longitude and of its latitude. -/
theorem IsFlat.share_project {projection : Projection} (hflat : projection.IsFlat)
    (p : Position (Exact circle)) :
    (projection.world circle).share Vec.x (projection.project ⟨p, 0.0⟩) = p.across ∧
      (projection.world circle).share Vec.y (projection.project ⟨p, 0.0⟩) = p.up :=
  hflat.shares p

/-- The world of a flat projection has no depth. -/
theorem IsFlat.eq_bottom {projection : Projection} (hflat : projection.IsFlat)
    {v : Vec (Exact circle)} (hv : (projection.world circle).contains v) :
    v.z.value = (projection.world circle).minimum.z.value := by
  obtain ⟨-, -, hbottom, htop⟩ := (Box.contains_iff _ _).1 hv
  rcases hflat with rfl | rfl <;> exact le_antisymm htop hbottom

end Projection

namespace Scheme

/-! ## Points in boxes of tiles -/

/-- The cells of a side begin at whole shares of it. -/
theorem cells_sub_div {lower upper : ℝ} (hside : lower < upper) (number count : ℝ) :
    (lower + number * ((upper - lower) / count) - lower) / (upper - lower) = number / count := by
  rw [add_sub_cancel_left, ← mul_div_assoc, div_right_comm,
    mul_div_cancel_right₀ _ (sub_pos.2 hside).ne']

/-- The sides of the box of a tile are the ends of the cells in its column and in its row. -/
theorem share_tileBox (s : Scheme) (t : Tile) (circle : Circle) :
    let size := s.subdivision.size t.level.toNat
    ((s.projection.world circle).share Vec.x (s.tileBox t).minimum =
        t.column.toNat / size.width.toNat ∧
      (s.projection.world circle).share Vec.x (s.tileBox t).maximum =
        (t.column.toNat + 1) / size.width.toNat) ∧
    (s.projection.world circle).share Vec.y (s.tileBox t).minimum =
        t.row.toNat / size.height.toNat ∧
      (s.projection.world circle).share Vec.y (s.tileBox t).maximum =
        (t.row.toNat + 1) / size.height.toNat := by
  intro size
  obtain ⟨hx, hy⟩ := s.projection.minimum_lt_maximum circle
  refine ⟨⟨cells_sub_div hx _ _, ?_⟩, cells_sub_div hy _ _, ?_⟩
  · rw [← cells_sub_div hx, add_one_mul, ← add_assoc]
    rfl
  · rw [← cells_sub_div hy, add_one_mul, ← add_assoc]
    rfl

variable {s : Scheme} {t : Tile} {level : ℕ} {v : Vec (Exact circle)}

section
variable (hlevel : t.level.toNat = level)

include hlevel

/-- A point is in the box of a tile if its shares of the sides of the world are in the cells of the
tile and it is at the bottom of the world. -/
theorem tileBox_contains_iff : (s.tileBox t).contains v = true ↔
    InCell (s.subdivision.size level).width.toNat t.column.toNat
        ((s.projection.world circle).share Vec.x v) ∧
      InCell (s.subdivision.size level).height.toNat t.row.toNat
        ((s.projection.world circle).share Vec.y v) ∧
      v.z.value = (s.projection.world circle).minimum.z.value := by
  obtain ⟨hx, hy⟩ := s.projection.minimum_lt_maximum circle
  obtain ⟨⟨hwest, heast⟩, hsouth, hnorth⟩ := share_tileBox s t circle
  have hbottom : (s.tileBox t : Box (Exact circle)).minimum.z.value =
      (s.projection.world circle).minimum.z.value := by
    show (s.projection.world circle).minimum.z.value + 0.0 = _
    norm_num
  have htop : (s.tileBox t : Box (Exact circle)).maximum.z.value =
      (s.projection.world circle).minimum.z.value := by
    show (s.projection.world circle).minimum.z.value + 0.0 + 0.0 = _
    norm_num
  rw [InCell, InCell, ← hlevel, ← hwest, ← heast, ← hsouth, ← hnorth, Box.share_le_share_iff hx,
    Box.share_le_share_iff hx, Box.share_le_share_iff hy, Box.share_le_share_iff hy,
    Box.contains_iff, hbottom, htop]
  exact and_congr_right' (and_congr_right' (antisymm_iff.trans eq_comm))

/-- The box of a tile owns a point if, besides, the shares are not at the ends of the cells. -/
theorem owns_tileBox_iff : (s.tileBox t).Owns v ↔
    (s.tileBox t).contains v ∧
      (s.projection.world circle).share Vec.x v <
        (t.column.toNat + 1) / (s.subdivision.size level).width.toNat ∧
      (s.projection.world circle).share Vec.y v <
        (t.row.toNat + 1) / (s.subdivision.size level).height.toNat := by
  obtain ⟨hx, hy⟩ := s.projection.minimum_lt_maximum circle
  obtain ⟨⟨-, heast⟩, -, hnorth⟩ := share_tileBox s t circle
  rw [← hlevel, ← heast, ← hnorth, Box.share_lt_share_iff hx, Box.share_lt_share_iff hy, Box.Owns]

/-- A point is surrounded by the box of a tile if its shares of the sides of the world are inside the
cells of the tile. -/
theorem surrounds_tileBox_iff : (s.tileBox t).Surrounds v ↔
    InsideCell (s.subdivision.size level).width.toNat t.column.toNat
        ((s.projection.world circle).share Vec.x v) ∧
      InsideCell (s.subdivision.size level).height.toNat t.row.toNat
        ((s.projection.world circle).share Vec.y v) := by
  obtain ⟨hx, hy⟩ := s.projection.minimum_lt_maximum circle
  obtain ⟨⟨hwest, heast⟩, hsouth, hnorth⟩ := share_tileBox s t circle
  rw [InsideCell, InsideCell, ← hlevel, ← hwest, ← heast, ← hsouth, ← hnorth,
    Box.share_lt_share_iff hx, Box.share_lt_share_iff hx, Box.share_lt_share_iff hy,
    Box.share_lt_share_iff hy, Box.Surrounds]

variable (hwidth : 1 ≤ (s.subdivision.size level).width.toNat)
  (hheight : 1 ≤ (s.subdivision.size level).height.toNat)

include hwidth hheight

/-- A tile in the row and in the column of a point of the world has the point in its box exactly if
the point is at the bottom of the world. -/
theorem tileBox_contains_iff_bottom (hv : (s.projection.world circle).contains v)
    (hrow : t.row.toNat = bucket (s.subdivision.size level).height.toNat
      ((s.projection.world circle).share Vec.y v))
    (hcolumn : t.column.toNat = bucket (s.subdivision.size level).width.toNat
      ((s.projection.world circle).share Vec.x v)) :
    (s.tileBox t).contains v = true ↔
      v.z.value = (s.projection.world circle).minimum.z.value := by
  obtain ⟨hx, hy⟩ := s.projection.minimum_lt_maximum circle
  obtain ⟨hvx, hvy, -⟩ := (Box.contains_iff _ _).1 hv
  rw [tileBox_contains_iff hlevel, hrow, hcolumn]
  exact (and_iff_right (inCell_bucket hwidth ((Box.share_mem_iff hx).2 hvx))).trans
    (and_iff_right (inCell_bucket hheight ((Box.share_mem_iff hy).2 hvy)))

/-- Two tiles of a level are one if the box of one surrounds a point in the box of the other. -/
theorem eq_of_surrounds {other : Tile} (hother : other.level.toNat = level)
    (hin : (s.tileBox t).Surrounds v) (hv : (s.tileBox other).contains v) : other = t := by
  obtain ⟨hx, hy⟩ := (surrounds_tileBox_iff hlevel).1 hin
  obtain ⟨hx', hy', -⟩ := (tileBox_contains_iff hother).1 hv
  exact Tile.eq_of_toNat (hy.eq hheight hy') (hx.eq hwidth hx') (hother.trans hlevel.symm)

end

/-- The tile is in one of the rows and in one of the columns of a level. -/
structure HasTile (s : Scheme) (level : ℕ) (t : Tile) : Prop where
  level_eq : t.level.toNat = level
  row_lt : t.row.toNat < (s.subdivision.size level).height.toNat
  column_lt : t.column.toNat < (s.subdivision.size level).width.toNat

/-- A point of the world is located in a tile of the level. The box of this tile contains the point
exactly if it is at the bottom of the world. -/
theorem locatePoint_hasTile (hlevel : level ≤ maxLevel)
    (hwidth : 1 ≤ (s.subdivision.size level).width.toNat)
    (hheight : 1 ≤ (s.subdivision.size level).height.toNat)
    (hv : (s.projection.world circle).contains v) :
    s.HasTile level (s.locatePoint v level) ∧
      ((s.tileBox (s.locatePoint v level)).contains v = true ↔
        v.z.value = (s.projection.world circle).minimum.z.value) := by
  obtain ⟨hx, hy, -⟩ := (Box.contains_iff _ _).1 hv
  obtain ⟨hrow, hcolumn, hdepth⟩ := locatePoint_toNat hlevel hwidth hheight rfl hx hy
  refine ⟨⟨hdepth, ?_, ?_⟩, tileBox_contains_iff_bottom hdepth hwidth hheight hv hrow hcolumn⟩
  · rw [hrow]
    exact bucket_lt hheight _
  · rw [hcolumn]
    exact bucket_lt hwidth _

/-- A point that the box of a tile owns is located in that tile. -/
theorem locatePoint_eq_of_owns (hlevel : level ≤ maxLevel) (ht : s.HasTile level t)
    (hv : (s.tileBox t).Owns v) : s.locatePoint v level = t := by
  obtain ⟨hx, hy⟩ := s.projection.minimum_lt_maximum circle
  obtain ⟨hin, heast, hnorth⟩ := (owns_tileBox_iff ht.level_eq).1 hv
  obtain ⟨hcolumn, hrow, -⟩ := (tileBox_contains_iff ht.level_eq).1 hin
  obtain ⟨hlocated, hlocated', hdepth⟩ := locatePoint_toNat hlevel (Nat.one_le_of_lt ht.column_lt)
    (Nat.one_le_of_lt ht.row_lt) rfl ((Box.share_mem_iff hx).1 (hcolumn.mem_whole ht.column_lt))
    ((Box.share_mem_iff hy).1 (hrow.mem_whole ht.row_lt))
  exact Tile.eq_of_toNat (hlocated.trans (bucket_eq_of_inCell ht.row_lt hrow hnorth))
    (hlocated'.trans (bucket_eq_of_inCell ht.column_lt hcolumn heast))
    (hdepth.trans ht.level_eq.symm)

/-! ## Positions and boxes -/

/-- With a flat projection, every position of the world is located in a tile of the level whose box
contains the point of the position, also at the edges of the world. A position is located in the
tile of the level whose box owns its point. -/
theorem locate_tileBox (s : Scheme) (hflat : s.projection.IsFlat) (hlevel : level ≤ maxLevel)
    (hwidth : 1 ≤ (s.subdivision.size level).width.toNat)
    (hheight : 1 ≤ (s.subdivision.size level).height.toNat) :
    (∀ p : Position (Exact circle),
      (s.projection.bounds : Rectangle (Exact circle)).contains p →
        s.HasTile level (s.locate p level) ∧
          (s.tileBox (s.locate p level)).contains (s.projection.project ⟨p, 0.0⟩)) ∧
    ∀ (t : Tile) (p : Position (Exact circle)), s.HasTile level t →
      (s.tileBox t).Owns (s.projection.project ⟨p, 0.0⟩) → s.locate p level = t := by
  refine ⟨fun p hp => ?_, fun t p ht hv => ?_⟩
  · have hv := hflat.extent_contains hp
    obtain ⟨hhas, hcontains⟩ := locatePoint_hasTile hlevel hwidth hheight hv
    rw [locate_eq_locatePoint s hlevel p]
    exact ⟨hhas, hcontains.2 (hflat.eq_bottom hv)⟩
  · rw [locate_eq_locatePoint s hlevel p]
    exact locatePoint_eq_of_owns hlevel ht hv

/-- In a grid of three columns and three rows, the box of the last tile contains the north east corner
of the world, and the south west corner of the middle tile is located in that tile. -/
theorem locate_tileBox_thirds :
    let thirds : Scheme := ⟨{ name := "thirds", division := fun _ => ⟨3, 3⟩ }, .equirectangular⟩
    let p : Position (Exact (.usual fun value _ => value)) := Rectangle.world.northEast
    let q : Position (Exact (.usual fun value _ => value)) := ⟨⟨-Real.pi / 6⟩, ⟨-Real.pi / 3⟩⟩
    thirds.projection.IsFlat ∧ 1 ≤ maxLevel ∧ 1 ≤ (thirds.subdivision.size 1).width.toNat ∧
      1 ≤ (thirds.subdivision.size 1).height.toNat ∧ Rectangle.world.contains p ∧
      (thirds.tileBox (thirds.locate p 1)).contains (thirds.projection.project ⟨p, 0.0⟩) ∧
      thirds.HasTile 1 ⟨1, 1, 1⟩ ∧
      (thirds.tileBox ⟨1, 1, 1⟩).Owns (thirds.projection.project ⟨q, 0.0⟩) ∧
      thirds.locate q 1 = ⟨1, 1, 1⟩ := by
  intro thirds p q
  have hflat : thirds.projection.IsFlat := .inl rfl
  have hp := (Rectangle.world_contains_middle (.usual fun value _ => value)).2.2
  have ht : thirds.HasTile 1 ⟨1, 1, 1⟩ := ⟨rfl, by decide, by decide⟩
  have hsize : thirds.subdivision.size 1 = ⟨3, 3⟩ := by decide
  have hacross : q.across = 1 / 3 := by
    show (-Real.pi / 3 + Real.pi) / (2 * Real.pi) = 1 / 3
    field_simp
    norm_num
  have hup : q.up = 1 / 3 := by
    show (-Real.pi / 6 + Real.pi / 2) / Real.pi = 1 / 3
    field_simp
    norm_num
  obtain ⟨hx, hy⟩ := hflat.share_project q
  have howns : (thirds.tileBox ⟨1, 1, 1⟩).Owns (thirds.projection.project ⟨q, 0.0⟩) := by
    rw [owns_tileBox_iff ht.level_eq, tileBox_contains_iff ht.level_eq, hx, hy, hacross, hup, hsize]
    show (InCell 3 1 (1 / 3) ∧ InCell 3 1 (1 / 3) ∧ (0.0 : ℝ) = 0.0) ∧
      (1 / 3 : ℝ) < ((1 : ℕ) + 1) / (3 : ℕ) ∧ (1 / 3 : ℝ) < ((1 : ℕ) + 1) / (3 : ℕ)
    norm_num [InCell]
  have hlevel : 1 ≤ maxLevel := by decide
  have hwidth : 1 ≤ (thirds.subdivision.size 1).width.toNat := by decide
  have hheight : 1 ≤ (thirds.subdivision.size 1).height.toNat := by decide
  exact ⟨hflat, hlevel, hwidth, hheight, hp,
    ((locate_tileBox thirds hflat hlevel hwidth hheight).1 p hp).2, ht, howns,
    (locate_tileBox thirds hflat hlevel hwidth hheight).2 _ q ht howns⟩

/-! ## Boxes that cover the world -/

/-- Every cell of a level has a tile. -/
theorem exists_hasTile (s : Scheme) (level : UInt32) {row column : ℕ}
    (hrow : row < (s.subdivision.size level.toNat).height.toNat)
    (hcolumn : column < (s.subdivision.size level.toNat).width.toNat) :
    ∃ t, s.HasTile level.toNat t ∧ t.row.toNat = row ∧ t.column.toNat = column := by
  have hrow' := UInt32.toNat_ofNat_of_lt' (hrow.trans (UInt32.toNat_lt _))
  have hcolumn' := UInt32.toNat_ofNat_of_lt' (hcolumn.trans (UInt32.toNat_lt _))
  exact ⟨⟨UInt32.ofNat row, UInt32.ofNat column, level⟩,
    ⟨rfl, hrow'.trans_lt hrow, hcolumn'.trans_lt hcolumn⟩, hrow', hcolumn'⟩

/-- The points of the world that are in the box of some tile of a level are those at the bottom of
the world. With a flat projection these are all points of the world. A point surrounded by the box
of a tile is in the box of no other tile of the level. -/
theorem exists_tileBox_contains_iff (s : Scheme) (level : UInt32)
    (hwidth : 1 ≤ (s.subdivision.size level.toNat).width.toNat)
    (hheight : 1 ≤ (s.subdivision.size level.toNat).height.toNat) :
    (∀ v : Vec (Exact circle), (s.projection.extent (0.0 : Exact circle) 0.0).contains v →
      ((∃ t, s.HasTile level.toNat t ∧ (s.tileBox t).contains v) ↔
        v.z.value = (s.projection.extent (0.0 : Exact circle) 0.0).minimum.z.value)) ∧
    (s.projection.IsFlat → ∀ v : Vec (Exact circle),
      (s.projection.extent (0.0 : Exact circle) 0.0).contains v →
        ∃ t, s.HasTile level.toNat t ∧ (s.tileBox t).contains v) ∧
    ∀ t other : Tile, s.HasTile level.toNat t → s.HasTile level.toNat other →
      ∀ v : Vec (Exact circle), (s.tileBox t).Surrounds v → (s.tileBox other).contains v →
        other = t := by
  have hcovered : ∀ v : Vec (Exact circle), (s.projection.world circle).contains v →
      v.z.value = (s.projection.world circle).minimum.z.value →
      ∃ t, s.HasTile level.toNat t ∧ (s.tileBox t).contains v := by
    intro v hv hbottom
    obtain ⟨t, ht, hrow, hcolumn⟩ :=
      s.exists_hasTile level (bucket_lt hheight _) (bucket_lt hwidth _)
    exact ⟨t, ht, (tileBox_contains_iff_bottom ht.level_eq hwidth hheight hv hrow hcolumn).2 hbottom⟩
  refine ⟨fun v hv => ⟨fun h => ?_, hcovered v hv⟩, fun hflat v hv => ?_, ?_⟩
  · obtain ⟨t, ht, hin⟩ := h
    exact ((tileBox_contains_iff ht.level_eq).1 hin).2.2
  · exact hcovered v hv (hflat.eq_bottom hv)
  · intro t other ht hother v hin hv
    exact eq_of_surrounds ht.level_eq hwidth hheight hother.level_eq hin hv

/-- The box of the first one of four tiles surrounds its middle, which is in no other box. -/
theorem exists_tileBox_contains_iff_firstQuarter :
    let s := quadTreeEquirectangular
    let v : Vec (Exact (.usual fun value _ => value)) := ⟨⟨1 / 4⟩, ⟨1 / 8⟩, ⟨0⟩⟩
    1 ≤ (s.subdivision.size 1).width.toNat ∧ 1 ≤ (s.subdivision.size 1).height.toNat ∧
      s.projection.IsFlat ∧ (s.projection.extent 0.0 0.0).contains v ∧
      (∃ t, s.HasTile 1 t ∧ (s.tileBox t).contains v) ∧ s.HasTile 1 ⟨0, 0, 1⟩ ∧
      (s.tileBox ⟨0, 0, 1⟩).Surrounds v ∧
      ∀ other, s.HasTile 1 other → (s.tileBox other).contains v → other = ⟨0, 0, 1⟩ := by
  intro s v
  have hwidth : 1 ≤ (s.subdivision.size 1).width.toNat := by decide
  have hheight : 1 ≤ (s.subdivision.size 1).height.toNat := by decide
  have hflat : s.projection.IsFlat := .inl rfl
  have ht : s.HasTile 1 ⟨0, 0, 1⟩ := ⟨rfl, by decide, by decide⟩
  have hv : (s.projection.extent 0.0 0.0).contains v = true := by
    rw [Box.contains_iff]
    norm_num [s, v, quadTreeEquirectangular, Projection.extent]
  have hsize : s.subdivision.size 1 = ⟨2, 2⟩ := by decide
  have hin : (s.tileBox ⟨0, 0, 1⟩).Surrounds v := by
    rw [surrounds_tileBox_iff ht.level_eq, hsize]
    show InsideCell 2 0 _ ∧ InsideCell 2 0 _
    norm_num [s, v, quadTreeEquirectangular, Projection.world, Projection.extent, Box.share,
      InsideCell]
  obtain ⟨-, hcovers, hapart⟩ := exists_tileBox_contains_iff s 1 hwidth hheight
  exact ⟨hwidth, hheight, hflat, hv, hcovers hflat v hv, ht, hin,
    fun other hother => hapart _ other ht hother v hin⟩

/-- No tile of the sphere has the middle of the earth in its box. -/
theorem not_forall_exists_tileBox_contains :
    ¬ ∀ (circle : Circle) (s : Scheme) (level : UInt32),
      1 ≤ (s.subdivision.size level.toNat).width.toNat →
      1 ≤ (s.subdivision.size level.toNat).height.toNat →
      ∀ v : Vec (Exact circle), (s.projection.extent (0.0 : Exact circle) 0.0).contains v →
        ∃ t, s.HasTile level.toNat t ∧ (s.tileBox t).contains v := by
  intro h
  let circle : Circle := .usual fun value _ => value
  let middle : Vec (Exact circle) := ⟨⟨0⟩, ⟨0⟩, ⟨0⟩⟩
  have hradius : (quadTreeSphere.projection.world circle).minimum.z.value = -6378137 := by
    show -((6378137.0 : ℝ) + 0.0) = -6378137
    norm_num
  have hmiddle : (quadTreeSphere.projection.world circle).contains middle = true := by
    rw [Box.contains_iff]
    simp only [quadTreeSphere, Projection.world, Projection.extent, Earth.equatorialRadius, middle,
      Exact.value_neg, Exact.value_add, Exact.value_ofScientific]
    norm_num
  obtain ⟨t, ht, hin⟩ := h circle quadTreeSphere 0 (by decide) (by decide) middle hmiddle
  have hbottom := ((tileBox_contains_iff ht.level_eq).1 hin).2.2
  rw [hradius] at hbottom
  norm_num [middle] at hbottom

end Scheme

end TilePyramid
