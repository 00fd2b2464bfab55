import Mathlib
import TilePyramid.Proofs.Cover
import TilePyramid.Proofs.Pyramid

/-!
# The tiles of a rectangle on all levels

In exact arithmetic the tiles that a rectangle meets at a level are those that contain its tiles at
a deeper level (`Scheme.mem_cover_iff_zoomTo`). Between two levels the columns of both corners are
divided, and the columns between them with them, the way around the world included
(`exists_column_div_iff`).
-/

namespace TilePyramid

/-! ## Divided rows and columns -/

/-- Dividing the numbers between two gives all numbers between the divided two. -/
theorem exists_between_div_iff {first last parts x : ℕ} (hparts : 1 ≤ parts) (h : first ≤ last) :
    (∃ y, (first ≤ y ∧ y ≤ last) ∧ y / parts = x) ↔ first / parts ≤ x ∧ x ≤ last / parts := by
  constructor
  · intro hy
    obtain ⟨y, ⟨hfirst, hlast⟩, rfl⟩ := hy
    exact ⟨Nat.div_le_div_right hfirst, Nat.div_le_div_right hlast⟩
  · intro hx
    obtain ⟨hfirst, hlast⟩ := hx
    rcases hfirst.lt_or_eq with hlt | heq
    · -- The first number of the part lies behind `first`.
      refine ⟨x * parts, ⟨?_, (Nat.le_div_iff_mul_le hparts).1 hlast⟩, Nat.mul_div_cancel x hparts⟩
      exact ((Nat.div_lt_iff_lt_mul hparts).1 hlt).le
    · exact ⟨first, ⟨le_rfl, h⟩, heq⟩

/-- Dividing the columns between two gives all columns between the divided two. If they go around
the world, so do the divided ones, and they are all columns if the divided two are the same. -/
theorem exists_column_div_iff {columns parts first last x : ℕ} {crosses : Prop}
    [Decidable crosses] (hparts : 1 ≤ parts) (hfirst : first < columns * parts)
    (hlast : last < columns * parts) (horder : ¬ crosses → first ≤ last) :
    (∃ y, (y < columns * parts ∧
        if crosses then last = first ∨ first ≤ y ∨ y ≤ last else first ≤ y ∧ y ≤ last) ∧
        y / parts = x) ↔
      x < columns ∧
        if crosses then last / parts = first / parts ∨ first / parts ≤ x ∨ x ≤ last / parts
        else first / parts ≤ x ∧ x ≤ last / parts := by
  by_cases hcrosses : crosses
  · simp only [if_pos hcrosses]
    constructor
    · intro hy
      obtain ⟨y, ⟨hcolumn, hside⟩, rfl⟩ := hy
      refine ⟨(Nat.div_lt_iff_lt_mul hparts).2 hcolumn, ?_⟩
      rcases hside with hsame | hbehind | hbefore
      · exact .inl (congrArg (· / parts) hsame)
      · exact .inr (.inl (Nat.div_le_div_right hbehind))
      · exact .inr (.inr (Nat.div_le_div_right hbefore))
    · intro hx
      obtain ⟨hcolumn, hside⟩ := hx
      -- Where the divided two are the same, each column lies on one side of them.
      have hside' : first / parts ≤ x ∨ x ≤ last / parts := by omega
      rcases hside' with hbehind | hbefore
      · have hedge : x ≤ (columns * parts - 1) / parts :=
          (Nat.le_div_iff_mul_le hparts).2
            (Nat.le_sub_one_of_lt (Nat.mul_lt_mul_of_pos_right hcolumn hparts))
        obtain ⟨y, ⟨hy, hy'⟩, hyx⟩ :=
          (exists_between_div_iff hparts (Nat.le_sub_one_of_lt hfirst)).2 ⟨hbehind, hedge⟩
        exact ⟨y, ⟨by omega, .inr (.inl hy)⟩, hyx⟩
      · obtain ⟨y, ⟨-, hy⟩, hyx⟩ := (exists_between_div_iff hparts (Nat.zero_le last)).2
          ⟨by rw [Nat.zero_div]; exact Nat.zero_le x, hbefore⟩
        exact ⟨y, ⟨by omega, .inr (.inr hy)⟩, hyx⟩
  · simp only [if_neg hcrosses]
    rw [← exists_between_div_iff hparts (horder hcrosses)]
    constructor
    · intro hy
      obtain ⟨y, ⟨hcolumn, hside⟩, rfl⟩ := hy
      exact ⟨(Nat.div_lt_iff_lt_mul hparts).2 hcolumn, y, hside, rfl⟩
    · intro hx
      obtain ⟨-, y, hside, rfl⟩ := hx
      exact ⟨y, ⟨by omega, hside⟩, rfl⟩

variable {circle : Circle}

/-- The tile of a level that contains a deeper tile has its row and its column divided by the rows
of the levels between. -/
theorem Tile.zoomTo_eq_iff {deep tile : Tile} {level : ℕ} (hdeep : deep.level.toNat ≤ maxLevel)
    (h : level ≤ deep.level.toNat) :
    deep.zoomTo (UInt32.ofNat level) = tile ↔
      tile.level.toNat = level ∧
        deep.row.toNat / rowsAt (deep.level.toNat - level) = tile.row.toNat ∧
        deep.column.toNat / rowsAt (deep.level.toNat - level) = tile.column.toNat := by
  have hword := toNat_ofNat_level (h.trans hdeep)
  obtain ⟨hrow, hcolumn, hlevel⟩ := toNat_zoomTo_up hdeep (hword.trans_le h)
  rw [hword] at hrow hcolumn hlevel
  rw [← hrow, ← hcolumn]
  constructor
  · rintro rfl
    exact ⟨hlevel, rfl, rfl⟩
  · intro htile
    exact eq_of_toNat htile.2.1 htile.2.2 (hlevel.trans htile.1.symm)

namespace Scheme

variable {s : Scheme} {level deeper : ℕ}

/-- In the subdivisions that can be named, row and column of a position at a level are those at a
deeper level divided by the rows of the levels between. -/
theorem rowAt_columnAt_div (hnamed : s.subdivision ∈ Subdivision.all) (h : level ≤ deeper)
    (hdeeper : deeper ≤ maxLevel) (p : Position (Exact circle)) :
    s.rowAt level p = s.rowAt deeper p / rowsAt (deeper - level) ∧
      s.columnAt level p = s.columnAt deeper p / rowsAt (deeper - level) :=
  ⟨((Subdivision.bucket_size_div hnamed h hdeeper _).1).symm,
    ((Subdivision.bucket_size_div hnamed h hdeeper _).2).symm⟩

/-- In the subdivisions that can be named, the cells that a rectangle meets at a level are those
that contain the cells it meets at a deeper level. -/
theorem exists_meets_div_iff (hnamed : s.subdivision ∈ Subdivision.all) (h : level ≤ deeper)
    (hdeeper : deeper ≤ maxLevel) {r : Rectangle (Exact circle)} (hempty : r.isEmpty = false)
    {row column : ℕ} :
    (∃ deepRow deepColumn, s.Meets deeper r deepRow deepColumn ∧
        deepRow / rowsAt (deeper - level) = row ∧
        deepColumn / rowsAt (deeper - level) = column) ↔
      s.Meets level r row column := by
  have hparts := rowsAt_pos (deeper - level)
  have hfits := Subdivision.fits_of_mem_all hnamed hdeeper
  have hwidth : (s.subdivision.size deeper).width.toNat =
      (s.subdivision.size level).width.toNat * rowsAt (deeper - level) := by
    rw [Subdivision.toNat_width_of_mem_all hnamed hdeeper,
      Subdivision.toNat_width_of_mem_all hnamed (h.trans hdeeper), ← rowsAt_add,
      Nat.add_sub_cancel' h]
  have hrows := s.rowAt_bounded_le deeper hempty
  have hcolumns := s.columnAt_bounded_le deeper (r := r)
  have hfirst := columnAt_lt (p := r.southWest.bounded) hfits
  have hlast := columnAt_lt (p := r.northEast.bounded) hfits
  rw [hwidth] at hfirst hlast
  -- Row and column of both corners are divided by the same number.
  obtain ⟨hfirstrow, hfirstcolumn⟩ := rowAt_columnAt_div hnamed h hdeeper r.southWest.bounded
  obtain ⟨hlastrow, hlastcolumn⟩ := rowAt_columnAt_div hnamed h hdeeper r.northEast.bounded
  rw [Meets, hfirstrow, hlastrow, hfirstcolumn, hlastcolumn,
    ← exists_between_div_iff hparts hrows, ← exists_column_div_iff hparts hfirst hlast hcolumns,
    ← hwidth]
  constructor
  · intro hdeep
    obtain ⟨deepRow, deepColumn, ⟨hrow, hcolumn⟩, hrowdiv, hcolumndiv⟩ := hdeep
    exact ⟨⟨deepRow, hrow, hrowdiv⟩, deepColumn, hcolumn, hcolumndiv⟩
  · intro hcell
    obtain ⟨⟨deepRow, hrow, hrowdiv⟩, deepColumn, hcolumn, hcolumndiv⟩ := hcell
    exact ⟨deepRow, deepColumn, ⟨hrow, hcolumn⟩, hrowdiv, hcolumndiv⟩

/-- In the subdivisions that can be named, the tiles of a rectangle at a level are those that
contain its tiles at a deeper level. -/
theorem mem_cover_iff_zoomTo (hnamed : s.subdivision ∈ Subdivision.all)
    (hflat : s.projection.IsFlat) (h : level ≤ deeper) (hdeeper : deeper ≤ maxLevel)
    (r : Rectangle (Exact circle)) (tile : Tile) :
    tile ∈ s.cover r level ↔
      ∃ deep ∈ s.cover r deeper, deep.zoomTo (UInt32.ofNat level) = tile := by
  cases hempty : r.isEmpty with
  | true => simp [cover, hempty]
  | false =>
      have hlevel : level ≤ maxLevel := h.trans hdeeper
      have hfits := Subdivision.fits_of_mem_all hnamed hdeeper
      rw [mem_cover_iff hflat hlevel (Subdivision.fits_of_mem_all hnamed hlevel) hempty,
        ← exists_meets_div_iff hnamed h hdeeper hempty]
      constructor
      · intro htile
        obtain ⟨hdepth, row, column, hmeets, hrow, hcolumn⟩ := htile
        have hrowword : (UInt32.ofNat row).toNat = row :=
          UInt32.toNat_ofNat_of_lt' ((hmeets.lt_height hfits).trans (UInt32.toNat_lt _))
        have hcolumnword : (UInt32.ofNat column).toNat = column :=
          UInt32.toNat_ofNat_of_lt' (hmeets.2.1.trans (UInt32.toNat_lt _))
        have hlevelword := toNat_ofNat_level hdeeper
        refine ⟨⟨UInt32.ofNat row, UInt32.ofNat column, UInt32.ofNat deeper⟩, ?_, ?_⟩
        · rw [mem_cover_iff hflat hdeeper hfits hempty]
          simp only [hrowword, hcolumnword, hlevelword]
          exact ⟨trivial, hmeets⟩
        · rw [Tile.zoomTo_eq_iff (hlevelword.trans_le hdeeper) (h.trans_eq hlevelword.symm)]
          simp only [hrowword, hcolumnword, hlevelword]
          exact ⟨hdepth, hrow, hcolumn⟩
      · intro htile
        obtain ⟨deep, hdeep, hzoom⟩ := htile
        rw [mem_cover_iff hflat hdeeper hfits hempty] at hdeep
        obtain ⟨rfl, hmeets⟩ := hdeep
        obtain ⟨hdepth, hrow, hcolumn⟩ := (Tile.zoomTo_eq_iff hdeeper h).1 hzoom
        exact ⟨hdepth, _, _, hmeets, hrow, hcolumn⟩

/-- The corners of a rectangle across the antimeridian share the only column of level 0 but none of
level 1. -/
theorem mem_cover_iff_zoomTo_antimeridian :
    let s := quadTreeEquirectangular
    let r : Rectangle (Exact (.usual fun value _ => value)) :=
      ⟨⟨0.0, Scalar.halfPi⟩, ⟨0.0, -Scalar.halfPi⟩⟩
    s.subdivision ∈ Subdivision.all ∧ s.projection.IsFlat ∧ 0 ≤ 1 ∧ 1 ≤ maxLevel ∧
      s.locate r.southWest 1 ∈ s.cover r 1 ∧ (s.locate r.southWest 1).zoomTo 0 ∈ s.cover r 0 := by
  intro s r
  have hpi := Real.pi_pos
  have hcircle : (Circle.usual fun value _ => value).pi = Real.pi := rfl
  have hzero : (0.0 : ℝ) = 0 := by norm_num
  have hnamed : s.subdivision ∈ Subdivision.all := List.mem_cons_self
  have hflat : s.projection.IsFlat := .inl rfl
  have hlevel : 1 ≤ maxLevel := by decide
  have hwestside : r.west.value = Real.pi / 2 := Exact.value_halfPi
  have heastside : r.east.value = -(Real.pi / 2) := by
    rw [← hcircle, ← Exact.value_halfPi]
    rfl
  have hwest : Rectangle.world.contains r.southWest = true := by
    rw [Rectangle.world_contains_iff]
    simp only [r, Exact.value_ofScientific, Exact.value_halfPi, hcircle, hzero]
    constructor <;> constructor <;> linarith
  have heast : Rectangle.world.contains r.northEast = true := by
    rw [Rectangle.world_contains_iff]
    simp only [r, Exact.value_ofScientific, Exact.value_neg, Exact.value_halfPi, hcircle, hzero]
    constructor <;> constructor <;> linarith
  have hin : r.contains r.southWest = true := by
    rw [Rectangle.contains_iff, if_neg (by linarith)]
    exact ⟨⟨le_rfl, le_rfl⟩, .inl le_rfl⟩
  have hdeep : s.locate r.southWest 1 ∈ s.cover r 1 :=
    locate_mem_cover_of_lt hflat hlevel (Subdivision.fits_of_mem_all hnamed hlevel) hwest heast
      hwest hin (by rw [hcircle]; linarith) (by rw [hcircle]; linarith) (by linarith)
  exact ⟨hnamed, hflat, zero_le_one, hlevel, hdeep,
    (mem_cover_iff_zoomTo hnamed hflat zero_le_one hlevel r _).2 ⟨_, hdeep, rfl⟩⟩

end Scheme

end TilePyramid
