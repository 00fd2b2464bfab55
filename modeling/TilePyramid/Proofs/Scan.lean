import Mathlib
import TilePyramid.Proofs.Cover

/-!
# The list of a rectangle's tiles

The tiles of a rectangle are listed as a scan: the rows from the southern corner to the northern
one, and in each row the same run of columns, which starts at the column of the south west corner,
goes on from the last column to the first one, and is no longer than a row
(`Scheme.map_numbers_cover`). So no tile is listed twice (`nodup_scan`). A rectangle that is not
empty always has tiles, whatever its corners are (`Scheme.cover_shape`).
-/

namespace TilePyramid

/-! ## Scans -/

/-- The cells of a level in some rows, each row with the same run of columns, which goes on from the
last column to the first one. -/
def scan (columns level firstRow rows firstColumn length : ℕ) : List (ℕ × ℕ × ℕ) :=
  (List.range' firstRow rows).flatMap fun row =>
    (List.range length).map fun k => (row, (firstColumn + k) % columns, level)

variable {columns level firstRow rows firstColumn length : ℕ}

/-- A run no longer than a row has no column twice. -/
theorem nodup_scan (hlength : length ≤ columns) :
    (scan columns level firstRow rows firstColumn length).Nodup := by
  rw [scan, List.nodup_flatMap]
  refine ⟨fun row _ => List.nodup_range.map_on ?_, (List.pairwise_lt_range' _).imp ?_⟩
  · -- The columns of a run are less than a turn apart.
    intro k hk other hother heq
    rw [List.mem_range] at hk hother
    have hcolumn : (firstColumn + k) % columns = (firstColumn + other) % columns :=
      congrArg (·.2.1) heq
    exact (Nat.ModEq.add_left_cancel' firstColumn hcolumn).eq_of_lt_of_lt (hk.trans_le hlength)
      (hother.trans_le hlength)
  · intro row other hlt cell hcell hcell'
    obtain ⟨k, -, rfl⟩ := List.mem_map.1 hcell
    obtain ⟨k', -, heq⟩ := List.mem_map.1 hcell'
    exact hlt.ne (congrArg (·.1) heq).symm

namespace Scheme

/-- The number of columns from the first one of a rectangle to the last one. -/
def runLength (columns first last : ℕ) (crosses : Bool) : ℕ :=
  lastColumn columns first last crosses + 1 - first

/-- A run has at least one column and at most those of a row. -/
theorem runLength_mem {columns first last : ℕ} {crosses : Bool} (hfirst : first < columns)
    (hlast : last < columns) (horder : crosses = false → first ≤ last)
    (horder' : crosses = true → last ≤ first) :
    1 ≤ runLength columns first last crosses ∧ runLength columns first last crosses ≤ columns := by
  cases crosses with
  | false =>
      have hle := horder rfl
      have hend : lastColumn columns first last false = last := rfl
      rw [runLength, hend]
      omega
  | true =>
      have hle := horder' rfl
      have hend : lastColumn columns first last true =
          if first = last then last + (columns - 1) else last + columns := rfl
      rw [runLength, hend]
      split <;> omega

/-- The tiles between two corners are a scan. -/
theorem map_numbers_tilesBetween {columns : UInt32} (hcolumns : 1 ≤ columns.toNat)
    (first last : Tile) (crosses : Bool) :
    (tilesBetween columns.toNat first last crosses).map Tile.numbers =
      scan columns.toNat first.level.toNat first.row.toNat
        (last.row.toNat + 1 - first.row.toNat) first.column.toNat
        (runLength columns.toNat first.column.toNat last.column.toNat crosses) := by
  rw [tilesBetween, List.map_flatMap, scan]
  refine List.flatMap_congr fun row hrow => ?_
  rw [List.range'_eq_map_range, List.map_map, List.map_map]
  refine List.map_congr_left fun k _ => ?_
  have hword := last.row.toNat_lt
  rw [List.mem_range'_1] at hrow
  have hrowword : row < 2 ^ 32 := by omega
  have hcolumnword : (first.column.toNat + k) % columns.toNat < 2 ^ 32 :=
    (Nat.mod_lt _ hcolumns).trans columns.toNat_lt
  show ((UInt32.ofNat row).toNat,
    (UInt32.ofNat ((first.column.toNat + k) % columns.toNat)).toNat, first.level.toNat) = _
  rw [UInt32.toNat_ofNat_of_lt' hrowword, UInt32.toNat_ofNat_of_lt' hcolumnword]

variable {circle : Circle} {s : Scheme} {level : ℕ} {r : Rectangle (Exact circle)}

section
variable (hflat : s.projection.IsFlat) (hlevel : level ≤ maxLevel)
  (hsize : (s.subdivision.size level).Fits level)

include hflat hlevel hsize

theorem row_locate_le (hempty : r.isEmpty = false) :
    (s.locate r.southWest.bounded level).row.toNat ≤
      (s.locate r.northEast.bounded level).row.toNat := by
  obtain ⟨hfirst, -, -⟩ := locate_bounded hflat hlevel hsize r.southWest
  obtain ⟨hlast, -, -⟩ := locate_bounded hflat hlevel hsize r.northEast
  rw [hfirst, hlast]
  exact s.rowAt_bounded_le level hempty

/-- The list of a rectangle that is not empty is a scan from the tile of its south west corner, in
rows no longer than those of the level. -/
theorem map_numbers_cover (hempty : r.isEmpty = false) :
    ∃ length, (1 ≤ length ∧ length ≤ (s.subdivision.size level).width.toNat) ∧
      (s.cover r level).map Tile.numbers =
        scan (s.subdivision.size level).width.toNat level
          (s.locate r.southWest.bounded level).row.toNat
          ((s.locate r.northEast.bounded level).row.toNat + 1 -
            (s.locate r.southWest.bounded level).row.toNat)
          (s.locate r.southWest.bounded level).column.toNat length := by
  obtain ⟨-, hfirst, hdepth⟩ := locate_bounded hflat hlevel hsize r.southWest
  obtain ⟨-, hlast, -⟩ := locate_bounded hflat hlevel hsize r.northEast
  have hscan := map_numbers_tilesBetween hsize.width_pos (s.locate r.southWest.bounded level)
    (s.locate r.northEast.bounded level)
    (r.northEast.bounded.longitude < r.southWest.bounded.longitude)
  rw [hdepth] at hscan
  refine ⟨_, ?_, (congrArg _ (cover_eq_tilesBetween hflat hlevel hsize hempty)).trans hscan⟩
  rw [hfirst, hlast]
  refine runLength_mem (columnAt_lt hsize) (columnAt_lt hsize) (fun horder => ?_)
    fun hcrosses => ?_
  · exact s.columnAt_bounded_le level (of_decide_eq_false horder)
  · exact s.columnAt_mono level (le_of_lt (of_decide_eq_true hcrosses))

/-- The tiles of both corners are listed. -/
theorem locate_corners_mem_cover (hempty : r.isEmpty = false) :
    s.locate r.southWest.bounded level ∈ s.cover r level ∧
      s.locate r.northEast.bounded level ∈ s.cover r level := by
  have hrows := s.rowAt_bounded_le level hempty
  have hcolumns := s.columnAt_bounded_le level (r := r)
  obtain ⟨hfirstrow, hfirstcolumn, hfirstdepth⟩ := locate_bounded hflat hlevel hsize r.southWest
  obtain ⟨hlastrow, hlastcolumn, hlastdepth⟩ := locate_bounded hflat hlevel hsize r.northEast
  rw [mem_cover_iff hflat hlevel hsize hempty, mem_cover_iff hflat hlevel hsize hempty, Meets,
    Meets, hfirstrow, hfirstcolumn, hfirstdepth, hlastrow, hlastcolumn, hlastdepth]
  refine ⟨⟨rfl, ⟨le_rfl, hrows⟩, columnAt_lt hsize, ?_⟩,
    rfl, ⟨hrows, le_rfl⟩, columnAt_lt hsize, ?_⟩
  · split
    · exact .inr (.inl le_rfl)
    · exact ⟨le_rfl, hcolumns ‹_›⟩
  · split
    · exact .inr (.inr le_rfl)
    · exact ⟨hcolumns ‹_›, le_rfl⟩

/-- The listed tiles are in the tree and in the rows and columns of the level. -/
theorem isValid_of_mem_cover (hempty : r.isEmpty = false) {tile : Tile}
    (htile : tile ∈ s.cover r level) :
    tile.IsValid ∧ tile.row.toNat < (s.subdivision.size level).height.toNat ∧
      tile.column.toNat < (s.subdivision.size level).width.toNat := by
  obtain ⟨hdepth, hmeets⟩ := (mem_cover_iff hflat hlevel hsize hempty).1 htile
  have hrow := hmeets.lt_height hsize
  have hcolumn := hmeets.2.1
  rw [Tile.IsValid, hdepth]
  exact ⟨⟨Nat.lt_succ_of_le hlevel, hrow.trans_le hsize.height_le, hcolumn.trans_le hsize.width_le⟩,
    hrow, hcolumn⟩

end

/-! ## The shape of the list -/

/-- A rectangle has no tiles exactly if it is empty. Otherwise its tiles are listed row by row, from
the row of the bounded south west corner to that of the north east one. Each row has the same
columns one after the other around the world, from the column of the south west corner on and no
more than the level has. So each tile is listed once. All of them are valid tiles of the level, and
the tiles of both corners are among them. -/
theorem cover_shape (hflat : s.projection.IsFlat) (hlevel : level ≤ maxLevel)
    (hsize : (s.subdivision.size level).Fits level) (r : Rectangle (Exact circle)) :
    let first := s.locate r.southWest.bounded level
    let last := s.locate r.northEast.bounded level
    let size := s.subdivision.size level
    (s.cover r level = [] ↔ r.isEmpty = true) ∧
    (r.isEmpty = false →
      first.row.toNat ≤ last.row.toNat ∧
      (∃ length, (1 ≤ length ∧ length ≤ size.width.toNat) ∧
        (s.cover r level).map Tile.numbers =
          scan size.width.toNat level first.row.toNat (last.row.toNat + 1 - first.row.toNat)
            first.column.toNat length) ∧
      (s.cover r level).Nodup ∧
      (∀ tile ∈ s.cover r level, tile.IsValid ∧ tile.row.toNat < size.height.toNat ∧
        tile.column.toNat < size.width.toNat) ∧
      first ∈ s.cover r level ∧ last ∈ s.cover r level) := by
  intro first last size
  refine ⟨⟨fun hnil => ?_, fun hempty => if_pos hempty⟩, fun hempty => ?_⟩
  · by_contra hempty
    rw [Bool.not_eq_true] at hempty
    have hfirst := (locate_corners_mem_cover hflat hlevel hsize hempty).1
    rw [hnil] at hfirst
    exact List.not_mem_nil hfirst
  · obtain ⟨length, hlength, hscan⟩ := map_numbers_cover hflat hlevel hsize hempty
    have hnodup : ((s.cover r level).map Tile.numbers).Nodup := by
      rw [hscan]
      exact nodup_scan hlength.2
    exact ⟨row_locate_le hflat hlevel hsize hempty, ⟨length, hlength, hscan⟩, hnodup.of_map _,
      fun tile => isValid_of_mem_cover hflat hlevel hsize hempty,
      locate_corners_mem_cover hflat hlevel hsize hempty⟩

/-- A rectangle with both corners behind the poles and more than once around the world has tiles,
that of its south west corner among them. -/
theorem cover_shape_behindPoles :
    let s := quadTreeEquirectangular
    let r : Rectangle (Exact (.usual fun value _ => value)) := ⟨⟨⟨-2⟩, ⟨-7⟩⟩, ⟨⟨2⟩, ⟨7⟩⟩⟩
    s.projection.IsFlat ∧ 3 ≤ maxLevel ∧ (s.subdivision.size 3).Fits 3 ∧ r.isEmpty = false ∧
      s.cover r 3 ≠ [] ∧ (s.cover r 3).Nodup ∧
      s.locate r.southWest.bounded 3 ∈ s.cover r 3 := by
  intro s r
  have hflat : s.projection.IsFlat := .inl rfl
  have hsize : (s.subdivision.size 3).Fits 3 := Subdivision.quadTree_fits (by decide)
  have hempty : r.isEmpty = false := by
    rw [← Bool.not_eq_true, Rectangle.isEmpty_iff, not_lt]
    norm_num [r, Rectangle.south, Rectangle.north]
  obtain ⟨hnil, hshape⟩ := cover_shape hflat (by decide) hsize r
  obtain ⟨-, -, hnodup, -, hfirst, -⟩ := hshape hempty
  refine ⟨hflat, by decide, hsize, hempty, fun h => ?_, hnodup, hfirst⟩
  exact Bool.false_ne_true (hempty.symm.trans (hnil.1 h))

end Scheme

end TilePyramid
