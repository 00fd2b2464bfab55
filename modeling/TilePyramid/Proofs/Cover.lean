import Mathlib
import TilePyramid.Scheme.Cover
import TilePyramid.Proofs.Locate

/-!
# The tiles that cover a rectangle

`Scheme.Meets` says which cells a rectangle meets, by the buckets of its bounded corners, and
`Scheme.mem_cover_iff` that their tiles are the ones listed for it. Bounding takes the longitude
`π` to `-π`, so that a corner at the eastern edge of the world counts to the first column.
`Scheme.locate_mem_cover_iff` says which positions of a rectangle lose their tiles by that.
-/

namespace TilePyramid

namespace Scheme

/-! ## The scan -/

theorem mod_of_lt_two_mul {k columns : ℕ} (h : k < 2 * columns) :
    k % columns = if k < columns then k else k - columns := by
  split
  · exact Nat.mod_eq_of_lt ‹_›
  · rw [Nat.mod_eq_sub_mod (by omega), Nat.mod_eq_of_lt (by omega)]

/-- The columns of a row go on from the last one to the first one if the rectangle crosses the
antimeridian, and are all columns if its sides share a column then. -/
theorem exists_column_iff {columns first last x : ℕ} {crosses : Bool} (hfirst : first < columns)
    (hlast : last < columns) (hx : x < columns) (horder : crosses = true → last ≤ first) :
    (∃ k, first ≤ k ∧ k ≤ lastColumn columns first last crosses ∧ k % columns = x) ↔
      if crosses then last = first ∨ first ≤ x ∨ x ≤ last else first ≤ x ∧ x ≤ last := by
  have hself : x % columns = x := Nat.mod_eq_of_lt hx
  have hagain : (x + columns) % columns = x := by
    rw [Nat.add_mod_right, hself]
  cases crosses with
  | false =>
      simp only [lastColumn, Bool.false_eq_true, if_false]
      constructor
      · intro h
        obtain ⟨k, hk, hklast, rfl⟩ := h
        rw [Nat.mod_eq_of_lt (by omega)]
        exact ⟨hk, hklast⟩
      · intro h
        exact ⟨x, h.1, h.2, hself⟩
  | true =>
      have hle := horder rfl
      have hbound : lastColumn columns first last true =
          if first = last then last + (columns - 1) else last + columns := rfl
      simp only [hbound, if_true]
      constructor
      · intro h
        obtain ⟨k, hk, hklast, hkx⟩ := h
        -- The columns are counted on for less than two turns, so the remainder takes off one.
        have hturns : k < 2 * columns := by
          split at hklast <;> omega
        rw [mod_of_lt_two_mul hturns] at hkx
        split at hklast <;> split at hkx <;> omega
      · intro h
        by_cases hbehind : first ≤ x
        · exact ⟨x, hbehind, by split <;> omega, hself⟩
        · exact ⟨x + columns, by omega, by split <;> omega, hagain⟩

/-- The tiles between two corners have the rows between those of the corners. -/
theorem mem_tilesBetween_iff {columns : UInt32} (hcolumns : 1 ≤ columns.toNat) {first last : Tile}
    {crosses : Bool} {tile : Tile} :
    tile ∈ tilesBetween columns.toNat first last crosses ↔
      (first.row.toNat ≤ tile.row.toNat ∧ tile.row.toNat ≤ last.row.toNat) ∧
        tile.level = first.level ∧
        ∃ k, first.column.toNat ≤ k ∧
          k ≤ lastColumn columns.toNat first.column.toNat last.column.toNat crosses ∧
          k % columns.toNat = tile.column.toNat := by
  simp only [tilesBetween, List.mem_flatMap, List.mem_map, List.mem_range'_1]
  constructor
  · intro h
    obtain ⟨row, hrow, k, hk, htile⟩ := h
    have hrowword : row < 2 ^ 32 := by
      have := last.row.toNat_lt
      omega
    have hmod := Nat.mod_lt k hcolumns
    have hcolumnword : k % columns.toNat < 2 ^ 32 := hmod.trans columns.toNat_lt
    subst htile
    rw [UInt32.toNat_ofNat_of_lt' hrowword, UInt32.toNat_ofNat_of_lt' hcolumnword]
    exact ⟨by omega, rfl, k, by omega, by omega, rfl⟩
  · intro h
    obtain ⟨hrow, hlevel, k, hfirst, hlast, hcolumn⟩ := h
    refine ⟨tile.row.toNat, by omega, k, by omega, ?_⟩
    rw [hcolumn, UInt32.ofNat_toNat, UInt32.ofNat_toNat, ← hlevel]

end Scheme

variable {circle : Circle}

/-! ## Bounded corners -/

namespace Position

/-- A position of the world but for its eastern edge is bounded already. -/
theorem bounded_of_lt {p : Position (Exact circle)}
    (hp : (Rectangle.world : Rectangle (Exact circle)).contains p)
    (h : p.longitude.value < circle.pi) : p.bounded = p := by
  obtain ⟨⟨hsouth, hnorth⟩, hwest, -⟩ := (Rectangle.world_contains_iff p).1 hp
  rw [bounded, Exact.clamp_eq_self (by simpa using hsouth) (by simpa using hnorth),
    Exact.wrap_eq_self (by simpa using hwest) (by simpa using h)]

/-- A position at the eastern edge of the world goes to the western one. -/
theorem bounded_of_eastern {p : Position (Exact circle)}
    (hp : (Rectangle.world : Rectangle (Exact circle)).contains p)
    (h : p.longitude.value = circle.pi) : p.bounded = ⟨p.latitude, -Scalar.pi⟩ := by
  obtain ⟨⟨hsouth, hnorth⟩, -, -⟩ := (Rectangle.world_contains_iff p).1 hp
  have hlongitude : p.longitude = Scalar.pi := Exact.ext h
  rw [bounded, Exact.clamp_eq_self (by simpa using hsouth) (by simpa using hnorth), hlongitude,
    Exact.wrap_upper Exact.neg_pi_lt_pi]

theorem latitude_bounded (p : Position (Exact circle)) :
    p.bounded.latitude.value = max (-(circle.pi / 2)) (min p.latitude.value (circle.pi / 2)) := by
  have hpi := circle.pi_pos
  have hrange : (-Scalar.halfPi : Exact circle).value ≤ (Scalar.halfPi : Exact circle).value := by
    rw [Exact.value_neg, Exact.value_halfPi]
    linarith
  show (Scalar.clamp p.latitude (-Scalar.halfPi) Scalar.halfPi).value = _
  rw [Exact.value_clamp hrange, Exact.value_neg, Exact.value_halfPi]

/-- Bounding brings every position to the world. -/
theorem contains_bounded (p : Position (Exact circle)) :
    (Rectangle.world : Rectangle (Exact circle)).contains p.bounded := by
  have hpi := circle.pi_pos
  rw [Rectangle.world_contains_iff, latitude_bounded]
  refine ⟨⟨le_max_left _ _, max_le (by linarith) (min_le_right _ _)⟩, ?_⟩
  exact Exact.wrap_mem Exact.neg_pi_lt_pi

/-- Bounding keeps the order of latitudes. -/
theorem latitude_bounded_mono {p q : Position (Exact circle)}
    (h : p.latitude.value ≤ q.latitude.value) :
    p.bounded.latitude.value ≤ q.bounded.latitude.value := by
  rw [latitude_bounded, latitude_bounded]
  gcongr

/-- Bounding keeps the latitudes of the world. -/
theorem latitude_bounded_of_contains {p : Position (Exact circle)}
    (hp : (Rectangle.world : Rectangle (Exact circle)).contains p) :
    p.bounded.latitude = p.latitude := by
  obtain ⟨⟨hsouth, hnorth⟩, -⟩ := (Rectangle.world_contains_iff p).1 hp
  exact Exact.clamp_eq_self (by simpa using hsouth) (by simpa using hnorth)

end Position

namespace Scheme

variable {s : Scheme} {level : Nat} {p : Position (Exact circle)} {r : Rectangle (Exact circle)}

/-- A rectangle meets the cell in a row and a column of a level. The row is between those of the
bounded corners. So is the column, but the columns go around if the eastern corner has the lesser
longitude, and are all columns if the corners share one then. -/
def Meets (s : Scheme) (level : Nat) (r : Rectangle (Exact circle)) (row column : ℕ) : Prop :=
  (s.rowAt level r.southWest.bounded ≤ row ∧ row ≤ s.rowAt level r.northEast.bounded) ∧
    column < (s.subdivision.size level).width.toNat ∧
    if r.northEast.bounded.longitude < r.southWest.bounded.longitude then
      s.columnAt level r.northEast.bounded = s.columnAt level r.southWest.bounded ∨
        s.columnAt level r.southWest.bounded ≤ column ∨
        column ≤ s.columnAt level r.northEast.bounded
    else
      s.columnAt level r.southWest.bounded ≤ column ∧
        column ≤ s.columnAt level r.northEast.bounded

theorem Meets.lt_height (hsize : (s.subdivision.size level).Fits level) {row column : ℕ}
    (h : s.Meets level r row column) : row < (s.subdivision.size level).height.toNat :=
  h.1.2.trans_lt (rowAt_lt hsize)

/-- The tile of a bounded position has its row, its column and the level, wherever the position was
before. -/
theorem locate_bounded (hflat : s.projection.IsFlat) (hlevel : level ≤ maxLevel)
    (hsize : (s.subdivision.size level).Fits level) (p : Position (Exact circle)) :
    (s.locate p.bounded level).row.toNat = s.rowAt level p.bounded ∧
      (s.locate p.bounded level).column.toNat = s.columnAt level p.bounded ∧
      (s.locate p.bounded level).level.toNat = level :=
  locate_flat hflat hlevel hsize p.contains_bounded

/-- The corners of a rectangle that is not empty are in rows in order. -/
theorem rowAt_bounded_le (s : Scheme) (level : Nat) (hempty : r.isEmpty = false) :
    s.rowAt level r.southWest.bounded ≤ s.rowAt level r.northEast.bounded :=
  s.rowAt_mono level (Position.latitude_bounded_mono (Rectangle.south_le_north hempty))

/-- They are in columns in order unless the rectangle crosses the antimeridian. -/
theorem columnAt_bounded_le (s : Scheme) (level : Nat)
    (h : ¬ r.northEast.bounded.longitude < r.southWest.bounded.longitude) :
    s.columnAt level r.southWest.bounded ≤ s.columnAt level r.northEast.bounded :=
  s.columnAt_mono level (not_lt.1 h)

/-- The list of a rectangle that is not empty goes from the tile of one bounded corner to that of
the other. -/
theorem cover_eq_tilesBetween (hflat : s.projection.IsFlat) (hlevel : level ≤ maxLevel)
    (hsize : (s.subdivision.size level).Fits level) (hempty : r.isEmpty = false) :
    s.cover r level = tilesBetween (s.subdivision.size level).width.toNat
      (s.locate r.southWest.bounded level) (s.locate r.northEast.bounded level)
      (r.northEast.bounded.longitude < r.southWest.bounded.longitude) := by
  have hcorners : s.cornerTiles? r level =
      some (s.locate r.southWest.bounded level, s.locate r.northEast.bounded level) :=
    if_pos ⟨locate_isValid hflat hlevel hsize r.southWest.contains_bounded,
      locate_isValid hflat hlevel hsize r.northEast.contains_bounded⟩
  rw [cover, hempty, if_neg Bool.false_ne_true, hcorners]

/-- The tiles that are listed for a rectangle are those of the cells that it meets. -/
theorem mem_cover_iff (hflat : s.projection.IsFlat) (hlevel : level ≤ maxLevel)
    (hsize : (s.subdivision.size level).Fits level) (hempty : r.isEmpty = false) {tile : Tile} :
    tile ∈ s.cover r level ↔
      tile.level.toNat = level ∧ s.Meets level r tile.row.toNat tile.column.toNat := by
  obtain ⟨hfirstrow, hfirstcolumn, hfirstdepth⟩ := locate_bounded hflat hlevel hsize r.southWest
  obtain ⟨hlastrow, hlastcolumn, -⟩ := locate_bounded hflat hlevel hsize r.northEast
  have hlevels : tile.level = (s.locate r.southWest.bounded level).level ↔
      tile.level.toNat = level := by
    rw [← UInt32.toNat_inj, hfirstdepth]
  have horder : decide (r.northEast.bounded.longitude < r.southWest.bounded.longitude) = true →
      s.columnAt level r.northEast.bounded ≤ s.columnAt level r.southWest.bounded :=
    fun hcrosses => s.columnAt_mono level (of_decide_eq_true hcrosses).le
  rw [cover_eq_tilesBetween hflat hlevel hsize hempty, mem_tilesBetween_iff hsize.width_pos,
    hfirstrow, hfirstcolumn, hlastrow, hlastcolumn, hlevels, and_left_comm]
  refine and_congr_right' (and_congr_right' ?_)
  by_cases hcolumn : tile.column.toNat < (s.subdivision.size level).width.toNat
  · rw [exists_column_iff (columnAt_lt hsize) (columnAt_lt hsize) hcolumn horder,
      and_iff_right hcolumn]
    simp only [decide_eq_true_eq]
  · refine iff_of_false ?_ fun h => hcolumn h.1
    intro h
    obtain ⟨k, -, -, hk⟩ := h
    exact hcolumn (hk ▸ Nat.mod_lt _ hsize.width_pos)

/-- Which tiles of positions are listed for a rectangle of the world. -/
theorem locate_mem_cover_iff_columnAt (hflat : s.projection.IsFlat) (hlevel : level ≤ maxLevel)
    (hsize : (s.subdivision.size level).Fits level)
    (hwest : (Rectangle.world : Rectangle (Exact circle)).contains r.southWest)
    (heast : (Rectangle.world : Rectangle (Exact circle)).contains r.northEast)
    (hempty : r.isEmpty = false)
    (hp : (Rectangle.world : Rectangle (Exact circle)).contains p) :
    s.locate p level ∈ s.cover r level ↔
      (s.rowAt level r.southWest ≤ s.rowAt level p ∧
        s.rowAt level p ≤ s.rowAt level r.northEast) ∧
      if r.northEast.bounded.longitude < r.southWest.bounded.longitude then
        s.columnAt level r.northEast.bounded = s.columnAt level r.southWest.bounded ∨
          s.columnAt level r.southWest.bounded ≤ s.columnAt level p ∨
          s.columnAt level p ≤ s.columnAt level r.northEast.bounded
      else
        s.columnAt level r.southWest.bounded ≤ s.columnAt level p ∧
          s.columnAt level p ≤ s.columnAt level r.northEast.bounded := by
  obtain ⟨hrow, hcolumn, hdepth⟩ := locate_flat hflat hlevel hsize hp
  have hsouth : s.rowAt level r.southWest.bounded = s.rowAt level r.southWest := by
    rw [rowAt, Position.up, Position.latitude_bounded_of_contains hwest, rowAt, Position.up]
  have hnorth : s.rowAt level r.northEast.bounded = s.rowAt level r.northEast := by
    rw [rowAt, Position.up, Position.latitude_bounded_of_contains heast, rowAt, Position.up]
  rw [mem_cover_iff hflat hlevel hsize hempty, hrow, hcolumn, Meets, hsouth, hnorth,
    and_iff_right hdepth, and_iff_right (columnAt_lt hsize)]

/-! ## Positions of a rectangle -/

/-- A position of a rectangle lies in the rows of its corners. -/
theorem rowAt_of_contains (hin : r.contains p) :
    s.rowAt level r.southWest ≤ s.rowAt level p ∧
      s.rowAt level p ≤ s.rowAt level r.northEast := by
  obtain ⟨⟨hsouth, hnorth⟩, -⟩ := (r.contains_iff p).1 hin
  exact ⟨s.rowAt_mono level hsouth, s.rowAt_mono level hnorth⟩

section
variable (hflat : s.projection.IsFlat) (hlevel : level ≤ maxLevel)
  (hsize : (s.subdivision.size level).Fits level)
  (hwest : (Rectangle.world : Rectangle (Exact circle)).contains r.southWest)
  (heast : (Rectangle.world : Rectangle (Exact circle)).contains r.northEast)
  (hp : (Rectangle.world : Rectangle (Exact circle)).contains p) (hin : r.contains p)

include hflat hlevel hsize hwest heast hp hin

/-- A rectangle with its sides off the eastern edge of the world covers its positions. -/
theorem locate_mem_cover_of_lt (hr : r.west.value < circle.pi) (hr' : r.east.value < circle.pi)
    (hne : r.west.value ≠ r.east.value) : s.locate p level ∈ s.cover r level := by
  obtain ⟨-, hcolumns⟩ := (r.contains_iff p).1 hin
  rw [locate_mem_cover_iff_columnAt hflat hlevel hsize hwest heast
      (r.isEmpty_eq_false_of_contains hin) hp,
    Position.bounded_of_lt hwest hr, Position.bounded_of_lt heast hr']
  refine ⟨rowAt_of_contains hin, ?_⟩
  by_cases horder : r.west.value < r.east.value
  · rw [if_pos horder] at hcolumns
    rw [if_neg (by exact horder.not_gt)]
    exact ⟨s.columnAt_mono level hcolumns.1, s.columnAt_mono level hcolumns.2⟩
  · rw [if_neg horder] at hcolumns
    rw [if_pos (by exact lt_of_le_of_ne (not_lt.1 horder) hne.symm)]
    rcases hcolumns with hcolumns | hcolumns
    · exact .inr (.inl (s.columnAt_mono level hcolumns))
    · exact .inr (.inr (s.columnAt_mono level hcolumns))

/-- A rectangle that reaches to the eastern edge of the world covers its positions unless it goes
once around the world. Then it has the first column only. -/
theorem locate_mem_cover_to_edge (hr : r.west.value < circle.pi) (hr' : r.east.value = circle.pi) :
    s.locate p level ∈ s.cover r level ↔
      ¬ (r.west.value = -circle.pi ∧ (s.locate p level).column.toNat ≠ 0) := by
  obtain ⟨-, hcolumns⟩ := (r.contains_iff p).1 hin
  rw [if_pos (hr.trans_eq hr'.symm)] at hcolumns
  obtain ⟨-, hcolumn, -⟩ := locate_flat hflat hlevel hsize hp
  obtain ⟨-, hwestern, -⟩ := (Rectangle.world_contains_iff _).1 hwest
  have hedge : s.columnAt level r.northEast.bounded = 0 := by
    rw [Position.bounded_of_eastern heast hr']
    exact s.columnAt_western level rfl
  rw [locate_mem_cover_iff_columnAt hflat hlevel hsize hwest heast
      (r.isEmpty_eq_false_of_contains hin) hp,
    hedge, Position.bounded_of_lt hwest hr, Position.bounded_of_eastern heast hr', hcolumn,
    and_iff_right (rowAt_of_contains hin)]
  rcases hwestern.lt_or_eq with hinside | hatedge
  · -- The rectangle ends in the first column, behind the antimeridian.
    rw [if_pos (by exact hinside)]
    refine iff_of_true ?_ fun h => hinside.ne' h.1
    exact .inr (.inl (s.columnAt_mono level hcolumns.1))
  · have hfirst : s.columnAt level r.southWest = 0 := s.columnAt_western level hatedge.symm
    have hsame : ¬ (-Scalar.pi : Exact circle) < r.southWest.longitude := by
      rw [Exact.lt_iff, ← hatedge]
      exact lt_irrefl _
    have hwestside : r.west.value = -circle.pi := hatedge.symm
    rw [if_neg hsame, hfirst, and_iff_right (Nat.zero_le _), Nat.le_zero, not_and, not_not,
      forall_prop_of_true hwestside]

/-- A rectangle that begins at the eastern edge of the world covers its positions but for those at
that edge. They are covered if the rectangle ends in their column. -/
theorem locate_mem_cover_from_edge (hr : r.west.value = circle.pi)
    (hr' : r.east.value < circle.pi) :
    s.locate p level ∈ s.cover r level ↔
      ¬ (p.longitude.value = circle.pi ∧
        (s.locate r.northEast level).column ≠ (s.locate p level).column) := by
  obtain ⟨-, hcolumns⟩ := (r.contains_iff p).1 hin
  rw [if_neg (by linarith)] at hcolumns
  obtain ⟨-, hcolumn, -⟩ := locate_flat hflat hlevel hsize hp
  obtain ⟨-, hlast, -⟩ := locate_flat hflat hlevel hsize heast
  obtain ⟨-, hwestern, -⟩ := (Rectangle.world_contains_iff _).1 heast
  obtain ⟨-, -, heastern⟩ := (Rectangle.world_contains_iff _).1 hp
  have hedge : s.columnAt level r.southWest.bounded = 0 := by
    rw [Position.bounded_of_eastern hwest hr]
    exact s.columnAt_western level rfl
  have hordered : ¬ r.northEast.longitude < (-Scalar.pi : Exact circle) := by
    rw [Exact.lt_iff]
    exact hwestern.not_gt
  rw [locate_mem_cover_iff_columnAt hflat hlevel hsize hwest heast
      (r.isEmpty_eq_false_of_contains hin) hp,
    hedge, Position.bounded_of_eastern hwest hr, Position.bounded_of_lt heast hr', if_neg hordered,
    and_iff_right (rowAt_of_contains hin), and_iff_right (Nat.zero_le _), ne_eq,
    ← UInt32.toNat_inj, hcolumn, hlast]
  rcases heastern.lt_or_eq with hinside | hatedge
  · refine iff_of_true ?_ fun h => hinside.ne h.1
    rcases hcolumns with hcolumns | hcolumns
    · linarith
    · exact s.columnAt_mono level hcolumns
  · -- Nothing lies behind the last column, so the rectangle has to end there.
    have hbehind := s.columnAt_eastern level hatedge
    have hlt := columnAt_lt (p := r.northEast) hsize
    rw [not_and, not_not, forall_prop_of_true hatedge, hbehind]
    omega

end

/-- With a flat projection the tiles of a rectangle cover its positions but in two cases. A
rectangle once around the world covers those of the first column only. One that begins at the
eastern edge of the world does not cover the positions at that edge, unless it ends in their
column. -/
theorem locate_mem_cover_iff (hflat : s.projection.IsFlat) (hlevel : level ≤ maxLevel)
    (hsize : (s.subdivision.size level).Fits level)
    (hwest : (s.projection.bounds : Rectangle (Exact circle)).contains r.southWest)
    (heast : (s.projection.bounds : Rectangle (Exact circle)).contains r.northEast)
    (hne : r.west.value ≠ r.east.value)
    (hp : (s.projection.bounds : Rectangle (Exact circle)).contains p) (hin : r.contains p) :
    s.locate p level ∈ s.cover r level ↔
      ¬ ((r.west.value = -circle.pi ∧ r.east.value = circle.pi ∧
          (s.locate p level).column.toNat ≠ 0) ∨
        (r.west.value = circle.pi ∧ p.longitude.value = circle.pi ∧
          (s.locate r.northEast level).column ≠ (s.locate p level).column)) := by
  obtain ⟨-, -, hwestern⟩ := (Rectangle.world_contains_iff _).1 hwest
  obtain ⟨-, -, heastern⟩ := (Rectangle.world_contains_iff _).1 heast
  rcases hwestern.lt_or_eq with hwestlt | hwesteq <;>
    rcases heastern.lt_or_eq with heastlt | heasteq
  · refine iff_of_true
      (locate_mem_cover_of_lt hflat hlevel hsize hwest heast hp hin hwestlt heastlt hne) fun h => ?_
    rcases h with h | h
    · exact heastlt.ne h.2.1
    · exact hwestlt.ne h.1
  · rw [locate_mem_cover_to_edge hflat hlevel hsize hwest heast hp hin hwestlt heasteq]
    simp only [Rectangle.west, Rectangle.east, heasteq, hwestlt.ne, true_and, false_and, or_false]
  · rw [locate_mem_cover_from_edge hflat hlevel hsize hwest heast hp hin hwesteq heastlt]
    simp only [Rectangle.west, Rectangle.east, heastlt.ne, hwesteq, true_and, false_and, and_false,
      false_or]
  · exact absurd (hwesteq.trans heasteq.symm) hne

/-- A rectangle across the antimeridian covers the eastern edge of the world. -/
theorem locate_mem_cover_iff_antimeridian :
    let r : Rectangle (Exact (.usual fun value _ => value)) :=
      ⟨⟨0.0, Scalar.halfPi⟩, ⟨0.0, -Scalar.halfPi⟩⟩
    let p : Position (Exact (.usual fun value _ => value)) := ⟨0.0, Scalar.pi⟩
    (quadTreeEquirectangular.subdivision.size 1).Fits 1 ∧
      Rectangle.world.contains r.southWest ∧ Rectangle.world.contains r.northEast ∧
      r.west.value ≠ r.east.value ∧ Rectangle.world.contains p ∧ r.contains p ∧
      quadTreeEquirectangular.locate p 1 ∈ quadTreeEquirectangular.cover r 1 := by
  intro r p
  have hpi := Real.pi_pos
  have hcircle : (Circle.usual fun value _ => value).pi = Real.pi := rfl
  have hzero : (0.0 : ℝ) = 0 := by norm_num
  have hsize : (quadTreeEquirectangular.subdivision.size 1).Fits 1 :=
    Subdivision.quadTree_fits (by decide)
  have hwest : Rectangle.world.contains r.southWest = true := by
    rw [Rectangle.world_contains_iff]
    simp only [r, Exact.value_ofScientific, Exact.value_halfPi, hcircle, hzero]
    constructor <;> constructor <;> linarith
  have heast : Rectangle.world.contains r.northEast = true := by
    rw [Rectangle.world_contains_iff]
    simp only [r, Exact.value_ofScientific, Exact.value_neg, Exact.value_halfPi, hcircle, hzero]
    constructor <;> constructor <;> linarith
  have hne : r.west.value ≠ r.east.value := by
    simp only [r, Rectangle.west, Rectangle.east, Exact.value_neg, Exact.value_halfPi, hcircle]
    linarith
  have hp : Rectangle.world.contains p = true := by
    rw [Rectangle.world_contains_iff]
    simp only [p, Exact.value_ofScientific, Exact.value_pi, hcircle, hzero]
    constructor <;> constructor <;> linarith
  have hin : r.contains p = true := by
    rw [Rectangle.contains_iff]
    simp only [r, p, Rectangle.west, Rectangle.east, Rectangle.south, Rectangle.north,
      Exact.value_neg, Exact.value_halfPi, Exact.value_pi, hcircle]
    rw [if_neg (by linarith)]
    exact ⟨⟨le_rfl, le_rfl⟩, .inl (by linarith)⟩
  refine ⟨hsize, hwest, heast, hne, hp, hin, ?_⟩
  rw [locate_mem_cover_iff (.inl rfl) (by decide) hsize hwest heast hne hp hin]
  simp only [r, Rectangle.west, Rectangle.east, Exact.value_neg, Exact.value_halfPi, hcircle]
  intro h
  rcases h with h | h <;> linarith [h.1]

/-- The rectangle of all positions does not cover the position in the middle of the world. -/
theorem not_forall_locate_mem_cover :
    ¬ ∀ (circle : Circle) (s : Scheme), s.projection.IsFlat → ∀ level ≤ maxLevel,
      (s.subdivision.size level).Fits level → ∀ r : Rectangle (Exact circle), r.isEmpty = false →
      (s.projection.bounds : Rectangle (Exact circle)).contains r.southWest →
      (s.projection.bounds : Rectangle (Exact circle)).contains r.northEast →
      r.west.value ≠ r.east.value → ∀ p : Position (Exact circle),
      (s.projection.bounds : Rectangle (Exact circle)).contains p → r.contains p →
        s.locate p level ∈ s.cover r level := by
  intro h
  let circle : Circle := .usual fun value _ => value
  let middle : Position (Exact circle) := ⟨0.0, 0.0⟩
  have hpi : 0 < circle.pi := circle.pi_pos
  have hsize : (quadTreeEquirectangular.subdivision.size 1).Fits 1 :=
    Subdivision.quadTree_fits (by decide)
  obtain ⟨hmiddle, hwest, heast⟩ := Rectangle.world_contains_middle circle
  have hlt : (Rectangle.world : Rectangle (Exact circle)).west.value < circle.pi := by
    show -circle.pi < circle.pi
    linarith
  have hcovered := h circle quadTreeEquirectangular (.inl rfl) 1 (by decide) hsize .world
    (Rectangle.isEmpty_eq_false_of_contains hmiddle) hwest heast hlt.ne middle hmiddle hmiddle
  rw [locate_mem_cover_to_edge (.inl rfl) (by decide) hsize hwest heast hmiddle hmiddle hlt rfl]
    at hcovered
  refine hcovered ⟨rfl, ?_⟩
  -- Half the way around the world is in the second of two columns.
  have hacross : middle.across = 1 / 2 := by
    show (0.0 + circle.pi) / (2 * circle.pi) = 1 / 2
    field_simp
    norm_num
  have hwidth : (quadTreeEquirectangular.subdivision.size 1).width.toNat = 2 := rfl
  rw [(locate_flat (.inl rfl) (by decide) hsize hmiddle).2.1, columnAt, hacross, hwidth, bucket]
  norm_num

end Scheme

end TilePyramid
