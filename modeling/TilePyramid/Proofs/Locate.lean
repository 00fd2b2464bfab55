import Mathlib
import TilePyramid.Scheme.Locate
import TilePyramid.Proofs.Fits
import TilePyramid.Proofs.Rectangle

/-!
# Where a position lies

In exact arithmetic the two flat projections locate a position in the same way, by its shares of the
way around the world and of the way from pole to pole (`Scheme.locate_flat`). The cell of a share,
`bucket`, grows with the share.
-/

namespace TilePyramid

/-- The number of the cell, among `count` cells of equal length, in which a share of their whole
length ends. -/
noncomputable def bucket (count : ℕ) (share : ℝ) : ℕ := min (count - 1) ⌊count * share⌋₊

theorem bucket_mono (count : ℕ) : Monotone (bucket count) := by
  intro a b hab
  have hcount : (0 : ℝ) ≤ count := count.cast_nonneg
  exact min_le_min_left _ (Nat.floor_mono (mul_le_mul_of_nonneg_left hab hcount))

theorem bucket_lt {count : ℕ} (hcount : 1 ≤ count) (share : ℝ) : bucket count share < count :=
  (min_le_left _ _).trans_lt (Nat.sub_lt hcount Nat.one_pos)

theorem bucket_zero (count : ℕ) : bucket count 0 = 0 := by
  rw [bucket, mul_zero, Nat.floor_zero, Nat.min_zero]

/-- The whole length ends in the last cell. -/
theorem bucket_one (count : ℕ) : bucket count 1 = count - 1 := by
  rw [bucket, mul_one, Nat.floor_natCast, min_eq_left (Nat.sub_le _ _)]

variable {circle : Circle}

namespace Position

/-- The share of the way around the world, from its western edge, at which the longitude is. -/
noncomputable def across (p : Position (Exact circle)) : ℝ :=
  (p.longitude.value + circle.pi) / (2 * circle.pi)

/-- The share of the way from the south pole to the north pole at which the latitude is. -/
noncomputable def up (p : Position (Exact circle)) : ℝ :=
  (p.latitude.value + circle.pi / 2) / circle.pi

theorem across_le_across {p q : Position (Exact circle)}
    (h : p.longitude.value ≤ q.longitude.value) : p.across ≤ q.across := by
  have hpi := circle.pi_pos
  unfold across
  gcongr

theorem up_le_up {p q : Position (Exact circle)} (h : p.latitude.value ≤ q.latitude.value) :
    p.up ≤ q.up := by
  have hpi := circle.pi_pos
  unfold up
  gcongr

theorem across_western {p : Position (Exact circle)} (h : p.longitude.value = -circle.pi) :
    p.across = 0 := by
  rw [across, h, neg_add_cancel, zero_div]

theorem across_eastern {p : Position (Exact circle)} (h : p.longitude.value = circle.pi) :
    p.across = 1 := by
  have hpi := circle.pi_pos
  rw [across, h, ← two_mul, div_self (by linarith)]

end Position

namespace Projection

/-- The projections that keep longitude and latitude apart. -/
def IsFlat (projection : Projection) : Prop := projection = equirectangular ∨ projection = identity

variable {projection : Projection}

/-- A flat projection takes the bounds to its extent. -/
theorem IsFlat.project_mem (hflat : projection.IsFlat) {p : Position (Exact circle)}
    (hp : (Rectangle.world : Rectangle (Exact circle)).contains p) :
    let v := projection.project ⟨p, 0.0⟩
    let world := projection.extent (0.0 : Exact circle) 0.0
    (world.minimum.x.value ≤ v.x.value ∧ v.x.value ≤ world.maximum.x.value) ∧
      world.minimum.y.value ≤ v.y.value ∧ v.y.value ≤ world.maximum.y.value := by
  have hpi := circle.pi_pos
  obtain ⟨⟨hsouth, hnorth⟩, hwest, heast⟩ := (Rectangle.world_contains_iff p).1 hp
  rcases hflat with rfl | rfl
  · have hturn : 0 < 2 * circle.pi := by linarith
    simp only [project, extent, Exact.value_div, Exact.value_add, Exact.value_pi,
      Exact.value_halfPi, Exact.value_twoPi, Exact.value_ofScientific, le_div_iff₀ hturn,
      div_le_iff₀ hturn]
    norm_num
    constructor <;> constructor <;> linarith
  · simp only [project, extent, Exact.value_neg, Exact.value_pi, Exact.value_halfPi]
    exact ⟨⟨hwest, heast⟩, hsouth, hnorth⟩

/-- With a flat projection, the offsets of a position from the least corner of the world have the
shares of its longitude and of its latitude in the sides of the world. -/
theorem IsFlat.shares (hflat : projection.IsFlat) (p : Position (Exact circle)) :
    let v := projection.project ⟨p, 0.0⟩
    let world := projection.extent (0.0 : Exact circle) 0.0
    (v.x - world.minimum.x).value / world.size.x.value = p.across ∧
      (v.y - world.minimum.y).value / world.size.y.value = p.up := by
  have hpi := circle.pi_pos
  rcases hflat with rfl | rfl
  · constructor
    · show ((p.longitude.value + circle.pi) / (2.0 * circle.pi) - 0.0) / (1.0 - 0.0) = _
      rw [Position.across]
      norm_num
    · show ((p.latitude.value + circle.pi / 2.0) / (2.0 * circle.pi) - 0.0) / (0.5 - 0.0) = _
      rw [Position.up]
      norm_num
      field_simp
  · constructor
    · show (p.longitude.value - -circle.pi) / (circle.pi - -circle.pi) = _
      rw [Position.across, sub_neg_eq_add, sub_neg_eq_add, two_mul]
    · show (p.latitude.value - -(circle.pi / 2.0)) / (circle.pi / 2.0 - -(circle.pi / 2.0)) = _
      rw [Position.up]
      norm_num

end Projection

namespace Scheme

/-- The row in which a flat projection locates a position, from its latitude. -/
noncomputable def rowAt (s : Scheme) (level : Nat) (p : Position (Exact circle)) : ℕ :=
  bucket (s.subdivision.size level).height.toNat p.up

/-- The column in which a flat projection locates a position, from its longitude. -/
noncomputable def columnAt (s : Scheme) (level : Nat) (p : Position (Exact circle)) : ℕ :=
  bucket (s.subdivision.size level).width.toNat p.across

section
variable (s : Scheme) (level : Nat) {p q : Position (Exact circle)}

theorem rowAt_mono (h : p.latitude.value ≤ q.latitude.value) : s.rowAt level p ≤ s.rowAt level q :=
  bucket_mono _ (Position.up_le_up h)

theorem columnAt_mono (h : p.longitude.value ≤ q.longitude.value) :
    s.columnAt level p ≤ s.columnAt level q :=
  bucket_mono _ (Position.across_le_across h)

/-- The western edge of the world is in the first column. -/
theorem columnAt_western (h : p.longitude.value = -circle.pi) : s.columnAt level p = 0 := by
  rw [columnAt, Position.across_western h, bucket_zero]

/-- The eastern edge of the world is in the last column. -/
theorem columnAt_eastern (h : p.longitude.value = circle.pi) :
    s.columnAt level p = (s.subdivision.size level).width.toNat - 1 := by
  rw [columnAt, Position.across_eastern h, bucket_one]

end

/-- The number of a cell is the bucket of the share that the offset has of the length. -/
theorem toNat_cell {count : UInt32} (hcount : 1 ≤ count.toNat) (offset length : Exact circle) :
    (cell count offset length).toNat = bucket count.toNat (offset.value / length.value) := by
  have hword := count.toNat_lt
  have hle : (1 : UInt32) ≤ count := by
    rw [UInt32.le_iff_toNat_le]
    exact hcount
  rw [cell, UInt32.toNat_min, UInt32.toNat_sub_of_le _ _ hle, Exact.toNat_toWord, bucket,
    ← mul_div_assoc, Exact.value_div, Exact.value_mul, Exact.value_ofWord]
  show min (count.toNat - 1) (min _ _) = _
  omega

/-- A point of the world is located by the shares of its offsets from the least corner. -/
theorem locatePoint_toNat {s : Scheme} {level : Nat} (hlevel : level ≤ maxLevel)
    (hwidth : 1 ≤ (s.subdivision.size level).width.toNat)
    (hheight : 1 ≤ (s.subdivision.size level).height.toNat) {v : Vec (Exact circle)}
    {world : Box (Exact circle)} (hworld : s.projection.extent 0.0 0.0 = world)
    (hx : world.minimum.x.value ≤ v.x.value ∧ v.x.value ≤ world.maximum.x.value)
    (hy : world.minimum.y.value ≤ v.y.value ∧ v.y.value ≤ world.maximum.y.value) :
    (s.locatePoint v level).row.toNat = bucket (s.subdivision.size level).height.toNat
        ((v.y - world.minimum.y).value / world.size.y.value) ∧
      (s.locatePoint v level).column.toNat = bucket (s.subdivision.size level).width.toNat
        ((v.x - world.minimum.x).value / world.size.x.value) ∧
      (s.locatePoint v level).level.toNat = level := by
  have hinX : ¬ (v.x < world.minimum.x ∨ world.maximum.x < v.x) := by
    simpa only [Exact.lt_iff, not_or, not_lt] using hx
  have hinY : ¬ (v.y < world.minimum.y ∨ world.maximum.y < v.y) := by
    simpa only [Exact.lt_iff, not_or, not_lt] using hy
  have hcells :
      ¬ ((s.subdivision.size level).width = 0 ∨ (s.subdivision.size level).height = 0) := by
    intro hzero
    rcases hzero with hzero | hzero
    · rw [hzero] at hwidth
      exact absurd hwidth (by decide)
    · rw [hzero] at hheight
      exact absurd hheight (by decide)
  simp only [locatePoint, hworld]
  rw [if_neg hinX, if_neg hinY, if_neg hcells]
  exact ⟨toNat_cell hheight _ _, toNat_cell hwidth _ _, toNat_ofNat_level hlevel⟩

variable {s : Scheme} {level : Nat} {p : Position (Exact circle)}

theorem rowAt_lt (hsize : (s.subdivision.size level).Fits level) :
    s.rowAt level p < (s.subdivision.size level).height.toNat :=
  bucket_lt hsize.height_pos _

theorem columnAt_lt (hsize : (s.subdivision.size level).Fits level) :
    s.columnAt level p < (s.subdivision.size level).width.toNat :=
  bucket_lt hsize.width_pos _

/-- In exact arithmetic every position is valid and is located by its point. -/
theorem locate_eq_locatePoint (s : Scheme) (hlevel : level ≤ maxLevel) (p : Position (Exact circle)) :
    s.locate p level = s.locatePoint (s.projection.project ⟨p, 0.0⟩) level := by
  have hdefined : ¬ (maxLevel < level ∨ p.isValid = false) := by
    simp [Position.isValid, hlevel]
  rw [locate, if_neg hdefined]

/-- A flat projection locates a position of the world in a row and a column of the level. -/
theorem locate_flat (hflat : s.projection.IsFlat) (hlevel : level ≤ maxLevel)
    (hsize : (s.subdivision.size level).Fits level)
    (hp : (Rectangle.world : Rectangle (Exact circle)).contains p) :
    (s.locate p level).row.toNat = s.rowAt level p ∧
      (s.locate p level).column.toNat = s.columnAt level p ∧
      (s.locate p level).level.toNat = level := by
  obtain ⟨hx, hy⟩ := hflat.project_mem hp
  obtain ⟨hacross, hup⟩ := hflat.shares p
  have hpoint := locatePoint_toNat hlevel hsize.width_pos hsize.height_pos rfl hx hy
  rwa [hacross, hup, ← locate_eq_locatePoint s hlevel p] at hpoint

/-- With a flat projection every position of the world has a tile. -/
theorem locate_isValid (hflat : s.projection.IsFlat) (hlevel : level ≤ maxLevel)
    (hsize : (s.subdivision.size level).Fits level)
    (hp : (Rectangle.world : Rectangle (Exact circle)).contains p) :
    (s.locate p level).IsValid := by
  obtain ⟨hrow, hcolumn, hdepth⟩ := locate_flat hflat hlevel hsize hp
  rw [Tile.IsValid, hrow, hcolumn, hdepth]
  exact ⟨Nat.lt_succ_of_le hlevel, (rowAt_lt hsize).trans_le hsize.height_le,
    (columnAt_lt hsize).trans_le hsize.width_le⟩

end Scheme

end TilePyramid
