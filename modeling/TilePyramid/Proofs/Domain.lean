import Mathlib
import TilePyramid.Proofs.TileBox

/-!
# The positions that have a tile

A tile that is found lies in the grid of its level, whatever the scheme and however its numbers
round (`Scheme.locate_eq_invalid_or_hasTile`). In exact arithmetic every projection takes its bounds
into its extent (`Projection.extent_contains`), and a flat one takes nothing else there
(`Projection.IsFlat.contains_of_project_mem`). So the bounds have tiles on all levels of the tree,
and with a flat projection no other position has one.
-/

namespace TilePyramid

variable {circle : Circle} {level : ℕ}

namespace Projection

variable {projection : Projection} {p : Position (Exact circle)}

/-- A flat projection takes only positions of the world to its extent. -/
theorem IsFlat.contains_of_project_mem (hflat : projection.IsFlat)
    (hx : (projection.world circle).minimum.x.value ≤ (projection.project ⟨p, 0.0⟩).x.value ∧
      (projection.project ⟨p, 0.0⟩).x.value ≤ (projection.world circle).maximum.x.value)
    (hy : (projection.world circle).minimum.y.value ≤ (projection.project ⟨p, 0.0⟩).y.value ∧
      (projection.project ⟨p, 0.0⟩).y.value ≤ (projection.world circle).maximum.y.value) :
    (projection.bounds : Rectangle (Exact circle)).contains p := by
  have hpi := circle.pi_pos
  rw [bounds, Rectangle.world_contains_iff]
  rcases hflat with rfl | rfl
  · have hturn : 0 < 2 * circle.pi := by linarith
    simp only [project, world, extent, Exact.value_div, Exact.value_add, Exact.value_pi,
      Exact.value_halfPi, Exact.value_twoPi, Exact.value_ofScientific, le_div_iff₀ hturn,
      div_le_iff₀ hturn] at hx hy
    norm_num at hx hy
    refine ⟨⟨?_, ?_⟩, ?_, ?_⟩ <;> linarith
  · simp only [project, world, extent, Exact.value_neg, Exact.value_pi, Exact.value_halfPi] at hx hy
    exact ⟨hy, hx⟩

/-- The sphere lies within its extent, as sine and cosine do not exceed 1. -/
theorem sphere_extent_contains (p : Position (Exact circle)) :
    (sphere.world circle).contains (sphere.project ⟨p, 0.0⟩) := by
  have hradius : (0 : ℝ) ≤ 6378137.0 + 0.0 := by norm_num
  have hshare : ∀ length share : ℝ, |length| ≤ 6378137.0 + 0.0 → |share| ≤ 1 →
      |length * share| ≤ 6378137.0 + 0.0 := by
    intro length share hlength hle
    rw [abs_mul]
    exact (mul_le_of_le_one_right (abs_nonneg _) hle).trans hlength
  have hwhole := (abs_of_nonneg hradius).le
  have hparallel := hshare _ _ hwhole (circle.abs_cos_le p.latitude.value)
  rw [Box.contains_iff]
  exact ⟨abs_le.1 (hshare _ _ hparallel (circle.abs_cos_le _)),
    abs_le.1 (hshare _ _ hparallel (circle.abs_sin_le _)),
    abs_le.1 (hshare _ _ hwhole (circle.abs_sin_le _))⟩

/-- Every projection takes the positions of its bounds into its extent. -/
theorem extent_contains (projection : Projection)
    (hp : (projection.bounds : Rectangle (Exact circle)).contains p) :
    (projection.world circle).contains (projection.project ⟨p, 0.0⟩) := by
  cases projection with
  | equirectangular => exact IsFlat.extent_contains (.inl rfl) hp
  | sphere => exact sphere_extent_contains p
  | identity => exact IsFlat.extent_contains (.inr rfl) hp

end Projection

namespace Scheme

section
variable {α : Type} [Scalar α]

/-- The number of a cell is one of those that there are. -/
theorem cell_lt {count : UInt32} (hcount : count ≠ 0) (offset length : α) :
    (cell count offset length).toNat < count.toNat := by
  have hpos : 0 < count.toNat := Nat.pos_of_ne_zero fun hzero => hcount (UInt32.toNat_inj.1 hzero)
  have hle : (1 : UInt32) ≤ count := UInt32.le_iff_toNat_le.2 hpos
  rw [cell, UInt32.toNat_min, UInt32.toNat_sub_of_le _ _ hle]
  exact (min_le_left _ _).trans_lt (Nat.sub_lt hpos Nat.one_pos)

/-- A point that is not beside the world has the cells of its coordinates, if there are any. Any
other point has no tile. -/
theorem locatePoint_cases (s : Scheme) (v : Vec α) (level : ℕ) :
    let world : Box α := s.projection.extent 0.0 0.0
    let size := s.subdivision.size level
    s.locatePoint v level = .invalid ∨
      ¬ (v.x < world.minimum.x ∨ world.maximum.x < v.x) ∧
      ¬ (v.y < world.minimum.y ∨ world.maximum.y < v.y) ∧ size.width ≠ 0 ∧ size.height ≠ 0 ∧
      s.locatePoint v level =
        ⟨cell size.height (v.y - world.minimum.y) world.size.y,
          cell size.width (v.x - world.minimum.x) world.size.x, UInt32.ofNat level⟩ := by
  intro world size
  by_cases hx : v.x < world.minimum.x ∨ world.maximum.x < v.x
  · exact .inl (if_pos hx)
  by_cases hy : v.y < world.minimum.y ∨ world.maximum.y < v.y
  · exact .inl ((if_neg hx).trans (if_pos hy))
  by_cases hcells : size.width = 0 ∨ size.height = 0
  · exact .inl ((if_neg hx).trans ((if_neg hy).trans (if_pos hcells)))
  · obtain ⟨hwidth, hheight⟩ := not_or.1 hcells
    exact .inr ⟨hx, hy, hwidth, hheight, (if_neg hx).trans ((if_neg hy).trans (if_neg hcells))⟩

/-- Below the deepest level there are no tiles. -/
theorem locate_of_maxLevel_lt (s : Scheme) (p : Position α) (hlevel : maxLevel < level) :
    s.locate p level = .invalid := by
  rw [locate, if_pos (.inl hlevel)]

/-- A position has no tile, or one in the grid of the level. -/
theorem locate_eq_invalid_or_hasTile (s : Scheme) (p : Position α) (level : ℕ) :
    s.locate p level = .invalid ∨ s.HasTile level (s.locate p level) := by
  unfold locate
  split
  · exact .inl rfl
  · rename_i hdefined
    rw [not_or, not_lt] at hdefined
    rcases s.locatePoint_cases (s.projection.project ⟨p, 0.0⟩) level with
      hnone | ⟨-, -, hwidth, hheight, htile⟩
    · exact .inl hnone
    · rw [htile]
      exact .inr ⟨toNat_ofNat_level hdefined.1, cell_lt hheight _ _, cell_lt hwidth _ _⟩

/-- A valid tile of a position is one of the grid. -/
theorem hasTile_of_isValid {s : Scheme} {p : Position α} (h : (s.locate p level).IsValid) :
    s.HasTile level (s.locate p level) := by
  refine (s.locate_eq_invalid_or_hasTile p level).resolve_left fun hnone => ?_
  rw [hnone] at h
  exact absurd h (by decide)

end

variable {s : Scheme} {t : Tile} {p : Position (Exact circle)}

/-- A tile of a grid that fits its level is valid. -/
theorem HasTile.isValid (ht : s.HasTile level t) (hlevel : level ≤ maxLevel)
    (hsize : (s.subdivision.size level).Fits level) : t.IsValid := by
  obtain ⟨rfl, hrow, hcolumn⟩ := ht
  exact ⟨Nat.lt_succ_of_le hlevel, hrow.trans_le hsize.height_le, hcolumn.trans_le hsize.width_le⟩

/-- A position of the bounds has a tile in every grid that is not empty. -/
theorem locate_hasTile (hlevel : level ≤ maxLevel)
    (hwidth : 1 ≤ (s.subdivision.size level).width.toNat)
    (hheight : 1 ≤ (s.subdivision.size level).height.toNat)
    (hp : (s.projection.bounds : Rectangle (Exact circle)).contains p) :
    s.HasTile level (s.locate p level) := by
  rw [locate_eq_locatePoint s hlevel p]
  exact (locatePoint_hasTile hlevel hwidth hheight (s.projection.extent_contains hp)).1

/-- With a flat projection, a position outside the bounds has no tile. -/
theorem locate_of_not_contains (hflat : s.projection.IsFlat)
    (hp : ¬ (s.projection.bounds : Rectangle (Exact circle)).contains p) (level : ℕ) :
    s.locate p level = .invalid := by
  unfold locate
  split
  · rfl
  · rcases s.locatePoint_cases (s.projection.project ⟨p, 0.0⟩) level with
      hnone | ⟨hx, hy, -, -, -⟩
    · exact hnone
    · simp only [Exact.lt_iff, not_or, not_lt] at hx hy
      exact absurd (hflat.contains_of_project_mem hx hy) hp

theorem subdivision_mem_all (h : s ∈ predefined) : s.subdivision ∈ Subdivision.all := by
  simp only [predefined, List.mem_cons, List.not_mem_nil, or_false] at h
  rcases h with rfl | rfl | rfl | rfl <;>
    simp [Subdivision.all, quadTreeEquirectangular, halfQuadTreeEquirectangular, quadTreeIdentity,
      quadTreeSphere]

/-- Which positions have a tile. In exact arithmetic, the predefined schemes have on every level of
the tree a valid tile of the grid for every position of their bounds. With a flat projection no
position outside the bounds has a tile. Whatever the scheme and however its numbers round, there are
no tiles below the deepest level, and a tile that is found lies in the grid of its level. -/
theorem locate_domain :
    (∀ (circle : Circle) (s : Scheme) (p : Position (Exact circle)) (level : ℕ),
      s ∈ predefined → level ≤ maxLevel →
      (s.projection.bounds : Rectangle (Exact circle)).contains p →
        (s.locate p level).IsValid ∧ s.HasTile level (s.locate p level)) ∧
    (∀ (circle : Circle) (s : Scheme) (p : Position (Exact circle)) (level : ℕ),
      s.projection.IsFlat → ¬ (s.projection.bounds : Rectangle (Exact circle)).contains p →
        s.locate p level = .invalid) ∧
    ∀ (α : Type) [Scalar α] (s : Scheme) (p : Position α) (level : ℕ),
      (maxLevel < level → s.locate p level = .invalid) ∧
        (s.locate p level = .invalid ∨ s.HasTile level (s.locate p level)) := by
  refine ⟨fun circle s p level hs hlevel hp => ?_,
    fun circle s p level hflat hp => locate_of_not_contains hflat hp level,
    fun α _ s p level => ⟨s.locate_of_maxLevel_lt p, s.locate_eq_invalid_or_hasTile p level⟩⟩
  have hsize := Subdivision.fits_of_mem_all (subdivision_mem_all hs) hlevel
  have htile := locate_hasTile hlevel hsize.width_pos hsize.height_pos hp
  exact ⟨htile.isValid hlevel hsize, htile⟩

/-- On the deepest level of the sphere the north east corner of the bounds has a tile, and none
below it. With the flat world of longitudes and latitudes, a position beyond the north pole has
none. -/
theorem locate_domain_northEast :
    let p : Position (Exact (.usual fun value _ => value)) := Rectangle.world.northEast
    let q : Position (Exact (.usual fun value _ => value)) := ⟨⟨2⟩, ⟨0⟩⟩
    quadTreeSphere ∈ predefined ∧ 31 ≤ maxLevel ∧ quadTreeSphere.projection.bounds.contains p ∧
      (quadTreeSphere.locate p 31).IsValid ∧ maxLevel < 32 ∧
      quadTreeSphere.locate p 32 = .invalid ∧ quadTreeIdentity.projection.IsFlat ∧
      ¬ quadTreeIdentity.projection.bounds.contains q ∧ quadTreeIdentity.locate q 0 = .invalid := by
  intro p q
  obtain ⟨hin, hout, hall⟩ := locate_domain
  have hsphere : quadTreeSphere ∈ predefined := by simp [predefined]
  have hp := (Rectangle.world_contains_middle (.usual fun value _ => value)).2.2
  have hflat : quadTreeIdentity.projection.IsFlat := .inr rfl
  have hq : ¬ quadTreeIdentity.projection.bounds.contains q := by
    rw [Projection.bounds, Rectangle.world_contains_iff]
    rintro ⟨⟨-, hnorth⟩, -⟩
    have hpi : Real.pi < 4 := Real.pi_lt_four
    have hlatitude : (2 : ℝ) ≤ Real.pi / 2 := hnorth
    linarith
  exact ⟨hsphere, by decide, hp, (hin _ _ p 31 hsphere (by decide) hp).1, by decide,
    (hall _ _ p 32).1 (by decide), hflat, hq, hout _ _ q 0 hflat hq⟩

end Scheme

end TilePyramid
