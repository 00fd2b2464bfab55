import Mathlib
import TilePyramid.Proofs.Locate
import TilePyramid.Proofs.Zoom

/-!
# The tiles of a position on all levels

In exact arithmetic the tile of a point at a level is the tile there that contains its tiles at all
deeper levels (`Scheme.locate_zoomTo`). Where cells are divided, the number of the cell of a share
is divided too (`bucket_mul_div`), also for the share 1, which counts to the last cell.
-/

namespace TilePyramid

/-- Dividing every cell into `parts` divides the number of the cell of a share. -/
theorem bucket_mul_div {count parts : ℕ} (hcount : 1 ≤ count) (hparts : 1 ≤ parts) (share : ℝ) :
    bucket (count * parts) share / parts = bucket count share := by
  have hparts' : (parts : ℝ) ≠ 0 := by
    rw [Nat.cast_ne_zero]
    omega
  have hfloor : ⌊(count * parts : ℕ) * share⌋₊ / parts = ⌊count * share⌋₊ := by
    rw [← Nat.floor_div_natCast]
    congr 1
    push_cast
    field_simp
  have hlast : (count * parts - 1) / parts = count - 1 := by
    obtain ⟨before, rfl⟩ : ∃ before, count = before + 1 := ⟨count - 1, by omega⟩
    rw [Nat.add_mul, Nat.one_mul, Nat.add_sub_assoc hparts, Nat.mul_comm,
      Nat.mul_add_div hparts, Nat.div_eq_of_lt (Nat.sub_lt hparts Nat.one_pos)]
    rfl
  have hmono : Monotone fun number => number / parts :=
    fun _ _ hle => Nat.div_le_div_right hle
  rw [bucket, hmono.map_min, hfloor, hlast, bucket]

/-- The rows and columns of a level are divided by the levels below it. -/
theorem bucket_rowsAt_div {level deeper : ℕ} (h : level ≤ deeper) (share : ℝ) :
    bucket (rowsAt deeper) share / rowsAt (deeper - level) = bucket (rowsAt level) share := by
  have hrows : rowsAt deeper = rowsAt level * rowsAt (deeper - level) := by
    rw [← rowsAt_add, Nat.add_sub_cancel' h]
  rw [hrows]
  exact bucket_mul_div (rowsAt_pos level) (rowsAt_pos _) share

namespace Subdivision

variable {level deeper : ℕ}

theorem toNat_width_of_mem_all {subdivision : Subdivision} (hnamed : subdivision ∈ all)
    (h : level ≤ maxLevel) : (subdivision.size level).width.toNat = rowsAt level := by
  rcases List.mem_cons.1 hnamed with rfl | hrest
  · exact toNat_shiftUp_one h
  · obtain rfl := List.mem_singleton.1 hrest
    cases level with
    | zero => rfl
    | succ above => exact toNat_shiftUp_one h

/-- The rows of the half quad tree are not divided on the first level, where the only row contains
all rows. -/
theorem bucket_halfQuadTree_div (h : level ≤ deeper) (hdeeper : deeper ≤ maxLevel) (share : ℝ) :
    bucket (halfQuadTree.size deeper).height.toNat share / rowsAt (deeper - level) =
      bucket (halfQuadTree.size level).height.toNat share := by
  have hheight : ∀ above, above + 1 ≤ maxLevel →
      (halfQuadTree.size (above + 1)).height.toNat = rowsAt above :=
    fun above habove => toNat_shiftUp_one (Nat.le_of_succ_le habove)
  cases deeper with
  | zero =>
      obtain rfl := Nat.le_zero.1 h
      exact Nat.div_one _
  | succ deeper =>
      rw [hheight deeper hdeeper]
      cases level with
      | zero =>
          have honly : bucket (halfQuadTree.size 0).height.toNat share = 0 :=
            Nat.lt_one_iff.1 (bucket_lt (Nat.le_refl 1) share)
          have hlt : bucket (rowsAt deeper) share < rowsAt (deeper + 1) :=
            (bucket_lt (rowsAt_pos deeper) share).trans_le (rowsAt_mono (Nat.le_succ deeper))
          rw [honly]
          exact Nat.div_eq_of_lt hlt
      | succ level =>
          rw [hheight level (h.trans hdeeper), Nat.add_sub_add_right]
          exact bucket_rowsAt_div (Nat.le_of_succ_le_succ h) share

/-- In the subdivisions that can be named, the row and the column of a share at a level are those at
a deeper level divided by the rows of the levels between. -/
theorem bucket_size_div {subdivision : Subdivision} (hnamed : subdivision ∈ all)
    (h : level ≤ deeper) (hdeeper : deeper ≤ maxLevel) (share : ℝ) :
    bucket (subdivision.size deeper).height.toNat share / rowsAt (deeper - level) =
        bucket (subdivision.size level).height.toNat share ∧
      bucket (subdivision.size deeper).width.toNat share / rowsAt (deeper - level) =
        bucket (subdivision.size level).width.toNat share := by
  constructor
  · rcases List.mem_cons.1 hnamed with rfl | hrest
    · show bucket (shiftUp 1 deeper).toNat share / _ = bucket (shiftUp 1 level).toNat share
      rw [toNat_shiftUp_one hdeeper, toNat_shiftUp_one (h.trans hdeeper)]
      exact bucket_rowsAt_div h share
    · obtain rfl := List.mem_singleton.1 hrest
      exact bucket_halfQuadTree_div h hdeeper share
  · rw [toNat_width_of_mem_all hnamed hdeeper, toNat_width_of_mem_all hnamed (h.trans hdeeper)]
    exact bucket_rowsAt_div h share

end Subdivision

variable {circle : Circle}

theorem Box.contains_iff (b : Box (Exact circle)) (v : Vec (Exact circle)) :
    b.contains v = true ↔
      (b.minimum.x.value ≤ v.x.value ∧ v.x.value ≤ b.maximum.x.value) ∧
        (b.minimum.y.value ≤ v.y.value ∧ v.y.value ≤ b.maximum.y.value) ∧
        b.minimum.z.value ≤ v.z.value ∧ v.z.value ≤ b.maximum.z.value := by
  simp only [Box.contains, Bool.and_eq_true, decide_eq_true_eq, Exact.le_iff, and_assoc]

/-- A flat projection takes every position of the world to a point of its extent. -/
theorem Projection.IsFlat.extent_contains {projection : Projection} (hflat : projection.IsFlat)
    {p : Position (Exact circle)}
    (hp : (Rectangle.world : Rectangle (Exact circle)).contains p) :
    (projection.extent (0.0 : Exact circle) 0.0).contains (projection.project ⟨p, 0.0⟩) := by
  obtain ⟨hx, hy⟩ := hflat.project_mem hp
  rw [Box.contains_iff]
  rcases hflat with rfl | rfl
  · exact ⟨hx, hy, le_rfl, le_rfl⟩
  · exact ⟨hx, hy, le_rfl, le_rfl⟩

namespace Scheme

variable {s : Scheme} {level deeper : ℕ}

/-- The tile of a point at a level contains the tiles of the point at deeper levels. -/
theorem locatePoint_zoomTo (hnamed : s.subdivision ∈ Subdivision.all) (h : level ≤ deeper)
    (hdeeper : deeper ≤ maxLevel) {v : Vec (Exact circle)}
    (hv : (s.projection.extent (0.0 : Exact circle) 0.0).contains v) :
    s.locatePoint v level = (s.locatePoint v deeper).zoomTo (UInt32.ofNat level) := by
  have hlevel : level ≤ maxLevel := h.trans hdeeper
  have hword := toNat_ofNat_level hlevel
  obtain ⟨hx, hy, -⟩ := (Box.contains_iff _ _).1 hv
  have hfits := Subdivision.fits_of_mem_all hnamed hlevel
  have hfits' := Subdivision.fits_of_mem_all hnamed hdeeper
  obtain ⟨hrow, hcolumn, hdepth⟩ :=
    locatePoint_toNat hlevel hfits.width_pos hfits.height_pos rfl hx hy
  obtain ⟨hrow', hcolumn', hdepth'⟩ :=
    locatePoint_toNat hdeeper hfits'.width_pos hfits'.height_pos rfl hx hy
  have habove : (UInt32.ofNat level).toNat ≤ (s.locatePoint v deeper).level.toNat := by
    rw [hword, hdepth']
    exact h
  obtain ⟨hzoomrow, hzoomcolumn, hzoomlevel⟩ :=
    Tile.toNat_zoomTo_up (hdepth'.trans_le hdeeper) habove
  rw [hdepth', hword] at hzoomrow hzoomcolumn
  refine Tile.eq_of_toNat ?_ ?_ ?_
  · rw [hrow, hzoomrow, hrow', (Subdivision.bucket_size_div hnamed h hdeeper _).1]
  · rw [hcolumn, hzoomcolumn, hcolumn', (Subdivision.bucket_size_div hnamed h hdeeper _).2]
  · rw [hdepth, hzoomlevel, hword]

/-- In the subdivisions that can be named, a point of the world lies at every level in the tile that
contains its tiles at all deeper levels, however the point was projected. The same holds of a
position whose point is in the world. -/
theorem locate_zoomTo (s : Scheme) (hnamed : s.subdivision ∈ Subdivision.all) (h : level ≤ deeper)
    (hdeeper : deeper ≤ maxLevel) :
    (∀ v : Vec (Exact circle), (s.projection.extent (0.0 : Exact circle) 0.0).contains v →
      s.locatePoint v level = (s.locatePoint v deeper).zoomTo (UInt32.ofNat level)) ∧
    ∀ p : Position (Exact circle),
      (s.projection.extent (0.0 : Exact circle) 0.0).contains (s.projection.project ⟨p, 0.0⟩) →
      s.locate p level = (s.locate p deeper).zoomTo (UInt32.ofNat level) := by
  refine ⟨fun v => locatePoint_zoomTo hnamed h hdeeper, fun p hp => ?_⟩
  have hdefined : ∀ {level : ℕ}, level ≤ maxLevel → ¬ (maxLevel < level ∨ p.isValid = false) := by
    intro level hlevel
    simp [Position.isValid, hlevel]
  rw [locate, locate, if_neg (hdefined hdeeper), if_neg (hdefined (h.trans hdeeper))]
  exact locatePoint_zoomTo hnamed h hdeeper hp

/-- The north east corner of the world is in the last tiles of the half quad tree, whose only rows
at the levels 0 and 1 are the same. -/
theorem locate_zoomTo_northEast :
    let p : Position (Exact (.usual fun value _ => value)) := Rectangle.world.northEast
    halfQuadTreeEquirectangular.subdivision ∈ Subdivision.all ∧ 0 ≤ 1 ∧ 1 ≤ maxLevel ∧
      (Projection.equirectangular.extent 0.0 0.0).contains
        (Projection.equirectangular.project ⟨p, 0.0⟩) ∧
      halfQuadTreeEquirectangular.locate p 0 =
        (halfQuadTreeEquirectangular.locate p 1).zoomTo 0 := by
  intro p
  have hnamed : halfQuadTreeEquirectangular.subdivision ∈ Subdivision.all :=
    List.mem_cons_of_mem _ List.mem_cons_self
  have hlevel : 1 ≤ maxLevel := by decide
  have hp := Projection.IsFlat.extent_contains (.inl rfl)
    (Rectangle.world_contains_middle (.usual fun value _ => value)).2.2
  obtain ⟨-, hlocate⟩ := locate_zoomTo halfQuadTreeEquirectangular hnamed zero_le_one hlevel
  exact ⟨hnamed, zero_le_one, hlevel, hp, hlocate p hp⟩

end Scheme

end TilePyramid
