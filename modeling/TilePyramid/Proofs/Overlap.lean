import Mathlib
import TilePyramid.Proofs.Rectangle

/-!
# Rectangles that share an area

`Rectangle.overlaps` compares the longitudes of two rectangles as counted on to the east from each
western side (`Rectangle.overlaps_iff_unwrapped`). For two rectangles that cross the antimeridian,
and for two that do not, it holds exactly if some position lies inside both. A rectangle that
crosses the antimeridian misses those that it meets behind the antimeridian only.
`Rectangle.overlaps_iff_sharesArea` says which these are.
-/

namespace TilePyramid.Rectangle

variable {circle : Circle} {r s : Rectangle (Exact circle)}

/-- The longitude lies inside the sides of a rectangle, which go around behind the antimeridian if
they are not in order. -/
def HasLongitude (r : Rectangle (Exact circle)) (longitude : ℝ) : Prop :=
  if r.west.value < r.east.value then r.west.value < longitude ∧ longitude < r.east.value
  else r.west.value < longitude ∨ longitude < r.east.value

/-- The position lies inside a rectangle and not on its boundary. -/
def Inside (r : Rectangle (Exact circle)) (p : Position (Exact circle)) : Prop :=
  (r.south.value < p.latitude.value ∧ p.latitude.value < r.north.value) ∧
    r.HasLongitude p.longitude.value

/-- Some position, at a longitude behind `-π` and up to `π`, lies inside both rectangles. -/
def SharesArea (r s : Rectangle (Exact circle)) : Prop :=
  ∃ p : Position (Exact circle), p.longitude.value ∈ Set.Ioc (-circle.pi) circle.pi ∧
    r.Inside p ∧ s.Inside p

/-- A rectangle with an area, whose sides are at longitudes behind `-π` and up to `π`. -/
structure HasArea (r : Rectangle (Exact circle)) : Prop where
  south_lt_north : r.south.value < r.north.value
  west_ne_east : r.west.value ≠ r.east.value
  west_mem : r.west.value ∈ Set.Ioc (-circle.pi) circle.pi
  east_mem : r.east.value ∈ Set.Ioc (-circle.pi) circle.pi

/-- A rectangle that does not cross the antimeridian lies behind one that does, if it ends no
further east than that one begins. All that they can share is behind the antimeridian. -/
def IsBehind (s r : Rectangle (Exact circle)) : Prop :=
  r.east.value < r.west.value ∧ s.west.value < s.east.value ∧ s.east.value ≤ r.west.value

/-! ## What is compared -/

theorem unwrappedEast_of_lt (h : r.west.value < r.east.value) :
    r.unwrappedEast.value = r.east.value := by
  rw [value_unwrappedEast, west_add_span, if_neg h.not_gt]

/-- The eastern side of a rectangle that crosses the antimeridian is counted on by a whole turn. -/
theorem unwrappedEast_of_gt (h : r.east.value < r.west.value) :
    r.unwrappedEast.value = r.east.value + 2 * circle.pi := by
  rw [value_unwrappedEast, west_add_span, if_pos h]

/-- Rectangles overlap if their latitudes do, and their longitudes as counted on to the east. -/
theorem overlaps_iff_unwrapped (r s : Rectangle (Exact circle)) :
    r.overlaps s = true ↔
      (r.south.value < s.north.value ∧ s.south.value < r.north.value) ∧
        r.west.value < s.unwrappedEast.value ∧ s.west.value < r.unwrappedEast.value := by
  rw [overlaps]
  split
  · rename_i hapart
    simp only [Exact.le_iff] at hapart
    simp only [Bool.false_eq_true, false_iff]
    intro h
    rcases hapart with hnorth | hsouth
    · exact absurd h.1.1 hnorth.not_gt
    · exact absurd h.1.2 hsouth.not_gt
  · rename_i htogether
    simp only [Exact.le_iff, not_or, not_le] at htogether
    simp [htogether]

theorem overlaps_comm (r s : Rectangle (Exact circle)) : r.overlaps s = s.overlaps r := by
  rw [Bool.eq_iff_iff, overlaps_iff_unwrapped, overlaps_iff_unwrapped]
  exact ⟨fun h => ⟨h.1.symm, h.2.symm⟩, fun h => ⟨h.1.symm, h.2.symm⟩⟩

/-! ## What is shared -/

theorem sharesArea_comm (r s : Rectangle (Exact circle)) : r.SharesArea s ↔ s.SharesArea r := by
  simp only [SharesArea, and_comm]

/-- Two open intervals that are not empty share a number if each begins before the other ends. -/
theorem exists_between_both {a b c d : ℝ} (hab : a < b) (hcd : c < d) :
    (∃ x, (a < x ∧ x < b) ∧ c < x ∧ x < d) ↔ a < d ∧ c < b := by
  constructor
  · intro h
    obtain ⟨x, ⟨hax, hxb⟩, hcx, hxd⟩ := h
    exact ⟨hax.trans hxd, hcx.trans hxb⟩
  · intro h
    obtain ⟨x, hleft, hright⟩ := exists_between (max_lt (lt_min hab h.1) (lt_min h.2 hcd))
    rw [max_lt_iff] at hleft
    rw [lt_min_iff] at hright
    exact ⟨x, ⟨hleft.1, hright.1⟩, hleft.2, hright.2⟩

/-- Latitudes and longitudes are shared independently. -/
theorem sharesArea_iff (hr : r.HasArea) (hs : s.HasArea) :
    r.SharesArea s ↔ (r.south.value < s.north.value ∧ s.south.value < r.north.value) ∧
      ∃ longitude ∈ Set.Ioc (-circle.pi) circle.pi,
        r.HasLongitude longitude ∧ s.HasLongitude longitude := by
  rw [← exists_between_both hr.south_lt_north hs.south_lt_north]
  constructor
  · intro h
    obtain ⟨p, hrange, ⟨hrlatitude, hrlongitude⟩, hslatitude, hslongitude⟩ := h
    exact ⟨⟨_, hrlatitude, hslatitude⟩, _, hrange, hrlongitude, hslongitude⟩
  · intro h
    obtain ⟨⟨latitude, hrlatitude, hslatitude⟩, longitude, hrange, hrlongitude, hslongitude⟩ := h
    exact ⟨⟨⟨latitude⟩, ⟨longitude⟩⟩, hrange, ⟨hrlatitude, hrlongitude⟩, hslatitude, hslongitude⟩

/-- Two rectangles that do not cross the antimeridian share longitudes as intervals do. -/
theorem exists_longitude_of_lt_of_lt (hr : r.HasArea) (hrorder : r.west.value < r.east.value)
    (hsorder : s.west.value < s.east.value) :
    (∃ longitude ∈ Set.Ioc (-circle.pi) circle.pi,
        r.HasLongitude longitude ∧ s.HasLongitude longitude) ↔
      r.west.value < s.east.value ∧ s.west.value < r.east.value := by
  simp only [HasLongitude, if_pos hrorder, if_pos hsorder]
  rw [← exists_between_both hrorder hsorder]
  constructor
  · intro h
    obtain ⟨longitude, -, hboth⟩ := h
    exact ⟨longitude, hboth⟩
  · intro h
    obtain ⟨longitude, hboth⟩ := h
    exact ⟨longitude, ⟨hr.west_mem.1.trans hboth.1.1, (hboth.1.2.trans_le hr.east_mem.2).le⟩, hboth⟩

/-- A rectangle that crosses the antimeridian shares longitudes on either side of it. -/
theorem exists_longitude_of_gt_of_lt (hs : s.HasArea) (hrorder : r.east.value < r.west.value)
    (hsorder : s.west.value < s.east.value) :
    (∃ longitude ∈ Set.Ioc (-circle.pi) circle.pi,
        r.HasLongitude longitude ∧ s.HasLongitude longitude) ↔
      r.west.value < s.east.value ∨ s.west.value < r.east.value := by
  simp only [HasLongitude, if_neg hrorder.not_gt, if_pos hsorder]
  constructor
  · intro h
    obtain ⟨longitude, -, hfirst | hlast, hwest, heast⟩ := h
    · exact .inl (hfirst.trans heast)
    · exact .inr (hwest.trans hlast)
  · intro h
    rcases h with hfirst | hlast
    · obtain ⟨longitude, hleft, hright⟩ := exists_between (max_lt hfirst hsorder)
      rw [max_lt_iff] at hleft
      exact ⟨longitude, ⟨hs.west_mem.1.trans hleft.2, (hright.trans_le hs.east_mem.2).le⟩,
        .inl hleft.1, hleft.2, hright⟩
    · obtain ⟨longitude, hleft, hright⟩ := exists_between (lt_min hlast hsorder)
      rw [lt_min_iff] at hright
      exact ⟨longitude, ⟨hs.west_mem.1.trans hleft, (hright.2.trans_le hs.east_mem.2).le⟩,
        .inr hright.1, hleft, hright.2⟩

/-- Two rectangles that cross the antimeridian share the longitudes right behind it. -/
theorem exists_longitude_of_gt_of_gt (hr : r.HasArea) (hs : s.HasArea)
    (hrorder : r.east.value < r.west.value) (hsorder : s.east.value < s.west.value) :
    ∃ longitude ∈ Set.Ioc (-circle.pi) circle.pi,
      r.HasLongitude longitude ∧ s.HasLongitude longitude := by
  obtain ⟨longitude, hleft, hright⟩ := exists_between (lt_min hr.east_mem.1 hs.east_mem.1)
  rw [lt_min_iff] at hright
  refine ⟨longitude, ⟨hleft, (hright.1.trans_le hr.east_mem.2).le⟩, ?_⟩
  simp only [HasLongitude, if_neg hrorder.not_gt, if_neg hsorder.not_gt]
  exact ⟨.inr hright.1, .inr hright.2⟩

/-! ## Both, one or none across the antimeridian -/

/-- Counted on, a rectangle across the antimeridian ends east of every longitude. -/
theorem lt_unwrappedEast (hr : r.HasArea) (hrorder : r.east.value < r.west.value) {longitude : ℝ}
    (h : longitude ≤ circle.pi) : longitude < r.unwrappedEast.value := by
  rw [unwrappedEast_of_gt hrorder]
  linarith [hr.east_mem.1]

theorem overlaps_iff_of_lt_of_lt (hr : r.HasArea) (hs : s.HasArea)
    (hrorder : r.west.value < r.east.value) (hsorder : s.west.value < s.east.value) :
    r.overlaps s = true ↔ r.SharesArea s := by
  rw [overlaps_iff_unwrapped, sharesArea_iff hr hs,
    exists_longitude_of_lt_of_lt hr hrorder hsorder, unwrappedEast_of_lt hrorder,
    unwrappedEast_of_lt hsorder]

/-- A rectangle that crosses the antimeridian overlaps one that does not only if it begins before
that one ends, although they may share what is behind the antimeridian. -/
theorem overlaps_iff_of_gt_of_lt (hr : r.HasArea) (hs : s.HasArea)
    (hrorder : r.east.value < r.west.value) (hsorder : s.west.value < s.east.value) :
    r.overlaps s = true ↔ r.SharesArea s ∧ ¬ s.IsBehind r := by
  rw [overlaps_iff_unwrapped, sharesArea_iff hr hs,
    exists_longitude_of_gt_of_lt hs hrorder hsorder, unwrappedEast_of_lt hsorder,
    and_iff_left (lt_unwrappedEast hr hrorder hs.west_mem.2)]
  simp only [IsBehind, hrorder, hsorder, true_and, not_le]
  exact ⟨fun h => ⟨⟨h.1, .inl h.2⟩, h.2⟩, fun h => ⟨h.1.1, h.2⟩⟩

theorem overlaps_iff_of_gt_of_gt (hr : r.HasArea) (hs : s.HasArea)
    (hrorder : r.east.value < r.west.value) (hsorder : s.east.value < s.west.value) :
    r.overlaps s = true ↔ r.SharesArea s := by
  rw [overlaps_iff_unwrapped, sharesArea_iff hr hs]
  refine and_congr_right fun _ => iff_of_true ?_ ?_
  · exact ⟨lt_unwrappedEast hs hsorder hr.west_mem.2, lt_unwrappedEast hr hrorder hs.west_mem.2⟩
  · exact exists_longitude_of_gt_of_gt hr hs hrorder hsorder

/-! ## Strips between two longitudes -/

/-- The rectangle between two longitudes, from one radian south to one radian north. -/
def strip (west east : ℝ) : Rectangle (Exact circle) := ⟨⟨⟨-1⟩, ⟨west⟩⟩, ⟨⟨1⟩, ⟨east⟩⟩⟩

/-- Longitudes up to 3.14 on either side are of the usual range. -/
theorem mem_usual_of_abs_le {next : ℝ → ℝ → ℝ} {longitude : ℝ} (h : |longitude| ≤ 3.14) :
    longitude ∈ Set.Ioc (-(Circle.usual next).pi) (Circle.usual next).pi := by
  have hpi : 3.14 < (Circle.usual next).pi := Real.pi_gt_d2
  obtain ⟨hlower, hupper⟩ := abs_le.1 h
  exact ⟨by linarith, by linarith⟩

theorem hasArea_strip {next : ℝ → ℝ → ℝ} {west east : ℝ} (hne : west ≠ east)
    (hwest : |west| ≤ 3.14) (heast : |east| ≤ 3.14) :
    (strip west east : Rectangle (Exact (.usual next))).HasArea where
  south_lt_north := show (-1 : ℝ) < 1 by norm_num
  west_ne_east := hne
  west_mem := mem_usual_of_abs_le hwest
  east_mem := mem_usual_of_abs_le heast

/-! ## When rectangles overlap -/

/-- Two rectangles overlap exactly if some position lies inside both, unless one of them lies behind
the other. -/
theorem overlaps_iff_sharesArea (hr : r.HasArea) (hs : s.HasArea) :
    r.overlaps s = true ↔ r.SharesArea s ∧ ¬ (r.IsBehind s ∨ s.IsBehind r) := by
  rcases hr.west_ne_east.lt_or_gt with hrorder | hrorder <;>
    rcases hs.west_ne_east.lt_or_gt with hsorder | hsorder
  · rw [overlaps_iff_of_lt_of_lt hr hs hrorder hsorder]
    simp [IsBehind, hrorder.not_gt, hsorder.not_gt]
  · rw [overlaps_comm, sharesArea_comm, overlaps_iff_of_gt_of_lt hs hr hsorder hrorder]
    simp [IsBehind, hrorder.not_gt]
  · rw [overlaps_iff_of_gt_of_lt hr hs hrorder hsorder]
    simp [IsBehind, hsorder.not_gt]
  · rw [overlaps_iff_of_gt_of_gt hr hs hrorder hsorder]
    simp [IsBehind, hrorder.not_gt, hsorder.not_gt]

/-- A rectangle across the antimeridian overlaps one that lies in it before the antimeridian. -/
theorem overlaps_iff_sharesArea_before :
    let r : Rectangle (Exact (.usual fun value _ => value)) := strip 3 (-3)
    let s : Rectangle (Exact (.usual fun value _ => value)) := strip 3.05 3.1
    r.HasArea ∧ s.HasArea ∧ r.overlaps s = true := by
  intro r s
  have hr : r.HasArea := hasArea_strip (by norm_num) (by norm_num) (by norm_num)
  have hs : s.HasArea := hasArea_strip (by norm_num) (by norm_num) (by norm_num)
  have hshares : r.SharesArea s := by
    refine ⟨⟨⟨0⟩, ⟨3.07⟩⟩, mem_usual_of_abs_le (by norm_num), ?_, ?_⟩
    · norm_num [r, Inside, HasLongitude, strip, south, north, west, east]
    · norm_num [s, Inside, HasLongitude, strip, south, north, west, east]
  have hbefore : ¬ (r.IsBehind s ∨ s.IsBehind r) := by
    norm_num [r, s, IsBehind, strip, west, east]
  exact ⟨hr, hs, (overlaps_iff_sharesArea hr hs).2 ⟨hshares, hbefore⟩⟩

/-- A rectangle across the antimeridian does not overlap one that lies in it behind the
antimeridian. -/
theorem not_forall_overlaps_iff_sharesArea :
    ¬ ∀ (circle : Circle) (r s : Rectangle (Exact circle)), r.HasArea → s.HasArea →
      (r.overlaps s = true ↔ r.SharesArea s) := by
  intro h
  let r : Rectangle (Exact (.usual fun value _ => value)) := strip 3 (-3)
  let s : Rectangle (Exact (.usual fun value _ => value)) := strip (-3.1) (-3.05)
  have hr : r.HasArea := hasArea_strip (by norm_num) (by norm_num) (by norm_num)
  have hs : s.HasArea := hasArea_strip (by norm_num) (by norm_num) (by norm_num)
  have hshares : r.SharesArea s := by
    refine ⟨⟨⟨0⟩, ⟨-3.07⟩⟩, mem_usual_of_abs_le (by norm_num), ?_, ?_⟩
    · norm_num [r, Inside, HasLongitude, strip, south, north, west, east]
    · norm_num [s, Inside, HasLongitude, strip, south, north, west, east]
  have hrorder : r.east.value < r.west.value := by norm_num [r, strip, west, east]
  have hsorder : s.west.value < s.east.value := by norm_num [s, strip, west, east]
  obtain ⟨-, hahead⟩ :=
    (overlaps_iff_of_gt_of_lt hr hs hrorder hsorder).1 ((h _ r s hr hs).2 hshares)
  exact hahead ⟨hrorder, hsorder, by norm_num [r, s, strip, west, east]⟩

end TilePyramid.Rectangle
