import Mathlib
import TilePyramid.Proofs.Overlap

/-!
# The union of two rectangles

The union of two rectangles takes the lesser of their western sides and the further of their eastern
ones, each counted on to the east from its western side (`Rectangle.union_eq`). A side beyond the
antimeridian is taken back by a turn and held west of the new western side, so that no longitude is
lost (`Rectangle.contains_union`). A rectangle that contains the other one is their union, unless it
crosses the antimeridian and the other one lies in it behind the antimeridian. Then the union goes
around the world (`Rectangle.union_eq_self_iff`).
-/

namespace TilePyramid

/-- The numbers that longitudes can be. They lie behind `-π` and up to `π`, and `nextAfter` gives a
number to the west of each, with none of them in between. -/
structure Circle.HasLongitudes (circle : Circle) (longitudes : Set ℝ) : Prop where
  range : longitudes ⊆ Set.Ioc (-circle.pi) circle.pi
  nextAfter_lt : ∀ west ∈ longitudes, circle.nextAfter west (west - 1) < west
  le_nextAfter : ∀ west ∈ longitudes, ∀ longitude ∈ longitudes, longitude < west →
    longitude ≤ circle.nextAfter west (west - 1)

namespace Rectangle

variable {circle : Circle} {longitudes : Set ℝ} {r s : Rectangle (Exact circle)}

/-- The sides of a rectangle are at longitudes, and apart if the rectangle is not empty. -/
structure HasSides (r : Rectangle (Exact circle)) (longitudes : Set ℝ) : Prop where
  west_mem : r.west.value ∈ longitudes
  east_mem : r.east.value ∈ longitudes
  west_ne_east : r.isEmpty = false → r.west.value ≠ r.east.value

/-- The longitude lies between the sides of a rectangle, sides included. The way from one to the
other goes behind the antimeridian if they are not in order. -/
def Spans (r : Rectangle (Exact circle)) (longitude : ℝ) : Prop :=
  if r.west.value < r.east.value then r.west.value ≤ longitude ∧ longitude ≤ r.east.value
  else r.west.value ≤ longitude ∨ longitude ≤ r.east.value

theorem contains_iff_spans (r : Rectangle (Exact circle)) (p : Position (Exact circle)) :
    r.contains p = true ↔
      (r.south.value ≤ p.latitude.value ∧ p.latitude.value ≤ r.north.value) ∧
        r.Spans p.longitude.value :=
  r.contains_iff p

/-- A rectangle whose sides are not in order ends beyond the antimeridian. -/
theorem HasSides.pi_lt_unwrappedEast (hr : r.HasSides longitudes)
    (hlongitudes : circle.HasLongitudes longitudes) (horder : r.east.value < r.west.value) :
    circle.pi < r.unwrappedEast.value := by
  have hback := (hlongitudes.range hr.east_mem).1
  rw [unwrappedEast_of_gt horder]
  linarith

/-! ## Corners of the union -/

/-- The lesser one of the western sides of two rectangles. -/
noncomputable def leastWest (r s : Rectangle (Exact circle)) : ℝ := min r.west.value s.west.value

/-- The longitude at which the further one of two rectangles ends, counted on to the east. -/
noncomputable def furthest (r s : Rectangle (Exact circle)) : ℝ :=
  max r.unwrappedEast.value s.unwrappedEast.value

/-- The eastern side of a union. Beyond the antimeridian it is taken back by a turn, and it stays
west of the western side. -/
noncomputable def unionEast (r s : Rectangle (Exact circle)) : ℝ :=
  if circle.pi < furthest r s then
    min (furthest r s - (Scalar.twoPi : Exact circle).value)
      (circle.nextAfter (leastWest r s) (leastWest r s - 1))
  else furthest r s

theorem union_eq (hr : r.isEmpty = false) (hs : s.isEmpty = false) :
    r.union s =
      ⟨⟨⟨min r.south.value s.south.value⟩, ⟨leastWest r s⟩⟩,
        ⟨⟨max r.north.value s.north.value⟩, ⟨unionEast r s⟩⟩⟩ := by
  have hone : (1.0 : ℝ) = 1 := by norm_num
  have hmin : ∀ a b : Exact circle, Scalar.min a b = ⟨min a.value b.value⟩ :=
    fun a b => Exact.ext (Exact.value_min a b)
  have hmax : ∀ a b : Exact circle, Scalar.max a b = ⟨max a.value b.value⟩ :=
    fun a b => Exact.ext (Exact.value_max a b)
  have heast : (if Scalar.pi < Scalar.max r.unwrappedEast s.unwrappedEast then
      Scalar.min (Scalar.max r.unwrappedEast s.unwrappedEast - Scalar.twoPi)
        (Scalar.nextAfter (Scalar.min r.west s.west) (Scalar.min r.west s.west - 1.0))
      else Scalar.max r.unwrappedEast s.unwrappedEast) = (⟨unionEast r s⟩ : Exact circle) := by
    refine Exact.ext ?_
    simp only [apply_ite Exact.value, Exact.lt_iff, Exact.value_min, Exact.value_nextAfter,
      Exact.value_sub, Exact.value_max, Exact.value_pi, Exact.value_ofScientific, hone]
    rfl
  rw [union, hr, hs, if_neg Bool.false_ne_true, if_neg Bool.false_ne_true]
  show (⟨⟨_, _⟩, ⟨_, _⟩⟩ : Rectangle (Exact circle)) = _
  rw [heast, hmin, hmin, hmax]
  rfl

theorem union_of_isEmpty (h : r.isEmpty = true) : r.union s = s := if_pos h

theorem union_of_isEmpty_right (hr : r.isEmpty = false) (h : s.isEmpty = true) : r.union s = r := by
  rw [union, hr, h, if_neg Bool.false_ne_true, if_pos rfl]

theorem union_comm (hr : r.isEmpty = false) (hs : s.isEmpty = false) : r.union s = s.union r := by
  have hwest : leastWest r s = leastWest s r := min_comm _ _
  have hfurthest : furthest r s = furthest s r := max_comm _ _
  rw [union_eq hr hs, union_eq hs hr, unionEast, unionEast, hwest, hfurthest,
    min_comm r.south.value, max_comm r.north.value]

theorem leastWest_mem (hr : r.HasSides longitudes) (hs : s.HasSides longitudes) :
    leastWest r s ∈ longitudes := by
  rcases min_choice r.west.value s.west.value with hwest | hwest <;> rw [leastWest, hwest]
  · exact hr.west_mem
  · exact hs.west_mem

/-! ## Positions of the union -/

/-- A union spans what its first rectangle does. -/
theorem spans_union (hlongitudes : circle.HasLongitudes longitudes) (hr : r.HasSides longitudes)
    (hs : s.HasSides longitudes) (hrne : r.isEmpty = false) (hsne : s.isEmpty = false)
    {longitude : ℝ} (hmem : longitude ∈ longitudes) (h : r.Spans longitude) :
    (r.union s).Spans longitude := by
  have hwest : leastWest r s ≤ r.west.value := min_le_left _ _
  have hfurthest : r.unwrappedEast.value ≤ furthest r s := le_max_left _ _
  have hleast := leastWest_mem hr hs
  rw [union_eq hrne hsne]
  show if leastWest r s < unionEast r s then
      leastWest r s ≤ longitude ∧ longitude ≤ unionEast r s
    else leastWest r s ≤ longitude ∨ longitude ≤ unionEast r s
  by_cases hbeyond : circle.pi < furthest r s
  · -- What is not east of the western side is spanned behind the antimeridian.
    have hnext := hlongitudes.nextAfter_lt _ hleast
    have hside := min_le_right (furthest r s - 2 * circle.pi)
      (circle.nextAfter (leastWest r s) (leastWest r s - 1))
    rw [unionEast, if_pos hbeyond, Exact.value_twoPi, if_neg (hside.trans_lt hnext).not_gt]
    rcases le_or_gt (leastWest r s) longitude with hin | hout
    · exact .inl hin
    · refine .inr (le_min ?_ (hlongitudes.le_nextAfter _ hleast _ hmem hout))
      have hbefore : longitude < r.west.value := hout.trans_le hwest
      rcases (hr.west_ne_east hrne).lt_or_gt with horder | horder
      · rw [Spans, if_pos horder] at h
        exact absurd h.1 hbefore.not_ge
      · rw [Spans, if_neg horder.not_gt] at h
        have heast := h.resolve_left hbefore.not_ge
        rw [unwrappedEast_of_gt horder] at hfurthest
        linarith
  · have horder : r.west.value < r.east.value := by
      refine (hr.west_ne_east hrne).lt_or_gt.resolve_right fun hcrosses => ?_
      exact hbeyond ((hr.pi_lt_unwrappedEast hlongitudes hcrosses).trans_le hfurthest)
    rw [Spans, if_pos horder] at h
    rw [unwrappedEast_of_lt horder] at hfurthest
    rw [unionEast, if_neg hbeyond, if_pos (hwest.trans_lt (horder.trans_le hfurthest))]
    exact ⟨hwest.trans h.1, h.2.trans hfurthest⟩

/-- A union contains the positions of its first rectangle. -/
theorem contains_union_left (hlongitudes : circle.HasLongitudes longitudes)
    (hr : r.HasSides longitudes) (hs : s.HasSides longitudes) (hrne : r.isEmpty = false)
    (hsne : s.isEmpty = false) {p : Position (Exact circle)} (hp : p.longitude.value ∈ longitudes)
    (h : r.contains p) : (r.union s).contains p := by
  obtain ⟨⟨hsouth, hnorth⟩, hspans⟩ := (r.contains_iff_spans p).1 h
  have hunion := spans_union hlongitudes hr hs hrne hsne hp hspans
  rw [contains_iff_spans]
  refine ⟨?_, hunion⟩
  rw [union_eq hrne hsne]
  exact ⟨(min_le_left _ _).trans hsouth, hnorth.trans (le_max_left _ _)⟩

/-! ## Longitudes in steps -/

/-- The number of steps to 1, each as long as the distance of floating point numbers of 64 bits
between 2 and 4. -/
def stepCount : ℕ := 2251799813685248

/-- The usual circle with neighbours one step apart. -/
noncomputable def stepped : Circle := .usual fun longitude _ => longitude - 1 / stepCount

/-- The longitudes that are whole numbers of steps. -/
def steps : Set ℝ :=
  { longitude | longitude ∈ Set.Ioc (-stepped.pi) stepped.pi ∧ ∃ n : ℤ, longitude = n / stepCount }

theorem stepCount_pos : (0 : ℝ) < stepCount := by
  norm_num [stepCount]

theorem stepped_hasLongitudes : stepped.HasLongitudes steps where
  range _ h := h.1
  nextAfter_lt west _ := sub_lt_self west (one_div_pos.2 stepCount_pos)
  le_nextAfter := by
    intro west hwest longitude hlongitude hlt
    obtain ⟨-, m, rfl⟩ := hwest
    obtain ⟨-, n, rfl⟩ := hlongitude
    have hnm : n + 1 ≤ m := by
      rw [div_lt_div_iff_of_pos_right stepCount_pos] at hlt
      exact_mod_cast hlt
    show (n : ℝ) / stepCount ≤ m / stepCount - 1 / stepCount
    rw [← sub_div, div_le_div_iff_of_pos_right stepCount_pos, le_sub_iff_add_le]
    exact_mod_cast hnm

theorem mem_steps {longitude : ℝ} (n : ℤ) (hrange : |longitude| ≤ 3.14)
    (h : longitude = n / stepCount) : longitude ∈ steps :=
  ⟨mem_usual_of_abs_le hrange, n, h⟩

theorem isEmpty_strip (west east : ℝ) :
    (strip west east : Rectangle (Exact circle)).isEmpty = false := by
  rw [← Bool.not_eq_true, isEmpty_iff, not_lt]
  show (-1 : ℝ) ≤ 1
  norm_num

theorem hasSides_strip {west east : ℝ} (hwest : west ∈ steps) (heast : east ∈ steps)
    (hne : west ≠ east) : (strip west east : Rectangle (Exact stepped)).HasSides steps :=
  ⟨hwest, heast, fun _ => hne⟩

/-- From 3 across the antimeridian to -3. -/
theorem hasSides_across : (strip 3 (-3) : Rectangle (Exact stepped)).HasSides steps :=
  hasSides_strip (mem_steps (3 * 2 ^ 51) (by norm_num) (by norm_num [stepCount]))
    (mem_steps (-3 * 2 ^ 51) (by norm_num) (by norm_num [stepCount])) (by norm_num)

/-- In the part of that strip behind the antimeridian. -/
theorem hasSides_behind :
    (strip (-3.125) (-3.0625) : Rectangle (Exact stepped)).HasSides steps :=
  hasSides_strip (mem_steps (-25 * 2 ^ 48) (by norm_num) (by norm_num [stepCount]))
    (mem_steps (-49 * 2 ^ 47) (by norm_num) (by norm_num [stepCount])) (by norm_num)

/-- In the part of that strip before the antimeridian. -/
theorem hasSides_before :
    (strip 3.0625 3.125 : Rectangle (Exact stepped)).HasSides steps :=
  hasSides_strip (mem_steps (49 * 2 ^ 47) (by norm_num) (by norm_num [stepCount]))
    (mem_steps (25 * 2 ^ 48) (by norm_num) (by norm_num [stepCount])) (by norm_num)

/-! ## Unions contain both -/

/-- The union of two rectangles contains the positions of both, also if one of them is empty or
crosses the antimeridian. Which rectangle is the first one makes no difference if none is empty. -/
theorem contains_union (hlongitudes : circle.HasLongitudes longitudes)
    (hr : r.HasSides longitudes) (hs : s.HasSides longitudes) :
    (∀ p : Position (Exact circle), p.longitude.value ∈ longitudes → r.contains p ∨ s.contains p →
      (r.union s).contains p) ∧
    (r.isEmpty = false → s.isEmpty = false → r.union s = s.union r) := by
  refine ⟨fun p hp h => ?_, union_comm⟩
  cases hrempty : r.isEmpty with
  | true =>
      rw [union_of_isEmpty hrempty]
      refine h.resolve_left fun hin => ?_
      exact Bool.false_ne_true ((isEmpty_eq_false_of_contains hin).symm.trans hrempty)
  | false =>
      cases hsempty : s.isEmpty with
      | true =>
          rw [union_of_isEmpty_right hrempty hsempty]
          refine h.resolve_right fun hin => ?_
          exact Bool.false_ne_true ((isEmpty_eq_false_of_contains hin).symm.trans hsempty)
      | false =>
          rcases h with hin | hin
          · exact contains_union_left hlongitudes hr hs hrempty hsempty hp hin
          · rw [union_comm hrempty hsempty]
            exact contains_union_left hlongitudes hs hr hsempty hrempty hp hin

/-- The union of a rectangle across the antimeridian and one behind the antimeridian contains the
western side of the first, at which it neither begins nor ends. -/
theorem contains_union_across :
    let r : Rectangle (Exact stepped) := strip 3 (-3)
    let s : Rectangle (Exact stepped) := strip (-3.125) (-3.0625)
    stepped.HasLongitudes steps ∧ r.HasSides steps ∧ s.HasSides steps ∧
      r.southWest.longitude.value ∈ steps ∧ r.contains r.southWest ∧
      (r.union s).contains r.southWest ∧ r.union s = s.union r := by
  intro r s
  have hin : r.contains r.southWest = true := by
    rw [contains_iff_spans]
    norm_num [r, Spans, strip, south, north, west, east]
  obtain ⟨hcontains, hcomm⟩ := contains_union stepped_hasLongitudes hasSides_across hasSides_behind
  exact ⟨stepped_hasLongitudes, hasSides_across, hasSides_behind, hasSides_across.west_mem, hin,
    hcontains _ hasSides_across.west_mem (.inl hin), hcomm (isEmpty_strip _ _) (isEmpty_strip _ _)⟩

/-! ## Rectangles in one another -/

/-- A union with a rectangle that reaches no further on either side is the first rectangle. -/
theorem union_eq_self (hlongitudes : circle.HasLongitudes longitudes) (hr : r.HasSides longitudes)
    (hrne : r.isEmpty = false) (hsne : s.isEmpty = false) (hsouth : r.south.value ≤ s.south.value)
    (hnorth : s.north.value ≤ r.north.value) (hwest : r.west.value ≤ s.west.value)
    (heast : s.unwrappedEast.value ≤ r.unwrappedEast.value) : r.union s = r := by
  have hleast : leastWest r s = r.west.value := min_eq_left hwest
  have hfurthest : furthest r s = r.unwrappedEast.value := max_eq_left heast
  have hside : unionEast r s = r.east.value := by
    rw [unionEast, hleast, hfurthest]
    rcases (hr.west_ne_east hrne).lt_or_gt with horder | horder
    · rw [unwrappedEast_of_lt horder, if_neg (hlongitudes.range hr.east_mem).2.not_gt]
    · rw [if_pos (hr.pi_lt_unwrappedEast hlongitudes horder), unwrappedEast_of_gt horder,
        Exact.value_twoPi, add_sub_cancel_right]
      exact min_eq_left (hlongitudes.le_nextAfter _ hr.west_mem _ hr.east_mem horder)
  rw [union_eq hrne hsne, hleast, hside, min_eq_left hsouth, max_eq_left hnorth]
  rfl

/-- A rectangle contains all positions of another one. -/
def Encloses (r s : Rectangle (Exact circle)) : Prop :=
  ∀ p : Position (Exact circle), p.longitude.value ∈ Set.Ioc (-circle.pi) circle.pi →
    s.contains p → r.contains p

theorem spans_west (r : Rectangle (Exact circle)) : r.Spans r.west.value := by
  rw [Spans]
  split
  · rename_i horder
    exact ⟨le_rfl, horder.le⟩
  · exact .inl le_rfl

/-- A rectangle does not span what lies west of it. If it crosses the antimeridian, this ends where
the rectangle does. -/
theorem not_spans_of_lt {longitude : ℝ} (hwest : longitude < r.west.value)
    (heast : r.west.value < r.east.value ∨ r.east.value < longitude) : ¬ r.Spans longitude := by
  rw [Spans]
  split
  · exact fun h => h.1.not_gt hwest
  · rename_i horder
    have heast' := heast.resolve_left horder
    exact fun h => h.elim hwest.not_ge heast'.not_ge

section
variable (hlongitudes : circle.HasLongitudes longitudes) (hr : r.HasSides longitudes)
  (hs : s.HasSides longitudes) (hrne : r.isEmpty = false) (hsne : s.isEmpty = false)
  (hin : r.Encloses s)

include hsne hin

/-- A rectangle spans the longitudes of one in it. -/
theorem Encloses.spans {longitude : ℝ} (hmem : longitude ∈ Set.Ioc (-circle.pi) circle.pi)
    (h : s.Spans longitude) : r.Spans longitude := by
  have hcontains := hin ⟨s.south, ⟨longitude⟩⟩ hmem
  simp only [contains_iff_spans] at hcontains
  exact (hcontains ⟨⟨le_rfl, south_le_north hsne⟩, h⟩).2

include hlongitudes

theorem Encloses.not_spans (hr : r.HasSides longitudes) {longitude : ℝ}
    (hback : -circle.pi < longitude) (hwest : longitude < r.west.value)
    (heast : r.west.value < r.east.value ∨ r.east.value < longitude) : ¬ s.Spans longitude :=
  fun hspans => not_spans_of_lt hwest heast
    (hin.spans hsne ⟨hback, hwest.le.trans (hlongitudes.range hr.west_mem).2⟩ hspans)

include hs

theorem Encloses.latitudes : r.south.value ≤ s.south.value ∧ s.north.value ≤ r.north.value := by
  have hmem := hlongitudes.range hs.west_mem
  have hlow := hin ⟨s.south, s.west⟩ hmem
  have hhigh := hin ⟨s.north, s.west⟩ hmem
  simp only [contains_iff_spans] at hlow hhigh
  exact ⟨(hlow ⟨⟨le_rfl, south_le_north hsne⟩, s.spans_west⟩).1.1,
    (hhigh ⟨⟨south_le_north hsne, le_rfl⟩, s.spans_west⟩).1.2⟩

include hr hrne

/-- A rectangle in another one that begins further west begins behind the antimeridian. -/
theorem Encloses.crosses (hwest : s.west.value < r.west.value) :
    r.east.value < r.west.value ∧ s.west.value ≤ r.east.value := by
  have hback := (hlongitudes.range hs.west_mem).1
  have hout := hin.not_spans hlongitudes hsne hr hback hwest
  rw [← not_lt (b := s.west.value)]
  refine ⟨(hr.west_ne_east hrne).lt_or_gt.resolve_left fun horder => ?_, fun hgap => ?_⟩
  · exact hout (.inl horder) s.spans_west
  · exact hout (.inr hgap) s.spans_west

/-- A rectangle begins no further east than one in it that does not lie behind it. -/
theorem Encloses.west_le (hahead : ¬ s.IsBehind r) : r.west.value ≤ s.west.value := by
  by_contra hwest
  obtain ⟨horder, hbegin⟩ := hin.crosses hlongitudes hr hs hrne hsne (not_le.1 hwest)
  -- The rectangle that lies in the other one goes on into the gap between the sides of that one.
  obtain ⟨longitude, hleft, hright⟩ := exists_between horder
  have hback := (hlongitudes.range hr.east_mem).1.trans hleft
  refine hin.not_spans hlongitudes hsne hr hback hright (.inr hleft) ?_
  rw [Spans]
  split
  · rename_i hsorder
    have hfurther : r.west.value < s.east.value :=
      not_le.1 fun hbefore => hahead ⟨horder, hsorder, hbefore⟩
    exact ⟨hbegin.trans hleft.le, (hright.trans hfurther).le⟩
  · exact .inl (hbegin.trans hleft.le)

/-- A rectangle ends no further west than one in it, both counted on to the east. -/
theorem Encloses.unwrappedEast_le : s.unwrappedEast.value ≤ r.unwrappedEast.value := by
  have hrback := (hlongitudes.range hr.east_mem).1
  have hsback := (hlongitudes.range hs.east_mem).1
  rcases (hr.west_ne_east hrne).lt_or_gt with hrorder | hrorder <;>
    rcases (hs.west_ne_east hsne).lt_or_gt with hsorder | hsorder
  · have hspans : s.Spans s.east.value := by
      rw [Spans, if_pos hsorder]
      exact ⟨hsorder.le, le_rfl⟩
    have hrspans := hin.spans hsne (hlongitudes.range hs.east_mem) hspans
    rw [Spans, if_pos hrorder] at hrspans
    rw [unwrappedEast_of_lt hrorder, unwrappedEast_of_lt hsorder]
    exact hrspans.2
  · -- Only a rectangle that crosses the antimeridian has what is right behind it.
    obtain ⟨longitude, hleft, hright⟩ :=
      exists_between (lt_min (hlongitudes.range hr.west_mem).1 hsback)
    rw [lt_min_iff] at hright
    have hspans : s.Spans longitude := by
      rw [Spans, if_neg hsorder.not_gt]
      exact .inr hright.2.le
    exact absurd hspans (hin.not_spans hlongitudes hsne hr hleft hright.1 (.inl hrorder))
  · have hfront := (hlongitudes.range hs.east_mem).2
    rw [unwrappedEast_of_gt hrorder, unwrappedEast_of_lt hsorder]
    linarith
  · rw [unwrappedEast_of_gt hrorder, unwrappedEast_of_gt hsorder, add_le_add_iff_right]
    by_contra hfurther
    rw [not_le] at hfurther
    obtain ⟨longitude, hleft, hright⟩ := exists_between (lt_min hfurther hrorder)
    rw [lt_min_iff] at hright
    have hspans : s.Spans longitude := by
      rw [Spans, if_neg hsorder.not_gt]
      exact .inr hright.1.le
    exact hin.not_spans hlongitudes hsne hr (hrback.trans hleft) hright.2 (.inr hleft) hspans

/-- The union with a rectangle behind the antimeridian begins where that rectangle does and goes
around the world. -/
theorem Encloses.union_of_isBehind (hbehind : s.IsBehind r) :
    r.union s = ⟨⟨r.south, s.west⟩,
      ⟨r.north, ⟨circle.nextAfter s.west.value (s.west.value - 1)⟩⟩⟩ := by
  obtain ⟨hrorder, hsorder, hend⟩ := hbehind
  have hwest : s.west.value < r.west.value := hsorder.trans_le hend
  obtain ⟨-, hbegin⟩ := hin.crosses hlongitudes hr hs hrne hsne hwest
  obtain ⟨hsouth, hnorth⟩ := hin.latitudes hlongitudes hs hsne
  have heast := hin.unwrappedEast_le hlongitudes hr hs hrne hsne
  have hbeyond := hr.pi_lt_unwrappedEast hlongitudes hrorder
  have hleast : leastWest r s = s.west.value := min_eq_right hwest.le
  have hfurthest : furthest r s = r.unwrappedEast.value := max_eq_left heast
  have hnext := hlongitudes.nextAfter_lt _ hs.west_mem
  have hside : unionEast r s = circle.nextAfter s.west.value (s.west.value - 1) := by
    rw [unionEast, hleast, hfurthest, if_pos hbeyond, unwrappedEast_of_gt hrorder,
      Exact.value_twoPi, add_sub_cancel_right]
    exact min_eq_right (hnext.le.trans hbegin)
  rw [union_eq hrne hsne, hleast, hside, min_eq_left hsouth, max_eq_left hnorth]

end

theorem encloses_strip {west east west' east' : ℝ}
    (h : ∀ longitude, (strip west' east' : Rectangle (Exact circle)).Spans longitude →
      (strip west east : Rectangle (Exact circle)).Spans longitude) :
    (strip west east : Rectangle (Exact circle)).Encloses (strip west' east') := by
  intro p _ hp
  rw [contains_iff_spans] at hp ⊢
  exact ⟨hp.1, h _ hp.2⟩

/-! ## When a union adds nothing -/

/-- The union with a rectangle in it is the first rectangle, unless the other one lies behind it.
Then the union begins where the other one does and goes around the world. -/
theorem union_eq_self_iff (hlongitudes : circle.HasLongitudes longitudes)
    (hr : r.HasSides longitudes) (hs : s.HasSides longitudes) (hrne : r.isEmpty = false)
    (hsne : s.isEmpty = false) (hin : r.Encloses s) :
    (r.union s = r ↔ ¬ s.IsBehind r) ∧
      (s.IsBehind r → r.union s = ⟨⟨r.south, s.west⟩,
        ⟨r.north, ⟨circle.nextAfter s.west.value (s.west.value - 1)⟩⟩⟩) := by
  refine ⟨⟨fun hunion hbehind => ?_, fun hahead => ?_⟩,
    hin.union_of_isBehind hlongitudes hr hs hrne hsne⟩
  · have hwest : (r.union s).west.value = s.west.value := by
      rw [hin.union_of_isBehind hlongitudes hr hs hrne hsne hbehind]
      rfl
    rw [hunion] at hwest
    exact (hbehind.2.1.trans_le hbehind.2.2).ne' hwest
  · obtain ⟨hsouth, hnorth⟩ := hin.latitudes hlongitudes hs hsne
    exact union_eq_self hlongitudes hr hrne hsne hsouth hnorth
      (hin.west_le hlongitudes hr hs hrne hsne hahead)
      (hin.unwrappedEast_le hlongitudes hr hs hrne hsne)

/-- A rectangle across the antimeridian is its union with one that lies in it before the
antimeridian. -/
theorem union_eq_self_iff_before :
    let r : Rectangle (Exact stepped) := strip 3 (-3)
    let s : Rectangle (Exact stepped) := strip 3.0625 3.125
    stepped.HasLongitudes steps ∧ r.HasSides steps ∧ s.HasSides steps ∧ r.isEmpty = false ∧
      s.isEmpty = false ∧ r.Encloses s ∧ r.union s = r := by
  intro r s
  have hin : r.Encloses s := by
    refine encloses_strip fun longitude h => ?_
    norm_num [Spans, strip, west, east] at h ⊢
    exact .inl (by linarith)
  have hahead : ¬ s.IsBehind r := by norm_num [r, s, IsBehind, strip, west, east]
  obtain ⟨hunion, -⟩ := union_eq_self_iff stepped_hasLongitudes hasSides_across hasSides_before
    (isEmpty_strip _ _) (isEmpty_strip _ _) hin
  exact ⟨stepped_hasLongitudes, hasSides_across, hasSides_before, isEmpty_strip _ _,
    isEmpty_strip _ _, hin, hunion.2 hahead⟩

/-- A rectangle across the antimeridian is not its union with one that lies in it behind the
antimeridian. -/
theorem not_forall_union_eq_self :
    ¬ ∀ (circle : Circle) (longitudes : Set ℝ), circle.HasLongitudes longitudes →
      ∀ r s : Rectangle (Exact circle), r.HasSides longitudes → s.HasSides longitudes →
      r.isEmpty = false → s.isEmpty = false → r.Encloses s → r.union s = r := by
  intro h
  let r : Rectangle (Exact stepped) := strip 3 (-3)
  let s : Rectangle (Exact stepped) := strip (-3.125) (-3.0625)
  have hin : r.Encloses s := by
    refine encloses_strip fun longitude h => ?_
    norm_num [Spans, strip, west, east] at h ⊢
    exact .inr (by linarith)
  have hunion := h stepped steps stepped_hasLongitudes r s hasSides_across hasSides_behind
    (isEmpty_strip _ _) (isEmpty_strip _ _) hin
  rw [union_eq (isEmpty_strip _ _) (isEmpty_strip _ _)] at hunion
  have hwest : leastWest r s = r.west.value := congrArg (·.west.value) hunion
  norm_num [leastWest, r, s, strip, west] at hwest

end Rectangle

end TilePyramid
