import TilePyramid.Geo.Rectangle
import TilePyramid.Proofs.Ranks

/-!
# Growing rectangles

`Rectangle.growToContain` moves the four sides of a rectangle independently, by comparisons only.
So the sides of a rectangle that grows over a list are four runs over the list, each of which keeps
the outermost number, and what is said here holds for exact and for floating point numbers.

A side moves down or up. `IsDirection` is what both ways have in common, so that each fact about a
side is stated once. The main results are `bounds_boundingBox`, the box that grows from the empty
rectangle has the extreme angles of its points as sides, and `contains_growToContain_iff`, a
rectangle holds the position that it has grown to unless an angle is undefined.
-/

namespace TilePyramid

variable {α : Type}

/-! ## Moving a side -/

/-- The side after it has moved to a number that lies before it. -/
def moved (before : α → α → Prop) [DecidableRel before] (side a : α) : α :=
  if before a side then a else side

/-- The side after it has moved to the numbers of a list, one after the other. -/
def outermost (before : α → α → Prop) [DecidableRel before] (side : α) (numbers : List α) : α :=
  numbers.foldl (moved before) side

section
variable {before : α → α → Prop} [DecidableRel before]

theorem outermost_cons (side a : α) (numbers : List α) :
    outermost before side (a :: numbers) = outermost before (moved before side a) numbers := rfl

theorem outermost_eq_or_mem (side : α) (numbers : List α) :
    outermost before side numbers = side ∨ outermost before side numbers ∈ numbers := by
  induction numbers generalizing side with
  | nil => exact .inl rfl
  | cons a numbers ih =>
      rw [outermost_cons]
      rcases ih (moved before side a) with h | h
      · rw [h, moved]
        split
        · exact .inr List.mem_cons_self
        · exact .inl rfl
      · exact .inr (List.mem_cons_of_mem _ h)

end

/-! ## Directions -/

variable [Scalar α]

/-- Numbers are compared in one direction, strictly by `before` and weakly by `order`. An undefined
value takes no part. -/
structure IsDirection (before order : α → α → Prop) : Prop where
  irrefl : ∀ a, ¬ before a a
  trans : ∀ {a b c}, before a b → before b c → before a c
  defined : ∀ {a b}, before a b → Scalar.isNaN a = false ∧ Scalar.isNaN b = false
  order_iff : ∀ {a b}, order a b ↔
    Scalar.isNaN a = false ∧ Scalar.isNaN b = false ∧ ¬ before b a
  order_trans : ∀ {a b c}, order a b → order b c → order a c

theorem isDirection_lt [Scalar.Ordered α] : IsDirection (α := α) (· < ·) (· ≤ ·) where
  irrefl := Scalar.lt_irrefl
  trans := Scalar.lt_trans
  defined := Scalar.isNaN_of_lt
  order_iff := Scalar.le_iff
  order_trans := Scalar.le_trans

theorem isDirection_gt [Scalar.Ordered α] : IsDirection (α := α) (· > ·) (· ≥ ·) where
  irrefl := Scalar.lt_irrefl
  trans h h' := Scalar.lt_trans h' h
  defined h := (Scalar.isNaN_of_lt h).symm
  order_iff := Scalar.le_iff.trans and_left_comm
  order_trans h h' := Scalar.le_trans h' h

/-- The number equals one of the list, and it is in order with all of them. With `≤` as order it is
the minimum, with `≥` the maximum. -/
structure IsExtreme (order : α → α → Prop) (side : α) (numbers : List α) : Prop where
  equals : ∃ a ∈ numbers, order side a ∧ order a side
  bounds : ∀ a ∈ numbers, order side a

section
variable {before order : α → α → Prop}

/-- Lists of the same numbers have the same extreme. -/
theorem IsExtreme.unique (h : IsDirection before order) {side other : α}
    {numbers others : List α} (hside : IsExtreme order side numbers)
    (hother : IsExtreme order other others) (hsubset : numbers ⊆ others)
    (hsuperset : others ⊆ numbers) : order side other ∧ order other side := by
  obtain ⟨a, ha, -, ha'⟩ := hside.equals
  obtain ⟨b, hb, -, hb'⟩ := hother.equals
  exact ⟨h.order_trans (hside.bounds b (hsuperset hb)) hb',
    h.order_trans (hother.bounds a (hsubset ha)) ha'⟩

variable [DecidableRel before] {side a : α}

theorem not_before_moved (h : IsDirection before order) : ¬ before a (moved before side a) := by
  rw [moved]
  split
  · exact h.irrefl a
  · assumption

theorem not_before_moved_of_not_before (h : IsDirection before order) {other : α}
    (hother : ¬ before other side) : ¬ before other (moved before side a) := by
  rw [moved]
  split
  · rename_i ha
    exact fun hmoved => hother (h.trans hmoved ha)
  · exact hother

theorem isNaN_moved_iff (h : IsDirection before order) :
    Scalar.isNaN (moved before side a) = false ↔ Scalar.isNaN side = false := by
  rw [moved]
  split
  · rename_i ha
    rw [(h.defined ha).1, (h.defined ha).2]
  · rfl

theorem order_moved_iff (h : IsDirection before order) :
    order (moved before side a) a ↔ Scalar.isNaN side = false ∧ Scalar.isNaN a = false := by
  rw [h.order_iff, isNaN_moved_iff h]
  simp [not_before_moved h]

theorem order_moved (h : IsDirection before order) (hside : Scalar.isNaN side = false) :
    order (moved before side a) side := by
  rw [h.order_iff, isNaN_moved_iff h]
  exact ⟨hside, hside, not_before_moved_of_not_before h (h.irrefl side)⟩

/-- What does not lie before the side at the start of a run does not lie before it at the end. -/
theorem not_before_outermost_of_not_before (h : IsDirection before order) {other : α}
    (hother : ¬ before other side) (numbers : List α) :
    ¬ before other (outermost before side numbers) := by
  induction numbers generalizing side with
  | nil => exact hother
  | cons a numbers ih => exact ih (not_before_moved_of_not_before h hother)

/-- No number of the list lies before the side at the end of the run. -/
theorem not_before_outermost (h : IsDirection before order) (side : α) (numbers : List α) :
    ∀ a ∈ numbers, ¬ before a (outermost before side numbers) := by
  induction numbers generalizing side with
  | nil => exact fun a ha => absurd ha List.not_mem_nil
  | cons b numbers ih =>
      intro a ha
      rcases List.mem_cons.1 ha with rfl | ha
      · exact not_before_outermost_of_not_before h (not_before_moved h) numbers
      · exact ih _ a ha

/-- A run from a side that all numbers of the list are in order with ends at their extreme. -/
theorem isExtreme_outermost (h : IsDirection before order) {numbers : List α}
    (hne : numbers ≠ []) (hnumbers : ∀ a ∈ numbers, order a side) :
    IsExtreme order (outermost before side numbers) numbers := by
  obtain ⟨head, hhead⟩ := List.exists_mem_of_ne_nil numbers hne
  have hmem : outermost before side numbers = side ∨ outermost before side numbers ∈ numbers :=
    outermost_eq_or_mem side numbers
  have hdefined : Scalar.isNaN (outermost before side numbers) = false := by
    rcases hmem with hside | hmem
    · rw [hside]
      exact (h.order_iff.1 (hnumbers head hhead)).2.1
    · exact (h.order_iff.1 (hnumbers _ hmem)).1
  have hbounds : ∀ a ∈ numbers, order (outermost before side numbers) a := fun a ha =>
    h.order_iff.2 ⟨hdefined, (h.order_iff.1 (hnumbers a ha)).1,
      not_before_outermost h side numbers a ha⟩
  refine ⟨?_, hbounds⟩
  rcases hmem with hside | hmem
  · -- The side has not moved, so it equals every number of the list.
    refine ⟨head, hhead, hbounds head hhead, ?_⟩
    rw [hside]
    exact hnumbers head hhead
  · exact ⟨_, hmem, hbounds _ hmem, hbounds _ hmem⟩

end

/-! ## Bounding boxes -/

/-- The angles of the position are usual ones: its latitude lies between the poles and its longitude
between `-π` and `π`. -/
def Position.IsUsual (p : Position α) : Prop :=
  (-Scalar.halfPi ≤ p.latitude ∧ p.latitude ≤ Scalar.halfPi) ∧
    -Scalar.pi ≤ p.longitude ∧ p.longitude ≤ Scalar.pi

namespace Rectangle

/-- The rectangle that grows from the empty one over the points of a list. -/
def boundingBox (points : List (Position α)) : Rectangle α := points.foldl growToContain empty

/-- The sides of the rectangle are the least and the greatest latitude and the least and the
greatest longitude of the points. -/
structure Bounds (r : Rectangle α) (points : List (Position α)) : Prop where
  south : IsExtreme (· ≤ ·) r.south (points.map Position.latitude)
  north : IsExtreme (· ≥ ·) r.north (points.map Position.latitude)
  west : IsExtreme (· ≤ ·) r.west (points.map Position.longitude)
  east : IsExtreme (· ≥ ·) r.east (points.map Position.longitude)

/-- The sides of both rectangles are equal numbers. -/
structure SameSides (r s : Rectangle α) : Prop where
  south : Scalar.equal r.south s.south = true
  north : Scalar.equal r.north s.north = true
  west : Scalar.equal r.west s.west = true
  east : Scalar.equal r.east s.east = true

theorem foldl_growToContain (r : Rectangle α) (points : List (Position α)) :
    points.foldl growToContain r =
      ⟨⟨outermost (· < ·) r.south (points.map Position.latitude),
          outermost (· < ·) r.west (points.map Position.longitude)⟩,
        ⟨outermost (· > ·) r.north (points.map Position.latitude),
          outermost (· > ·) r.east (points.map Position.longitude)⟩⟩ := by
  induction points generalizing r with
  | nil => rfl
  | cons p points ih =>
      rw [List.foldl_cons, ih]
      rfl

variable [Scalar.Ordered α] {r s : Rectangle α} {points others : List (Position α)}
  {p q : Position α}

/-- The empty rectangle has each of its sides at the far end, so every point moves it. -/
theorem bounds_boundingBox (hne : points ≠ []) (husual : ∀ p ∈ points, p.IsUsual) :
    (boundingBox points).Bounds points := by
  have hlatitudes : points.map Position.latitude ≠ [] := mt List.map_eq_nil_iff.1 hne
  have hlongitudes : points.map Position.longitude ≠ [] := mt List.map_eq_nil_iff.1 hne
  rw [boundingBox, foldl_growToContain]
  refine ⟨isExtreme_outermost isDirection_lt hlatitudes ?_,
    isExtreme_outermost isDirection_gt hlatitudes ?_,
    isExtreme_outermost isDirection_lt hlongitudes ?_,
    isExtreme_outermost isDirection_gt hlongitudes ?_⟩
  all_goals
    intro a ha
    obtain ⟨p, hp, rfl⟩ := List.mem_map.1 ha
  · exact (husual p hp).1.2
  · exact (husual p hp).1.1
  · exact (husual p hp).2.2
  · exact (husual p hp).2.1

theorem Bounds.isEmpty_eq_false (h : r.Bounds points) : r.isEmpty = false := by
  obtain ⟨a, ha, hsouth, -⟩ := h.south.equals
  have hspan : r.south ≤ r.north := Scalar.le_trans hsouth (h.north.bounds a ha)
  exact decide_eq_false (Scalar.Ordered.not_sub_lt_zero hspan)

theorem Bounds.contains (h : r.Bounds points) (hp : p ∈ points) : r.contains p = true := by
  have hlatitude : p.latitude ∈ points.map Position.latitude := List.mem_map_of_mem hp
  have hlongitude : p.longitude ∈ points.map Position.longitude := List.mem_map_of_mem hp
  have hsouth := Scalar.not_lt_of_le (h.south.bounds _ hlatitude)
  have hnorth := Scalar.not_lt_of_le (h.north.bounds _ hlatitude)
  have hwest : r.west ≤ p.longitude := h.west.bounds _ hlongitude
  have heast : p.longitude ≤ r.east := h.east.bounds _ hlongitude
  simp [Rectangle.contains, hsouth, hnorth, hwest, heast]

/-- The sides do not depend on the order of the points nor on how often one occurs. -/
theorem Bounds.sameSides (h : r.Bounds points) (h' : s.Bounds others)
    (hsame : ∀ p, p ∈ others ↔ p ∈ points) : s.SameSides r := by
  have hsubset (angle : Position α → α) : others.map angle ⊆ points.map angle :=
    List.map_subset angle fun p => (hsame p).1
  have hsuperset (angle : Position α → α) : points.map angle ⊆ others.map angle :=
    List.map_subset angle fun p => (hsame p).2
  constructor <;> rw [Scalar.equal_iff]
  · exact h'.south.unique isDirection_lt h.south (hsubset _) (hsuperset _)
  · exact (h'.north.unique isDirection_gt h.north (hsubset _) (hsuperset _)).symm
  · exact h'.west.unique isDirection_lt h.west (hsubset _) (hsuperset _)
  · exact (h'.east.unique isDirection_gt h.east (hsubset _) (hsuperset _)).symm

/-! ## Growing once -/

/-- A rectangle that has grown to a position holds it, unless the longitude of the position or both
longitudes of the rectangle are undefined: these compare with nothing. -/
theorem contains_growToContain_iff (r : Rectangle α) (p : Position α) :
    (r.growToContain p).contains p = true ↔
      Scalar.isNaN p.longitude = false ∧
        (Scalar.isNaN r.west = false ∨ Scalar.isNaN r.east = false) := by
  have hsouth : ¬ p.latitude < (r.growToContain p).south := not_before_moved isDirection_lt
  have hnorth : ¬ (r.growToContain p).north < p.latitude := not_before_moved isDirection_gt
  have hwest : (r.growToContain p).west ≤ p.longitude ↔
      Scalar.isNaN r.west = false ∧ Scalar.isNaN p.longitude = false :=
    order_moved_iff isDirection_lt
  have heast : p.longitude ≤ (r.growToContain p).east ↔
      Scalar.isNaN r.east = false ∧ Scalar.isNaN p.longitude = false :=
    order_moved_iff isDirection_gt
  rw [Rectangle.contains, if_neg (not_or.2 ⟨hsouth, hnorth⟩)]
  split
  · rename_i hlt
    -- Sides in order are defined, so both halves of the condition hold or none does.
    have hdefined := isDirection_lt.defined hlt
    have hwest' : Scalar.isNaN r.west = false := (isNaN_moved_iff isDirection_lt).1 hdefined.1
    have heast' : Scalar.isNaN r.east = false := (isNaN_moved_iff isDirection_gt).1 hdefined.2
    simp [hwest, heast, hwest', heast']
  · rw [Bool.or_eq_true, decide_eq_true_iff, decide_eq_true_iff, hwest, heast, ← or_and_right,
      and_comm]

/-- A rectangle with its longitudes in order loses no position when it grows. -/
theorem contains_growToContain_of_contains (h : r.west < r.east) (hq : r.contains q = true) :
    (r.growToContain p).contains q = true := by
  rw [Rectangle.contains, if_pos h] at hq
  split at hq
  · exact absurd hq Bool.false_ne_true
  · rename_i hlatitude
    rw [Bool.and_eq_true, decide_eq_true_iff, decide_eq_true_iff] at hq
    have hsouth : ¬ q.latitude < (r.growToContain p).south :=
      not_before_moved_of_not_before isDirection_lt (not_or.1 hlatitude).1
    have hnorth : ¬ (r.growToContain p).north < q.latitude :=
      not_before_moved_of_not_before isDirection_gt (not_or.1 hlatitude).2
    have hwest : (r.growToContain p).west ≤ r.west :=
      order_moved isDirection_lt (Scalar.isNaN_of_le hq.1).1
    have heast : r.east ≤ (r.growToContain p).east :=
      order_moved isDirection_gt (Scalar.isNaN_of_le hq.2).2
    have hlt := Scalar.lt_of_le_of_lt_of_le hwest h heast
    rw [Rectangle.contains, if_neg (not_or.2 ⟨hsouth, hnorth⟩), if_pos hlt, Bool.and_eq_true,
      decide_eq_true_iff, decide_eq_true_iff]
    exact ⟨Scalar.le_trans hwest hq.1, Scalar.le_trans hq.2 heast⟩

/-- Growing a rectangle. The box that grows from the empty rectangle over points with usual angles
has their extreme angles as sides. So it is not empty, holds every point, and does not depend on the
order of the points nor on how often one occurs. Any rectangle that has grown to a position holds
it, unless the longitude of the position or both longitudes of the rectangle are undefined, and a
rectangle with its longitudes in order loses no position. -/
theorem growToContain_bounds :
    (∀ points : List (Position α), points ≠ [] → (∀ p ∈ points, p.IsUsual) →
      (boundingBox points).Bounds points ∧ (boundingBox points).isEmpty = false ∧
        (∀ p ∈ points, (boundingBox points).contains p = true) ∧
        ∀ others : List (Position α), (∀ p, p ∈ others ↔ p ∈ points) →
          (boundingBox others).SameSides (boundingBox points)) ∧
    (∀ (r : Rectangle α) (p : Position α),
      (r.growToContain p).contains p = true ↔
        Scalar.isNaN p.longitude = false ∧
          (Scalar.isNaN r.west = false ∨ Scalar.isNaN r.east = false)) ∧
    ∀ (r : Rectangle α) (p q : Position α), r.west < r.east → r.contains q = true →
      (r.growToContain p).contains q = true := by
  refine ⟨?_, contains_growToContain_iff, fun r p q => contains_growToContain_of_contains⟩
  intro points hne husual
  have hbounds := bounds_boundingBox hne husual
  refine ⟨hbounds, hbounds.isEmpty_eq_false, fun p => hbounds.contains, ?_⟩
  intro others hsame
  obtain ⟨p, hp⟩ := List.exists_mem_of_ne_nil points hne
  have hne' : others ≠ [] := List.ne_nil_of_mem ((hsame p).2 hp)
  exact hbounds.sameSides (bounds_boundingBox hne' fun p hp => husual p ((hsame p).1 hp)) hsame

/-- Two points on both sides of the antimeridian, one of them given twice, span a box almost around
the world. A rectangle grows to the east and keeps what it held. -/
theorem growToContain_bounds_antimeridian :
    let points : List (Position Float) := [⟨0.5, 3.0⟩, ⟨-0.25, -3.0⟩, ⟨0.5, 3.0⟩]
    let others : List (Position Float) := [⟨-0.25, -3.0⟩, ⟨0.5, 3.0⟩]
    let r : Rectangle Float := ⟨⟨0.0, -1.0⟩, ⟨0.5, 1.0⟩⟩
    (points ≠ [] ∧ (∀ p ∈ points, p.IsUsual) ∧ ∀ p, p ∈ others ↔ p ∈ points) ∧
      (boundingBox points).Bounds points ∧
      (boundingBox others).SameSides (boundingBox points) ∧
      (r.west < r.east ∧ r.contains ⟨0.5, 0.0⟩ = true) ∧
      (r.growToContain ⟨0.0, 2.0⟩).contains ⟨0.5, 0.0⟩ = true ∧
      (r.growToContain ⟨0.0, 2.0⟩).contains ⟨0.0, 2.0⟩ = true := by
  intro points others r
  obtain ⟨hpoints, hgrown, hkept⟩ := growToContain_bounds (α := Float)
  have husual : ∀ p ∈ points, p.IsUsual := by
    simp only [points, List.forall_mem_cons, Position.IsUsual]
    decide
  have hsame : ∀ p, p ∈ others ↔ p ∈ points := by
    intro p
    simp only [others, points, List.mem_cons]
    tauto
  have hlt : r.west < r.east := by decide
  have hcontains : r.contains ⟨0.5, 0.0⟩ = true := by decide
  obtain ⟨hbounds, -, -, hothers⟩ := hpoints points (List.cons_ne_nil _ _) husual
  exact ⟨⟨List.cons_ne_nil _ _, husual, hsame⟩, hbounds, hothers others hsame, ⟨hlt, hcontains⟩,
    hkept r _ _ hlt hcontains, (hgrown r _).2 ⟨by decide, .inl (by decide)⟩⟩

/-- A rectangle between two invalid positions does not hold the position that it has grown to. -/
theorem not_forall_contains_growToContain :
    ¬ ∀ (r : Rectangle Float) (p : Position Float), (r.growToContain p).contains p = true := by
  intro h
  have hundefined := h ⟨Position.undefined, Position.undefined⟩ ⟨0.0, 0.0⟩
  exact absurd hundefined (by decide)

end Rectangle

end TilePyramid
