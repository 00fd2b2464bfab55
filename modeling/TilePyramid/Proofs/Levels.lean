import Mathlib
import TilePyramid.LevelSet

/-!
# The nearest level

`LevelSet.nearest?` finds the level of a set that is nearest to any other level, the upper one of
two that are equally near (`LevelSet.nearest?_eq_some_iff`). The way outwards always meets a level
of the set, since it reaches as far as the highest one (`LevelSet.exists_outwards?_eq`), and a
reference on the outer side of all levels is nearest to the outermost of them.
-/

namespace TilePyramid.LevelSet

variable {levels : LevelSet} {level other lowest highest reference distance found : Nat}

/-! ## The levels of a set -/

/-- The levels of a set are its bits. -/
theorem contains_eq_testBit (levels : LevelSet) (level : Nat) :
    levels.contains level = levels.bits.toNat.testBit level := by
  rw [contains, Bool.and_eq_right_iff_imp]
  intro hbit
  rw [decide_eq_true_iff]
  by_contra hdeep
  have hword : levels.bits.toNat < 2 ^ level :=
    levels.bits.toNat_lt.trans_le (Nat.pow_le_pow_right (by decide) (not_lt.1 hdeep))
  rw [Nat.testBit_lt_two_pow hword] at hbit
  cases hbit

theorem lt_levelCount_of_contains (h : levels.contains level) : level < levelCount := by
  simp only [contains, Bool.and_eq_true, decide_eq_true_iff] at h
  exact h.1

theorem contains_empty (level : Nat) : empty.contains level = false := by
  simp [contains_eq_testBit, empty]

theorem contains_insert (levels : LevelSet) (other level : Nat) :
    (levels.insert other).contains level = true ↔
      levels.contains level = true ∨ level = other ∧ level < levelCount := by
  unfold insert
  split
  · rename_i hother
    have hword : 1 <<< other < 2 ^ 32 := by
      rw [Nat.one_shiftLeft]
      exact Nat.pow_lt_pow_right (by decide) hother
    rw [contains_eq_testBit, contains_eq_testBit, UInt32.toNat_or, UInt32.toNat_ofNat_of_lt' hword,
      Nat.testBit_or, Nat.one_shiftLeft, Nat.testBit_two_pow, Bool.or_eq_true, decide_eq_true_iff]
    refine or_congr_right ⟨?_, ?_⟩
    · rintro rfl
      exact ⟨rfl, hother⟩
    · rintro ⟨rfl, -⟩
      rfl
  · rename_i hother
    refine (or_iff_left ?_).symm
    rintro ⟨rfl, hlevel⟩
    exact hother hlevel

/-- A set built by insertions has the levels that were inserted, but for those that cannot be
addressed. -/
theorem contains_foldl_insert (levels : LevelSet) (inserted : List Nat) (level : Nat) :
    (inserted.foldl insert levels).contains level = true ↔
      levels.contains level = true ∨ level ∈ inserted ∧ level < levelCount := by
  induction inserted generalizing levels with
  | nil => simp
  | cons first rest ih =>
      rw [List.foldl_cons, ih, contains_insert, List.mem_cons]
      tauto

/-- A set is empty if it has no level. -/
theorem isEmpty_iff (levels : LevelSet) :
    levels.isEmpty = true ↔ ∀ level, levels.contains level = false := by
  simp only [isEmpty, decide_eq_true_iff, contains_eq_testBit]
  constructor
  · intro hzero level
    rw [hzero]
    exact Nat.zero_testBit level
  · intro hnone
    refine UInt32.toNat_inj.1 (Nat.eq_of_testBit_eq fun level => ?_)
    rw [hnone, UInt32.toNat_zero, Nat.zero_testBit]

/-! ## The lowest and the highest level -/

theorem min?_eq_none_iff (levels : LevelSet) : levels.min? = none ↔ levels.isEmpty = true := by
  rw [min?, List.find?_eq_none, isEmpty_iff]
  constructor
  · intro hnone level
    rw [← Bool.not_eq_true]
    exact fun h => hnone level (List.mem_range.2 (lt_levelCount_of_contains h)) h
  · intro hnone level _
    rw [hnone level]
    exact Bool.false_ne_true

theorem le_of_min? (h : levels.min? = some lowest) (hother : levels.contains other) :
    lowest ≤ other := by
  obtain ⟨-, -, hbefore⟩ := List.find?_range_eq_some.1 h
  by_contra hlt
  simpa [hother] using hbefore other (not_le.1 hlt)

theorem contains_max? (h : levels.max? = some highest) : levels.contains highest :=
  List.find?_some h

theorem le_of_max? (h : levels.max? = some highest) (hother : levels.contains other) :
    other ≤ highest := by
  obtain ⟨-, above, below, hsplit, habove⟩ := List.find?_eq_some_iff_append.1 h
  have horder : (above ++ highest :: below).Pairwise (· > ·) := by
    rw [← hsplit, List.pairwise_reverse]
    exact List.pairwise_lt_range
  have hmem : other ∈ above ++ highest :: below := by
    rw [← hsplit, List.mem_reverse, List.mem_range]
    exact lt_levelCount_of_contains hother
  rcases List.mem_append.1 hmem with hbefore | hfrom
  · exact absurd hother (by simpa using habove other hbefore)
  · rcases List.mem_cons.1 hfrom with rfl | hbehind
    · exact le_rfl
    · exact (List.rel_of_pairwise_cons (List.pairwise_append.1 horder).2.1 hbehind).le

/-- A set with a level has a lowest and a highest one. -/
theorem exists_ends (h : levels.isEmpty = false) :
    ∃ lowest highest, levels.min? = some lowest ∧ levels.max? = some highest := by
  rw [← Bool.not_eq_true, ← min?_eq_none_iff, ← ne_eq, Option.ne_none_iff_exists'] at h
  obtain ⟨lowest, hlowest⟩ := h
  obtain ⟨hcontains, hmem, -⟩ := List.find?_range_eq_some.1 hlowest
  have hmax : levels.max?.isSome := List.find?_isSome.2 ⟨lowest, List.mem_reverse.2 hmem, hcontains⟩
  obtain ⟨highest, hhighest⟩ := Option.isSome_iff_exists.1 hmax
  exact ⟨lowest, highest, hlowest, hhighest⟩

/-! ## The way outwards -/

/-- The level is in the set, no level of the set is nearer to the reference, and none that is
equally near is above it. -/
def IsNearest (levels : LevelSet) (reference found : Nat) : Prop :=
  levels.contains found ∧ ∀ other, levels.contains other →
    Nat.dist reference found ≤ Nat.dist reference other ∧
      (Nat.dist reference other = Nat.dist reference found → other ≤ found)

theorem IsNearest.unique (h : levels.IsNearest reference found)
    (hother : levels.IsNearest reference other) : other = found := by
  obtain ⟨hle, hupper⟩ := h.2 other hother.1
  obtain ⟨hle', hupper'⟩ := hother.2 found h.1
  have hsame := le_antisymm hle hle'
  exact le_antisymm (hupper hsame.symm) (hupper' hsame)

theorem atDistance?_eq_none_iff :
    levels.atDistance? level distance = none ↔
      ∀ other, levels.contains other → Nat.dist level other ≠ distance := by
  unfold atDistance? Nat.dist
  constructor
  · intro hnone other hother hdistance
    split at hnone
    · cases hnone
    · rename_i habove
      split at hnone
      · cases hnone
      · rename_i hbelow
        rcases le_total level other with hle | hle
        · exact habove (by rwa [show level + distance = other by omega])
        · exact hbelow ⟨by omega, by rwa [show level - distance = other by omega]⟩
  · intro hnone
    rw [if_neg fun habove => hnone _ habove (by omega),
      if_neg fun hbelow => hnone _ hbelow.2 (by omega)]

/-- The level at some distance is the upper one of those at this distance. -/
theorem of_atDistance? (h : levels.atDistance? level distance = some found) :
    levels.contains found ∧ Nat.dist level found = distance ∧
      ∀ other, levels.contains other → Nat.dist level other = distance → other ≤ found := by
  unfold atDistance? at h
  split at h
  · rename_i habove
    obtain rfl := Option.some.inj h
    refine ⟨habove, ?_, fun other _ hdistance => ?_⟩
    · simp only [Nat.dist]
      omega
    · simp only [Nat.dist] at hdistance
      omega
  · rename_i habove
    split at h
    · rename_i hbelow
      obtain rfl := Option.some.inj h
      refine ⟨hbelow.2, ?_, fun other hother hdistance => ?_⟩
      · simp only [Nat.dist]
        omega
      · simp only [Nat.dist] at hdistance
        by_contra hlt
        exact habove (by rwa [show level + distance = other by omega])
    · cases h

/-- The way outwards ends at the level nearest to its beginning. -/
theorem isNearest_of_outwards? (h : levels.outwards? lowest highest level = some found) :
    levels.IsNearest level found := by
  obtain ⟨before, distance, behind, hsplit, hfound, hbefore⟩ := List.findSome?_eq_some_iff.1 h
  obtain ⟨hcontains, hdistance, hupper⟩ := of_atDistance? hfound
  -- The distances are tried in ascending order.
  have hnearer : ∀ nearer < distance, nearer ∈ before := by
    rw [List.range_eq_range', List.range'_eq_append_iff] at hsplit
    obtain ⟨count, -, rfl, hfrom⟩ := hsplit
    obtain ⟨rfl, -, -⟩ := List.range'_eq_cons_iff.1 hfrom.symm
    intro nearer h
    rw [List.mem_range'_1]
    omega
  refine ⟨hcontains, fun other hother => ⟨?_, fun hsame => ?_⟩⟩
  · rw [hdistance]
    by_contra hlt
    have hnone := hbefore _ (hnearer _ (not_le.1 hlt))
    exact atDistance?_eq_none_iff.1 hnone other hother rfl
  · exact hupper other hother (hsame.trans hdistance)

/-- The way outwards meets a level, at the latest the highest one. -/
theorem exists_outwards?_eq (hhighest : levels.max? = some highest) (hupper : level ≤ highest)
    (lowest : Nat) : ∃ found, levels.outwards? lowest highest level = some found := by
  rw [← Option.isSome_iff_exists, outwards?, List.findSome?_isSome_iff]
  refine ⟨highest - level, List.mem_range.2 (by omega), ?_⟩
  rw [← Option.ne_none_iff_isSome, ne_eq, atDistance?_eq_none_iff]
  intro hnone
  refine hnone highest (contains_max? hhighest) ?_
  rw [Nat.dist_eq_sub_of_le hupper]

/-- What is nearest to the level between the ends that is nearest to a reference is also nearest to
the reference. -/
theorem IsNearest.of_clamp (hlowest : levels.min? = some lowest)
    (hhighest : levels.max? = some highest)
    (h : levels.IsNearest (max (min reference highest) lowest) found) :
    levels.IsNearest reference found := by
  have hends : ∀ other, levels.contains other → lowest ≤ other ∧ other ≤ highest :=
    fun _ hother => ⟨le_of_min? hlowest hother, le_of_max? hhighest hother⟩
  obtain ⟨hcontains, hnearest⟩ := h
  have hfound := hends found hcontains
  refine ⟨hcontains, fun other hother => ?_⟩
  have hother' := hends other hother
  have hstep := hnearest other hother
  simp only [Nat.dist] at hstep ⊢
  omega

/-- The answer is what the way outwards meets first, which is nearest to the reference. -/
theorem nearest?_eq_outwards? (hlowest : levels.min? = some lowest)
    (hhighest : levels.max? = some highest) (reference : Nat) :
    ∃ found, levels.nearest? reference = some found ∧
      levels.outwards? lowest highest (max (min reference highest) lowest) = some found ∧
      levels.IsNearest reference found := by
  have hends : lowest ≤ highest := le_of_max? hhighest (List.find?_some hlowest)
  obtain ⟨found, hfound⟩ := exists_outwards?_eq hhighest
    (max_le (min_le_right reference highest) hends) lowest
  refine ⟨found, ?_, hfound, (isNearest_of_outwards? hfound).of_clamp hlowest hhighest⟩
  simp [nearest?, hlowest, hhighest, hfound]

theorem nearest?_of_isEmpty (h : levels.isEmpty = true) (reference : Nat) :
    levels.nearest? reference = none := by
  rw [nearest?, (min?_eq_none_iff levels).2 h]
  rfl

/-- The nearest level of a set. An empty set has none, and any other one has exactly the level of
the set to which no level of the set is preferred. The answer is always what the way outwards meets,
and never the level from which it begins for want of any. The levels of a set are its bits, and a
set built by insertions has the inserted levels that can be addressed. -/
theorem nearest?_eq_some_iff :
    (∀ (levels : LevelSet) (reference : Nat),
      (levels.nearest? reference = none ↔ levels.isEmpty = true) ∧
      (∀ found, levels.nearest? reference = some found ↔ levels.IsNearest reference found) ∧
      levels.nearest? reference = (do
        let lowest ← levels.min?
        let highest ← levels.max?
        levels.outwards? lowest highest (max (min reference highest) lowest))) ∧
    (∀ (levels : LevelSet) (level : Nat),
      levels.contains level = levels.bits.toNat.testBit level) ∧
    ∀ (inserted : List Nat) (level : Nat),
      (inserted.foldl insert empty).contains level = true ↔
        level < levelCount ∧ level ∈ inserted := by
  refine ⟨fun levels reference => ?_, contains_eq_testBit, fun inserted level => ?_⟩
  · cases hempty : levels.isEmpty with
    | true =>
        rw [nearest?_of_isEmpty hempty, (min?_eq_none_iff levels).2 hempty]
        refine ⟨by simp, fun found => ?_, rfl⟩
        simp [IsNearest, (isEmpty_iff levels).1 hempty]
    | false =>
        obtain ⟨lowest, highest, hlowest, hhighest⟩ := exists_ends hempty
        obtain ⟨found, hanswer, hfound, hnearest⟩ :=
          nearest?_eq_outwards? hlowest hhighest reference
        rw [hanswer, hlowest, hhighest]
        refine ⟨by simp, fun other => ⟨?_, fun hother => ?_⟩, hfound.symm⟩
        · rintro ⟨⟩
          exact hnearest
        · rw [hnearest.unique hother]
  · rw [contains_foldl_insert, contains_empty, and_comm]
    simp

/-- The levels 4 and 10 are equally far from the level 7. -/
example : (LevelSet.mk 0x410).nearest? 7 = some 10 := by decide

end TilePyramid.LevelSet
