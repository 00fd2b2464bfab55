import Mathlib
import TilePyramid.Path.Window

/-!
# The tiles a window remembers

A window keeps its visits twice, as a queue and as a set of codes. `Window.Consistent` says that
both hold the same, no code twice, and every operation keeps it so. What a window forgets is a
front part of its queue (`Window.toList_forget`), which `Window.lt_length_stale_iff` pins down entry
by entry. `Window.sweep` offers the tiles of a line to a queue one after the other.
-/

namespace TilePyramid

namespace Window

/-- The visits to forget among those of a queue: the oldest ones, from before the segment that
precedes `current`, as long as more than `capacity` are left. -/
def stale (capacity current : Nat) (visits : List Visit) : List Visit :=
  (visits.take (visits.length - capacity)).takeWhile fun visit => visit.segment + 1 < current

/-- The visits that a queue keeps when segment `current` begins. -/
def kept (capacity current : Nat) (visits : List Visit) : List Visit :=
  visits.drop (stale capacity current visits).length

/-- Set and queue of a window hold the same codes, and the queue holds none of them twice. -/
structure Consistent (w : Window) : Prop where
  contains_iff : ∀ code, w.contains code = true ↔ code ∈ w.visits.toList.map Visit.code
  nodup : (w.visits.toList.map Visit.code).Nodup

theorem consistent_empty : Consistent empty := by
  refine ⟨fun code => ?_, List.nodup_nil⟩
  simp [contains, empty]

@[simp] theorem toList_remember (w : Window) (visit : Visit) :
    (w.remember visit).visits.toList = w.visits.toList ++ [visit] := by
  simp [remember]

theorem contains_remember (w : Window) (visit : Visit) (code : Code) :
    (w.remember visit).contains code = (visit.code == code || w.contains code) :=
  Std.HashSet.contains_insert

/-- Remembering a tile that is not remembered keeps a window consistent. -/
theorem Consistent.remember {w : Window} (h : w.Consistent) {visit : Visit}
    (hnew : w.contains visit.code = false) : (w.remember visit).Consistent := by
  refine ⟨fun code => ?_, ?_⟩
  · rw [contains_remember, Bool.or_eq_true, h.contains_iff, toList_remember]
    simp only [beq_iff_eq, List.map_append, List.map_cons, List.map_nil, List.mem_append,
      List.mem_singleton]
    exact ⟨fun hor => hor.elim (fun heq => .inr heq.symm) .inl,
      fun hor => hor.elim .inr fun heq => .inl heq.symm⟩
  · rw [toList_remember, List.map_append, List.nodup_append']
    refine ⟨h.nodup, List.nodup_singleton _, ?_⟩
    intro code hold hlast
    obtain rfl : code = visit.code := by simpa using hlast
    rw [(h.contains_iff visit.code).2 hold] at hnew
    exact Bool.noConfusion hnew

/-! ## Forgetting -/

theorem outdated_eq_stale (w : Window) (capacity current : Nat) :
    w.outdated capacity current = stale capacity current w.visits.toList := rfl

/-- The visits to forget stand at the front of the queue. -/
theorem stale_append_kept (capacity current : Nat) (visits : List Visit) :
    stale capacity current visits ++ kept capacity current visits = visits := by
  have hfront : stale capacity current visits <+: visits :=
    (List.takeWhile_prefix _).trans (List.take_prefix _ _)
  conv_lhs =>
    lhs
    rw [List.prefix_iff_eq_take.1 hfront]
  exact List.take_append_drop _ _

theorem toList_forget (w : Window) (capacity current : Nat) :
    (w.forget capacity current).visits.toList = kept capacity current w.visits.toList := by
  simp [forget, outdated_eq_stale, kept]

theorem contains_erase_all (old : List Visit) (codes : Std.HashSet Code) (code : Code) :
    (old.foldl (fun codes visit => codes.erase visit.code) codes).contains code = true ↔
      codes.contains code = true ∧ code ∉ old.map Visit.code := by
  induction old generalizing codes with
  | nil => simp
  | cons visit rest ih =>
      rw [List.foldl_cons, ih, Std.HashSet.contains_erase]
      simp only [Bool.and_eq_true, Bool.not_eq_true', beq_eq_false_iff_ne, ne_eq, List.map_cons,
        List.mem_cons, not_or]
      constructor
      · intro h
        obtain ⟨⟨hne, hin⟩, hrest⟩ := h
        exact ⟨hin, fun heq => hne heq.symm, hrest⟩
      · intro h
        obtain ⟨hin, hne, hrest⟩ := h
        exact ⟨⟨fun heq => hne heq.symm, hin⟩, hrest⟩

/-- Forgetting keeps a window consistent, because no code that is dropped is still in the queue. -/
theorem Consistent.forget {w : Window} (h : w.Consistent) (capacity current : Nat) :
    (w.forget capacity current).Consistent := by
  have hsplit := stale_append_kept capacity current w.visits.toList
  have hnodup := h.nodup
  rw [← hsplit, List.map_append, List.nodup_append'] at hnodup
  obtain ⟨-, hkept, hdisjoint⟩ := hnodup
  refine ⟨fun code => ?_, by rwa [toList_forget]⟩
  have herase : (w.forget capacity current).contains code = true ↔
      w.contains code = true ∧
        code ∉ (stale capacity current w.visits.toList).map Visit.code := by
    simp only [Window.forget, Window.contains, outdated_eq_stale]
    exact contains_erase_all _ _ _
  rw [herase, h.contains_iff, toList_forget]
  conv_lhs =>
    lhs
    rw [← hsplit, List.map_append, List.mem_append]
  constructor
  · intro h'
    obtain ⟨hdropped | hin, hout⟩ := h'
    · exact absurd hdropped hout
    · exact hin
  · intro hin
    exact ⟨.inr hin, fun hdropped => hdisjoint hdropped hin⟩

theorem stale_cons_of_le {capacity current : Nat} {visit : Visit} {rest : List Visit}
    (h : capacity ≤ rest.length) :
    stale capacity current (visit :: rest) =
      if visit.segment + 1 < current then visit :: stale capacity current rest else [] := by
  have hlength : (visit :: rest).length - capacity = rest.length - capacity + 1 := by
    rw [List.length_cons]
    omega
  rw [stale, hlength, List.take_succ_cons, List.takeWhile_cons]
  simp only [decide_eq_true_eq, stale]

theorem stale_of_length_le {capacity current : Nat} {visits : List Visit}
    (h : visits.length ≤ capacity) : stale capacity current visits = [] := by
  rw [stale, Nat.sub_eq_zero_of_le h, List.take_zero, List.takeWhile_nil]

theorem nodup_kept (capacity current : Nat) {visits : List Visit}
    (h : (visits.map Visit.code).Nodup) : ((kept capacity current visits).map Visit.code).Nodup :=
  h.sublist ((List.drop_sublist _ _).map _)

/-- A visit to the present or to the preceding segment is kept. -/
theorem mem_kept {capacity current : Nat} {visits : List Visit} {visit : Visit}
    (h : visit ∈ visits) (hrecent : current ≤ visit.segment + 1) :
    visit ∈ kept capacity current visits := by
  rw [← stale_append_kept capacity current visits] at h
  rcases List.mem_append.1 h with hstale | hkept
  · have hold : visit.segment + 1 < current := by simpa using List.mem_takeWhile_imp hstale
    omega
  · exact hkept

/-- A queue that has dropped what is stale is no longer than the capacity, or what stands in front
is from the preceding segment or later. -/
theorem kept_length_le_or_recent (capacity current : Nat) (visits : List Visit) :
    (kept capacity current visits).length ≤ capacity ∨
      ∃ visit, (kept capacity current visits).head? = some visit ∧
        current ≤ visit.segment + 1 := by
  induction visits with
  | nil => simp [kept]
  | cons first rest ih =>
      by_cases hfull : capacity ≤ rest.length
      · by_cases hold : first.segment + 1 < current
        · have hdropped : kept capacity current (first :: rest) = kept capacity current rest := by
            rw [kept, stale_cons_of_le hfull, if_pos hold]
            rfl
          rw [hdropped]
          exact ih
        · have hall : kept capacity current (first :: rest) = first :: rest := by
            rw [kept, stale_cons_of_le hfull, if_neg hold]
            rfl
          rw [hall]
          exact .inr ⟨first, rfl, Nat.not_lt.1 hold⟩
      · have hshort : (first :: rest).length ≤ capacity := by
          rw [List.length_cons]
          omega
        have hall : kept capacity current (first :: rest) = first :: rest := by
          rw [kept, stale_of_length_le hshort]
          rfl
        rw [hall]
        exact .inl hshort

/-- With segments ascending, an entry of the queue is forgotten exactly if it is from before the
preceding segment and the queue from it on is longer than the capacity. -/
theorem lt_length_stale_iff (capacity current : Nat) {visits : List Visit}
    (hsorted : visits.Pairwise fun a b => a.segment ≤ b.segment) (i : Nat) :
    i < (stale capacity current visits).length ↔
      ∃ visit, visits[i]? = some visit ∧ visit.segment + 1 < current ∧
        i + capacity < visits.length := by
  induction visits generalizing i with
  | nil => simp [stale]
  | cons first rest ih =>
      obtain ⟨hfirst, hrest⟩ := List.pairwise_cons.1 hsorted
      by_cases hfull : capacity ≤ rest.length
      · rw [stale_cons_of_le hfull]
        split
        · rename_i hold
          cases i with
          | zero =>
              simp only [List.length_cons, List.getElem?_cons_zero, Option.some.injEq]
              exact ⟨fun _ => ⟨first, rfl, hold, by omega⟩, fun _ => Nat.succ_pos _⟩
          | succ i =>
              simp only [List.length_cons, List.getElem?_cons_succ, Nat.add_lt_add_iff_right,
                ih hrest i]
              constructor <;> rintro ⟨visit, hvisit, hbefore, hlength⟩ <;>
                exact ⟨visit, hvisit, hbefore, by omega⟩
        · -- An entry that is kept keeps all behind it, which are not older.
          rename_i hkept
          simp only [List.length_nil, Nat.not_lt_zero, false_iff]
          intro h
          obtain ⟨visit, hvisit, hbefore, -⟩ := h
          rcases List.mem_cons.1 (List.mem_of_getElem? hvisit) with rfl | hmem
          · exact hkept hbefore
          · have := hfirst visit hmem
            omega
      · have hshort : (first :: rest).length ≤ capacity := by
          rw [List.length_cons]
          omega
        simp only [stale_of_length_le hshort, List.length_nil, Nat.not_lt_zero, false_iff]
        intro h
        obtain ⟨visit, -, -, hlength⟩ := h
        omega

/-! ## Sweeping

What a window gives depends on its queue alone. -/

/-- Offers tiles to a queue in their order. Those it does not hold are given, and go to its end for
a segment. -/
def sweep (segment : Nat) : (visits : List Visit) → List Tile → List Tile × List Visit
  | visits, [] => ([], visits)
  | visits, tile :: rest =>
      if tile.code ∈ visits.map Visit.code then sweep segment visits rest
      else
        let (given, behind) := sweep segment (visits ++ [⟨tile.code, segment⟩]) rest
        (tile :: given, behind)

variable {segment : Nat} {visits : List Visit}

theorem sweep_cons_of_mem {tile : Tile} {rest : List Tile}
    (h : tile.code ∈ visits.map Visit.code) :
    sweep segment visits (tile :: rest) = sweep segment visits rest := by
  rw [sweep, if_pos h]

theorem sweep_cons_of_not_mem {tile : Tile} {rest : List Tile}
    (h : tile.code ∉ visits.map Visit.code) :
    sweep segment visits (tile :: rest) =
      (tile :: (sweep segment (visits ++ [⟨tile.code, segment⟩]) rest).1,
        (sweep segment (visits ++ [⟨tile.code, segment⟩]) rest).2) := by
  rw [sweep, if_neg h]

/-- The tiles that a sweep gives go to the end of the queue. -/
theorem sweep_snd (visits : List Visit) (tiles : List Tile) :
    (sweep segment visits tiles).2 =
      visits ++ (sweep segment visits tiles).1.map fun tile => ⟨tile.code, segment⟩ := by
  induction tiles generalizing visits with
  | nil => simp [sweep]
  | cons tile rest ih =>
      by_cases hin : tile.code ∈ visits.map Visit.code
      · rw [sweep_cons_of_mem hin]
        exact ih visits
      · rw [sweep_cons_of_not_mem hin, ih, List.map_cons, List.append_assoc,
          List.singleton_append]

/-- A sweep gives the tiles whose codes the queue does not hold. -/
theorem mem_sweep_iff {tiles : List Tile} (hcodes : Set.InjOn Tile.code { t | t ∈ tiles })
    {tile : Tile} :
    tile ∈ (sweep segment visits tiles).1 ↔
      tile ∈ tiles ∧ tile.code ∉ visits.map Visit.code := by
  induction tiles generalizing visits with
  | nil => simp [sweep]
  | cons first rest ih =>
      have hrest : Set.InjOn Tile.code { t | t ∈ rest } :=
        hcodes.mono fun _ => List.mem_cons_of_mem first
      by_cases hin : first.code ∈ visits.map Visit.code
      · rw [sweep_cons_of_mem hin, ih hrest, List.mem_cons]
        constructor
        · intro h
          exact ⟨.inr h.1, h.2⟩
        · intro h
          rcases h.1 with rfl | hmem
          · exact absurd hin h.2
          · exact ⟨hmem, h.2⟩
      · rw [sweep_cons_of_not_mem hin, List.mem_cons, ih hrest, List.mem_cons, List.map_append,
          List.mem_append, not_or]
        constructor
        · intro h
          rcases h with rfl | ⟨hmem, hout, -⟩
          · exact ⟨.inl rfl, hin⟩
          · exact ⟨.inr hmem, hout⟩
        · intro h
          rcases h.1 with rfl | hmem
          · exact .inl rfl
          · -- A later tile with the code of the first one is the first one.
            by_cases heq : tile.code = first.code
            · exact .inl (hcodes (List.mem_cons_of_mem first hmem) List.mem_cons_self heq)
            · exact .inr ⟨hmem, h.2, by simpa using heq⟩

/-- A sweep keeps the codes of a queue apart. -/
theorem nodup_sweep (segment : Nat) (h : (visits.map Visit.code).Nodup) (tiles : List Tile) :
    ((sweep segment visits tiles).2.map Visit.code).Nodup := by
  induction tiles generalizing visits with
  | nil => exact h
  | cons tile rest ih =>
      by_cases hin : tile.code ∈ visits.map Visit.code
      · rw [sweep_cons_of_mem hin]
        exact ih h
      · rw [sweep_cons_of_not_mem hin]
        apply ih
        rw [List.map_append, List.nodup_append']
        refine ⟨h, List.nodup_singleton _, ?_⟩
        intro code hold hlast
        obtain rfl : code = tile.code := by simpa using hlast
        exact hin hold

end Window

end TilePyramid
