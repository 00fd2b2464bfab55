import Mathlib
import TilePyramid.Proofs.Junction

/-!
# What a walk remembers

Queue and set of a walk's window agree, the queue is ordered by segments, and it holds all gifts of
the present and of the preceding segment. `Window.Remembers` is that invariant. A window keeps it
when it forgets for the next segment and when it remembers a new tile, which is all that a step of a
walk does to it (`Walk.passed_cases`, `Walk.gave_cases`). So it holds behind every call
(`Walk.remembers_after`), and two gifts with the same code are at least two segments apart.
-/

namespace TilePyramid

namespace Window

/-- What a window remembers in segment `current` of the gifts made so far. -/
structure Remembers (w : Window) (current : Nat) (gifts : List Gift) : Prop where
  /-- The set holds the codes of the queue, and the queue holds each of them once. -/
  consistent : w.Consistent
  /-- The queue is ordered by segments. -/
  ascending : w.visits.toList.Pairwise fun a b => a.segment ≤ b.segment
  /-- No visit in the queue is ahead of the present segment. -/
  begun : ∀ visit ∈ w.visits.toList, visit.segment ≤ current
  /-- The gifts of the present and of the preceding segment are in the queue. -/
  recent : ∀ gift ∈ gifts, current ≤ gift.segment + 1 → gift.visit ∈ w.visits.toList
  /-- Gifts with the same code are at least two segments apart. -/
  apart : gifts.Pairwise fun a b => a.tile.code = b.tile.code → a.segment + 2 ≤ b.segment

theorem remembers_empty : empty.Remembers 0 [] where
  consistent := consistent_empty
  ascending := .nil
  begun := by simp [empty]
  recent := by simp
  apart := .nil

namespace Remembers

variable {w : Window} {current : Nat} {gifts : List Gift}

/-- Forgetting for the next segment drops no gift that is recent then. -/
theorem forget (h : w.Remembers current gifts) (capacity : Nat) :
    (w.forget capacity (current + 1)).Remembers (current + 1) gifts where
  consistent := h.consistent.forget capacity (current + 1)
  ascending := by
    rw [toList_forget]
    exact h.ascending.drop
  begun := by
    intro visit hvisit
    rw [toList_forget] at hvisit
    exact Nat.le_succ_of_le (h.begun visit (List.mem_of_mem_drop hvisit))
  recent := by
    intro gift hgift hrecent
    rw [toList_forget]
    exact mem_kept (h.recent gift hgift (Nat.le_of_succ_le hrecent)) hrecent
  apart := h.apart

/-- Remembering a tile that is given because the window does not hold it. -/
theorem remember (h : w.Remembers current gifts) {tile : Tile}
    (hnew : w.contains tile.code = false) :
    (w.remember ⟨tile.code, current⟩).Remembers current (gifts ++ [⟨tile, current⟩]) where
  consistent := h.consistent.remember hnew
  ascending := by
    rw [toList_remember, List.pairwise_append]
    refine ⟨h.ascending, List.pairwise_singleton _ _, fun visit hvisit last hlast => ?_⟩
    obtain rfl := List.mem_singleton.1 hlast
    exact h.begun visit hvisit
  begun := by
    intro visit hvisit
    rw [toList_remember] at hvisit
    rcases List.mem_append.1 hvisit with hold | hlast
    · exact h.begun visit hold
    · obtain rfl := List.mem_singleton.1 hlast
      exact Nat.le_refl current
  recent := by
    intro gift hgift hrecent
    rw [toList_remember, List.mem_append]
    rcases List.mem_append.1 hgift with hold | hlast
    · exact .inl (h.recent gift hold hrecent)
    · obtain rfl := List.mem_singleton.1 hlast
      exact .inr (List.mem_singleton.2 rfl)
  apart := by
    rw [List.pairwise_append]
    refine ⟨h.apart, List.pairwise_singleton _ _, fun gift hgift last hlast hcode => ?_⟩
    obtain rfl := List.mem_singleton.1 hlast
    -- A recent gift with this code would be in the queue, and its code in the set.
    by_contra hnear
    have hvisit : gift.visit ∈ w.visits.toList :=
      h.recent gift hgift (Nat.le_of_lt_succ (Nat.lt_of_not_le hnear))
    have hheld : w.contains tile.code = true :=
      (h.consistent.contains_iff _).2 (List.mem_map.2 ⟨gift.visit, hvisit, hcode⟩)
    rw [hnew] at hheld
    exact Bool.false_ne_true hheld

end Remembers

end Window

/-! ## The capacity -/

/-- The capacity is what a word holds of five squares of the width. -/
theorem PathOptions.capacity_eq_mod (options : PathOptions) :
    options.capacity = 5 * options.width * options.width % 2 ^ 64 := by
  rw [capacity, UInt64.toNat_mul, UInt64.toNat_mul, UInt64.toNat_ofNat']
  simp [Nat.mul_mod]

theorem PathOptions.capacity_eq {options : PathOptions}
    (h : 5 * options.width * options.width < 2 ^ 64) :
    options.capacity = 5 * options.width * options.width := by
  rw [capacity_eq_mod, Nat.mod_eq_of_lt h]

/-- The least width whose product is larger than a word. -/
example : (PathOptions.mk 14 1920767767).capacity = 21279829 := by decide

namespace Walk

variable {α : Type} [Scalar α]

/-! ## What a step does to the window -/

/-- A step that enters a segment makes the window forget for it. Every other step without a tile
leaves window and segment as they are. -/
theorem passed_cases {w behind : Walk α} (h : w.step = .passed behind) :
    (behind.scheme = w.scheme ∧ behind.options = w.options) ∧
      ((behind.window = w.window ∧ behind.segment = w.segment) ∨
        (behind.window = w.window.forget w.capacity (w.segment + 1) ∧
          behind.segment = w.segment + 1)) := by
  unfold step at h
  split at h
  · split at h
    · contradiction
    · cases h
      simp only [enter]
      split
      · exact ⟨⟨rfl, rfl⟩, .inr ⟨rfl, rfl⟩⟩
      · exact ⟨⟨rfl, rfl⟩, .inl ⟨rfl, rfl⟩⟩
  · split at h
    · simp only at h
      split at h
      · cases h
        exact ⟨⟨rfl, rfl⟩, .inl ⟨rfl, rfl⟩⟩
      · contradiction
    · cases h
      exact ⟨⟨rfl, rfl⟩, .inl ⟨rfl, rfl⟩⟩

/-- A step that gives a tile, that of a cell, has found that the window does not hold it, and
remembers it for the present segment. -/
theorem gave_cases {w behind : Walk α} {tile : Tile} (h : w.step = .gave tile behind) :
    (behind.scheme = w.scheme ∧ behind.options = w.options) ∧ (∃ cell, tile = w.tileOf cell) ∧
      w.window.contains tile.code = false ∧
      behind.window = w.window.remember ⟨tile.code, w.segment⟩ ∧ behind.segment = w.segment := by
  unfold step at h
  split at h
  · split at h <;> contradiction
  · split at h
    · simp only at h
      split at h
      · contradiction
      · rename_i hnew
        cases h
        exact ⟨⟨rfl, rfl⟩, ⟨_, rfl⟩, Bool.eq_false_iff.2 hnew, rfl, rfl⟩
    · contradiction

/-- Right behind a step that enters a segment, the queue is no longer than the capacity, or what
stands in front is from the preceding segment or later. -/
theorem size_le_or_recent_of_entered {w behind : Walk α} (h : w.step = .passed behind)
    (hentered : behind.segment ≠ w.segment) :
    behind.window.visits.size ≤ behind.capacity ∨
      ∃ visit, behind.window.visits[0]? = some visit ∧ behind.segment ≤ visit.segment + 1 := by
  obtain ⟨⟨-, hoptions⟩, ⟨-, hsame⟩ | ⟨hwindow, hnext⟩⟩ := passed_cases h
  · exact absurd hsame hentered
  · have hcapacity : behind.capacity = w.capacity := by rw [capacity, hoptions, capacity]
    rw [hcapacity, hnext, ← Array.length_toList, ← Array.getElem?_toList,
      ← List.head?_eq_getElem?, hwindow, Window.toList_forget]
    exact Window.kept_length_le_or_recent _ _ _

/-! ## Runs -/

/-- A call keeps the window in the invariant, with the tile that it gives as a further gift. -/
theorem remembers_next {w : Walk α} {gifts : List Gift}
    (h : w.window.Remembers w.segment gifts) :
    w.next.2.window.Remembers w.next.2.segment
      (gifts ++ (w.next.1.map fun tile => Gift.mk tile w.next.2.segment).toList) := by
  induction w using next.induct with
  | case1 w hstep =>
      rw [next_of_ended hstep]
      simpa using h
  | case2 w tile behind hstep =>
      obtain ⟨-, -, hnew, hwindow, hsegment⟩ := gave_cases hstep
      rw [next_of_gave hstep]
      show behind.window.Remembers behind.segment (gifts ++ [⟨tile, behind.segment⟩])
      rw [hwindow, hsegment]
      exact h.remember hnew
  | case3 w behind hstep ih =>
      rw [next_of_passed hstep]
      obtain ⟨-, ⟨hwindow, hsegment⟩ | ⟨hwindow, hsegment⟩⟩ := passed_cases hstep
      · exact ih (by rwa [hwindow, hsegment])
      · exact ih (by rw [hwindow, hsegment]; exact h.forget w.capacity)

/-- The walk behind the first `n` calls. -/
def after (w : Walk α) (n : Nat) : Walk α := (fun w : Walk α => w.next.2)^[n] w

/-- The first calls keep the window in the invariant, with the tiles that they give as further
gifts. -/
theorem remembers_after {w : Walk α} {gifts : List Gift}
    (h : w.window.Remembers w.segment gifts) (n : Nat) :
    (w.after n).window.Remembers (w.after n).segment (gifts ++ w.given.take n) := by
  induction n generalizing w gifts with
  | zero => simpa [after] using h
  | succ n ih =>
      have hnext := remembers_next h
      show (w.next.2.after n).window.Remembers (w.next.2.after n).segment _
      rcases hcall : w.next with ⟨tile?, behind⟩
      rw [hcall] at hnext
      cases tile? with
      | none =>
          have hrest := ih hnext
          rw [given_of_none (next_none hcall)] at hrest
          rw [given_of_none hcall]
          simpa using hrest
      | some tile =>
          rw [given_of_some hcall, List.take_succ_cons]
          simpa using ih hnext

/-- Behind every call of a walk from the start, the window remembers what it should of the tiles
given so far. Right behind a step that enters a segment the queue is within the capacity unless its
front is from the preceding segment or later, and the capacity is five squares of the width as long
as a word holds them. Of all that a walk gives, two tiles with the same code are at least two
segments apart. -/
theorem window_remembers (s : Scheme) (options : PathOptions) (segments : List (Segment α)) :
    (∀ n, ((start s options segments).after n).window.Remembers
      ((start s options segments).after n).segment ((start s options segments).given.take n)) ∧
    (∀ w behind : Walk α, w.step = .passed behind → behind.segment ≠ w.segment →
      behind.window.visits.size ≤ behind.capacity ∨
        ∃ visit, behind.window.visits[0]? = some visit ∧ behind.segment ≤ visit.segment + 1) ∧
    (∀ w : Walk α, 5 * w.options.width * w.options.width < 2 ^ 64 →
      w.capacity = 5 * w.options.width * w.options.width) ∧
    (start s options segments).given.Pairwise fun a b =>
      a.tile.code = b.tile.code → a.segment + 2 ≤ b.segment := by
  have hafter : ∀ n, ((start s options segments).after n).window.Remembers
      ((start s options segments).after n).segment
      ((start s options segments).given.take n) :=
    fun n => remembers_after (w := start s options segments) Window.remembers_empty n
  refine ⟨hafter, fun w behind => size_le_or_recent_of_entered,
    fun w hword => PathOptions.capacity_eq hword, ?_⟩
  have hall := (hafter (start s options segments).given.length).apart
  rwa [List.take_length] at hall

/-- Going forth, back and forth again gives the first tile twice, for segments that are just far
enough apart. No tile is remembered for its own sake. -/
theorem window_remembers_forthBackForth :
    let w := start .quadTreeEquirectangular ⟨1, 0⟩ forthBackForth
    (∃ first third : Gift, w.given[0]? = some first ∧ w.given[2]? = some third ∧
      first.tile.code = third.tile.code ∧ first.segment + 2 ≤ third.segment) ∧
    (5 * w.options.width * w.options.width < 2 ^ 64 ∧ w.capacity = 0) ∧
    ∃ behind : Walk Float, w.step = .passed behind ∧ behind.segment ≠ w.segment ∧
      (behind.window.visits.size ≤ behind.capacity ∨
        ∃ visit : Visit, behind.window.visits[0]? = some visit ∧
          behind.segment ≤ visit.segment + 1) := by
  intro w
  obtain ⟨-, hentered, hcapacity, hapart⟩ :=
    window_remembers .quadTreeEquirectangular ⟨1, 0⟩ forthBackForth
  have hword : 5 * w.options.width * w.options.width < 2 ^ 64 := by
    show 5 * 0 * 0 < 2 ^ 64
    decide
  have hfirst : w.given[0]? = some ⟨⟨1, 0, 1⟩, 1⟩ := by
    show (start _ _ _).given[0]? = _
    rw [given_forthBackForth]
    rfl
  have hthird : w.given[2]? = some ⟨⟨1, 0, 1⟩, 3⟩ := by
    show (start _ _ _).given[2]? = _
    rw [given_forthBackForth]
    rfl
  have hends : Scheme.quadTreeEquirectangular.HasEnds 1
      (⟨⟨0.0, -1.0⟩, ⟨0.0, 1.0⟩⟩ : Segment Float) := by decide
  have hstep := step_of_hasEnds (w := w) rfl rfl hends
  obtain ⟨hin, hfirst'⟩ := List.getElem?_eq_some_iff.1 hfirst
  obtain ⟨hin', hthird'⟩ := List.getElem?_eq_some_iff.1 hthird
  have hpair := List.pairwise_iff_getElem.1 hapart 0 2 hin hin' Nat.two_pos
  rw [hfirst', hthird'] at hpair
  exact ⟨⟨_, _, hfirst, hthird, rfl, hpair rfl⟩, ⟨hword, hcapacity w hword⟩, _, hstep,
    Nat.one_ne_zero, hentered w _ hstep Nat.one_ne_zero⟩

end Walk

end TilePyramid
