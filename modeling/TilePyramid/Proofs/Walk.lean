import Mathlib
import TilePyramid.Path.Walk
import TilePyramid.Proofs.Window

/-!
# What a walk gives

`Walk.given` lists all tiles that a walk still gives, each with the segment it is given for, by
calling `Walk.next` until nothing comes any more. The calls give exactly this list
(`Walk.call_eq`). `Window.legs` gives the list without the walk: each line is offered as a whole to
the queue of the window, which drops what is stale first. The two agree (`Walk.given_eq_legs`), so
that what a walk gives is a matter of that queue alone.
-/

namespace TilePyramid

/-- A tile that a walk gives and the number of the segment for which it is given. -/
structure Gift where
  tile : Tile
  segment : Nat
deriving DecidableEq, Repr

/-- The gift as the window remembers it. -/
def Gift.visit (gift : Gift) : Visit := ⟨gift.tile.code, gift.segment⟩

namespace Walk

variable {α : Type} [Scalar α]

/-! ## Calls of `next` -/

theorem next_of_ended {w : Walk α} (h : w.step = .ended) : w.next = (none, w) := by
  rw [next]
  split <;> simp_all

theorem next_of_gave {w behind : Walk α} {tile : Tile} (h : w.step = .gave tile behind) :
    w.next = (some tile, behind) := by
  rw [next]
  split <;> simp_all

theorem next_of_passed {w behind : Walk α} (h : w.step = .passed behind) :
    w.next = behind.next := by
  conv_lhs => rw [next]
  split <;> simp_all

/-- A step that gives a tile uses up a cell of the line. -/
theorem gave_decreases {w behind : Walk α} {tile : Tile} (h : w.step = .gave tile behind) :
    Prod.Lex (· < ·) (· < ·) (behind.pending.length, behind.cellsLeft)
      (w.pending.length, w.cellsLeft) := by
  unfold step at h
  split at h
  · split at h <;> contradiction
  next cursor hc =>
    split at h
    · simp only at h
      split at h
      · contradiction
      · cases h
        apply Prod.Lex.right
        simp only [cellsLeft, hc]
        omega
    · contradiction

/-- A call that gives a tile leaves less of the path behind. -/
theorem next_decreases {w behind : Walk α} {tile : Tile} (h : w.next = (some tile, behind)) :
    Prod.Lex (· < ·) (· < ·) (behind.pending.length, behind.cellsLeft)
      (w.pending.length, w.cellsLeft) := by
  induction w using next.induct with
  | case1 w hstep =>
      rw [next_of_ended hstep] at h
      cases h
  | case2 w first rest hstep =>
      rw [next_of_gave hstep] at h
      cases h
      exact gave_decreases hstep
  | case3 w passed hstep ih =>
      rw [next_of_passed hstep] at h
      exact Prod.Lex.trans (ih h) (passed_decreases hstep)

/-- Where a call gives nothing, the walk behind it gives nothing either. -/
theorem next_none {w behind : Walk α} (h : w.next = (none, behind)) :
    behind.next = (none, behind) := by
  induction w using next.induct with
  | case1 w hstep =>
      rw [next_of_ended hstep] at h
      cases h
      exact next_of_ended hstep
  | case2 w first rest hstep =>
      rw [next_of_gave hstep] at h
      cases h
  | case3 w passed hstep ih =>
      rw [next_of_passed hstep] at h
      exact ih h

/-- What the call with number `n` gives, when the calls before it were made. -/
def call (w : Walk α) (n : Nat) : Option Tile :=
  ((fun w : Walk α => w.next.2)^[n] w).next.1

/-- All tiles that a walk still gives, in their order. -/
def given (w : Walk α) : List Gift :=
  match _ : w.next with
  | (none, _) => []
  | (some tile, behind) => ⟨tile, behind.segment⟩ :: behind.given
termination_by (w.pending.length, w.cellsLeft)
decreasing_by exact next_decreases ‹_›

theorem given_of_none {w behind : Walk α} (h : w.next = (none, behind)) : w.given = [] := by
  rw [given]
  split <;> simp_all

theorem given_of_some {w behind : Walk α} {tile : Tile} (h : w.next = (some tile, behind)) :
    w.given = ⟨tile, behind.segment⟩ :: behind.given := by
  rw [given]
  split <;> simp_all

/-- The calls give the tiles of the list one after the other, and nothing after the last. -/
theorem call_eq (w : Walk α) (n : Nat) : w.call n = (w.given[n]?).map Gift.tile := by
  induction n generalizing w with
  | zero =>
      show w.next.1 = _
      rcases hnext : w.next with ⟨tile?, behind⟩
      cases tile? with
      | none => simp [given_of_none hnext]
      | some tile => simp [given_of_some hnext]
  | succ n ih =>
      show w.next.2.call n = _
      rw [ih]
      rcases hnext : w.next with ⟨tile?, behind⟩
      cases tile? with
      | none => simp [given_of_none hnext, given_of_none (next_none hnext)]
      | some tile => rw [given_of_some hnext, List.getElem?_cons_succ]

/-- The calls that give a tile are the first ones, as many as there are tiles. -/
theorem call_isSome_iff (w : Walk α) (n : Nat) : (w.call n).isSome ↔ n < w.given.length := by
  rw [call_eq, Option.isSome_map]
  simp

/-- Some call gives a tile exactly if the tile is in the list. -/
theorem exists_call_iff (w : Walk α) (tile : Tile) :
    (∃ n, w.call n = some tile) ↔ ∃ gift ∈ w.given, gift.tile = tile := by
  simp only [call_eq, Option.map_eq_some_iff, List.mem_iff_getElem?]
  constructor
  · intro h
    obtain ⟨n, gift, hgift, htile⟩ := h
    exact ⟨gift, ⟨n, hgift⟩, htile⟩
  · intro h
    obtain ⟨gift, ⟨n, hgift⟩, htile⟩ := h
    exact ⟨n, gift, hgift, htile⟩

/-! ## Steps and the list -/

theorem given_of_ended {w : Walk α} (h : w.step = .ended) : w.given = [] :=
  given_of_none (next_of_ended h)

theorem given_of_gave {w behind : Walk α} {tile : Tile} (h : w.step = .gave tile behind) :
    w.given = ⟨tile, behind.segment⟩ :: behind.given :=
  given_of_some (next_of_gave h)

theorem given_of_passed {w behind : Walk α} (h : w.step = .passed behind) :
    w.given = behind.given := by
  have hnext := next_of_passed h
  rcases hrest : behind.next with ⟨tile?, rest⟩
  rw [hrest] at hnext
  cases tile? with
  | none => rw [given_of_none hnext, given_of_none hrest]
  | some tile => rw [given_of_some hnext, given_of_some hrest]

section
variable {w : Walk α} {line : Line} {index : Nat} (hcursor : w.cursor = some ⟨line, index⟩)
  (hindex : index < line.size)

include hcursor hindex

/-- A cell is passed over if the window holds the code of its tile. -/
theorem step_of_contains (h : w.window.contains (w.tileOf (line.get index)).code = true) :
    w.step = .passed { w with cursor := some ⟨line, index + 1⟩ } := by
  rw [step, hcursor]
  exact (if_pos hindex).trans (if_pos h)

/-- The tile of a cell is given if the window does not hold its code. -/
theorem step_of_not_contains (h : w.window.contains (w.tileOf (line.get index)).code = false) :
    w.step = .gave (w.tileOf (line.get index))
      { w with
        cursor := some ⟨line, index + 1⟩
        window := w.window.remember ⟨(w.tileOf (line.get index)).code, w.segment⟩ } := by
  rw [step, hcursor]
  exact (if_pos hindex).trans (if_neg (Bool.eq_false_iff.1 h))

end

/-- The rest of a line is offered to the queue of the window as a whole. -/
theorem given_of_line {w : Walk α} {line : Line} {index : Nat} (h : w.cursor = some ⟨line, index⟩)
    (hwindow : w.window.Consistent) :
    ∃ window : Window, window.Consistent ∧
      window.visits.toList = (Window.sweep w.segment w.window.visits.toList
        ((line.toList.drop index).map w.tileOf)).2 ∧
      w.given =
        (Window.sweep w.segment w.window.visits.toList
          ((line.toList.drop index).map w.tileOf)).1.map (Gift.mk · w.segment) ++
          ({ w with cursor := none, window := window } : Walk α).given := by
  -- By induction on the cells left on the line. The window changes with every tile that is given.
  induction hleft : line.size - index generalizing w index with
  | zero =>
      have hdrop : line.toList.drop index = [] := by
        apply List.drop_eq_nil_of_le
        simp only [Line.toList, List.length_map, List.length_range]
        omega
      have hend : ¬ index < line.size := by omega
      have hstep : w.step = .passed { w with cursor := none } := by
        rw [step, h]
        exact if_neg hend
      rw [given_of_passed hstep, hdrop]
      exact ⟨w.window, hwindow, rfl, rfl⟩
  | succ left ih =>
      have hindex : index < line.size := by omega
      have hdrop : line.toList.drop index = line.get index :: line.toList.drop (index + 1) := by
        have hlength : index < line.toList.length := by
          simpa only [Line.toList, List.length_map, List.length_range] using hindex
        rw [List.drop_eq_getElem_cons hlength]
        simp [Line.toList]
      rw [hdrop, List.map_cons]
      cases hin : w.window.contains (w.tileOf (line.get index)).code with
      | true =>
          rw [given_of_passed (step_of_contains h hindex hin),
            Window.sweep_cons_of_mem ((hwindow.contains_iff _).1 hin)]
          have hrest : line.size - (index + 1) = left := by omega
          exact ih (w := { w with cursor := some ⟨line, index + 1⟩ }) rfl hwindow hrest
      | false =>
          have hout : (w.tileOf (line.get index)).code ∉
              w.window.visits.toList.map Visit.code := by
            rw [← hwindow.contains_iff, hin]
            exact Bool.false_ne_true
          obtain ⟨window, hconsistent, hqueue, hgiven⟩ :=
            ih (w := { w with
              cursor := some ⟨line, index + 1⟩
              window := w.window.remember ⟨(w.tileOf (line.get index)).code, w.segment⟩ })
              rfl (hwindow.remember hin) (by omega)
          rw [Window.toList_remember] at hqueue hgiven
          rw [given_of_gave (step_of_not_contains h hindex hin), Window.sweep_cons_of_not_mem hout]
          exact ⟨window, hconsistent, hqueue, congrArg _ hgiven⟩

end Walk

/-! ## The list without the walk -/

/-- The tiles given when lines of tiles are offered one after the other, each for a segment of its
own: the queue drops what is stale, and then the line is swept. -/
def Window.legs (capacity : Nat) : (segment : Nat) → List Visit → List (List Tile) → List Gift
  | _, _, [] => []
  | segment, visits, tiles :: rest =>
      let (given, behind) := sweep (segment + 1) (kept capacity (segment + 1) visits) tiles
      given.map (Gift.mk · (segment + 1)) ++ legs capacity (segment + 1) behind rest

theorem Window.legs_cons (capacity segment : Nat) (visits : List Visit) (tiles : List Tile)
    (rest : List (List Tile)) :
    legs capacity segment visits (tiles :: rest) =
      (sweep (segment + 1) (kept capacity (segment + 1) visits) tiles).1.map
          (Gift.mk · (segment + 1)) ++
        legs capacity (segment + 1)
          (sweep (segment + 1) (kept capacity (segment + 1) visits) tiles).2 rest := rfl

variable {α : Type} [Scalar α]

/-- Both ends of a segment have a tile at a level. -/
def Scheme.HasEnds (s : Scheme) (level : Nat) (segment : Segment α) : Prop :=
  (s.locate segment.start level).IsValid ∧ (s.locate segment.stop level).IsValid

instance (s : Scheme) (level : Nat) (segment : Segment α) : Decidable (s.HasEnds level segment) :=
  inferInstanceAs (Decidable (_ ∧ _))

/-- The segments that are not passed over. The one with number `n` in the list is the one that a
walk from the start enters as its segment `n + 1`. -/
def Scheme.walked (s : Scheme) (level : Nat) (segments : List (Segment α)) : List (Segment α) :=
  segments.filter fun segment => s.HasEnds level segment

namespace Walk

/-- The widened line between the tiles of the ends of a segment. -/
def lineOf (w : Walk α) (segment : Segment α) : Line :=
  .between (cellOf (w.scheme.locate segment.start w.options.level))
    (cellOf (w.scheme.locate segment.stop w.options.level)) w.options.width

/-- The tiles on the line of a segment, in the order in which the walk looks at them. -/
def tilesAlong (w : Walk α) (segment : Segment α) : List Tile :=
  (w.lineOf segment).toList.map w.tileOf

/-- The walk at the beginning of the line of a segment, for which its window has forgotten what is
outdated. -/
def onLine (w : Walk α) (segment : Segment α) (rest : List (Segment α)) : Walk α :=
  { w with
    pending := rest
    cursor := some ⟨w.lineOf segment, 0⟩
    segment := w.segment + 1
    window := w.window.forget w.capacity (w.segment + 1)
    events := w.events.push (.entered (w.scheme.locate segment.start w.options.level)
      (w.scheme.locate segment.stop w.options.level)) }

/-- A segment whose ends have tiles is entered. -/
theorem step_of_hasEnds {w : Walk α} {segment : Segment α} {rest : List (Segment α)}
    (hcursor : w.cursor = none) (hpending : w.pending = segment :: rest)
    (hends : w.scheme.HasEnds w.options.level segment) :
    w.step = .passed (w.onLine segment rest) := by
  rw [step, hcursor]
  simp only [hpending, enter]
  rw [if_pos (by exact hends)]
  rfl

/-- A segment with an end without a tile is passed over, which leaves its event only. -/
theorem step_of_not_hasEnds {w : Walk α} {segment : Segment α} {rest : List (Segment α)}
    (hcursor : w.cursor = none) (hpending : w.pending = segment :: rest)
    (hends : ¬ w.scheme.HasEnds w.options.level segment) :
    w.step = .passed
      { w with
        pending := rest
        events := w.events.push (.skipped segment w.options.level) } := by
  rw [step, hcursor]
  simp only [hpending, enter]
  rw [if_neg (by exact hends)]

/-- Between two segments a walk gives what the queue of its window lets through on the lines of the
segments ahead. -/
theorem given_eq_legs (w : Walk α) (h : w.cursor = none) (hwindow : w.window.Consistent) :
    w.given = Window.legs w.capacity w.segment w.window.visits.toList
      ((w.scheme.walked w.options.level w.pending).map w.tilesAlong) := by
  -- By induction on the segments ahead. One without ends leaves the window as it is.
  induction hpending : w.pending generalizing w with
  | nil =>
      have hstep : w.step = .ended := by
        rw [step, h]
        simp only [hpending]
      rw [given_of_ended hstep]
      rfl
  | cons segment rest ih =>
      by_cases hends : w.scheme.HasEnds w.options.level segment
      · have hwalked : w.scheme.walked w.options.level (segment :: rest) =
            segment :: w.scheme.walked w.options.level rest := List.filter_cons_of_pos (by simpa)
        rw [given_of_passed (step_of_hasEnds h hpending hends), hwalked, List.map_cons,
          Window.legs_cons, ← Window.toList_forget]
        obtain ⟨window, hconsistent, hqueue, hgiven⟩ :=
          given_of_line (w := w.onLine segment rest) rfl (hwindow.forget w.capacity (w.segment + 1))
        rw [hgiven, ih _ rfl hconsistent rfl, hqueue]
        rfl
      · have hwalked : w.scheme.walked w.options.level (segment :: rest) =
            w.scheme.walked w.options.level rest := List.filter_cons_of_neg (by simpa)
        rw [given_of_passed (step_of_not_hasEnds h hpending hends), hwalked]
        exact ih _ h hwindow rfl

end Walk

end TilePyramid
