import TilePyramid.Log
import TilePyramid.Scheme.Locate
import TilePyramid.Path.Line
import TilePyramid.Path.Window
import TilePyramid.Path.Segments

/-!
# The tiles along a path

A `Walk` goes along the segments of a path and gives the tiles near it one after the other:
`Walk.next` is the next tile and the walk behind it. Each segment is a line of cells between the
tiles of its ends, widened on each side. Cells beyond the edge of the level wrap around. A tile
given in the present or in the preceding segment is not given again. Tiles of older segments are
forgotten once there are more than five squares of the width, a number that is computed in a word.

A segment with an end that has no tile is passed over. What the walk does with each segment is
recorded as an `Event`.
-/

namespace TilePyramid

/-- How a path is followed: the level of its tiles and the number of tiles added on each side. -/
structure PathOptions where
  level : Nat
  width : Nat
deriving DecidableEq, Repr

/-- The number of tiles that are remembered in any case: five squares of the width, as a word of 64
bits. From the width 1920767767 on the product is larger than a word. A build that checks its
arithmetic stops there when a walk enters a segment, and any other build goes on with what is left
of the product in the word, as this number does. -/
def PathOptions.capacity (options : PathOptions) : Nat :=
  (5 * UInt64.ofNat options.width * UInt64.ofNat options.width).toNat

/-- What a walk does with a segment. -/
inductive Event (α : Type) where
  /-- The walk goes along a segment between two tiles. -/
  | entered (start stop : Tile)
  /-- The walk passes over a segment with an end that has no tile at the level. -/
  | skipped (segment : Segment α) (level : Nat)

/-- The message about an event. -/
def Event.message : Event Float → Message
  | entered start stop =>
      ⟨.trace, "Next segment " ++ toString start ++ " - " ++ toString stop⟩
  | skipped segment level =>
      ⟨.debug,
        "Skipping segment " ++ segment.start.text ++ " - " ++ segment.stop.text ++
          ": no tile at level " ++ toString level⟩

/-- A place on a line: the number of the next cell. -/
structure LineCursor where
  line : Line
  index : Nat

/-- A walk along a path. -/
structure Walk (α : Type) where
  scheme : Scheme
  options : PathOptions
  /-- The segments not yet begun. -/
  pending : List (Segment α)
  /-- The place on the line of the present segment. -/
  cursor : Option LineCursor
  /-- The number of segments entered. -/
  segment : Nat
  window : Window
  /-- The events so far, the oldest first. -/
  events : Array (Event α)

namespace Walk

variable {α : Type} [Scalar α]

/-- The start of the walk along the given segments. -/
def start (scheme : Scheme) (options : PathOptions) (segments : List (Segment α)) : Walk α :=
  { scheme
    options
    pending := segments
    cursor := none
    segment := 0
    window := .empty
    events := #[] }

/-- The number of tiles that are remembered in any case. -/
def capacity (w : Walk α) : Nat := w.options.capacity

/-- The tile of a cell, with rows and columns wrapped around at the edges of the level. -/
def tileOf (w : Walk α) (c : Cell) : Tile :=
  let size := w.scheme.subdivision.size w.options.level
  let rows : Int := max size.height.toNat 1
  let columns : Int := max size.width.toNat 1
  ⟨UInt32.ofNat (c.row % rows).toNat, UInt32.ofNat (c.column % columns).toNat,
    UInt32.ofNat w.options.level⟩

/-- The cell of a tile. -/
def cellOf (t : Tile) : Cell := ⟨t.column.toNat, t.row.toNat⟩

/-- The walk after it has entered a segment or passed it over. -/
def enter (w : Walk α) (segment : Segment α) : Walk α :=
  let start := w.scheme.locate segment.start w.options.level
  let stop := w.scheme.locate segment.stop w.options.level
  if start.IsValid ∧ stop.IsValid then
    { w with
      cursor := some ⟨.between (cellOf start) (cellOf stop) w.options.width, 0⟩
      segment := w.segment + 1
      window := w.window.forget w.capacity (w.segment + 1)
      events := w.events.push (.entered start stop) }
  else { w with events := w.events.push (.skipped segment w.options.level) }

/-- What one step of a walk does: it ends, it goes on without a tile, or it gives a tile. -/
inductive Outcome (α : Type) where
  | ended
  | passed (behind : Walk α)
  | gave (tile : Tile) (behind : Walk α)

/-- One step of a walk: a segment is entered, a cell is looked at, or a line is left. -/
def step (w : Walk α) : Outcome α :=
  match w.cursor with
  | none =>
      match w.pending with
      | [] => .ended
      | segment :: rest => .passed ({ w with pending := rest }.enter segment)
  | some cursor =>
      if cursor.index < cursor.line.size then
        let tile := w.tileOf (cursor.line.get cursor.index)
        let behind := { w with cursor := some { cursor with index := cursor.index + 1 } }
        -- Only a tile that is given is remembered: one met again keeps its older segment.
        if w.window.contains tile.code then .passed behind
        else .gave tile { behind with window := w.window.remember ⟨tile.code, w.segment⟩ }
      else .passed { w with cursor := none }

/-- The number of cells left on the line of the present segment, and one for leaving it. -/
def cellsLeft (w : Walk α) : Nat :=
  match w.cursor with
  | none => 0
  | some cursor => cursor.line.size - cursor.index + 1

/-- Entering a segment leaves the segments behind it. -/
theorem pending_enter (w : Walk α) (segment : Segment α) :
    (w.enter segment).pending = w.pending := by
  simp only [enter]
  split <;> rfl

/-- A step without a tile uses up a segment, or a cell of the line. -/
theorem passed_decreases {w behind : Walk α} (h : w.step = .passed behind) :
    Prod.Lex (· < ·) (· < ·) (behind.pending.length, behind.cellsLeft)
      (w.pending.length, w.cellsLeft) := by
  unfold step at h
  split at h
  · split at h
    · contradiction
    next segment rest hp =>
      cases h
      apply Prod.Lex.left
      simp [pending_enter, hp]
  next cursor hc =>
    split at h
    · simp only at h
      split at h
      · cases h
        apply Prod.Lex.right
        simp only [cellsLeft, hc]
        omega
      · contradiction
    · cases h
      apply Prod.Lex.right
      simp [cellsLeft, hc]

/-- The next tile of a walk and the walk behind it, or nothing when the path has ended. -/
def next (w : Walk α) : Option Tile × Walk α :=
  match _ : w.step with
  | .ended => (none, w)
  | .gave tile behind => (some tile, behind)
  | .passed behind => next behind
termination_by (w.pending.length, w.cellsLeft)
decreasing_by exact passed_decreases ‹_›

/-- The next tiles of a walk, at most `limit` of them, and the walk behind them. -/
def take : (limit : Nat) → Walk α → List Tile × Walk α
  | 0, w => ([], w)
  | limit + 1, w =>
      match w.next with
      | (none, w) => ([], w)
      | (some tile, w) =>
          let (tiles, w) := take limit w
          (tile :: tiles, w)

end Walk

end TilePyramid
