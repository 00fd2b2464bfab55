import Std.Data.HashSet
import TilePyramid.Tile.Code

/-!
# The tiles remembered along a path

A `Window` remembers tiles together with the segment of the path in which each was given, oldest
first, so that a tile is not listed again soon. `Window.forget` drops tiles of old segments once
there are more than a given number.
-/

namespace TilePyramid

/-- A tile remembered, by its code, with the number of the segment in which it was given. -/
structure Visit where
  code : Code
  segment : Nat
deriving DecidableEq, Repr

/-- The remembered tiles, oldest first, and the set of their codes. -/
structure Window where
  visits : Array Visit
  codes : Std.HashSet Code

namespace Window

/-- The window without tiles. -/
def empty : Window := ⟨#[], ∅⟩

/-- The tile with this code is remembered. -/
def contains (w : Window) (code : Code) : Bool := w.codes.contains code

/-- The window with one tile more. -/
def remember (w : Window) (visit : Visit) : Window :=
  ⟨w.visits.push visit, w.codes.insert visit.code⟩

/-- The tiles to forget at the start of segment `current`: the oldest ones, from before the
preceding segment, and only as many as there are more than `capacity`. -/
def outdated (w : Window) (capacity current : Nat) : List Visit :=
  (w.visits.toList.take (w.visits.size - capacity)).takeWhile fun visit =>
    visit.segment + 1 < current

/-- The window without its outdated tiles. -/
def forget (w : Window) (capacity current : Nat) : Window :=
  let old := w.outdated capacity current
  ⟨w.visits.drop old.length, old.foldl (fun codes visit => codes.erase visit.code) w.codes⟩

end Window

end TilePyramid
