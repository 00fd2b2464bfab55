import Mathlib
import TilePyramid.Proofs.Line
import TilePyramid.Proofs.Descendants

/-!
# Masks of descendants

A mask selects blocks of the descendants, and a walk meets the selected ones row by row
(`Descendants.map_numbers_toList`). Wherever a walk stands, it stands at a selected descendant or
behind the last one (`Descendants.Stands`). That is what a step keeps, and it makes the bounds of
the number of tiles still to come right (`Descendants.masked_walk`). A mask and its complement split
the descendants between them (`Descendants.toList_append_complement_perm`).
-/

namespace TilePyramid.Descendants

variable {d : Descendants} {cursor behind : Cursor} {met : List Tile} {t : Tile} {index : Nat}

/-! ## Where a walk stands -/

/-- A place of the walk is at a selected descendant or behind the last one. -/
structure Stands (d : Descendants) (cursor : Cursor) : Prop where
  index_le : cursor.index ≤ d.size
  selects : cursor.index < d.size → d.selects cursor.index = true

theorem stands_nextSelected (d : Descendants) (index : Nat) :
    d.Stands ⟨d.nextSelected index⟩ := by
  fun_induction nextSelected d index with
  | case1 index hlt hselects => exact ⟨hlt.le, fun _ => hselects⟩
  | case2 index hlt hselects ih => exact ih
  | case3 index hge => exact ⟨le_rfl, fun h => absurd h (lt_irrefl _)⟩

/-- Going on to the next selected descendant leaves no selected one out. -/
theorem numbersFrom_nextSelected (d : Descendants) (index : Nat) :
    d.numbersFrom (d.nextSelected index) = d.numbersFrom index := by
  fun_induction nextSelected d index with
  | case1 index hlt hselects => rfl
  | case2 index hlt hselects ih =>
      rw [ih, ← numbersFrom_of_not_selects (Bool.eq_false_of_not_eq_true hselects)]
  | case3 index hge => rw [numbersFrom_of_le le_rfl, numbersFrom_of_le (Nat.le_of_not_lt hge)]

theorem Stands.nextSelected_eq (h : d.Stands cursor) :
    d.nextSelected cursor.index = cursor.index := by
  rw [nextSelected]
  split
  · rename_i hlt
    rw [if_pos (h.selects hlt)]
  · rename_i hge
    exact le_antisymm (Nat.le_of_not_lt hge) h.index_le

/-- From a place of the walk on, the selected descendants are met in order. -/
theorem Stands.walks (h : d.Stands cursor) :
    d.Walks cursor ((d.numbersFrom cursor.index).map d.get) := by
  have hwalk := d.walks_nextSelected cursor.index
  rwa [h.nextSelected_eq] at hwalk

/-- A step gives the descendant at which the walk stands and goes on to the next selected one. -/
theorem next?_cases (h : d.next? cursor = some (t, behind)) :
    cursor.index < d.size ∧ t = d.get cursor.index ∧
      behind = ⟨d.nextSelected (cursor.index + 1)⟩ := by
  rw [next?] at h
  split at h
  · rename_i hlt
    cases h
    exact ⟨hlt, rfl, rfl⟩
  · cases h

/-- A walk from the start has met some tiles and reached a place. -/
inductive Reaches (d : Descendants) : List Tile → Cursor → Prop where
  | start : Reaches d [] d.start
  | step {met : List Tile} {cursor behind : Cursor} {t : Tile} (h : Reaches d met cursor)
      (hnext : d.next? cursor = some (t, behind)) : Reaches d (met ++ [t]) behind

theorem Reaches.stands (h : d.Reaches met cursor) : d.Stands cursor := by
  cases h with
  | start => exact d.stands_nextSelected 0
  | step _ hnext =>
      obtain ⟨-, -, rfl⟩ := next?_cases hnext
      exact d.stands_nextSelected _

/-- What a walk has met, and the selected descendants from its place on, are the whole set. -/
theorem Reaches.append_eq (h : d.Reaches met cursor) :
    met ++ (d.numbersFrom cursor.index).map d.get = d.toList := by
  induction h with
  | start => rw [List.nil_append, Descendants.start, numbersFrom_nextSelected, toList_eq]
  | step hbefore hnext ih =>
      -- The tile that the step gives is the first one of those still to come.
      obtain ⟨hlt, rfl, rfl⟩ := next?_cases hnext
      rw [numbersFrom_of_selects hlt (hbefore.stands.selects hlt), List.map_cons] at ih
      rw [numbersFrom_nextSelected, List.append_assoc, List.singleton_append, ih]

/-! ## How many tiles are still to come -/

theorem length_numbersFrom_le (d : Descendants) (index : Nat) :
    (d.numbersFrom index).length ≤ d.size - index :=
  (List.length_filter_le _ _).trans_eq List.length_range'

theorem length_numbersFrom_full (hmask : d.mask = fullMask) (index : Nat) :
    (d.numbersFrom index).length = d.size - index := by
  rw [numbersFrom_full hmask, List.length_range']

theorem atLeast_le_length (d : Descendants) (cursor : Cursor) :
    d.atLeast cursor ≤ (d.numbersFrom cursor.index).length := by
  rw [atLeast]
  split
  · rename_i hmask
    rw [length_numbersFrom_full hmask]
  · exact Nat.zero_le _

theorem atLeast_eq_atMost (hmask : d.mask = fullMask) (cursor : Cursor) :
    d.atLeast cursor = d.atMost cursor :=
  if_pos hmask

/-! ## Row by row -/

/-- A walk meets the descendants of each row in the order of their columns, and the rows one behind
the other. The bit of a descendant is its number without the digits that count within a block. -/
theorem map_numbers_toList (ht : d.tile.IsValid) (hdepth : d.depth < 16)
    (h : d.tile.level.toNat + d.depth ≤ maxLevel) :
    d.toList.map Tile.numbers = (List.range (2 ^ d.depth)).flatMap fun r =>
      ((List.range (2 ^ d.depth)).filter fun c =>
        d.mask.toNat.testBit ((r * 2 ^ d.depth + c) >>> (2 * (d.depth - 2)))).map fun c =>
          (d.tile.row.toNat * 2 ^ d.depth + r, d.tile.column.toNat * 2 ^ d.depth + c,
            d.tile.level.toNat + d.depth) := by
  have hrows : rowsAt d.depth = 2 ^ d.depth := rfl
  have hsize : d.size = rowsAt d.depth * rowsAt d.depth :=
    (if_pos hdepth).trans (rowsAt_mul_self _).symm
  rw [toList_eq, numbersFrom, Nat.sub_zero, ← List.range_eq_range', hsize, range_mul,
    List.filter_flatMap, List.map_flatMap, List.map_flatMap, ← hrows]
  refine List.flatMap_congr fun r hr => ?_
  have hbit : (d.selects ∘ (r * rowsAt d.depth + ·)) = fun c =>
      d.mask.toNat.testBit ((r * rowsAt d.depth + c) >>> (2 * (d.depth - 2))) := by
    funext c
    rw [Function.comp_apply, selects, blockSize, tilesAt_eq_two_pow, Nat.shiftRight_eq_div_pow]
  rw [List.filter_map, List.map_map, List.map_map, hbit]
  refine List.map_congr_left fun c hc => ?_
  have hr' : r < rowsAt d.depth := List.mem_range.1 hr
  have hc' : c < rowsAt d.depth := List.mem_range.1 (List.mem_of_mem_filter hc)
  have hindex : r * rowsAt d.depth + c < tilesAt d.depth := by
    rw [lt_tilesAt_iff, mul_rowsAt_add_div hc']
    exact hr'
  obtain ⟨hrow, hcolumn, hlevel⟩ := toNat_get ht h hindex
  rw [mul_rowsAt_add_div hc'] at hrow
  rw [Nat.mul_add_mod', Nat.mod_eq_of_lt hc'] at hcolumn
  show ((d.get _).row.toNat, (d.get _).column.toNat, (d.get _).level.toNat) = _
  rw [hrow, hcolumn, hlevel]

/-! ## Complements -/

theorem toNat_complement_testBit (mask : UInt16) {bit : Nat} (h : bit < 16) :
    (~~~mask).toNat.testBit bit = !mask.toNat.testBit bit := by
  rw [← UInt16.toNat_toBitVec, ← UInt16.toNat_toBitVec, UInt16.toBitVec_not, BitVec.testBit_toNat,
    BitVec.testBit_toNat, BitVec.getLsbD_not, decide_eq_true h, Bool.true_and]

/-- A mask and its complement select each descendant once between them. -/
theorem toList_append_complement_perm (t : Tile) (depth : Nat) (mask : UInt16) :
    ((⟨t, depth, mask⟩ : Descendants).toList ++
      (⟨t, depth, ~~~mask⟩ : Descendants).toList).Perm
        (⟨t, depth, fullMask⟩ : Descendants).toList := by
  have hother : (⟨t, depth, ~~~mask⟩ : Descendants).numbersFrom 0 =
      (List.range' 0 (⟨t, depth, mask⟩ : Descendants).size).filter fun index =>
        !(⟨t, depth, mask⟩ : Descendants).selects index := by
    refine List.filter_congr fun index hindex => ?_
    rw [List.mem_range'_1, Nat.zero_add] at hindex
    exact toNat_complement_testBit mask (block_lt (d := ⟨t, depth, mask⟩) hindex.2)
  rw [toList_eq, toList_eq, toList_eq, hother, numbersFrom_full (d := ⟨t, depth, fullMask⟩) rfl]
  -- The mask has no part in the tile of a number.
  show (List.map (⟨t, depth, mask⟩ : Descendants).get _ ++
    List.map (⟨t, depth, mask⟩ : Descendants).get _).Perm
      (List.map (⟨t, depth, mask⟩ : Descendants).get _)
  rw [← List.map_append]
  exact (List.filter_append_perm _ _).map _

/-! ## Walking with a mask -/

/-- Walks through the descendants that a mask selects. Less than 16 levels down, every walk meets
the selected ones row by row, each of them once, and those that it leaves out are the ones that the
complement of the mask selects. Wherever a walk stands, its place is within the set, and the bounds
of the number of tiles still to come are right. They are exact with the full mask. From 16 levels
down on there is nothing to meet. -/
theorem masked_walk (t : Tile) (depth : Nat) (mask : UInt16) :
    let d : Descendants := ⟨t, depth, mask⟩
    let others : Descendants := ⟨t, depth, ~~~mask⟩
    let all : Descendants := ⟨t, depth, fullMask⟩
    (t.IsValid → depth < 16 → t.level.toNat + depth ≤ maxLevel →
      (∀ met : List Tile, d.Walks d.start met ↔ met = d.toList) ∧
      (d.toList.map Tile.numbers = (List.range (2 ^ depth)).flatMap fun r =>
        ((List.range (2 ^ depth)).filter fun c =>
          mask.toNat.testBit ((r * 2 ^ depth + c) >>> (2 * (depth - 2)))).map fun c =>
            (t.row.toNat * 2 ^ depth + r, t.column.toNat * 2 ^ depth + c,
              t.level.toNat + depth)) ∧
      d.toList.Nodup ∧ (d.toList ++ others.toList).Perm all.toList ∧
      d.toList.Disjoint others.toList) ∧
    (∀ (met : List Tile) (cursor : Cursor), d.Reaches met cursor →
      cursor.index ≤ d.size ∧
      ∃ rest : List Tile, met ++ rest = d.toList ∧ d.Walks cursor rest ∧
        d.atLeast cursor ≤ rest.length ∧ rest.length ≤ d.atMost cursor ∧
        (mask = fullMask → d.atLeast cursor = rest.length ∧ d.atMost cursor = rest.length)) ∧
    (16 ≤ depth → ∀ met : List Tile, d.Walks d.start met ↔ met = []) := by
  intro d others all
  refine ⟨fun ht hdepth h => ?_, fun met cursor hreaches => ?_, fun hdeep met => ?_⟩
  · have hsplit := toList_append_complement_perm t depth mask
    have hapart : (d.toList ++ others.toList).Nodup :=
      hsplit.nodup_iff.2 (nodup_toList (d := all) ht h)
    exact ⟨fun met => d.walks_start_iff, map_numbers_toList (d := d) ht hdepth h,
      nodup_toList ht h, hsplit, List.disjoint_of_nodup_append hapart⟩
  · have hstands := hreaches.stands
    have hbound := d.atLeast_le_length cursor
    have hbound' := d.length_numbersFrom_le cursor.index
    rw [← List.length_map d.get] at hbound hbound'
    refine ⟨hstands.index_le, _, hreaches.append_eq, hstands.walks, hbound, hbound', ?_⟩
    intro hmask
    have hexact : d.atLeast cursor = d.atMost cursor := atLeast_eq_atMost hmask cursor
    have hmost : d.atMost cursor = d.size - cursor.index := rfl
    omega
  · have hempty : d.size = 0 := if_neg hdeep.not_gt
    rw [walks_start_iff, toList_eq, numbersFrom_of_le hempty.le, List.map_nil]

/-- A mask with the second of its blocks only, three levels below a tile. Of the four tiles of that
block the walk has met two, and its bounds allow for the others. -/
theorem masked_walk_secondBlock :
    let t : Tile := ⟨1, 2, 3⟩
    let d : Descendants := ⟨t, 3, 2⟩
    t.IsValid ∧ t.level.toNat + 3 ≤ maxLevel ∧
      d.toList.map Tile.numbers = [(8, 20, 6), (8, 21, 6), (8, 22, 6), (8, 23, 6)] ∧
      d.Reaches [⟨8, 20, 6⟩, ⟨8, 21, 6⟩] ⟨6⟩ ∧
      ∃ rest : List Tile, [⟨8, 20, 6⟩, ⟨8, 21, 6⟩] ++ rest = d.toList ∧
        d.atLeast ⟨6⟩ ≤ rest.length ∧ rest.length ≤ d.atMost ⟨6⟩ := by
  intro t d
  have ht : t.IsValid := by decide
  have h : t.level.toNat + 3 ≤ maxLevel := by decide
  obtain ⟨hvalid, hstate, -⟩ := masked_walk t 3 2
  obtain ⟨-, hlist, -⟩ := hvalid ht (by decide) h
  have hstart : d.start = ⟨4⟩ := by cbv
  have hfirst : d.next? ⟨4⟩ = some (⟨8, 20, 6⟩, ⟨5⟩) := by cbv
  have hsecond : d.next? ⟨5⟩ = some (⟨8, 21, 6⟩, ⟨6⟩) := by cbv
  have hone : d.Reaches ([] ++ [⟨8, 20, 6⟩]) ⟨5⟩ := .step (hstart ▸ .start) hfirst
  have hreaches : d.Reaches ([⟨8, 20, 6⟩] ++ [⟨8, 21, 6⟩]) ⟨6⟩ := .step hone hsecond
  obtain ⟨-, rest, happend, -, hleast, hmost, -⟩ := hstate _ _ hreaches
  exact ⟨ht, h, hlist.trans (by decide), hreaches, rest, happend, hleast, hmost⟩

end TilePyramid.Descendants
