import Mathlib
import TilePyramid.Tile.Descendants
import TilePyramid.Proofs.Children

/-!
# Walking through descendants

A walk through a set of descendants meets the selected ones in the order of their numbers, whoever
walks and how often (`Descendants.walks_start_iff`). The numbers count the descendants row by row,
so the walk is ascending (`Descendants.pairwise_toList`). With the full mask it meets every tile of
the level that lies in the given one (`Descendants.mem_toList_full_iff`), which are the tiles that
are reached from child to child (`Tile.mem_expand_iff`).
-/

namespace TilePyramid

/-- A tile comes before another one by its level, on a level by its row and in a row by its
column. -/
theorem Tile.compare_eq_lt_iff {a b : Tile} :
    compare a b = .lt ↔ a.level.toNat < b.level.toNat ∨
      a.level = b.level ∧ (a.row.toNat < b.row.toNat ∨
        a.row = b.row ∧ a.column.toNat < b.column.toNat) := by
  show (compare a.level b.level).then ((compare a.row b.row).then (compare a.column b.column)) =
    .lt ↔ _
  simp only [Ordering.then_eq_lt, Std.compare_eq_lt, Std.compare_eq_iff_eq,
    UInt32.lt_iff_toNat_lt]

namespace Descendants

variable {d : Descendants} {cursor : Cursor} {tiles others : List Tile} {index : Nat}

/-! ## Walks -/

/-- The tiles met from a place on, up to the end of the walk. -/
inductive Walks (d : Descendants) : Cursor → List Tile → Prop where
  | done {cursor : Cursor} (h : d.next? cursor = none) : Walks d cursor []
  | step {cursor behind : Cursor} {t : Tile} {tiles : List Tile}
      (h : d.next? cursor = some (t, behind)) (hbehind : Walks d behind tiles) :
      Walks d cursor (t :: tiles)

/-- Walks from the same place meet the same tiles. -/
theorem Walks.unique (h : d.Walks cursor tiles) (hother : d.Walks cursor others) :
    tiles = others := by
  induction h generalizing others with
  | done hend =>
      cases hother with
      | done => rfl
      | step hnext => cases hend.symm.trans hnext
  | step hnext _ ih =>
      cases hother with
      | done hend => cases hend.symm.trans hnext
      | step hnext' hbehind' =>
          cases hnext.symm.trans hnext'
          rw [ih hbehind']

/-- Taking some tiles takes the first ones of the walk. -/
theorem Walks.take_eq (h : d.Walks cursor tiles) (limit : Nat) :
    (d.take limit cursor).1 = tiles.take limit := by
  induction h generalizing limit with
  | done hend =>
      cases limit with
      | zero => rfl
      | succ limit => simp only [take, hend, List.take_nil]
  | step hnext _ ih =>
      cases limit with
      | zero => rfl
      | succ limit => simp only [take, hnext, ih, List.take_succ_cons]

/-! ## The numbers of a walk -/

/-- The numbers of the selected descendants from `index` on. -/
def numbersFrom (d : Descendants) (index : Nat) : List Nat :=
  (List.range' index (d.size - index)).filter d.selects

theorem blockSize_pos (d : Descendants) : 0 < d.blockSize := tilesAt_pos _

theorem numbersFrom_of_le (h : d.size ≤ index) : d.numbersFrom index = [] := by
  rw [numbersFrom, Nat.sub_eq_zero_of_le h]
  rfl

theorem numbersFrom_of_selects (h : index < d.size) (hselects : d.selects index = true) :
    d.numbersFrom index = index :: d.numbersFrom (index + 1) := by
  obtain ⟨count, hcount⟩ : ∃ count, d.size - index = count + 1 := ⟨d.size - index - 1, by omega⟩
  have hcount' : d.size - (index + 1) = count := by omega
  rw [numbersFrom, numbersFrom, hcount, hcount', List.range'_succ,
    List.filter_cons_of_pos hselects]

theorem lt_next_block (d : Descendants) (index : Nat) :
    index < (index / d.blockSize + 1) * d.blockSize := by
  rw [Nat.add_mul, Nat.one_mul]
  exact Nat.lt_div_mul_add d.blockSize_pos

/-- No number between one that is not selected and the next block is selected. -/
theorem filter_selects_eq_nil (hselects : d.selects index = false) {count : Nat}
    (hblock : index + count ≤ (index / d.blockSize + 1) * d.blockSize) :
    (List.range' index count).filter d.selects = [] := by
  rw [List.filter_eq_nil_iff]
  intro other hother
  rw [List.mem_range'_1] at hother
  have hsame : other / d.blockSize = index / d.blockSize :=
    le_antisymm
      (Nat.le_of_lt_succ ((Nat.div_lt_iff_lt_mul d.blockSize_pos).2 (hother.2.trans_le hblock)))
      (Nat.div_le_div_right hother.1)
  rw [selects, hsame, Bool.not_eq_true]
  exact hselects

/-- Passing over a block that is not selected leaves no selected number out. -/
theorem numbersFrom_of_not_selects (hselects : d.selects index = false) :
    d.numbersFrom index = d.numbersFrom ((index / d.blockSize + 1) * d.blockSize) := by
  have hnext := d.lt_next_block index
  have hnone : ∀ count, index + count ≤ (index / d.blockSize + 1) * d.blockSize →
      (List.range' index count).filter d.selects = [] := fun _ => filter_selects_eq_nil hselects
  generalize (index / d.blockSize + 1) * d.blockSize = next at hnext hnone
  rcases Nat.le_total next d.size with hle | hge
  · have hpassed := hnone (next - index) (by omega)
    have hcount : d.size - index = (next - index) + (d.size - next) := by omega
    rw [numbersFrom, hcount, ← List.range'_append_1, List.filter_append, hpassed, List.nil_append,
      Nat.add_sub_cancel' hnext.le, numbersFrom]
  · rw [numbersFrom_of_le hge, numbersFrom]
    exact hnone (d.size - index) (by omega)

/-- From the next selected number on, a walk meets the selected descendants in order. -/
theorem walks_nextSelected (d : Descendants) (index : Nat) :
    d.Walks ⟨d.nextSelected index⟩ ((d.numbersFrom index).map d.get) := by
  induction hleft : d.size - index using Nat.strong_induction_on generalizing index with
  | _ left ih =>
      rw [nextSelected]
      split
      · rename_i hlt
        split
        · rename_i hselects
          rw [numbersFrom_of_selects hlt hselects, List.map_cons]
          have hgiven : d.next? ⟨index⟩ = some (d.get index, ⟨d.nextSelected (index + 1)⟩) :=
            if_pos hlt
          exact .step hgiven (ih (d.size - (index + 1)) (by omega) (index + 1) rfl)
        · rename_i hselects
          have hnext := d.lt_next_block index
          rw [numbersFrom_of_not_selects (Bool.eq_false_of_not_eq_true hselects)]
          exact ih _ (by omega) _ rfl
      · rename_i hge
        rw [numbersFrom_of_le (Nat.le_of_not_lt hge)]
        exact .done (if_neg (Nat.lt_irrefl d.size))

/-- The list of a set holds its selected descendants in order. -/
theorem toList_eq (d : Descendants) : d.toList = (d.numbersFrom 0).map d.get := by
  have hshort : ((d.numbersFrom 0).map d.get).length ≤ d.size := by
    rw [List.length_map]
    exact (List.length_filter_le _ _).trans_eq List.length_range'
  rw [toList, start, (d.walks_nextSelected 0).take_eq, List.take_of_length_le hshort]

/-- Every walk from the start meets the tiles of the list. -/
theorem walks_start_iff (d : Descendants) : d.Walks d.start tiles ↔ tiles = d.toList := by
  have hwalk := d.walks_nextSelected 0
  rw [← toList_eq] at hwalk
  exact ⟨fun h => h.unique hwalk, fun h => h ▸ hwalk⟩

/-! ## Rows and columns -/

theorem rowsAt_mul_self (depth : Nat) : rowsAt depth * rowsAt depth = tilesAt depth := by
  simp only [rowsAt, tilesAt, Nat.pow_eq, ← mul_pow]
  rfl

theorem lt_tilesAt_iff {depth : Nat} :
    index < tilesAt depth ↔ index / rowsAt depth < rowsAt depth := by
  rw [← rowsAt_mul_self, Nat.div_lt_iff_lt_mul (rowsAt_pos depth)]

/-- Setting the last bits of a row taken down adds them. -/
theorem mul_rowsAt_or {depth r : Nat} (hr : r < rowsAt depth) (row : Nat) :
    row * rowsAt depth ||| r = row * rowsAt depth + r := by
  rw [Nat.mul_comm]
  exact (Nat.two_pow_add_eq_or_of_lt hr row).symm

/-- The number of a descendant counts its rows, and the columns within a row. -/
theorem toNat_get (ht : d.tile.IsValid) (h : d.tile.level.toNat + d.depth ≤ maxLevel)
    (hindex : index < tilesAt d.depth) :
    (d.get index).row.toNat = d.tile.row.toNat * rowsAt d.depth + index / rowsAt d.depth ∧
      (d.get index).column.toNat =
        d.tile.column.toNat * rowsAt d.depth + index % rowsAt d.depth ∧
      (d.get index).level.toNat = d.tile.level.toNat + d.depth := by
  have hcount : maxLevel < 32 := by decide
  have hdepth : d.depth < 32 := by omega
  have hword : rowsAt (d.tile.level.toNat + d.depth) < 2 ^ 32 :=
    rowsAt_lt_word (Nat.lt_succ_of_le h)
  have hwide : rowsAt d.depth < 2 ^ 32 := rowsAt_lt_word hdepth
  rw [lt_tilesAt_iff] at hindex
  have heast := Nat.mod_lt index (rowsAt_pos d.depth)
  have hrow := toNat_shiftUp hdepth ((mul_rowsAt_lt ht.2.1).trans hword)
  have hcolumn := toNat_shiftUp hdepth ((mul_rowsAt_lt ht.2.2).trans hword)
  have hr : (UInt32.ofNat (index / rowsAt d.depth)).toNat = index / rowsAt d.depth :=
    UInt32.toNat_ofNat_of_lt' (hindex.trans hwide)
  have hc : (UInt32.ofNat (index % rowsAt d.depth)).toNat = index % rowsAt d.depth :=
    UInt32.toNat_ofNat_of_lt' (heast.trans hwide)
  have hl : (UInt32.ofNat d.depth).toNat = d.depth :=
    UInt32.toNat_ofNat_of_lt' (show d.depth < 2 ^ 32 by omega)
  refine ⟨?_, ?_, ?_⟩
  · rw [get, UInt32.toNat_or, hrow, hr, mul_rowsAt_or hindex]
  · rw [get, UInt32.toNat_or, hcolumn, hc, mul_rowsAt_or heast]
  · rw [get, UInt32.toNat_add, hl, Nat.mod_eq_of_lt (by omega)]

theorem isValid_get (ht : d.tile.IsValid) (h : d.tile.level.toNat + d.depth ≤ maxLevel)
    (hindex : index < tilesAt d.depth) : (d.get index).IsValid := by
  obtain ⟨hrow, hcolumn, hlevel⟩ := toNat_get ht h hindex
  have heast := Nat.mod_lt index (rowsAt_pos d.depth)
  rw [lt_tilesAt_iff] at hindex
  rw [Tile.IsValid, hrow, hcolumn, hlevel]
  exact ⟨Nat.lt_succ_of_le h, mul_rowsAt_add_lt ht.2.1 hindex, mul_rowsAt_add_lt ht.2.2 heast⟩

/-- Zooming up from a descendant leads back to the tile of the set. -/
theorem zoomBy_get (ht : d.tile.IsValid) (h : d.tile.level.toNat + d.depth ≤ maxLevel)
    (hindex : index < tilesAt d.depth) : (d.get index).zoomBy (-d.depth) = d.tile := by
  obtain ⟨hrow, hcolumn, hlevel⟩ := toNat_get ht h hindex
  obtain ⟨hr, hc, hl⟩ := Tile.toNat_zoomBy_up (hlevel.trans_le h)
    ((Nat.le_add_left d.depth _).trans_eq hlevel.symm)
  rw [lt_tilesAt_iff] at hindex
  rw [hrow, mul_rowsAt_add_div hindex] at hr
  rw [hcolumn, mul_rowsAt_add_div (Nat.mod_lt index (rowsAt_pos d.depth))] at hc
  rw [hlevel, Nat.add_sub_cancel] at hl
  exact Tile.eq_of_toNat hr hc hl

/-- A tile that lies in the tile of the set is the descendant whose number counts the rows below it
in the set and the columns before it. -/
theorem get_eq_of_zoomBy {x : Tile} (ht : d.tile.IsValid)
    (h : d.tile.level.toNat + d.depth ≤ maxLevel)
    (hlevel : x.level.toNat = d.tile.level.toNat + d.depth)
    (hup : x.zoomBy (-d.depth) = d.tile) : ∃ index < tilesAt d.depth, d.get index = x := by
  have hpos := rowsAt_pos d.depth
  obtain ⟨hr, hc, -⟩ := Tile.toNat_zoomBy_up (hlevel.trans_le h)
    ((Nat.le_add_left d.depth _).trans_eq hlevel.symm)
  have heast := Nat.mod_lt x.column.toNat hpos
  have hindex : x.row.toNat % rowsAt d.depth * rowsAt d.depth + x.column.toNat % rowsAt d.depth <
      tilesAt d.depth := by
    rw [lt_tilesAt_iff, mul_rowsAt_add_div heast]
    exact Nat.mod_lt x.row.toNat hpos
  obtain ⟨hrow, hcolumn, hdepth⟩ := toNat_get ht h hindex
  rw [mul_rowsAt_add_div heast, ← hup, hr, Nat.div_add_mod'] at hrow
  rw [Nat.mul_add_mod', Nat.mod_eq_of_lt heast, ← hup, hc, Nat.div_add_mod'] at hcolumn
  exact ⟨_, hindex, Tile.eq_of_toNat hrow hcolumn (hdepth.trans hlevel.symm)⟩

/-- The descendants of a tile are the valid tiles that many levels down that lie in it. -/
theorem exists_get_eq_iff (ht : d.tile.IsValid) (h : d.tile.level.toNat + d.depth ≤ maxLevel)
    {x : Tile} :
    (∃ index < tilesAt d.depth, d.get index = x) ↔
      x.IsValid ∧ x.level.toNat = d.tile.level.toNat + d.depth ∧
        x.zoomBy (-d.depth) = d.tile := by
  constructor
  · rintro ⟨index, hindex, rfl⟩
    exact ⟨isValid_get ht h hindex, (toNat_get ht h hindex).2.2, zoomBy_get ht h hindex⟩
  · rintro ⟨-, hlevel, hup⟩
    exact get_eq_of_zoomBy ht h hlevel hup

/-! ## Order -/

/-- The numbers of two descendants order them. -/
theorem compare_get (ht : d.tile.IsValid) (h : d.tile.level.toNat + d.depth ≤ maxLevel)
    {other : Nat} (hlt : index < other) (hother : other < tilesAt d.depth) :
    compare (d.get index) (d.get other) = .lt := by
  obtain ⟨hrow, hcolumn, hlevel⟩ := toNat_get ht h (hlt.trans hother)
  obtain ⟨hrow', hcolumn', hlevel'⟩ := toNat_get ht h hother
  have hsame : (d.get index).level = (d.get other).level :=
    UInt32.toNat_inj.1 (hlevel.trans hlevel'.symm)
  have hle : index / rowsAt d.depth ≤ other / rowsAt d.depth := Nat.div_le_div_right hlt.le
  have hsum := Nat.div_add_mod index (rowsAt d.depth)
  have hsum' := Nat.div_add_mod other (rowsAt d.depth)
  rw [Tile.compare_eq_lt_iff]
  refine .inr ⟨hsame, ?_⟩
  rcases hle.lt_or_eq with hbefore | heq
  · exact .inl (by omega)
  · rw [heq] at hrow hsum
    exact .inr ⟨UInt32.toNat_inj.1 (hrow.trans hrow'.symm), by omega⟩

theorem size_le (d : Descendants) : d.size ≤ tilesAt d.depth := by
  unfold size
  split
  · exact le_rfl
  · exact Nat.zero_le _

theorem mem_numbersFrom_zero_iff : index ∈ d.numbersFrom 0 ↔ index < d.size ∧ d.selects index := by
  rw [numbersFrom, List.mem_filter, List.mem_range'_1, Nat.sub_zero, Nat.zero_add]
  simp only [Nat.zero_le, true_and]

theorem mem_toList_iff {x : Tile} :
    x ∈ d.toList ↔ ∃ index < d.size, d.selects index ∧ d.get index = x := by
  simp only [toList_eq, List.mem_map, mem_numbersFrom_zero_iff, and_assoc]

/-- A set is walked through in ascending order. -/
theorem pairwise_toList (ht : d.tile.IsValid) (h : d.tile.level.toNat + d.depth ≤ maxLevel) :
    d.toList.Pairwise fun a b => compare a b = .lt := by
  have hascending : (d.numbersFrom 0).Pairwise (· < ·) := (List.pairwise_lt_range' _).filter _
  rw [toList_eq, List.pairwise_map]
  refine hascending.imp_of_mem fun _ hother hlt => ?_
  exact compare_get ht h hlt ((mem_numbersFrom_zero_iff.1 hother).1.trans_le d.size_le)

theorem nodup_toList (ht : d.tile.IsValid) (h : d.tile.level.toNat + d.depth ≤ maxLevel) :
    d.toList.Nodup := by
  refine (pairwise_toList ht h).imp fun hlt heq => ?_
  rw [heq, Tile.compare_eq_lt_iff] at hlt
  omega

/-! ## All descendants -/

/-- A block is at least a sixteenth of the set. -/
theorem size_le_mul_blockSize (d : Descendants) : d.size ≤ 16 * d.blockSize := by
  refine d.size_le.trans ?_
  rw [blockSize]
  cases d.depth with
  | zero => decide
  | succ depth =>
      cases depth with
      | zero => decide
      | succ depth =>
          have hblock : depth + 1 + 1 - 2 = depth := rfl
          rw [tilesAt_succ, tilesAt_succ, hblock]
          omega

/-- Every number of the set has a bit in the mask. -/
theorem block_lt (h : index < d.size) : index / d.blockSize < 16 :=
  (Nat.div_lt_iff_lt_mul d.blockSize_pos).2 (h.trans_le d.size_le_mul_blockSize)

theorem selects_fullMask (hmask : d.mask = fullMask) (h : index < d.size) :
    d.selects index = true := by
  have hfull : fullMask.toNat = 2 ^ 16 - 1 := rfl
  rw [selects, hmask, hfull, Nat.testBit_two_pow_sub_one, decide_eq_true (block_lt h)]

/-- The full mask selects every tile of the level that lies in the tile of the set. -/
theorem mem_toList_full_iff (hmask : d.mask = fullMask) (ht : d.tile.IsValid)
    (hdepth : d.depth < 16) (h : d.tile.level.toNat + d.depth ≤ maxLevel) {x : Tile} :
    x ∈ d.toList ↔ x.IsValid ∧ x.level.toNat = d.tile.level.toNat + d.depth ∧
      x.zoomBy (-d.depth) = d.tile := by
  have hsize : d.size = tilesAt d.depth := if_pos hdepth
  rw [← exists_get_eq_iff ht h, mem_toList_iff, ← hsize]
  constructor
  · rintro ⟨index, hindex, -, hget⟩
    exact ⟨index, hindex, hget⟩
  · rintro ⟨index, hindex, hget⟩
    exact ⟨index, hindex, selects_fullMask hmask hindex, hget⟩

theorem numbersFrom_full (hmask : d.mask = fullMask) (index : Nat) :
    d.numbersFrom index = List.range' index (d.size - index) := by
  rw [numbersFrom, List.filter_eq_self]
  intro other hother
  rw [List.mem_range'_1] at hother
  exact selects_fullMask hmask (by omega)

theorem length_toList_full (hmask : d.mask = fullMask) (hdepth : d.depth < 16) :
    d.toList.length = tilesAt d.depth := by
  rw [toList_eq, List.length_map, numbersFrom_full hmask, List.length_range', Nat.sub_zero, size,
    if_pos hdepth]

/-- A mask keeps some of the descendants in their order. -/
theorem toList_sublist_full (d : Descendants) :
    d.toList.Sublist (⟨d.tile, d.depth, fullMask⟩ : Descendants).toList := by
  rw [toList_eq, toList_eq, numbersFrom_full (d := ⟨d.tile, d.depth, fullMask⟩) rfl]
  exact List.Sublist.map _ List.filter_sublist

/-! ## Children -/

/-- The descendants one level down are the children. -/
theorem get_eq_child (t : Tile) (mask : UInt16) (index : Nat) :
    (⟨t, 1, mask⟩ : Descendants).get index = t.child index := by
  have hlevel : t.level + UInt32.ofNat 1 = UInt32.ofNat (t.level.toNat + 1 : Int).toNat := by
    rw [← UInt32.toNat_inj, UInt32.toNat_add]
    exact (UInt32.toNat_ofNat' (n := t.level.toNat + 1)).symm
  rw [get, hlevel]
  rfl

/-- One level down a mask selects the children whose bits it has. -/
theorem mem_toList_one_iff {t x : Tile} {mask : UInt16} :
    x ∈ (⟨t, 1, mask⟩ : Descendants).toList ↔
      ∃ index < 4, mask.toNat.testBit index ∧ x = t.child index := by
  have hblock : (⟨t, 1, mask⟩ : Descendants).blockSize = 1 := rfl
  simp only [mem_toList_iff, get_eq_child, selects, hblock, Nat.div_one, eq_comm (a := x)]
  rfl

theorem mem_toList_children_iff {t x : Tile} :
    x ∈ (children t).toList ↔ ∃ index < 4, x = t.child index := by
  have hbit : ∀ index < 4, fullMask.toNat.testBit index = true := by decide
  rw [children, mem_toList_one_iff]
  constructor
  · rintro ⟨index, hindex, -, hchild⟩
    exact ⟨index, hindex, hchild⟩
  · rintro ⟨index, hindex, hchild⟩
    exact ⟨index, hindex, hbit index hindex, hchild⟩

end Descendants

namespace Tile

variable {t x : Tile} {depth : Nat}

/-- The tiles reached when a tile, then its children and so on are replaced by their children,
`depth` times in all. -/
def expand (t : Tile) : (depth : Nat) → List Tile
  | 0 => [t]
  | depth + 1 => (t.expand depth).flatMap fun s => (Descendants.children s).toList

/-- Going down from child to child reaches the tiles from which the way up leads back. -/
theorem mem_expand_iff (ht : t.IsValid) (h : t.level.toNat + depth ≤ maxLevel) :
    x ∈ t.expand depth ↔
      x.IsValid ∧ x.level.toNat = t.level.toNat + depth ∧ parent^[depth] x = t := by
  induction depth generalizing x with
  | zero =>
      rw [expand, List.mem_singleton, Function.iterate_zero_apply]
      constructor
      · rintro rfl
        exact ⟨ht, rfl, rfl⟩
      · exact fun hx => hx.2.2
  | succ depth ih =>
      have habove : t.level.toNat + depth < maxLevel := h
      simp only [expand, List.mem_flatMap, Descendants.mem_toList_children_iff,
        ih habove.le, Function.iterate_succ_apply]
      constructor
      · rintro ⟨s, ⟨hs, hlevel, hup⟩, index, hindex, rfl⟩
        have hdeep := hlevel.trans_lt habove
        have hdepth := (toNat_child hs hdeep hindex).2.2
        refine ⟨isValid_child hs hdeep hindex, by omega, ?_⟩
        rw [parent_child hs hdeep hindex, hup]
      · rintro ⟨hx, hlevel, hup⟩
        have hpos : 0 < x.level.toNat := by omega
        have hs := isValid_parent hx hpos
        have habove' := (toNat_parent hpos).2.2
        exact ⟨x.parent, ⟨hs, by omega, hup⟩,
          (isValid_and_parent_eq_iff hs (by omega)).1 ⟨hx, rfl⟩⟩

theorem nodup_expand (ht : t.IsValid) (h : t.level.toNat + depth ≤ maxLevel) :
    (t.expand depth).Nodup := by
  induction depth with
  | zero => exact List.nodup_singleton t
  | succ depth ih =>
      have habove : t.level.toNat + depth < maxLevel := h
      have hmem : ∀ s ∈ t.expand depth, s.IsValid ∧ s.level.toNat < maxLevel := by
        intro s hs
        obtain ⟨hvalid, hlevel, -⟩ := (mem_expand_iff ht habove.le).1 hs
        exact ⟨hvalid, hlevel.trans_lt habove⟩
      refine nodup_flatMap_of_parent (fun s hs => ?_) (fun s hs x hx => ?_) (ih habove.le)
      · exact Descendants.nodup_toList (hmem s hs).1 (hmem s hs).2
      · rw [Descendants.mem_toList_children_iff] at hx
        exact ((isValid_and_parent_eq_iff (hmem s hs).1 (hmem s hs).2).2 hx).2

end Tile

/-- All descendants. With the full mask, every walk through the descendants of a tile less than 16
levels down meets the tiles of the list. They are as many as the tree has below the tile, they
ascend, so each of them is met once, they are the valid tiles of the level that lie in the tile, and
they are those that are reached from child to child. -/
theorem Descendants.full_walk {t : Tile} {depth : Nat} (ht : t.IsValid) (hdepth : depth < 16)
    (h : t.level.toNat + depth ≤ maxLevel) :
    let d : Descendants := ⟨t, depth, fullMask⟩
    (∀ met : List Tile, d.Walks d.start met ↔ met = d.toList) ∧
      d.toList.length = 4 ^ depth ∧
      (∀ x : Tile, x ∈ d.toList ↔
        x.IsValid ∧ x.level.toNat = t.level.toNat + depth ∧ x.zoomBy (-depth) = t) ∧
      (d.toList.Pairwise fun a b => compare a b = .lt) ∧ d.toList.Nodup ∧
      d.toList.Perm (t.expand depth) := by
  intro d
  have hmem := fun x => mem_toList_full_iff (d := d) (x := x) rfl ht hdepth h
  refine ⟨fun met => d.walks_start_iff, length_toList_full rfl hdepth, hmem, pairwise_toList ht h,
    nodup_toList ht h, ?_⟩
  rw [List.perm_ext_iff_of_nodup (nodup_toList ht h) (Tile.nodup_expand ht h)]
  intro x
  rw [hmem, Tile.mem_expand_iff ht h]
  refine and_congr_right fun hx => and_congr_right fun hlevel => ?_
  rw [Tile.parent_iterate (hlevel.trans_le h) ((Nat.le_add_left depth _).trans_eq hlevel.symm)]

/-- The descendants of a tile 15 levels down, in the deepest level, are walked through, and a tile
in its north east is among them. -/
theorem Descendants.full_walk_deepest :
    let t : Tile := ⟨0, 0xFFFF, 16⟩
    let d : Descendants := ⟨t, 15, fullMask⟩
    t.IsValid ∧ t.level.toNat + 15 ≤ maxLevel ∧ d.Walks d.start d.toList ∧
      d.toList.length = 4 ^ 15 ∧ (⟨0x7FFF, 0x7FFFFFFF, 31⟩ : Tile) ∈ d.toList ∧
      d.toList.Perm (t.expand 15) := by
  intro t d
  have ht : t.IsValid := by decide
  have h : t.level.toNat + 15 ≤ maxLevel := by decide
  obtain ⟨hwalk, hlength, hmem, -, -, hperm⟩ := full_walk ht (by decide) h
  exact ⟨ht, h, (hwalk d.toList).2 rfl, hlength, (hmem _).2 ⟨by decide, by decide, by decide⟩,
    hperm⟩

end TilePyramid
