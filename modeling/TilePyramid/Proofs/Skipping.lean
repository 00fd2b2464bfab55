import Mathlib
import TilePyramid.Proofs.Interleaving
import TilePyramid.Proofs.Memory

/-!
# Cells that are passed over

A walk passes over a cell if its window holds the code of the cell's tile. The mark of the level is
a bit of the column in a code (`Code.mark_or_interleave`), so two tiles of a level share a code
exactly if they are in the same row and their columns agree but for that bit (`Tile.code_eq_iff`).
On a level with no more columns than the tree, a tile whose cell is passed over was given before
(`Walk.passed_cell_given`). On a wider one it need not have been (`Walk.not_forall_passed_given`).
-/

namespace TilePyramid

/-! ## Tiles with the same code -/

namespace Code

/-- The mark of a level is a bit of the column. -/
theorem mark_or_interleave {level width : Nat} (h : level < width) (row column : Nat) :
    tilesAt level ||| interleave width row column =
      interleave width row (rowsAt level ||| column) := by
  apply Nat.eq_of_testBit_eq
  intro i
  rw [Nat.testBit_or, testBit_interleave, testBit_interleave, tilesAt_eq_two_pow,
    Nat.testBit_two_pow]
  by_cases heven : i % 2 = 0
  · have hmark : 2 * level = i ↔ i < 2 * width ∧ level = i / 2 := by omega
    have hrows : rowsAt level = 2 ^ level := rfl
    rw [if_pos heven, if_pos heven, hrows, Nat.testBit_or, Nat.testBit_two_pow,
      decide_eq_decide.2 hmark, Bool.decide_and, Bool.and_or_distrib_left]
  · have hmark : ¬ 2 * level = i := by omega
    rw [if_neg heven, if_neg heven, decide_eq_false hmark, Bool.false_or]

end Code

namespace Tile

open Code

variable {s t : Tile}

/-- The code of any tile interleaves its row with its column, in which the mark of the level is
set. -/
theorem code_toNat_eq_interleave (hlevel : t.level.toNat < levelCount) :
    t.code.word.toNat =
      interleave levelCount t.row.toNat (rowsAt t.level.toNat ||| t.column.toNat) := by
  have hcolumn : rowsAt t.level.toNat ||| t.column.toNat < rowsAt levelCount :=
    Nat.or_lt_two_pow (rowsAt_lt_word hlevel) t.column.toNat_lt
  have hword : interleave levelCount t.row.toNat (rowsAt t.level.toNat ||| t.column.toNat) <
      2 ^ 64 := interleave_lt levelCount t.row.toNat_lt hcolumn
  rw [code, levelMark, if_pos hlevel]
  show (UInt64.ofNat (_ ||| interleave levelCount _ _)).toNat = _
  rw [mark_or_interleave hlevel]
  exact UInt64.toNat_ofNat_of_lt' hword

/-- Two tiles of a level share a code exactly if they are in the same row and in columns that agree
but for the bit of the level's mark. -/
theorem code_eq_iff (hlevel : s.level.toNat < levelCount) (h : s.level = t.level) :
    s.code = t.code ↔
      s.row = t.row ∧
        rowsAt t.level.toNat ||| s.column.toNat = rowsAt t.level.toNat ||| t.column.toNat := by
  rw [Code.eq_iff_toNat, code_toNat_eq_interleave hlevel, code_toNat_eq_interleave (h ▸ hlevel), h]
  rw [h] at hlevel
  constructor
  · intro heq
    have hcolumn : ∀ u : UInt32, rowsAt t.level.toNat ||| u.toNat < rowsAt levelCount :=
      fun u => Nat.or_lt_two_pow (rowsAt_lt_word hlevel) u.toNat_lt
    -- Row and column are read back from the digits behind a mark.
    have hread := congrArg (fun low => position (tilesAt levelCount + low)) heq
    simp only [position_mark_add_interleave (Nat.le_refl levelCount) (UInt32.toNat_lt _)
      (hcolumn _), Prod.mk.injEq] at hread
    exact ⟨UInt32.toNat_inj.1 hread.1, hread.2.1⟩
  · intro heq
    rw [heq.1, heq.2]

/-- Tiles of a level that lie in the columns of the tree share a code only if they are the same. -/
theorem eq_of_code_eq (hlevel : s.level.toNat < levelCount) (h : s.level = t.level)
    (hs : s.column.toNat < rowsAt t.level.toNat) (ht : t.column.toNat < rowsAt t.level.toNat)
    (hcode : s.code = t.code) : s = t := by
  obtain ⟨hrow, hcolumn⟩ := (code_eq_iff hlevel h).1 hcode
  have hadd : ∀ column < rowsAt t.level.toNat,
      rowsAt t.level.toNat ||| column = rowsAt t.level.toNat + column :=
    fun _ => two_pow_or_eq_add
  rw [hadd _ hs, hadd _ ht, Nat.add_right_inj] at hcolumn
  exact eq_of_toNat (congrArg UInt32.toNat hrow) hcolumn (congrArg UInt32.toNat h)

end Tile

namespace Window

theorem contains_empty (code : Code) : empty.contains code = false := by
  simp [contains, empty]

/-- Forgetting adds no code. -/
theorem contains_of_forget {w : Window} {capacity current : Nat} {code : Code}
    (h : (w.forget capacity current).contains code = true) : w.contains code = true :=
  ((contains_erase_all _ _ code).1 h).1

end Window

variable {α : Type} [Scalar α]

namespace Walk

/-! ## Runs step by step -/

/-- Some steps of a walk lead to another walk, and give the listed tiles on the way. -/
inductive Leads (first : Walk α) : List Tile → Walk α → Prop where
  | refl : Leads first [] first
  | passed {tiles : List Tile} {w behind : Walk α} (h : Leads first tiles w)
      (hstep : w.step = .passed behind) : Leads first tiles behind
  | gave {tiles : List Tile} {w behind : Walk α} {tile : Tile} (h : Leads first tiles w)
      (hstep : w.step = .gave tile behind) : Leads first (tiles ++ [tile]) behind

/-- The tiles given on the way are the first ones that the calls give. The others are still to
come. -/
theorem Leads.given_eq {first w : Walk α} {tiles : List Tile} (h : first.Leads tiles w) :
    first.given.map Gift.tile = tiles ++ w.given.map Gift.tile := by
  induction h with
  | refl => rfl
  | passed h hstep ih => rw [ih, given_of_passed hstep]
  | gave h hstep ih =>
      rw [ih, given_of_gave hstep, List.map_cons, List.append_assoc, List.singleton_append]

/-- What a walk on its way owes to where it started and to the tiles given since. -/
structure OnWay (first w : Walk α) (tiles : List Tile) : Prop where
  scheme : w.scheme = first.scheme
  options : w.options = first.options
  /-- The tiles are tiles of cells. -/
  cells : ∀ tile ∈ tiles, ∃ cell, tile = first.tileOf cell
  /-- The window holds codes of these tiles only. -/
  held : ∀ code, w.window.contains code = true → ∃ tile ∈ tiles, tile.code = code

omit [Scalar α] in
theorem tileOf_congr {w first : Walk α} (hscheme : w.scheme = first.scheme)
    (hoptions : w.options = first.options) : w.tileOf = first.tileOf := by
  funext cell
  rw [tileOf, tileOf, hscheme, hoptions]

namespace OnWay

variable {first w behind : Walk α} {tiles : List Tile} {tile : Tile}

theorem passed (h : first.OnWay w tiles) (hstep : w.step = .passed behind) :
    first.OnWay behind tiles := by
  obtain ⟨⟨hscheme, hoptions⟩, hcases⟩ := passed_cases hstep
  refine ⟨hscheme.trans h.scheme, hoptions.trans h.options, h.cells, fun code hin => ?_⟩
  rcases hcases with ⟨hwindow, -⟩ | ⟨hwindow, -⟩
  · exact h.held code (hwindow ▸ hin)
  · rw [hwindow] at hin
    exact h.held code (Window.contains_of_forget hin)

theorem gave (h : first.OnWay w tiles) (hstep : w.step = .gave tile behind) :
    first.OnWay behind (tiles ++ [tile]) := by
  obtain ⟨⟨hscheme, hoptions⟩, ⟨cell, hcell⟩, -, hwindow, -⟩ := gave_cases hstep
  refine ⟨hscheme.trans h.scheme, hoptions.trans h.options, fun other hother => ?_,
    fun code hin => ?_⟩
  · rcases List.mem_append.1 hother with hold | hlast
    · exact h.cells other hold
    · obtain rfl := List.mem_singleton.1 hlast
      exact ⟨cell, by rw [hcell, tileOf_congr h.scheme h.options]⟩
  · rw [hwindow, Window.contains_remember, Bool.or_eq_true, beq_iff_eq] at hin
    rcases hin with rfl | hold
    · exact ⟨tile, List.mem_append_right _ (List.mem_singleton.2 rfl), rfl⟩
    · obtain ⟨other, hother, hcode⟩ := h.held code hold
      exact ⟨other, List.mem_append_left _ hother, hcode⟩

end OnWay

/-- Every step from a walk with an empty window on keeps it on its way. -/
theorem Leads.onWay {first w : Walk α} {tiles : List Tile} (h : first.Leads tiles w)
    (hempty : first.window = .empty) : first.OnWay w tiles := by
  induction h with
  | refl =>
      refine ⟨rfl, rfl, fun _ hmem => absurd hmem List.not_mem_nil, fun code hin => ?_⟩
      rw [hempty, Window.contains_empty] at hin
      exact absurd hin Bool.false_ne_true
  | passed h hstep ih => exact ih.passed hstep
  | gave h hstep ih => exact ih.gave hstep

/-! ## The first cell of a path -/

section
variable (s : Scheme) (options : PathOptions) (segment : Segment α)

/-- The walk along a single segment, at the beginning of its line. -/
def atFirst : Walk α := (start s options [segment]).onLine segment []

/-- The line of a single segment. -/
def firstLine : Line := (start s options [segment]).lineOf segment

/-- The walk along a single segment before cell `index` of its line, when it has given the tile of
the first cell only. -/
def behindFirst (index : Nat) : Walk α :=
  let w := atFirst s options segment
  { w with
    cursor := some ⟨firstLine s options segment, index⟩
    window := w.window.remember
      ⟨(w.tileOf ((firstLine s options segment).get 0)).code, w.segment⟩ }

variable {s options segment}

/-- The tile of the first cell is given. -/
theorem leads_behindFirst (hends : s.HasEnds options.level segment) :
    (start s options [segment]).Leads
      [(atFirst s options segment).tileOf ((firstLine s options segment).get 0)]
      (behindFirst s options segment 1) := by
  have hsize : 0 < (firstLine s options segment).size :=
    Nat.mul_pos (Nat.succ_pos _) (Nat.mul_pos (Nat.succ_pos _) (Nat.succ_pos _))
  have hnew : (atFirst s options segment).window.contains
      ((atFirst s options segment).tileOf ((firstLine s options segment).get 0)).code = false := by
    rw [← Bool.not_eq_true]
    intro hin
    have hold := Window.contains_of_forget hin
    exact Bool.false_ne_true ((Window.contains_empty _).symm.trans hold)
  have hgave := step_of_not_contains (w := atFirst s options segment) rfl hsize hnew
  exact (Leads.refl.passed (step_of_hasEnds rfl rfl hends)).gave hgave

/-- Cells behind the first one are passed over while their tiles have its code. -/
theorem step_behindFirst {index : Nat} (hindex : index < (firstLine s options segment).size)
    (hcode : ((atFirst s options segment).tileOf ((firstLine s options segment).get index)).code =
      ((atFirst s options segment).tileOf ((firstLine s options segment).get 0)).code) :
    (behindFirst s options segment index).step =
      .passed (behindFirst s options segment (index + 1)) := by
  refine step_of_contains (w := behindFirst s options segment index) rfl hindex ?_
  show (Window.remember _ _).contains
    ((atFirst s options segment).tileOf ((firstLine s options segment).get index)).code = true
  rw [Window.contains_remember, hcode, beq_self_eq_true, Bool.true_or]

end

/-! ## Cells that are passed over -/

omit [Scalar α] in
/-- On a level with no more columns than the tree, the tiles of all cells are in columns of the
tree. -/
theorem toNat_column_tileOf_lt {w : Walk α}
    (hwidth : (w.scheme.subdivision.size w.options.level).width.toNat ≤ rowsAt w.options.level)
    (c : Cell) : (w.tileOf c).column.toNat < rowsAt w.options.level := by
  have hrows := rowsAt_pos w.options.level
  have hcolumn := Int.emod_lt_of_pos c.column (show (0 : Int) <
    max ((w.scheme.subdivision.size w.options.level).width.toNat : Int) 1 by omega)
  rw [tileOf, UInt32.toNat_ofNat']
  refine (Nat.mod_le _ _).trans_lt ?_
  omega

omit [Scalar α] in
theorem level_tileOf (w : Walk α) (c : Cell) :
    (w.tileOf c).level = UInt32.ofNat w.options.level := rfl

/-- A cell that is passed over has a tile whose code the window holds. -/
theorem contains_of_passed {w behind : Walk α} {line : Line} {index : Nat}
    (hcursor : w.cursor = some ⟨line, index⟩) (hindex : index < line.size)
    (hstep : w.step = .passed behind) :
    w.window.contains (w.tileOf (line.get index)).code = true := by
  by_contra hout
  rw [step_of_not_contains hcursor hindex (Bool.eq_false_iff.2 hout)] at hstep
  cases hstep

/-- Cells that a walk passes over, on a level of any size. Among the tiles given so far there is one
in the same row of the level, and in the same column but for the bit of the level's mark. On a level
with no more columns than the tree it is the tile of the cell, however many rows the level has. -/
theorem passed_cell_given {s : Scheme} {options : PathOptions} {segments : List (Segment α)}
    (hlevel : options.level ≤ maxLevel) {tiles : List Tile} {w behind : Walk α} {line : Line}
    {index : Nat} (hrun : (start s options segments).Leads tiles w)
    (hcursor : w.cursor = some ⟨line, index⟩) (hindex : index < line.size)
    (hstep : w.step = .passed behind) :
    let tile := w.tileOf (line.get index)
    (start s options segments).given.map Gift.tile = tiles ++ w.given.map Gift.tile ∧
      (∃ other ∈ tiles, other.level = tile.level ∧ other.row = tile.row ∧
        rowsAt options.level ||| other.column.toNat =
          rowsAt options.level ||| tile.column.toNat) ∧
      ((s.subdivision.size options.level).width.toNat ≤ rowsAt options.level → tile ∈ tiles) := by
  have hway := hrun.onWay rfl
  obtain ⟨other, hother, hcode⟩ := hway.held _ (contains_of_passed hcursor hindex hstep)
  obtain ⟨cell, rfl⟩ := hway.cells other hother
  rw [tileOf_congr hway.scheme hway.options] at hcode ⊢
  generalize line.get index = present at hcode ⊢
  have hlevels : ∀ c, ((start s options segments).tileOf c).level.toNat = options.level := by
    intro c
    rw [level_tileOf]
    exact toNat_ofNat_level hlevel
  have hlevels' : ((start s options segments).tileOf cell).level =
      ((start s options segments).tileOf present).level := by
    rw [level_tileOf, level_tileOf]
  have hdepth : ((start s options segments).tileOf cell).level.toNat < levelCount :=
    (hlevels cell).trans_lt (Nat.lt_succ_of_le hlevel)
  obtain ⟨hrow, hcolumn⟩ := (Tile.code_eq_iff hdepth hlevels').1 hcode
  rw [hlevels] at hcolumn
  refine ⟨hrun.given_eq, ⟨_, hother, hlevels', hrow, hcolumn⟩, fun hwidth => ?_⟩
  have hcolumns : ∀ c, ((start s options segments).tileOf c).column.toNat <
      rowsAt ((start s options segments).tileOf present).level.toNat := by
    intro c
    rw [hlevels]
    exact toNat_column_tileOf_lt (w := start s options segments) hwidth c
  have hsame := Tile.eq_of_code_eq hdepth hlevels' (hcolumns cell) (hcolumns present) hcode
  exact hsame ▸ hother

/-- At level 0 all cells have the same tile. -/
theorem passed_cell_given_root :
    let s := Scheme.quadTreeEquirectangular
    let options : PathOptions := ⟨0, 1⟩
    let segment : Segment Float := ⟨⟨0.0, -3.0⟩, ⟨0.0, -3.0⟩⟩
    let w := behindFirst s options segment 1
    options.level ≤ maxLevel ∧ (start s options [segment]).Leads [.root] w ∧
      w.cursor = some ⟨firstLine s options segment, 1⟩ ∧
      1 < (firstLine s options segment).size ∧
      w.step = .passed (behindFirst s options segment 2) ∧
      (s.subdivision.size options.level).width.toNat ≤ rowsAt options.level ∧
      w.tileOf ((firstLine s options segment).get 1) ∈ [Tile.root] := by
  intro s options segment w
  have hends : s.HasEnds options.level segment := by decide
  have hsize : 1 < (firstLine s options segment).size := by decide +kernel
  have hlevel : options.level ≤ maxLevel := by decide
  have hwidth : (s.subdivision.size options.level).width.toNat ≤ rowsAt options.level := by decide
  have hfirst : (atFirst s options segment).tileOf ((firstLine s options segment).get 0) =
      .root := by
    decide +kernel
  have hrun := leads_behindFirst hends
  rw [hfirst] at hrun
  have hstep : w.step = .passed (behindFirst s options segment 2) :=
    step_behindFirst hsize (by decide +kernel)
  exact ⟨hlevel, hrun, rfl, hsize, hstep, hwidth,
    (passed_cell_given hlevel hrun rfl hsize hstep).2.2 hwidth⟩

/-- A level of three columns and one row, one column more than the tree has. -/
def threeColumns : Scheme where
  subdivision := { name := "three_columns", division := fun _ => ⟨3, 1⟩ }
  projection := .equirectangular

/-- Not every tile whose cell is passed over was given before. Around the first of three columns the
walk begins with the last one, whose tile has the code of the tile that the path itself goes
through. -/
theorem not_forall_passed_given :
    ¬ ∀ (s : Scheme) (options : PathOptions) (segments : List (Segment Float)),
      options.level ≤ maxLevel → ∀ (tiles : List Tile) (w behind : Walk Float) (line : Line)
        (index : Nat), (start s options segments).Leads tiles w → w.cursor = some ⟨line, index⟩ →
        index < line.size → w.step = .passed behind → w.tileOf (line.get index) ∈ tiles := by
  intro h
  let options : PathOptions := ⟨1, 1⟩
  let segment : Segment Float := ⟨⟨0.0, -3.0⟩, ⟨0.0, -3.0⟩⟩
  have hends : threeColumns.HasEnds options.level segment := by decide
  have hsize : ∀ index < 4, index < (firstLine threeColumns options segment).size := by
    decide +kernel
  have hcode : ∀ index < 4,
      ((atFirst threeColumns options segment).tileOf
          ((firstLine threeColumns options segment).get index)).code =
        ((atFirst threeColumns options segment).tileOf
          ((firstLine threeColumns options segment).get 0)).code := by
    decide +kernel
  have hstep : ∀ index < 4, (behindFirst threeColumns options segment index).step =
      .passed (behindFirst threeColumns options segment (index + 1)) :=
    fun index hindex => step_behindFirst (hsize index hindex) (hcode index hindex)
  -- The first three cells are in the last column, and the next one is in the first.
  have hrun := ((leads_behindFirst hends).passed (hstep 1 (by decide))).passed (hstep 2 (by decide))
  have hgiven := h threeColumns options [segment] (by decide) _ _ _ _ 3 hrun rfl
    (hsize 3 (by decide)) (hstep 3 (by decide))
  exact absurd hgiven (by decide +kernel)

end Walk

end TilePyramid
