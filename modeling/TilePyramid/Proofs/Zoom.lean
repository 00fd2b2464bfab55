import Mathlib
import TilePyramid.Proofs.Code

/-!
# Up and down the levels

Taken down by some levels, a tile has its row and its column multiplied by the number of rows of
that many levels, and taken up it has them divided by it. For tiles and levels that can be addressed
nothing is lost on the way, so these are equations between numbers.
-/

namespace TilePyramid

theorem rowsAt_zero : rowsAt 0 = 1 := rfl

theorem rowsAt_add (level depth : Nat) : rowsAt (level + depth) = rowsAt level * rowsAt depth := by
  simp only [rowsAt, Nat.pow_eq, pow_add]

theorem tilesAt_add (level depth : Nat) :
    tilesAt (level + depth) = tilesAt level * tilesAt depth := by
  simp only [tilesAt, Nat.pow_eq, pow_add]

/-- The rows of a level, each split into the rows of `depth` levels, are the rows of the level
there. -/
theorem mul_rowsAt_add_lt {level depth row r : Nat} (hrow : row < rowsAt level)
    (hr : r < rowsAt depth) : row * rowsAt depth + r < rowsAt (level + depth) :=
  calc row * rowsAt depth + r < row * rowsAt depth + rowsAt depth := Nat.add_lt_add_left hr _
    _ = (row + 1) * rowsAt depth := (Nat.succ_mul _ _).symm
    _ ≤ rowsAt level * rowsAt depth := Nat.mul_le_mul_right _ hrow
    _ = rowsAt (level + depth) := (rowsAt_add level depth).symm

/-- A row taken down and moved on within its part is taken up to the row again. -/
theorem mul_rowsAt_add_div {depth r : Nat} (hr : r < rowsAt depth) (row : Nat) :
    (row * rowsAt depth + r) / rowsAt depth = row := by
  rw [Nat.add_comm, Nat.add_mul_div_right _ _ (rowsAt_pos depth), Nat.div_eq_of_lt hr,
    Nat.zero_add]

theorem mul_rowsAt_lt {level depth row : Nat} (h : row < rowsAt level) :
    row * rowsAt depth < rowsAt (level + depth) :=
  mul_rowsAt_add_lt h (rowsAt_pos depth)

theorem toNat_shiftUp {w : UInt32} {n : Nat} (hn : n < 32) (h : w.toNat * rowsAt n < 2 ^ 32) :
    (shiftUp w n).toNat = w.toNat * rowsAt n := by
  rw [shiftUp, if_pos hn]
  exact UInt32.toNat_ofNat_of_lt' h

theorem toNat_shiftDown {w : UInt32} {n : Nat} (hn : n < 32) :
    (shiftDown w n).toNat = w.toNat / rowsAt n := by
  rw [shiftDown, if_pos hn]
  exact UInt32.toNat_ofNat_of_lt' ((Nat.div_le_self _ _).trans_lt w.toNat_lt)

namespace Tile

/-- Levels up to the sign bit of a word are read as they are. -/
theorem signedLevel_of_lt {level : UInt32} (h : level.toNat < 2 ^ 31) :
    signedLevel level = level.toNat := by
  have hword : 2 * level.toBitVec.toNat < 2 ^ 32 := by
    rw [UInt32.toNat_toBitVec]
    omega
  exact BitVec.toInt_eq_toNat_of_lt hword

theorem signedLevel_eq {level : UInt32} (h : level.toNat ≤ maxLevel) :
    signedLevel level = level.toNat := by
  have hdeepest : maxLevel < 2 ^ 31 := by decide
  exact signedLevel_of_lt (h.trans_lt hdeepest)

/-- A tile taken down has the lowest row and column there. -/
theorem toNat_zoomBy_down {t : Tile} (ht : t.IsValid) {n : Nat}
    (h : t.level.toNat + n ≤ maxLevel) :
    (t.zoomBy n).row.toNat = t.row.toNat * rowsAt n ∧
      (t.zoomBy n).column.toNat = t.column.toNat * rowsAt n ∧
      (t.zoomBy n).level.toNat = t.level.toNat + n := by
  have hdeepest : maxLevel < 32 := by decide
  have hlevel : (UInt32.ofNat (t.level.toNat + n : Int).toNat).toNat = t.level.toNat + n :=
    UInt32.toNat_ofNat_of_lt' (show t.level.toNat + n < 2 ^ 32 by omega)
  cases n with
  | zero =>
      have hrow := toNat_shiftDown (w := t.row) (n := 0) (by decide)
      have hcolumn := toNat_shiftDown (w := t.column) (n := 0) (by decide)
      rw [rowsAt_zero, Nat.div_one] at hrow hcolumn
      rw [rowsAt_zero, Nat.mul_one, Nat.mul_one]
      exact ⟨hrow, hcolumn, hlevel⟩
  | succ n =>
      have hword : rowsAt (t.level.toNat + (n + 1)) < 2 ^ 32 := rowsAt_lt_word (Nat.lt_succ_of_le h)
      have hdown : (0 : Int) < (n + 1 : Nat) := by omega
      rw [zoomBy, if_pos hdown, Int.natAbs_natCast]
      exact ⟨toNat_shiftUp (by omega) ((mul_rowsAt_lt ht.2.1).trans hword),
        toNat_shiftUp (by omega) ((mul_rowsAt_lt ht.2.2).trans hword), hlevel⟩

/-- A tile taken up is the tile there that contains it. -/
theorem toNat_zoomBy_up {t : Tile} {n : Nat} (ht : t.level.toNat ≤ maxLevel)
    (h : n ≤ t.level.toNat) :
    (t.zoomBy (-n)).row.toNat = t.row.toNat / rowsAt n ∧
      (t.zoomBy (-n)).column.toNat = t.column.toNat / rowsAt n ∧
      (t.zoomBy (-n)).level.toNat = t.level.toNat - n := by
  have hdeepest : maxLevel < 32 := by decide
  have hup : ¬ (0 : Int) < -(n : Int) := by omega
  have hn : n < 32 := by omega
  have hlevel : (t.level.toNat + -n : Int).toNat = t.level.toNat - n := by omega
  rw [zoomBy, if_neg hup, Int.natAbs_neg, Int.natAbs_natCast, hlevel]
  exact ⟨toNat_shiftDown hn, toNat_shiftDown hn,
    UInt32.toNat_ofNat_of_lt' (show t.level.toNat - n < 2 ^ 32 by omega)⟩

/-- The ancestors of a valid tile are valid. -/
theorem isValid_zoomBy_up {t : Tile} {n : Nat} (ht : t.IsValid) (h : n ≤ t.level.toNat) :
    (t.zoomBy (-n)).IsValid := by
  obtain ⟨hlevel, hinside⟩ := ht
  obtain ⟨hrow, hcolumn, hup⟩ := toNat_zoomBy_up (Nat.le_sub_one_of_lt hlevel) h
  have hrows : rowsAt t.level.toNat = rowsAt (t.level.toNat - n) * rowsAt n := by
    rw [← rowsAt_add, Nat.sub_add_cancel h]
  rw [hrows, ← Nat.div_lt_iff_lt_mul (rowsAt_pos n), ← Nat.div_lt_iff_lt_mul (rowsAt_pos n)]
    at hinside
  rw [IsValid, hrow, hcolumn, hup]
  exact ⟨(Nat.sub_le _ _).trans_lt hlevel, hinside⟩

theorem zoomTo_eq {t : Tile} {level : UInt32} (ht : t.level.toNat ≤ maxLevel)
    (hlevel : level.toNat ≤ maxLevel) :
    t.zoomTo level = t.zoomBy (level.toNat - t.level.toNat) := by
  rw [zoomTo, signedLevel_eq ht, signedLevel_eq hlevel]

/-- The tile of a level that contains a deeper tile. -/
theorem toNat_zoomTo_up {t : Tile} {level : UInt32} (ht : t.level.toNat ≤ maxLevel)
    (h : level.toNat ≤ t.level.toNat) :
    (t.zoomTo level).row.toNat = t.row.toNat / rowsAt (t.level.toNat - level.toNat) ∧
      (t.zoomTo level).column.toNat = t.column.toNat / rowsAt (t.level.toNat - level.toNat) ∧
      (t.zoomTo level).level.toNat = level.toNat := by
  have hdistance : (level.toNat - t.level.toNat : Int) = -(t.level.toNat - level.toNat : Nat) := by
    omega
  obtain ⟨hrow, hcolumn, hdepth⟩ :=
    toNat_zoomBy_up ht (Nat.sub_le t.level.toNat level.toNat)
  rw [zoomTo_eq ht (h.trans ht), hdistance]
  exact ⟨hrow, hcolumn, by omega⟩

/-- The descendant of a tile at a deeper level that has the lowest row and column there. -/
theorem toNat_zoomTo_down {t : Tile} (ht : t.IsValid) {level : UInt32}
    (hlevel : level.toNat ≤ maxLevel) (h : t.level.toNat ≤ level.toNat) :
    (t.zoomTo level).row.toNat = t.row.toNat * rowsAt (level.toNat - t.level.toNat) ∧
      (t.zoomTo level).column.toNat = t.column.toNat * rowsAt (level.toNat - t.level.toNat) ∧
      (t.zoomTo level).level.toNat = level.toNat := by
  have hdistance : (level.toNat - t.level.toNat : Int) = (level.toNat - t.level.toNat : Nat) := by
    omega
  obtain ⟨hrow, hcolumn, hdepth⟩ :=
    toNat_zoomBy_down ht (n := level.toNat - t.level.toNat) (by omega)
  rw [zoomTo_eq (h.trans hlevel) hlevel, hdistance]
  exact ⟨hrow, hcolumn, by omega⟩

/-! ## Children -/

/-- Setting the last bit of an even number adds it. -/
theorem two_mul_or {bit : Nat} (h : bit < 2) (n : Nat) : 2 * n ||| bit = 2 * n + bit :=
  (Nat.two_pow_add_eq_or_of_lt (i := 1) h n).symm

/-- A child has the row and the column of its parent with one bit more, taken from its number. -/
theorem toNat_child {t : Tile} (ht : t.IsValid) (hlevel : t.level.toNat < maxLevel) {index : Nat}
    (hindex : index < 4) :
    (t.child index).row.toNat = 2 * t.row.toNat + index / 2 ∧
      (t.child index).column.toNat = 2 * t.column.toNat + index % 2 ∧
      (t.child index).level.toNat = t.level.toNat + 1 := by
  obtain ⟨hrow, hcolumn, hdepth⟩ := toNat_zoomBy_down ht (n := 1) hlevel
  rw [show rowsAt 1 = 2 from rfl, Nat.mul_comm] at hrow hcolumn
  have hnorth : (UInt32.ofNat (index / 2)).toNat = index / 2 :=
    UInt32.toNat_ofNat_of_lt' (show index / 2 < 2 ^ 32 by omega)
  have heast : (UInt32.ofNat (index % 2)).toNat = index % 2 :=
    UInt32.toNat_ofNat_of_lt' (show index % 2 < 2 ^ 32 by omega)
  refine ⟨?_, ?_, hdepth⟩
  · show ((t.zoomBy 1).row ||| UInt32.ofNat (index / 2)).toNat = _
    rw [UInt32.toNat_or, hnorth]
    exact (congrArg (· ||| index / 2) hrow).trans (two_mul_or (by omega) _)
  · show ((t.zoomBy 1).column ||| UInt32.ofNat (index % 2)).toNat = _
    rw [UInt32.toNat_or, heast]
    exact (congrArg (· ||| index % 2) hcolumn).trans (two_mul_or (by omega) _)

end Tile

end TilePyramid
