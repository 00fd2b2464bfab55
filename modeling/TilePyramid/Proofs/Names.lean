import Mathlib
import TilePyramid.Tile.QuadKey
import TilePyramid.Tile.Decimal
import TilePyramid.Proofs.Zoom

/-!
# Reading written tiles

A valid tile is read back from its quad key (`Tile.ofQuadKey_quadKey`) and from its decimal name
(`Tile.ofDecimalName_decimalName`). A quad key is read by walking down from the root, and the digits
of a tile are the way that ends there (`Tile.toNat_foldl_child_digits`).
-/

namespace TilePyramid

namespace Tile

/-! ## The way of a tile -/

theorem length_digits (level row column : Nat) : (digits level row column).length = level := by
  induction level generalizing row column with
  | zero => rfl
  | succ level ih => simp [digits, ih]

theorem lt_of_mem_digits {level row column index : Nat} (h : index ∈ digits level row column) :
    index < 4 := by
  induction level generalizing row column with
  | zero => exact absurd h List.not_mem_nil
  | succ level ih =>
      rcases List.mem_append.1 h with hbefore | hlast
      · exact ih hbefore
      · obtain rfl := List.mem_singleton.1 hlast
        exact Code.digit_lt row column

/-- The way down from the root along the digits of a row and a column ends there. -/
theorem toNat_foldl_child_digits {level row column : Nat} (hlevel : level ≤ maxLevel)
    (hrow : row < rowsAt level) (hcolumn : column < rowsAt level) :
    ((digits level row column).foldl child root).row.toNat = row ∧
      ((digits level row column).foldl child root).column.toNat = column ∧
      ((digits level row column).foldl child root).level.toNat = level := by
  induction level generalizing row column with
  | zero =>
      obtain rfl : row = 0 := Nat.lt_one_iff.1 hrow
      obtain rfl : column = 0 := Nat.lt_one_iff.1 hcolumn
      exact ⟨rfl, rfl, rfl⟩
  | succ level ih =>
      rw [rowsAt_succ] at hrow hcolumn
      have hrow' : row / 2 < rowsAt level := by omega
      have hcolumn' : column / 2 < rowsAt level := by omega
      obtain ⟨hr, hc, hl⟩ := ih (Nat.le_of_succ_le hlevel) hrow' hcolumn'
      rw [digits, List.foldl_append, List.foldl_cons, List.foldl_nil]
      generalize (digits level (row / 2) (column / 2)).foldl child root = t at hr hc hl
      have ht : t.IsValid := by
        rw [IsValid, hr, hc, hl]
        exact ⟨Nat.lt_succ_of_lt hlevel, hrow', hcolumn'⟩
      obtain ⟨hchildrow, hchildcolumn, hchildlevel⟩ :=
        toNat_child ht (hl.trans_lt hlevel) (Code.digit_lt row column)
      rw [hchildrow, hchildcolumn, hchildlevel, hr, hc, hl]
      unfold digit
      omega

/-- A valid tile lies at the end of the way of its digits. -/
theorem foldl_child_digits {t : Tile} (ht : t.IsValid) :
    (digits t.level.toNat t.row.toNat t.column.toNat).foldl child root = t := by
  obtain ⟨hr, hc, hl⟩ := toNat_foldl_child_digits (Nat.le_sub_one_of_lt ht.1) ht.2.1 ht.2.2
  exact eq_of_toNat hr hc hl

/-! ## Quad keys -/

theorem digit?_digitChar {index : Nat} (h : index < 4) : digit? (digitChar index) = some index := by
  interval_cases index <;> rfl

theorem utf8Size_digitChar (index : Nat) : (digitChar index).utf8Size = 1 := by
  unfold digitChar
  split <;> rfl

theorem utf8Len_map_digitChar (way : List Nat) :
    String.utf8Len (way.map digitChar) = way.length := by
  induction way with
  | nil => rfl
  | cons index way ih =>
      rw [List.map_cons, String.utf8Len_cons, ih, utf8Size_digitChar, List.length_cons]

theorem mapM_digit?_map_digitChar {way : List Nat} (h : ∀ index ∈ way, index < 4) :
    (way.map digitChar).mapM digit? = some way := by
  induction way with
  | nil => rfl
  | cons index way ih =>
      have hrest := ih fun other hother => h other (List.mem_cons_of_mem index hother)
      rw [List.map_cons, List.mapM_cons, digit?_digitChar (h index List.mem_cons_self), hrest]
      rfl

/-- The hyphen is no digit. -/
theorem ofList_map_digitChar_ne_hyphen {way : List Nat} (h : ∀ index ∈ way, index < 4) :
    String.ofList (way.map digitChar) ≠ "-" := by
  intro heq
  have hread := mapM_digit?_map_digitChar h
  rw [← String.toList_ofList (l := way.map digitChar), heq] at hread
  cases hread

/-- A quad key with digits is read by the way that they describe. -/
theorem ofQuadKey_map_digitChar {way : List Nat} (hway : ∀ index ∈ way, index < 4)
    (hne : way ≠ []) (hlength : way.length ≤ maxLevel) :
    ofQuadKey (String.ofList (way.map digitChar)) = way.foldl child root := by
  have hsize : (String.ofList (way.map digitChar)).utf8ByteSize = way.length := by
    rw [String.utf8ByteSize_ofList, utf8Len_map_digitChar]
  have hlong : ¬ ((String.ofList (way.map digitChar)).isEmpty ||
      maxLevel < (String.ofList (way.map digitChar)).utf8ByteSize) = true := by
    rw [String.isEmpty_eq_utf8ByteSize_beq_zero, hsize]
    simp [hne, hlength]
  rw [ofQuadKey, if_neg hlong, if_neg (ofList_map_digitChar_ne_hyphen hway), String.toList_ofList,
    mapM_digit?_map_digitChar hway]

/-- A valid tile is read back from its quad key. -/
theorem ofQuadKey_quadKey {t : Tile} (ht : t.IsValid) : ofQuadKey t.quadKey = t := by
  obtain ⟨hlevel, hrow, hcolumn⟩ := ht
  rw [quadKey, if_pos ⟨hlevel, hrow, hcolumn⟩]
  by_cases hroot : t.level = 0
  · have hzero : t.level.toNat = 0 := congrArg UInt32.toNat hroot
    rw [hzero] at hrow hcolumn
    rw [if_pos hroot]
    exact eq_of_toNat (Nat.lt_one_iff.1 hrow).symm (Nat.lt_one_iff.1 hcolumn).symm hzero.symm
  · have hdeep : t.level.toNat ≠ 0 := fun hzero => hroot (UInt32.toNat_inj.1 hzero)
    have hlength := length_digits t.level.toNat t.row.toNat t.column.toNat
    have hne : digits t.level.toNat t.row.toNat t.column.toNat ≠ [] := by
      rw [← List.length_pos_iff, hlength]
      exact Nat.pos_of_ne_zero hdeep
    have hdeepest : t.level.toNat ≤ maxLevel := Nat.le_sub_one_of_lt hlevel
    rw [if_neg hroot, ofQuadKey_map_digitChar (fun _ => lt_of_mem_digits) hne
      (hlength.trans_le hdeepest)]
    exact foldl_child_digits ⟨hlevel, hrow, hcolumn⟩

end Tile

/-! ## Decimal names -/

namespace Code

theorem dropPlus_of_isDigit {cs : List Char} (h : ∀ c ∈ cs, c.isDigit = true) :
    dropPlus cs = cs := by
  unfold dropPlus
  split
  · exact absurd (h '+' List.mem_cons_self) (by decide)
  · rfl

/-- A code is read back from its decimal digits. -/
theorem ofDecimal?_decimal (code : Code) : ofDecimal? code.decimal = some code := by
  have hword := code.word.toNat_lt
  have htext : code.decimal.toList = Nat.toDigits 10 code.word.toNat := String.toList_ofList
  have hdigits : ∀ c ∈ Nat.toDigits 10 code.word.toNat, c.isDigit = true :=
    fun c => Nat.isDigit_of_mem_toDigits (by decide) (Nat.le_refl 10)
  have hread : Nat.toDigits 10 code.word.toNat ≠ [] ∧
      (Nat.toDigits 10 code.word.toNat).all Char.isDigit = true ∧
      code.word.toNat < 0x10000000000000000 :=
    ⟨Nat.toDigits_ne_nil, List.all_eq_true.2 hdigits, hword⟩
  simp only [ofDecimal?, htext, dropPlus_of_isDigit hdigits, Nat.ofDigitChars_ten_toDigits]
  rw [if_pos hread, UInt64.ofNat_toNat]

end Code

/-- A valid tile is read back from its decimal name. -/
theorem Tile.ofDecimalName_decimalName {t : Tile} (ht : t.IsValid) :
    ofDecimalName t.decimalName = t := by
  rw [ofDecimalName, decimalName, Code.ofDecimal?_decimal]
  exact ofCode_code ht

end TilePyramid
