import Mathlib
import TilePyramid.Tile.Code

/-!
# Reading and writing Morton codes

`Tile.ofCode` undoes `Tile.code` on valid tiles, and `Tile.code` undoes `Tile.ofCode` up to the mark
of the level. Both directions rest on one invariant of `Code.position`: the row and the column it
reads off a code interleave to the code's digits below the mark (`Code.interleave_position`), and
the level it finds says where the highest bit of the code stands (`Code.lt_two_mul_tilesAt`,
`Code.tilesAt_le_two_mul`).
-/

namespace TilePyramid

/-! ## Rows and tiles of a level -/

theorem tilesAt_zero : tilesAt 0 = 1 := rfl

theorem rowsAt_succ (level : Nat) : rowsAt (level + 1) = 2 * rowsAt level := by
  simp only [rowsAt, Nat.pow_eq, pow_succ]
  omega

theorem tilesAt_succ (level : Nat) : tilesAt (level + 1) = 4 * tilesAt level := by
  simp only [tilesAt, Nat.pow_eq, pow_succ]
  omega

theorem rowsAt_pos (level : Nat) : 0 < rowsAt level := Nat.pow_pos (by decide)

theorem tilesAt_pos (level : Nat) : 0 < tilesAt level := Nat.pow_pos (by decide)

theorem rowsAt_mono {level deeper : Nat} (h : level ≤ deeper) : rowsAt level ≤ rowsAt deeper :=
  Nat.pow_le_pow_right (by decide) h

theorem tilesAt_mono {level deeper : Nat} (h : level ≤ deeper) : tilesAt level ≤ tilesAt deeper :=
  Nat.pow_le_pow_right (by decide) h

/-- A level has as many tiles as a code has values in two bits per level. -/
theorem tilesAt_eq_two_pow (level : Nat) : tilesAt level = 2 ^ (2 * level) := by
  simp [tilesAt, pow_mul]

/-- No level that can be addressed has more rows than a word can count. -/
theorem rowsAt_lt_word {level : Nat} (h : level < levelCount) : rowsAt level < 2 ^ 32 :=
  lt_of_le_of_lt (rowsAt_mono (Nat.le_sub_one_of_lt h)) (by decide)

/-- A level that can be addressed fits a word. -/
theorem toNat_ofNat_level {level : Nat} (h : level ≤ maxLevel) :
    (UInt32.ofNat level).toNat = level := by
  have hdeepest : maxLevel < 2 ^ 32 := by decide
  exact UInt32.toNat_ofNat_of_lt' (h.trans_lt hdeepest)

/-- A power of two shares no bit with a lesser number. -/
theorem two_pow_or_eq_add {n low : Nat} (h : low < 2 ^ n) : 2 ^ n ||| low = 2 ^ n + low := by
  have hdisjoint := Nat.two_pow_add_eq_or_of_lt h 1
  rw [mul_one] at hdisjoint
  exact hdisjoint.symm

namespace Code

/-! ## Interleaving -/

theorem digit_lt (row column : Nat) : Tile.digit row column < 4 := by
  unfold Tile.digit
  omega

@[simp] theorem interleave_zero (width : Nat) : interleave width 0 0 = 0 := by
  induction width with
  | zero => rfl
  | succ width ih => simp [interleave, Tile.digit, ih]

/-- Rows and columns of a level interleave to a number of as many digits. -/
theorem interleave_lt (width : Nat) {row column level : Nat} (hrow : row < rowsAt level)
    (hcolumn : column < rowsAt level) : interleave width row column < tilesAt level := by
  induction width generalizing row column level with
  | zero => exact tilesAt_pos level
  | succ width ih =>
      cases level with
      | zero =>
          obtain rfl : row = 0 := Nat.lt_one_iff.1 hrow
          obtain rfl : column = 0 := Nat.lt_one_iff.1 hcolumn
          rw [interleave_zero]
          exact tilesAt_pos 0
      | succ level =>
          rw [rowsAt_succ] at hrow hcolumn
          have hrest : interleave width (row / 2) (column / 2) < tilesAt level :=
            ih (by omega) (by omega)
          have hdigit := digit_lt row column
          rw [interleave, tilesAt_succ]
          omega

/-! ## The position of a code -/

theorem position_of_le_one {code : Nat} (h : code ≤ 1) : position code = (0, 0, 0) := by
  rw [position, if_pos h]

/-- A code of more than one bit adds its last two bits to the position of the rest. -/
theorem position_of_one_lt {code row column level : Nat} (h : 1 < code)
    (hrest : position (code / 4) = (row, column, level)) :
    position code = (2 * row + code % 4 / 2, 2 * column + code % 2, level + 1) := by
  rw [position, if_neg (by omega), hrest]

/-- A row and a column of `depth` levels, written behind a code, take the position of the code
`depth` levels down to that row and column there. -/
theorem position_append_interleave {code row column level : Nat} (hcode : 1 ≤ code)
    (h : position code = (row, column, level)) {width depth r c : Nat} (hwidth : depth ≤ width)
    (hr : r < rowsAt depth) (hc : c < rowsAt depth) :
    position (code * tilesAt depth + interleave width r c) =
      (row * rowsAt depth + r, column * rowsAt depth + c, level + depth) := by
  induction depth generalizing width r c with
  | zero =>
      obtain rfl : r = 0 := Nat.lt_one_iff.1 hr
      obtain rfl : c = 0 := Nat.lt_one_iff.1 hc
      rw [interleave_zero, tilesAt_zero, Nat.mul_one]
      simpa [rowsAt] using h
  | succ depth ih =>
      obtain ⟨width, rfl⟩ : ∃ rest, width = rest + 1 := ⟨width - 1, by omega⟩
      rw [rowsAt_succ] at hr hc
      have hrest : position (code * tilesAt depth + interleave width (r / 2) (c / 2)) =
          (row * rowsAt depth + r / 2, column * rowsAt depth + c / 2, level + depth) :=
        ih (by omega) (by omega) (by omega)
      have hmark : 1 ≤ code * tilesAt depth := Nat.mul_pos hcode (tilesAt_pos depth)
      have hdigit := digit_lt r c
      rw [tilesAt_succ, interleave, Nat.mul_left_comm]
      -- The last digit is that of row and column, and before it stands the code one level up.
      generalize hlonger : 4 * (code * tilesAt depth) +
        (Tile.digit r c + 4 * interleave width (r / 2) (c / 2)) = longer
      have hshift : longer / 4 = code * tilesAt depth + interleave width (r / 2) (c / 2) := by omega
      have hlast : longer % 4 = Tile.digit r c := by omega
      rw [position_of_one_lt (by omega) (hshift ▸ hrest), rowsAt_succ]
      simp only [Tile.digit] at hlast
      have hnorth : longer % 4 / 2 = r % 2 := by omega
      have heast : longer % 2 = c % 2 := by omega
      rw [hnorth, heast, Nat.mul_add, Nat.mul_add, Nat.add_assoc, Nat.add_assoc, Nat.div_add_mod,
        Nat.div_add_mod, Nat.mul_left_comm 2 row, Nat.mul_left_comm 2 column, Nat.add_assoc]

/-- The mark of a level followed by a row and a column of that level is read back. -/
theorem position_mark_add_interleave {width row column level : Nat} (hwidth : level ≤ width)
    (hrow : row < rowsAt level) (hcolumn : column < rowsAt level) :
    position (tilesAt level + interleave width row column) = (row, column, level) := by
  have happend := position_append_interleave (Nat.le_refl 1) (position_of_le_one (Nat.le_refl 1))
    hwidth hrow hcolumn
  simpa using happend

/-- Induction over the reading of a code: codes of at most one bit have the position of the root,
and every other code adds its last two bits to the position of the rest. -/
@[elab_as_elim]
theorem position_induction
    {motive : ∀ code row column level, position code = (row, column, level) → Prop}
    (small : ∀ code (hsmall : code ≤ 1), motive code 0 0 0 (position_of_le_one hsmall))
    (digit : ∀ code row column level (hlarge : 1 < code)
      (hrest : position (code / 4) = (row, column, level)),
      motive (code / 4) row column level hrest →
        motive code (2 * row + code % 4 / 2) (2 * column + code % 2) (level + 1)
          (position_of_one_lt hlarge hrest))
    {code row column level : Nat} (h : position code = (row, column, level)) :
    motive code row column level h := by
  induction code using Nat.strong_induction_on generalizing row column level with
  | _ code ih =>
      by_cases hsmall : code ≤ 1
      · obtain ⟨rfl, rfl, rfl⟩ : row = 0 ∧ column = 0 ∧ level = 0 := by
          simpa [position_of_le_one hsmall, eq_comm] using h
        exact small code hsmall
      · obtain ⟨⟨r, c, l⟩, hrest⟩ : ∃ p, position (code / 4) = p := ⟨_, rfl⟩
        have hread := position_of_one_lt (by omega) hrest
        obtain ⟨rfl, rfl, rfl⟩ : row = 2 * r + code % 4 / 2 ∧ column = 2 * c + code % 2 ∧
            level = l + 1 := by
          simpa [hread, eq_comm] using h
        exact digit code r c l (by omega) hrest (ih (code / 4) (by omega) hrest)

/-- The row and the column of a code lie in the level of the code. -/
theorem position_lt_rowsAt {code row column level : Nat}
    (h : position code = (row, column, level)) :
    row < rowsAt level ∧ column < rowsAt level := by
  induction h using position_induction with
  | small code hsmall => exact ⟨rowsAt_pos 0, rowsAt_pos 0⟩
  | digit code row column level hlarge hrest ih =>
      rw [rowsAt_succ]
      omega

/-- The row and the column of a code interleave to the digits of the code below its mark. -/
theorem interleave_position {code row column level width : Nat}
    (h : position code = (row, column, level)) (hwidth : level ≤ width) :
    interleave width row column = code % tilesAt level := by
  induction h using position_induction generalizing width with
  | small code hsmall => rw [interleave_zero, tilesAt_zero, Nat.mod_one]
  | digit code row column level hlarge hrest ih =>
      obtain ⟨width, rfl⟩ : ∃ rest, width = rest + 1 := ⟨width - 1, by omega⟩
      have hbelow : interleave width row column = code / 4 % tilesAt level := ih (by omega)
      have hrow : (2 * row + code % 4 / 2) / 2 = row := by omega
      have hcolumn : (2 * column + code % 2) / 2 = column := by omega
      have hdigit : Tile.digit (2 * row + code % 4 / 2) (2 * column + code % 2) = code % 4 := by
        unfold Tile.digit
        omega
      rw [interleave, hrow, hcolumn, hdigit, hbelow, tilesAt_succ, Nat.mod_mul]

/-- A code has no bit above the mark of its level. -/
theorem lt_two_mul_tilesAt {code row column level : Nat}
    (h : position code = (row, column, level)) : code < 2 * tilesAt level := by
  induction h using position_induction with
  | small code hsmall =>
      rw [tilesAt_zero]
      omega
  | digit code row column level hlarge hrest ih =>
      rw [tilesAt_succ]
      omega

/-- The highest bit of a code stands at the mark of its level or right below it. -/
theorem tilesAt_le_two_mul {code row column level : Nat}
    (h : position code = (row, column, level)) (hlevel : level ≠ 0) :
    tilesAt level ≤ 2 * code := by
  induction h using position_induction with
  | small code hsmall => exact absurd rfl hlevel
  | digit code row column level hlarge hrest ih =>
      rw [tilesAt_succ]
      cases level with
      | zero =>
          rw [tilesAt_zero]
          omega
      | succ above =>
          have hbelow := ih (Nat.succ_ne_zero above)
          omega

/-- A code of one word has at most as many levels as a word has pairs of bits. -/
theorem level_le_of_word {code row column level : Nat} (hcode : code < 2 ^ 64)
    (h : position code = (row, column, level)) : level ≤ levelCount := by
  by_contra hdeep
  have hmark := tilesAt_le_two_mul h (by omega)
  have hdeeper : tilesAt (levelCount + 1) ≤ tilesAt level := tilesAt_mono (by omega)
  have htop : tilesAt (levelCount + 1) = 4 * 2 ^ 64 := by decide
  omega

/-- The level of a code lies below the deepest one exactly if the highest bit of the word is not
set. -/
theorem level_lt_iff {code row column level : Nat} (hcode : code < 2 ^ 64)
    (h : position code = (row, column, level)) : level < levelCount ↔ code < 2 ^ 63 := by
  constructor
  · intro hlevel
    have hlt := lt_two_mul_tilesAt h
    have hdeepest : tilesAt level ≤ tilesAt maxLevel := tilesAt_mono (Nat.le_sub_one_of_lt hlevel)
    have htop : tilesAt maxLevel = 2 ^ 62 := by decide
    omega
  · intro hsmall
    by_contra hdeep
    have hlevel : level = levelCount := le_antisymm (level_le_of_word hcode h) (by omega)
    subst hlevel
    have hmark := tilesAt_le_two_mul h (by decide)
    have htop : tilesAt levelCount = 2 ^ 64 := by decide
    omega

/-- The mark of a level and the digits below it share no bit. -/
theorem mark_or_eq_add {level low : Nat} (h : low < tilesAt level) :
    tilesAt level ||| low = tilesAt level + low := by
  rw [tilesAt_eq_two_pow] at h ⊢
  exact two_pow_or_eq_add h

/-- A code with its mark set has the mark in front of its digits below. -/
theorem mark_add_mod {level code : Nat} (h : code < 2 * tilesAt level)
    (hmark : tilesAt level ≤ code) :
    tilesAt level + code % tilesAt level = code := by
  rw [Nat.mod_eq_sub_mod hmark, Nat.mod_eq_of_lt (by omega)]
  omega

/-- Setting the mark in front of the digits below it is setting it in the whole code, because
nothing stands above it. -/
theorem mark_or_mod {level code : Nat} (h : code < 2 * tilesAt level) :
    tilesAt level ||| code % tilesAt level = code ||| tilesAt level := by
  rcases Nat.lt_or_ge code (tilesAt level) with hlt | hge
  · rw [Nat.mod_eq_of_lt hlt, Nat.or_comm]
  · have hcode : tilesAt level ||| code % tilesAt level = code := by
      rw [mark_or_eq_add (Nat.mod_lt _ (tilesAt_pos level)), mark_add_mod h hge]
    conv_rhs => rw [← hcode, Nat.or_comm, ← Nat.or_assoc, Nat.or_self]

/-- Setting the mark of a code leaves the code as it is exactly if the code has it already. -/
theorem or_mark_eq_iff {level code : Nat} (h : code < 2 * tilesAt level) :
    code ||| tilesAt level = code ↔ tilesAt level ≤ code := by
  constructor
  · intro heq
    rw [← heq]
    exact Nat.right_le_or
  · intro hmark
    rw [← mark_or_mod h, mark_or_eq_add (Nat.mod_lt _ (tilesAt_pos level)), mark_add_mod h hmark]

/-- The mark of a level is the highest bit of a code that has nothing above it. -/
theorem log2_eq_of_mark {level code : Nat} (hmark : tilesAt level ≤ code)
    (h : code < 2 * tilesAt level) : Nat.log2 code = 2 * level := by
  have hpos := tilesAt_pos level
  rw [Nat.log2_eq_iff (by omega), pow_succ, ← tilesAt_eq_two_pow]
  omega

/-- The highest bit of a code stands at an even place exactly if the mark of its level is set. -/
theorem even_log2_iff {code row column level : Nat} (h : position code = (row, column, level))
    (hcode : code ≠ 0) : Even (Nat.log2 code) ↔ tilesAt level ≤ code := by
  have hlt := lt_two_mul_tilesAt h
  rw [tilesAt_eq_two_pow] at hlt
  constructor
  · intro heven
    by_contra hsmall
    have hlevel : level ≠ 0 := by
      rintro rfl
      rw [tilesAt_zero] at hsmall
      omega
    have hmark := tilesAt_le_two_mul h hlevel
    obtain ⟨above, rfl⟩ := Nat.exists_eq_succ_of_ne_zero hlevel
    rw [tilesAt_eq_two_pow] at hmark hsmall
    have hlog : Nat.log2 code = 2 * above + 1 := by
      rw [Nat.log2_eq_iff hcode]
      rw [show 2 * above.succ = 2 * above + 1 + 1 by omega] at hmark hsmall
      rw [pow_succ] at hmark
      omega
    rw [hlog] at heven
    exact absurd heven (by simp [parity_simps])
  · intro hmark
    rw [log2_eq_of_mark hmark (lt_two_mul_tilesAt h)]
    exact even_two_mul level

/-- A code is given by its number. -/
theorem eq_iff_toNat {c d : Code} : c = d ↔ c.word.toNat = d.word.toNat := by
  rw [UInt64.toNat_inj]
  cases c
  cases d
  simp

/-- A code is canonical when its highest set bit stands at an even place, where the marks of the
levels are. -/
def IsCanonical (code : Code) : Prop :=
  code.word.toNat ≠ 0 ∧ Even (Nat.log2 code.word.toNat)

/-- A canonical code is one that has the mark of its level set. -/
theorem isCanonical_iff {code : Code} {row column level : Nat}
    (h : position code.word.toNat = (row, column, level)) :
    code.IsCanonical ↔ tilesAt level ≤ code.word.toNat := by
  constructor
  · intro h'
    obtain ⟨hne, heven⟩ := h'
    exact (even_log2_iff h hne).1 heven
  · intro hmark
    have hne : code.word.toNat ≠ 0 := by
      have := tilesAt_pos level
      omega
    exact ⟨hne, (even_log2_iff h hne).2 hmark⟩

end Code

namespace Tile

open Code

/-! ## Tiles and their codes -/

/-- A tile is given by the numbers of its row, its column and its level. -/
theorem eq_of_toNat {s t : Tile} (hrow : s.row.toNat = t.row.toNat)
    (hcolumn : s.column.toNat = t.column.toNat) (hlevel : s.level.toNat = t.level.toNat) :
    s = t := by
  cases s
  cases t
  simp_all [UInt32.toNat_inj]

/-- Row, column and level of a tile as numbers. -/
def numbers (t : Tile) : Nat × Nat × Nat := (t.row.toNat, t.column.toNat, t.level.toNat)

/-- The code of a valid tile is the mark of its level followed by its digits. -/
theorem code_toNat {t : Tile} (h : t.IsValid) :
    t.code.word.toNat =
      tilesAt t.level.toNat + interleave 32 t.row.toNat t.column.toNat := by
  obtain ⟨hlevel, hrow, hcolumn⟩ := h
  have hlow := interleave_lt 32 hrow hcolumn
  have hdeepest : tilesAt t.level.toNat ≤ tilesAt maxLevel :=
    tilesAt_mono (Nat.le_sub_one_of_lt hlevel)
  have htop : tilesAt maxLevel = 2 ^ 62 := by decide
  simp only [code, levelMark, if_pos hlevel, UInt64.toNat_ofNat', mark_or_eq_add hlow]
  exact Nat.mod_eq_of_lt (by omega)

theorem one_le_code {t : Tile} (h : t.IsValid) : 1 ≤ t.code.word.toNat := by
  rw [code_toNat h]
  exact (tilesAt_pos _).trans_le (Nat.le_add_right _ _)

/-- The row, the column and the level of a decoded tile are those that the code stands for. -/
theorem toNat_ofCode {code : Code} {row column level : Nat}
    (h : position code.word.toNat = (row, column, level)) :
    (ofCode code).row.toNat = row ∧ (ofCode code).column.toNat = column ∧
      (ofCode code).level.toNat = level := by
  have hlevel : level ≤ levelCount := level_le_of_word code.word.toNat_lt h
  have hrows : rowsAt level ≤ 2 ^ 32 := rowsAt_mono hlevel
  obtain ⟨hrow, hcolumn⟩ := position_lt_rowsAt h
  have hcount : levelCount < 2 ^ 32 := by decide
  simp only [ofCode, h, UInt32.toNat_ofNat']
  exact ⟨Nat.mod_eq_of_lt (by omega), Nat.mod_eq_of_lt (by omega), Nat.mod_eq_of_lt (by omega)⟩

/-- Decoding gives a valid tile exactly if the code leaves the highest bit of the word free. -/
theorem isValid_ofCode_iff (code : Code) :
    (ofCode code).IsValid ↔ code.word.toNat < 2 ^ 63 := by
  obtain ⟨⟨row, column, level⟩, h⟩ : ∃ p, position code.word.toNat = p := ⟨_, rfl⟩
  obtain ⟨hrow, hcolumn, hlevel⟩ := toNat_ofCode h
  rw [IsValid, hrow, hcolumn, hlevel, ← level_lt_iff code.word.toNat_lt h]
  exact ⟨fun hvalid => hvalid.1, fun hlt => ⟨hlt, position_lt_rowsAt h⟩⟩

/-- The code of a valid tile stands for its row, its column and its level. -/
theorem position_code {t : Tile} (h : t.IsValid) :
    position t.code.word.toNat = (t.row.toNat, t.column.toNat, t.level.toNat) := by
  rw [code_toNat h]
  exact position_mark_add_interleave (Nat.le_of_lt h.1) h.2.1 h.2.2

/-- Decoding the code of a valid tile gives the tile back. -/
theorem ofCode_code {t : Tile} (h : t.IsValid) : ofCode t.code = t := by
  obtain ⟨hrow, hcolumn, hlevel⟩ := toNat_ofCode (position_code h)
  exact eq_of_toNat hrow hcolumn hlevel

/-- Valid tiles with the same code are the same. -/
theorem code_injOn : Set.InjOn code { t | t.IsValid } := by
  intro s hs t ht h
  rw [← ofCode_code hs, h, ofCode_code ht]

/-- Encoding a decoded tile sets the mark of its level in the code, if the level has one. -/
theorem code_ofCode_toNat {c : Code} {row column level : Nat}
    (h : position c.word.toNat = (row, column, level)) :
    (ofCode c).code.word.toNat =
      if level < levelCount then c.word.toNat ||| tilesAt level else c.word.toNat := by
  obtain ⟨hrow, hcolumn, hlevel⟩ := toNat_ofCode h
  have hword := c.word.toNat_lt
  have hle : level ≤ levelCount := level_le_of_word hword h
  have hlow : interleave 32 row column = c.word.toNat % tilesAt level := interleave_position h hle
  simp only [code, hrow, hcolumn, hlevel, levelMark, hlow, UInt64.toNat_ofNat']
  split
  · rename_i hlt
    have hmark : tilesAt level < 2 ^ 64 := lt_of_le_of_lt
      (tilesAt_mono (Nat.le_sub_one_of_lt hlt)) (by decide)
    rw [mark_or_mod (lt_two_mul_tilesAt h)]
    exact Nat.mod_eq_of_lt (Nat.or_lt_two_pow hword hmark)
  · rename_i hge
    obtain rfl : level = levelCount := by omega
    have htop : tilesAt levelCount = 2 ^ 64 := by decide
    rw [Nat.zero_or, htop, Nat.mod_mod, Nat.mod_eq_of_lt hword]

/-- Encoding undoes decoding exactly on the canonical codes and on those that use the highest bit
of the word. -/
theorem code_ofCode_eq_iff (c : Code) :
    (ofCode c).code = c ↔ c.IsCanonical ∨ 2 ^ 63 ≤ c.word.toNat := by
  obtain ⟨⟨row, column, level⟩, h⟩ : ∃ p, position c.word.toNat = p := ⟨_, rfl⟩
  rw [Code.eq_iff_toNat, code_ofCode_toNat h, isCanonical_iff h]
  have hlevel := level_lt_iff c.word.toNat_lt h
  split
  · rename_i hlt
    rw [or_mark_eq_iff (lt_two_mul_tilesAt h)]
    omega
  · rename_i hge
    simp only [true_iff]
    omega

/-- The canonical codes are the codes of valid tiles. -/
theorem isCanonical_iff_exists (c : Code) : c.IsCanonical ↔ ∃ t : Tile, t.IsValid ∧ t.code = c := by
  constructor
  · intro hcanonical
    refine ⟨ofCode c, ?_, (code_ofCode_eq_iff c).2 (.inl hcanonical)⟩
    rw [isValid_ofCode_iff]
    by_contra hlarge
    have hlog : Nat.log2 c.word.toNat = 63 := by
      rw [Nat.log2_eq_iff hcanonical.1]
      exact ⟨by omega, c.word.toNat_lt⟩
    exact absurd (hlog ▸ hcanonical.2) (by decide)
  · intro h
    obtain ⟨t, ht, rfl⟩ := h
    rw [isCanonical_iff (position_code ht), code_toNat ht]
    exact Nat.le_add_right _ _

/-- Tiles and codes. Decoding undoes encoding on valid tiles, so their codes differ. Every word
decodes to a level of at most 32, and encoding the result sets the mark of that level, which is
no change exactly for the codes of valid tiles and for those that decode below the deepest level.
The codes of valid tiles are the canonical ones, and those with a valid tile leave the highest bit
free. -/
theorem code_round_trips :
    (∀ t : Tile, t.IsValid → ofCode t.code = t) ∧
    Set.InjOn code { t | t.IsValid } ∧
    (∀ c : Code, (ofCode c).level.toNat ≤ levelCount ∧
      ((ofCode c).level.toNat < levelCount →
        (ofCode c).code.word.toNat = c.word.toNat ||| 4 ^ (ofCode c).level.toNat) ∧
      ((ofCode c).level.toNat = levelCount → (ofCode c).code = c)) ∧
    (∀ c : Code, (ofCode c).code = c ↔ c.IsCanonical ∨ 2 ^ 63 ≤ c.word.toNat) ∧
    (∀ c : Code, c.IsCanonical ↔ ∃ t : Tile, t.IsValid ∧ t.code = c) ∧
    (∀ c : Code, (ofCode c).IsValid ↔ c.word.toNat < 2 ^ 63) := by
  refine ⟨fun _ => ofCode_code, code_injOn, fun c => ?_, code_ofCode_eq_iff,
    isCanonical_iff_exists, isValid_ofCode_iff⟩
  obtain ⟨⟨row, column, level⟩, h⟩ : ∃ p, position c.word.toNat = p := ⟨_, rfl⟩
  obtain ⟨-, -, hlevel⟩ := toNat_ofCode h
  have hword := c.word.toNat_lt
  rw [hlevel]
  refine ⟨level_le_of_word hword h, ?_, ?_⟩
  · intro hlt
    rw [code_ofCode_toNat h, if_pos hlt]
    rfl
  · intro hdeepest
    have hlarge := level_lt_iff hword h
    exact (code_ofCode_eq_iff c).2 (.inr (by omega))

/-- A tile of the deepest level comes back from its code. The word 2, which lacks the mark of its
level, does not come back from its tile. -/
theorem code_round_trips_deepest :
    (⟨0x7FFFFFFF, 5, 31⟩ : Tile).IsValid ∧
      ofCode (⟨0x7FFFFFFF, 5, 31⟩ : Tile).code = ⟨0x7FFFFFFF, 5, 31⟩ ∧
      (ofCode ⟨2⟩).IsValid ∧ (ofCode ⟨2⟩).code ≠ ⟨2⟩ := by
  obtain ⟨hdecode, -, -, hfixed, -, hvalid⟩ := code_round_trips
  have htile : (⟨0x7FFFFFFF, 5, 31⟩ : Tile).IsValid := by decide
  refine ⟨htile, hdecode _ htile, (hvalid ⟨2⟩).2 (by decide), fun hsame => ?_⟩
  rcases (hfixed ⟨2⟩).1 hsame with hcanonical | hlarge
  · exact absurd hcanonical.2 (by decide)
  · exact absurd hlarge (by decide)

end Tile

end TilePyramid
