import Mathlib
import TilePyramid.Proofs.Code

/-!
# Codes by table and by loop

Words of 32 bits are interleaved by a table with an entry for each byte, which has the bits of the
byte at its even places: four entries, each shifted to its place, make up one word. A code is read
by a loop that takes off two bits in each turn. `Code.encode` and `Code.decode` go this way, and
compute `Tile.code` and `Tile.ofCode` (`Code.encode_eq`, `Code.decode_eq`). The table is known by
the bits of what is looked up in it (`Code.testBit_lookUp`), and the loop by what one turn does
(`Code.Reading.turn_spec`), from which follows what all turns do (`Code.Reading.run_spec`).
-/

namespace TilePyramid

namespace Code

/-! ## Interleaving by a table -/

/-- One turn of the loop over the bits of a byte: a bit that is set is set at twice its place. -/
def spreadBit (byte : Nat) (spread : UInt64) (bit : Nat) : UInt64 :=
  if byte &&& 1 <<< bit ≠ 0 then spread ||| 1 <<< UInt64.ofNat (2 * bit) else spread

/-- The entry of the table for a byte. -/
def spreadByte (byte : Nat) : UInt64 := (List.range 8).foldl (spreadBit byte) 0

/-- The table with an entry for each byte. -/
def spreadTable : Array UInt64 := Array.ofFn fun byte : Fin 256 => spreadByte byte

/-- The entry for the byte of a word behind the given number of places. -/
def lookUp (word : UInt32) (places : Nat) : UInt64 :=
  spreadTable.getD (word >>> UInt32.ofNat places &&& 0xFF).toNat 0

/-- The bits of a word at every second place, from the given one on. -/
def spreadWord (word : UInt32) (place : Nat) : UInt64 :=
  lookUp word 24 <<< UInt64.ofNat (48 + place) ||| lookUp word 16 <<< UInt64.ofNat (32 + place) |||
    lookUp word 8 <<< UInt64.ofNat (16 + place) ||| lookUp word 0 <<< UInt64.ofNat place

/-- The bit that marks a level, if there is room for it. The place of the bit is computed in a word
of 32 bits. -/
def markWord (level : UInt32) : UInt64 :=
  if 2 * level < 64 then 1 <<< (2 * level).toUInt64 else 0

/-- The word of the code of a tile. -/
def encode (t : Tile) : UInt64 :=
  markWord t.level ||| spreadWord t.row 1 ||| spreadWord t.column 0

/-- A word is shifted by a number of places below its width. -/
theorem toNat_shiftLeft_ofNat (word : UInt64) {places : Nat} (h : places < 64) :
    (word <<< UInt64.ofNat places).toNat = word.toNat <<< places % 2 ^ 64 := by
  have hplaces : (UInt64.ofNat places).toNat % 64 = places := by
    rw [UInt64.toNat_ofNat_of_lt' (h.trans (by decide)), Nat.mod_eq_of_lt h]
  rw [UInt64.toNat_shiftLeft, hplaces]

/-- Shifting moves the bits up, and those beyond the word are lost. -/
theorem testBit_shiftLeft (word : UInt64) {places : Nat} (h : places < 64) (i : Nat) :
    (word <<< UInt64.ofNat places).toNat.testBit i =
      (decide (i < 64) && (decide (places ≤ i) && word.toNat.testBit (i - places))) := by
  rw [toNat_shiftLeft_ofNat word h, Nat.testBit_mod_two_pow, Nat.testBit_shiftLeft]

theorem toNat_one_shiftLeft {places : Nat} (h : places < 64) :
    ((1 : UInt64) <<< UInt64.ofNat places).toNat = 2 ^ places := by
  rw [toNat_shiftLeft_ofNat 1 h, UInt64.toNat_one, Nat.one_shiftLeft]
  exact Nat.mod_eq_of_lt (Nat.pow_lt_pow_right (by decide) h)

theorem testBit_spreadBit (byte : Nat) (spread : UInt64) {bit : Nat} (h : bit < 32) (i : Nat) :
    (spreadBit byte spread bit).toNat.testBit i =
      (spread.toNat.testBit i || (decide (i = 2 * bit) && byte.testBit bit)) := by
  have hbyte : byte &&& 1 <<< bit = (byte.testBit bit).toNat * 2 ^ bit := by
    rw [Nat.one_shiftLeft, Nat.and_two_pow]
  have hmask : ((1 : UInt64) <<< UInt64.ofNat (2 * bit)).toNat = 2 ^ (2 * bit) :=
    toNat_one_shiftLeft (by omega)
  rw [spreadBit, hbyte]
  cases byte.testBit bit with
  | true =>
      rw [if_pos (by simp), UInt64.toNat_or, Nat.testBit_or, hmask, Nat.testBit_two_pow,
        Bool.and_true]
      simp only [eq_comm]
  | false => simp

/-- Each turn of the loop moves one bit more to its place. -/
theorem testBit_foldl_spreadBit (byte : Nat) {bits : Nat} (h : bits ≤ 32) (i : Nat) :
    ((List.range bits).foldl (spreadBit byte) 0).toNat.testBit i =
      (decide (i < 2 * bits ∧ i % 2 = 0) && byte.testBit (i / 2)) := by
  induction bits with
  | zero => simp
  | succ bits ih =>
      rw [List.range_succ, List.foldl_append, List.foldl_cons, List.foldl_nil,
        testBit_spreadBit _ _ h, ih (Nat.le_of_succ_le h)]
      by_cases hplace : i = 2 * bits
      · subst hplace
        simp
      · have hsame : (i < 2 * bits ∧ i % 2 = 0) ↔ (i < 2 * (bits + 1) ∧ i % 2 = 0) := by omega
        rw [decide_eq_false hplace, Bool.false_and, Bool.or_false, decide_eq_decide.2 hsame]

/-- What is looked up has eight bits of the word at its even places. -/
theorem testBit_lookUp (word : UInt32) {places : Nat} (h : places < 32) (i : Nat) :
    (lookUp word places).toNat.testBit i =
      (decide (i < 16 ∧ i % 2 = 0) && word.toNat.testBit (places + i / 2)) := by
  have hplaces : (UInt32.ofNat places).toNat % 32 = places := by
    rw [UInt32.toNat_ofNat_of_lt' (h.trans (by decide)), Nat.mod_eq_of_lt h]
  have hbyte : (word >>> UInt32.ofNat places &&& 0xFF).toNat = word.toNat >>> places % 2 ^ 8 := by
    rw [UInt32.toNat_and, UInt32.toNat_shiftRight, hplaces]
    exact Nat.and_two_pow_sub_one_eq_mod _ 8
  have hentry : lookUp word places = spreadByte (word.toNat >>> places % 2 ^ 8) := by
    have hlt : word.toNat >>> places % 2 ^ 8 < 256 := Nat.mod_lt _ (by decide)
    rw [lookUp, hbyte, spreadTable, Array.getD_eq_getD_getElem?, Array.getElem?_ofFn, dif_pos hlt]
    rfl
  rw [hentry, spreadByte, testBit_foldl_spreadBit _ (by decide), Nat.testBit_mod_two_pow,
    Nat.testBit_shiftRight]
  by_cases hin : i < 2 * 8 ∧ i % 2 = 0
  · have hhalf : i / 2 < 8 := by omega
    simp [hin, hhalf]
  · simp [hin]

/-- An entry at its place has every second bit of a part of the word. -/
theorem testBit_part (word : UInt32) {part place : Nat} (hpart : part < 4) (hplace : place < 2)
    (i : Nat) :
    (lookUp word (8 * part) <<< UInt64.ofNat (16 * part + place)).toNat.testBit i =
      (decide (i / 16 = part ∧ i % 2 = place) && word.toNat.testBit (i / 2)) := by
  rw [testBit_shiftLeft _ (by omega), testBit_lookUp _ (by omega)]
  by_cases hin : i / 16 = part ∧ i % 2 = place
  · have hword : i < 64 := by omega
    have hfrom : 16 * part + place ≤ i := by omega
    have hentry : i - (16 * part + place) < 16 ∧ (i - (16 * part + place)) % 2 = 0 := by omega
    have hbit : 8 * part + (i - (16 * part + place)) / 2 = i / 2 := by omega
    simp [hin, hword, hfrom, hentry, hbit]
  · have hout : ¬ (i < 64 ∧ 16 * part + place ≤ i ∧ i - (16 * part + place) < 16 ∧
        (i - (16 * part + place)) % 2 = 0) := by omega
    rw [decide_eq_false hin, Bool.false_and]
    simp only [← Bool.and_assoc, ← Bool.decide_and]
    rw [decide_eq_false hout, Bool.false_and]

/-- A word is spread over every second place. -/
theorem testBit_spreadWord (word : UInt32) {place : Nat} (hplace : place < 2) (i : Nat) :
    (spreadWord word place).toNat.testBit i =
      (decide (i < 64 ∧ i % 2 = place) && word.toNat.testBit (i / 2)) := by
  have hparts : spreadWord word place =
      lookUp word (8 * 3) <<< UInt64.ofNat (16 * 3 + place) |||
        lookUp word (8 * 2) <<< UInt64.ofNat (16 * 2 + place) |||
        lookUp word (8 * 1) <<< UInt64.ofNat (16 * 1 + place) |||
        lookUp word (8 * 0) <<< UInt64.ofNat (16 * 0 + place) := by
    rw [spreadWord, Nat.mul_zero, Nat.zero_add]
  have hcover : (((i / 16 = 3 ∧ i % 2 = place) ∨ (i / 16 = 2 ∧ i % 2 = place)) ∨
      (i / 16 = 1 ∧ i % 2 = place)) ∨ (i / 16 = 0 ∧ i % 2 = place) ↔ i < 64 ∧ i % 2 = place := by
    omega
  rw [hparts]
  simp only [UInt64.toNat_or, Nat.testBit_or]
  rw [testBit_part _ (by decide) hplace, testBit_part _ (by decide) hplace,
    testBit_part _ (by decide) hplace, testBit_part _ (by decide) hplace]
  simp only [← Bool.and_or_distrib_right, ← Bool.decide_or]
  rw [decide_eq_decide.2 hcover]

/-! ## The code of a tile -/

/-- The bits of interleaved numbers are those of the column at even places and those of the row at
odd ones. -/
theorem testBit_interleave (width row column i : Nat) :
    (interleave width row column).testBit i =
      (decide (i < 2 * width) && (if i % 2 = 0 then column else row).testBit (i / 2)) := by
  induction width generalizing row column i with
  | zero => simp [interleave]
  | succ width ih =>
      rw [interleave]
      generalize hrest : interleave width (row / 2) (column / 2) = rest
      rcases i with _ | _ | i
      · have hlast : (Tile.digit row column + 4 * rest) % 2 = column % 2 := by
          unfold Tile.digit
          omega
        simp [Nat.testBit_zero, hlast]
      · have hlast : (Tile.digit row column + 4 * rest) / 2 % 2 = row % 2 := by
          unfold Tile.digit
          omega
        have hwidth : 1 < 2 * (width + 1) := by omega
        simp [Nat.testBit_succ, Nat.testBit_zero, hlast, hwidth]
      · have hshift : (Tile.digit row column + 4 * rest) / 2 / 2 = rest := by
          unfold Tile.digit
          omega
        have hplace : (i + 1 + 1) / 2 = i / 2 + 1 := by omega
        have hparity : (i + 1 + 1) % 2 = i % 2 := by omega
        have hwidth : i + 1 + 1 < 2 * (width + 1) ↔ i < 2 * width := by omega
        rw [Nat.testBit_succ, Nat.testBit_succ, hshift, ← hrest, ih, hplace, Nat.testBit_succ,
          hparity, decide_eq_decide.2 hwidth]
        split <;> rfl

/-- The bit that marks a level is the mark of the level, if the place of the bit fits a word of 32
bits. -/
theorem toNat_markWord {level : UInt32} (h : level.toNat < 2 ^ 31) :
    (markWord level).toNat = levelMark level.toNat := by
  have htwice : (2 * level).toNat = 2 * level.toNat := by
    rw [UInt32.toNat_mul]
    exact Nat.mod_eq_of_lt (by simpa using (by omega : 2 * level.toNat < 2 ^ 32))
  have hplace : (2 * level).toUInt64 = UInt64.ofNat (2 * level.toNat) := by
    have hword : 2 * level.toNat < 2 ^ 64 := by omega
    rw [← UInt64.toNat_inj, UInt32.toNat_toUInt64, htwice, UInt64.toNat_ofNat_of_lt' hword]
  have hroom : 2 * level < 64 ↔ level.toNat < levelCount := by
    rw [UInt32.lt_iff_toNat_lt, htwice]
    show 2 * level.toNat < 64 ↔ level.toNat < 32
    omega
  rw [markWord, levelMark]
  by_cases hlevel : level.toNat < levelCount
  · have hshallow : level.toNat < 32 := hlevel
    rw [if_pos (hroom.2 hlevel), if_pos hlevel, hplace, toNat_one_shiftLeft (by omega),
      tilesAt_eq_two_pow]
  · rw [if_neg (mt hroom.1 hlevel), if_neg hlevel]
    rfl

/-- The table computes the code of a tile. From level `2 ^ 31` on the place of the mark does not fit
its word. -/
theorem encode_eq {t : Tile} (h : t.level.toNat < 2 ^ 31) : encode t = t.code.word := by
  have hinterleaved : (spreadWord t.row 1).toNat ||| (spreadWord t.column 0).toNat =
      interleave 32 t.row.toNat t.column.toNat := by
    apply Nat.eq_of_testBit_eq
    intro i
    rw [Nat.testBit_or, testBit_spreadWord _ (by decide), testBit_spreadWord _ (by decide),
      testBit_interleave]
    rcases Nat.mod_two_eq_zero_or_one i with heven | hodd
    · simp [heven]
    · simp [hodd]
  have hmark : levelMark t.level.toNat < 2 ^ 64 := by
    rw [← toNat_markWord h]
    exact UInt64.toNat_lt _
  have hlow : interleave 32 t.row.toNat t.column.toNat < 2 ^ 64 := by
    rw [← hinterleaved]
    exact Nat.or_lt_two_pow (UInt64.toNat_lt _) (UInt64.toNat_lt _)
  rw [← UInt64.toNat_inj, encode, UInt64.toNat_or, UInt64.toNat_or, Nat.or_assoc, hinterleaved,
    toNat_markWord h, Tile.code, UInt64.toNat_ofNat_of_lt' (Nat.or_lt_two_pow hmark hlow)]

/-! ## Reading a code by a loop -/

/-- The state of the loop: what is left of the code, and what has been read so far. -/
structure Reading where
  rest : UInt64
  row : UInt32
  column : UInt32
  level : UInt32

namespace Reading

/-- Sets the bit of a word at the place of a level, if the tested bit of the code is set. -/
def setIf (bit : UInt64) (word level : UInt32) : UInt32 :=
  if bit ≠ 0 then word ||| 1 <<< level else word

/-- One turn of the loop takes off two bits, which are set in the row and in the column at the place
of the level. -/
def turn (r : Reading) : Reading where
  rest := r.rest >>> 2
  row := setIf (r.rest &&& 2) r.row r.level
  column := setIf (r.rest &&& 1) r.column r.level
  level := r.level + 1

theorem rest_turn (r : Reading) : r.turn.rest.toNat = r.rest.toNat / 4 := by
  rw [turn, UInt64.toNat_shiftRight]
  exact Nat.shiftRight_eq_div_pow _ 2

/-- The loop goes on until only the mark is left. -/
def run (r : Reading) : Reading := if r.rest ≤ 1 then r else r.turn.run
termination_by r.rest.toNat
decreasing_by
  rename_i hmore
  rw [UInt64.le_iff_toNat_le] at hmore
  rw [rest_turn]
  exact Nat.div_lt_self (Nat.lt_trans Nat.zero_lt_one (by simpa using hmore)) (by decide)

/-- Setting the bit at the place of a level adds it to a word that has no bit from there on. -/
theorem toNat_or_mask {word level : UInt32} (hlevel : level.toNat < 32)
    (hword : word.toNat < rowsAt level.toNat) :
    (word ||| 1 <<< level).toNat = word.toNat + rowsAt level.toNat := by
  have hmask : ((1 : UInt32) <<< level).toNat = 2 ^ level.toNat := by
    rw [UInt32.toNat_shiftLeft, UInt32.toNat_one, Nat.mod_eq_of_lt hlevel, Nat.one_shiftLeft]
    exact Nat.mod_eq_of_lt (Nat.pow_lt_pow_right (by decide) hlevel)
  rw [UInt32.toNat_or, hmask, Nat.or_comm, two_pow_or_eq_add hword, Nat.add_comm]
  rfl

/-- The digit of the code under a mask decides whether the place of the level is added. -/
theorem toNat_setIf {rest mask : UInt64} {place : Nat} (hmask : mask.toNat = 2 ^ place)
    {word level : UInt32} (hlevel : level.toNat < 32) (hword : word.toNat < rowsAt level.toNat) :
    (setIf (rest &&& mask) word level).toNat =
      word.toNat + rowsAt level.toNat * (rest.toNat.testBit place).toNat := by
  have hbit : rest &&& mask ≠ 0 ↔ (rest.toNat.testBit place).toNat * 2 ^ place ≠ 0 := by
    rw [ne_eq, ← UInt64.toNat_inj, UInt64.toNat_and, hmask, Nat.and_two_pow]
    rfl
  cases hset : rest.toNat.testBit place with
  | true =>
      rw [setIf, if_pos (hbit.2 (by simp [hset])), toNat_or_mask hlevel hword, Bool.toNat_true,
        Nat.mul_one]
  | false =>
      rw [setIf, if_neg (mt hbit.1 (by simp [hset])), Bool.toNat_false, Nat.mul_zero, Nat.add_zero]

/-- The loop has room for the next digits: the words read so far end below the place of the level,
and so many places are left in them. -/
structure HasRoom (r : Reading) (digits : Nat) : Prop where
  row_lt : r.row.toNat < rowsAt r.level.toNat
  column_lt : r.column.toNat < rowsAt r.level.toNat
  level_le : r.level.toNat + digits ≤ 32

/-- A turn takes the last digit off the code and adds it at the place of the level. -/
theorem turn_spec {r : Reading} {digits : Nat} (h : r.HasRoom (digits + 1)) :
    r.turn.row.toNat = r.row.toNat + rowsAt r.level.toNat * (r.rest.toNat % 4 / 2) ∧
      r.turn.column.toNat = r.column.toNat + rowsAt r.level.toNat * (r.rest.toNat % 2) ∧
      r.turn.level.toNat = r.level.toNat + 1 := by
  have hlevel : r.level.toNat < 32 := by
    have := h.level_le
    omega
  have hnorth : (r.rest.toNat.testBit 1).toNat = r.rest.toNat % 4 / 2 := by
    rw [Nat.toNat_testBit]
    omega
  have heast : (r.rest.toNat.testBit 0).toNat = r.rest.toNat % 2 := by
    rw [Nat.toNat_testBit, pow_zero, Nat.div_one]
  have hmask : (2 : UInt64).toNat = 2 ^ 1 := rfl
  have hword : r.level.toNat + 1 < 2 ^ 32 := by omega
  refine ⟨?row, ?column, ?level⟩
  case row =>
    rw [← hnorth]
    exact toNat_setIf hmask hlevel h.row_lt
  case column =>
    rw [← heast]
    exact toNat_setIf UInt64.toNat_one hlevel h.column_lt
  case level => rw [turn, UInt32.toNat_add, UInt32.toNat_one, Nat.mod_eq_of_lt hword]

/-- After a turn the loop has room for the other digits. -/
theorem HasRoom.turn {r : Reading} {digits : Nat} (h : r.HasRoom (digits + 1)) :
    r.turn.HasRoom digits := by
  obtain ⟨hrow, hcolumn, hlevel⟩ := turn_spec h
  obtain ⟨hnorth, heast, hroom⟩ := h
  have hdigit : r.rest.toNat % 4 / 2 = 0 ∨ r.rest.toNat % 4 / 2 = 1 := by omega
  have hlast := Nat.mod_two_eq_zero_or_one r.rest.toNat
  refine ⟨?row, ?column, by omega⟩
  case row =>
    rw [hrow, hlevel, rowsAt_succ]
    rcases hdigit with h | h <;> rw [h] <;> omega
  case column =>
    rw [hcolumn, hlevel, rowsAt_succ]
    rcases hlast with h | h <;> rw [h] <;> omega

/-- The loop adds the position of what is left of the code, from the place of the level on. -/
theorem run_spec {rest row column level : Nat} (h : position rest = (row, column, level))
    {r : Reading} (hrest : r.rest.toNat = rest) (hroom : r.HasRoom level) :
    r.run.row.toNat = r.row.toNat + rowsAt r.level.toNat * row ∧
      r.run.column.toNat = r.column.toNat + rowsAt r.level.toNat * column ∧
      r.run.level.toNat = r.level.toNat + level := by
  -- Each turn needs the room of one digit, so the room for all of them lasts to the end.
  induction h using position_induction generalizing r with
  | small rest hsmall =>
      have hend : r.rest ≤ 1 := by
        rw [UInt64.le_iff_toNat_le, hrest]
        exact hsmall
      rw [run, if_pos hend]
      simp
  | digit rest row column level hlarge _ ih =>
      have hmore : ¬ r.rest ≤ 1 := by
        rw [UInt64.le_iff_toNat_le, hrest]
        exact Nat.not_le.2 hlarge
      obtain ⟨hrow, hcolumn, hlevel⟩ := turn_spec hroom
      have hleft : r.turn.rest.toNat = rest / 4 := by rw [rest_turn, hrest]
      obtain ⟨hrows, hcolumns, hlevels⟩ := ih hleft hroom.turn
      rw [run, if_neg hmore, hrows, hcolumns, hlevels, hrow, hcolumn, hlevel, rowsAt_succ, hrest]
      exact ⟨by ring, by ring, by ring⟩

end Reading

/-- The tile that is read from a code. -/
def decode (code : Code) : Tile :=
  let r := Reading.run ⟨code.word, 0, 0, 0⟩
  ⟨r.row, r.column, r.level⟩

/-- The loop reads the tile of a code. -/
theorem decode_eq (code : Code) : decode code = Tile.ofCode code := by
  obtain ⟨⟨row, column, level⟩, h⟩ : ∃ p, position code.word.toNat = p := ⟨_, rfl⟩
  have hlevels : level ≤ 32 := level_le_of_word code.word.toNat_lt h
  have hroom : (Reading.mk code.word 0 0 0).HasRoom level :=
    ⟨rowsAt_pos 0, rowsAt_pos 0, by simpa using hlevels⟩
  obtain ⟨hrow, hcolumn, hlevel⟩ := Reading.run_spec h rfl hroom
  obtain ⟨hrow', hcolumn', hlevel'⟩ := Tile.toNat_ofCode h
  refine Tile.eq_of_toNat ?row ?column ?level
  case row => simpa [decode, hrow', rowsAt] using hrow
  case column => simpa [decode, hcolumn', rowsAt] using hcolumn
  case level => simpa [decode, hlevel'] using hlevel

end Code

end TilePyramid
