import Mathlib
import TilePyramid.Proofs.Children
import TilePyramid.Proofs.Names

/-!
# The texts that are quad keys

A text is read as a valid tile exactly if it is the hyphen of the root or a way of at most
`maxLevel` digits below 4. The tile at the end of a way has the digits of the way again
(`Tile.digits_foldl_child`) and they are, in base 4, its code below the mark of its level
(`Tile.code_foldl_child`). So reading and writing undo each other, and reading a way is decoding a
number.
-/

namespace TilePyramid.Tile

variable {t : Tile} {way : List Nat} {index : Nat} {key : String}

/-! ## Characters and digits -/

theorem digitChar_eq (hindex : index < 4) : digitChar index = Nat.digitChar index := by
  interval_cases index <;> rfl

theorem toNat_digitChar (hindex : index < 4) : (digitChar index).toNat - '0'.toNat = index := by
  interval_cases index <;> rfl

theorem digit?_eq_some_iff {c : Char} :
    digit? c = some index ↔ index < 4 ∧ c = digitChar index := by
  constructor
  · intro h
    unfold digit? at h
    split at h <;> cases h <;> exact ⟨by decide, rfl⟩
  · rintro ⟨hindex, rfl⟩
    exact digit?_digitChar hindex

theorem exists_digitChar_iff {c : Char} :
    (∃ index < 4, c = digitChar index) ↔ '0' ≤ c ∧ c ≤ '3' := by
  constructor
  · rintro ⟨index, hindex, rfl⟩
    interval_cases index <;> decide
  · rintro ⟨hlow, hhigh⟩
    have hlow' : 48 ≤ c.toNat := hlow
    have hhigh' : c.toNat ≤ 51 := hhigh
    have hindex : c.toNat - 48 < 4 := by omega
    refine ⟨c.toNat - 48, hindex, Char.toNat_inj.1 ?_⟩
    rw [digitChar_eq hindex, Nat.toNat_digitChar_of_lt_ten (by omega)]
    omega

/-- A text is read digit by digit exactly if it is written digit by digit. -/
theorem mapM_digit?_eq_some_iff {cs : List Char} :
    cs.mapM digit? = some way ↔ (∀ index ∈ way, index < 4) ∧ cs = way.map digitChar := by
  constructor
  · intro h
    induction cs generalizing way with
    | nil =>
        obtain rfl : [] = way := Option.some.inj h
        exact ⟨fun _ hmem => absurd hmem List.not_mem_nil, rfl⟩
    | cons c cs ih =>
        simp only [List.mapM_cons, bind, Option.bind_eq_some_iff, pure, Option.some.injEq] at h
        obtain ⟨index, hc, behind, hcs, rfl⟩ := h
        obtain ⟨hindex, rfl⟩ := digit?_eq_some_iff.1 hc
        obtain ⟨hbehind, rfl⟩ := ih hcs
        exact ⟨List.forall_mem_cons.2 ⟨hindex, hbehind⟩, rfl⟩
  · rintro ⟨hway, rfl⟩
    exact mapM_digit?_map_digitChar hway

/-! ## The end of a way -/

/-- Induction over the ways that stay in the tree: from each of them a step leads to any child as
long as the deepest level is not reached. -/
@[elab_as_elim]
theorem way_induction
    {motive : ∀ way : List Nat, (∀ index ∈ way, index < 4) → way.length ≤ maxLevel → Prop}
    (start : motive [] (fun _ hmem => absurd hmem List.not_mem_nil) (Nat.zero_le _))
    (step : ∀ way index (hway : ∀ i ∈ way, i < 4) (_ : index < 4)
      (hlength : way.length < maxLevel) (hall : ∀ i ∈ way ++ [index], i < 4)
      (hlonger : (way ++ [index]).length ≤ maxLevel),
      motive way hway hlength.le → motive (way ++ [index]) hall hlonger)
    {way : List Nat} (hway : ∀ index ∈ way, index < 4) (hlength : way.length ≤ maxLevel) :
    motive way hway hlength := by
  induction way using List.reverseRecOn with
  | nil => exact start
  | append_singleton way index ih =>
      obtain ⟨hbefore, hindex⟩ := List.forall_mem_append.1 hway
      have hshort : way.length < maxLevel := by
        rw [List.length_append, List.length_singleton] at hlength
        exact hlength
      exact step way index hbefore (hindex index List.mem_cons_self) hshort hway hlength
        (ih hbefore hshort.le)

theorem foldl_child_append (way : List Nat) (index : Nat) :
    (way ++ [index]).foldl child root = (way.foldl child root).child index := by
  rw [List.foldl_append, List.foldl_cons, List.foldl_nil]

theorem isValid_foldl_child (hway : ∀ index ∈ way, index < 4) (hlength : way.length ≤ maxLevel) :
    (way.foldl child root).IsValid ∧ (way.foldl child root).level.toNat = way.length := by
  induction hway, hlength using way_induction with
  | start => exact ⟨by decide, rfl⟩
  | step way index hway hindex hlength _ _ ih =>
      obtain ⟨hvalid, hlevel⟩ := ih
      have hdeep := hlevel.trans_lt hlength
      rw [foldl_child_append, List.length_append, List.length_singleton, ← hlevel]
      exact ⟨isValid_child hvalid hdeep hindex, (toNat_child hvalid hdeep hindex).2.2⟩

/-- A child has the digits of its parent with its number behind them. -/
theorem digits_child {k : Tile} (hk : k.IsValid) (hlevel : k.level.toNat < maxLevel)
    (hindex : index < 4) :
    digits (k.child index).level.toNat (k.child index).row.toNat (k.child index).column.toNat =
      digits k.level.toNat k.row.toNat k.column.toNat ++ [index] := by
  obtain ⟨hnorth, heast, hdigit⟩ := halves_child hk hlevel hindex
  rw [(toNat_child hk hlevel hindex).2.2, digits, hnorth, heast, hdigit]

/-- The tile at the end of a way has the digits of the way. -/
theorem digits_foldl_child (hway : ∀ index ∈ way, index < 4) (hlength : way.length ≤ maxLevel) :
    digits (way.foldl child root).level.toNat (way.foldl child root).row.toNat
      (way.foldl child root).column.toNat = way := by
  induction hway, hlength using way_induction with
  | start => rfl
  | step way index hway hindex hlength _ _ ih =>
      obtain ⟨hvalid, hlevel⟩ := isValid_foldl_child hway hlength.le
      rw [foldl_child_append, digits_child hvalid (hlevel.trans_lt hlength) hindex, ih]

/-- The code at the end of a way is the mark of its level and the value of its digits. -/
theorem code_foldl_child (hway : ∀ index ∈ way, index < 4) (hlength : way.length ≤ maxLevel) :
    (way.foldl child root).code.word.toNat =
      tilesAt way.length + Nat.ofDigitChars 4 (way.map digitChar) 0 := by
  induction hway, hlength using way_induction with
  | start => rfl
  | step way index hway hindex hlength _ _ ih =>
      obtain ⟨hvalid, hlevel⟩ := isValid_foldl_child hway hlength.le
      rw [foldl_child_append, code_child hvalid (hlevel.trans_lt hlength) hindex, ih,
        List.map_append, Nat.ofDigitChars_append, List.map_singleton, Nat.ofDigitChars_cons,
        Nat.ofDigitChars_nil, toNat_digitChar hindex, List.length_append, List.length_singleton,
        tilesAt_succ, Nat.mul_add, Nat.add_assoc]

/-! ## Texts -/

/-- The text has a digit below 4 for each level on a way down from the root. -/
def IsWay (key : String) : Prop :=
  1 ≤ key.utf8ByteSize ∧ key.utf8ByteSize ≤ maxLevel ∧ ∀ c ∈ key.toList, '0' ≤ c ∧ c ≤ '3'

theorem utf8ByteSize_map_digitChar (way : List Nat) :
    (String.ofList (way.map digitChar)).utf8ByteSize = way.length := by
  rw [String.utf8ByteSize_ofList, utf8Len_map_digitChar]

theorem isWay_iff : IsWay key ↔ ∃ way : List Nat, way ≠ [] ∧ way.length ≤ maxLevel ∧
    (∀ index ∈ way, index < 4) ∧ key = String.ofList (way.map digitChar) := by
  constructor
  · rintro ⟨hpos, hsize, hdigits⟩
    obtain ⟨way, hway, htext⟩ : ∃ way : List Nat,
        (∀ index ∈ way, index < 4) ∧ key.toList = way.map digitChar := by
      generalize key.toList = cs at hdigits
      induction cs with
      | nil => exact ⟨[], fun _ hmem => absurd hmem List.not_mem_nil, rfl⟩
      | cons c cs ih =>
          obtain ⟨hc, hcs⟩ := List.forall_mem_cons.1 hdigits
          obtain ⟨index, hindex, rfl⟩ := exists_digitChar_iff.2 hc
          obtain ⟨behind, hbehind, rfl⟩ := ih hcs
          exact ⟨index :: behind, List.forall_mem_cons.2 ⟨hindex, hbehind⟩, rfl⟩
    obtain rfl : key = String.ofList (way.map digitChar) := by rw [← htext, String.ofList_toList]
    rw [utf8ByteSize_map_digitChar] at hpos hsize
    exact ⟨way, List.length_pos_iff.1 hpos, hsize, hway, rfl⟩
  · rintro ⟨way, hne, hlength, hway, rfl⟩
    rw [IsWay, utf8ByteSize_map_digitChar, String.toList_ofList]
    refine ⟨List.length_pos_iff.2 hne, hlength, fun c hc => ?_⟩
    obtain ⟨index, hindex, rfl⟩ := List.mem_map.1 hc
    exact exists_digitChar_iff.1 ⟨index, hway index hindex, rfl⟩

/-- A text that is neither the hyphen nor a way leads nowhere. -/
theorem ofQuadKey_eq_invalid (h : ¬ (key = "-" ∨ IsWay key)) : ofQuadKey key = invalid := by
  obtain ⟨hhyphen, hway⟩ := not_or.1 h
  unfold ofQuadKey
  split
  · rfl
  rename_i hsize
  cases hread : key.toList.mapM digit? with
  | none => rfl
  | some way =>
      obtain ⟨hdigits, htext⟩ := mapM_digit?_eq_some_iff.1 hread
      obtain rfl : key = String.ofList (way.map digitChar) := by rw [← htext, String.ofList_toList]
      rw [String.isEmpty_eq_utf8ByteSize_beq_zero, utf8ByteSize_map_digitChar] at hsize
      simp only [Bool.or_eq_true, beq_iff_eq, decide_eq_true_eq, not_or, Nat.not_lt] at hsize
      have hne : way ≠ [] := by
        rintro rfl
        exact hsize.1 rfl
      exact absurd (isWay_iff.2 ⟨way, hne, hsize.2, hdigits, rfl⟩) hway

theorem quadKey_of_not_isValid (h : ¬ t.IsValid) : t.quadKey = "" := by
  rw [quadKey, if_neg h]

/-- The tile at the end of a way has the way as its quad key. -/
theorem quadKey_foldl_child (hne : way ≠ []) (hway : ∀ index ∈ way, index < 4)
    (hlength : way.length ≤ maxLevel) :
    (way.foldl child root).quadKey = String.ofList (way.map digitChar) := by
  obtain ⟨hvalid, hlevel⟩ := isValid_foldl_child hway hlength
  have hdeep : (way.foldl child root).level ≠ 0 := by
    intro hzero
    rw [hzero] at hlevel
    exact hne (List.length_eq_zero_iff.1 hlevel.symm)
  rw [quadKey, if_pos hvalid, if_neg hdeep, digits_foldl_child hway hlength]

theorem isValid_ofQuadKey (h : key = "-" ∨ IsWay key) : (ofQuadKey key).IsValid := by
  rcases h with rfl | hway
  · decide
  · obtain ⟨way, hne, hlength, hdigits, rfl⟩ := isWay_iff.1 hway
    rw [ofQuadKey_map_digitChar hdigits hne hlength]
    exact (isValid_foldl_child hdigits hlength).1

theorem quadKey_ofQuadKey (h : key = "-" ∨ IsWay key) : (ofQuadKey key).quadKey = key := by
  rcases h with rfl | hway
  · decide
  · obtain ⟨way, hne, hlength, hdigits, rfl⟩ := isWay_iff.1 hway
    rw [ofQuadKey_map_digitChar hdigits hne hlength, quadKey_foldl_child hne hdigits hlength]

/-- Reading a way is decoding its value in base 4 behind the mark of its level. -/
theorem ofQuadKey_eq_ofCode (h : IsWay key) :
    4 ^ key.length + Nat.ofDigitChars 4 key.toList 0 < 2 ^ 64 ∧
      ofQuadKey key =
        ofCode ⟨UInt64.ofNat (4 ^ key.length + Nat.ofDigitChars 4 key.toList 0)⟩ := by
  obtain ⟨way, hne, hlength, hdigits, rfl⟩ := isWay_iff.1 h
  have hcode := code_foldl_child hdigits hlength
  have hvalue : 4 ^ (String.ofList (way.map digitChar)).length +
      Nat.ofDigitChars 4 (String.ofList (way.map digitChar)).toList 0 =
      (way.foldl child root).code.word.toNat := by
    rw [hcode, String.length_ofList, List.length_map, String.toList_ofList]
    rfl
  rw [hvalue, UInt64.ofNat_toNat, ofQuadKey_map_digitChar hdigits hne hlength]
  exact ⟨UInt64.toNat_lt _, (ofCode_code (isValid_foldl_child hdigits hlength).1).symm⟩

/-- Quad keys. The texts that are read as valid tiles are the hyphen and the ways, every other text
is read as the invalid tile. What is read from such a text is written as that text again, and a way
is read as the code made of its value in base 4 and the mark of its level. A valid tile is read
back from its quad key. The quad key of an invalid tile is the empty text, which is read as the
invalid tile. -/
theorem quadKey_grammar :
    (∀ key : String, (ofQuadKey key).IsValid ↔ key = "-" ∨ IsWay key) ∧
    (∀ key : String, ¬ (key = "-" ∨ IsWay key) → ofQuadKey key = invalid) ∧
    (∀ key : String, key = "-" ∨ IsWay key → (ofQuadKey key).quadKey = key) ∧
    (∀ key : String, IsWay key →
      4 ^ key.length + Nat.ofDigitChars 4 key.toList 0 < 2 ^ 64 ∧
        ofQuadKey key =
          ofCode ⟨UInt64.ofNat (4 ^ key.length + Nat.ofDigitChars 4 key.toList 0)⟩) ∧
    (∀ t : Tile, t.IsValid → ofQuadKey t.quadKey = t) ∧
    (∀ t : Tile, ¬ t.IsValid → t.quadKey = "" ∧ ofQuadKey t.quadKey = invalid) := by
  refine ⟨fun key => ⟨fun hvalid => ?_, isValid_ofQuadKey⟩, fun key => ofQuadKey_eq_invalid,
    fun key => quadKey_ofQuadKey, fun key => ofQuadKey_eq_ofCode, fun t => ofQuadKey_quadKey,
    fun t ht => ?_⟩
  · by_contra h
    rw [ofQuadKey_eq_invalid h] at hvalid
    exact absurd hvalid (by decide)
  · rw [quadKey_of_not_isValid ht]
    exact ⟨rfl, by decide⟩

/-- The longest way is read, written and decoded, one digit more leads nowhere, and neither does a
short text with a letter of two bytes in it. A tile whose row is too large for its level has no
key. -/
theorem quadKey_grammar_longest :
    let longest := "3210321032103210321032103210321"
    IsWay longest ∧ (ofQuadKey longest).quadKey = longest ∧
      ofQuadKey longest =
        ofCode ⟨UInt64.ofNat (4 ^ longest.length + Nat.ofDigitChars 4 longest.toList 0)⟩ ∧
      ofQuadKey (longest ++ "0") = invalid ∧ ofQuadKey "0é" = invalid ∧
      (⟨0x7FFFFFFF, 5, 31⟩ : Tile).IsValid ∧
      ofQuadKey (⟨0x7FFFFFFF, 5, 31⟩ : Tile).quadKey = ⟨0x7FFFFFFF, 5, 31⟩ ∧
      ¬ (⟨2, 0, 1⟩ : Tile).IsValid ∧ (⟨2, 0, 1⟩ : Tile).quadKey = "" := by
  intro longest
  obtain ⟨-, hother, hwrite, hdecode, hback, hnone⟩ := quadKey_grammar
  have hlongest : IsWay longest := ⟨by decide, by decide, by simp [longest]⟩
  have hlonger : ¬ (longest ++ "0" = "-" ∨ IsWay (longest ++ "0")) := by
    rintro (hhyphen | hway)
    · exact absurd hhyphen (by decide)
    · exact absurd hway.2.1 (by decide)
  have hletter : ¬ ("0é" = "-" ∨ IsWay "0é") := by
    rintro (hhyphen | hway)
    · exact absurd hhyphen (by decide)
    · exact absurd (hway.2.2 'é' (by simp)) (by decide)
  have hdeepest : (⟨0x7FFFFFFF, 5, 31⟩ : Tile).IsValid := by decide
  have houtside : ¬ (⟨2, 0, 1⟩ : Tile).IsValid := by decide
  exact ⟨hlongest, hwrite longest (.inr hlongest), (hdecode longest hlongest).2, hother _ hlonger,
    hother _ hletter, hdeepest, hback _ hdeepest, houtside, (hnone _ houtside).1⟩

end TilePyramid.Tile
