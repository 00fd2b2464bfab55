import Mathlib
import TilePyramid.Proofs.QuadKeys
import TilePyramid.Proofs.Relative

/-!
# Additions and subtrees

A tile that is read from a text and added to another leads to a tile within that one, or to no tile
if it is none itself or lies too deep (`Tile.isValid_addTile_iff`, `Tile.staysWithin_addTile`). A
code is added in the same way while the levels fit (`Tile.exists_addCode_eq`). Below the deepest
level the mark of the sum is pushed out of the word, and the digits left behind are read as the
address of some tile (`Tile.addCode_of_too_deep`).
-/

namespace TilePyramid

namespace Code

/-- Every number with a mark at an even place is the code of a tile of that level. -/
theorem exists_code_eq {level low : Nat} (hlevel : level ≤ maxLevel) (h : low < tilesAt level) :
    ∃ t : Tile, t.IsValid ∧ t.level.toNat = level ∧ t.code.word.toNat = tilesAt level + low := by
  have hdeepest : tilesAt level ≤ tilesAt maxLevel := tilesAt_mono hlevel
  have htop : tilesAt maxLevel = 2 ^ 62 := by decide
  let code : Code := ⟨UInt64.ofNat (tilesAt level + low)⟩
  have hword : code.word.toNat = tilesAt level + low :=
    UInt64.toNat_ofNat_of_lt' (show tilesAt level + low < 2 ^ 64 by omega)
  have hcanonical : code.IsCanonical := by
    have hpos := tilesAt_pos level
    rw [IsCanonical, hword, log2_eq_of_mark (Nat.le_add_right _ _) (by omega)]
    exact ⟨by omega, even_two_mul level⟩
  obtain ⟨t, ht, hcode⟩ := (Tile.isCanonical_iff_exists code).1 hcanonical
  rw [← hcode] at hword
  refine ⟨t, ht, ?_, hword⟩
  rw [Tile.code_toNat ht] at hword
  rw [← depth_mark_add (interleave_lt 32 ht.2.1 ht.2.2), hword, depth_mark_add h]

end Code

namespace Tile

open Code

variable {a s x : Tile}

/-- No tile, a tile itself, or one that lies inside it. -/
def StaysWithin (a x : Tile) : Prop := ¬ x.IsValid ∨ x = a ∨ x.isDescendantOf a = true

instance (a x : Tile) : Decidable (a.StaysWithin x) :=
  inferInstanceAs (Decidable (¬ x.IsValid ∨ x = a ∨ x.isDescendantOf a = true))

/-! ## Tiles that are read -/

/-- What reading gives: a valid tile, or one of the level below the deepest. -/
def IsRead (s : Tile) : Prop := s.IsValid ∨ s.level.toNat = levelCount

theorem isRead_ofCode (c : Code) : (ofCode c).IsRead := by
  obtain ⟨⟨row, column, level⟩, h⟩ : ∃ p, position c.word.toNat = p := ⟨_, rfl⟩
  have hword := c.word.toNat_lt
  have hlevel := level_lt_iff hword h
  have hle := level_le_of_word hword h
  rw [IsRead, isValid_ofCode_iff, (toNat_ofCode h).2.2]
  omega

theorem isRead_ofQuadKey (key : String) : (ofQuadKey key).IsRead := by
  by_cases h : key = "-" ∨ IsWay key
  · exact .inl (isValid_ofQuadKey h)
  · rw [ofQuadKey_eq_invalid h]
    exact .inr rfl

theorem isRead_ofDecimalName (name : String) : (ofDecimalName name).IsRead := by
  unfold ofDecimalName
  split
  · exact isRead_ofCode _
  · exact .inr rfl

/-! ## Sums of tiles -/

/-- The level of a sum is the sum of the levels, also where it is too deep. -/
theorem toNat_level_addTile (ha : a.IsValid) (hs : s.level.toNat ≤ levelCount) :
    (a.addTile s).level.toNat = a.level.toNat + s.level.toNat := by
  have hcount : levelCount = 32 := rfl
  have hlevel := ha.1
  have hword : (UInt32.ofNat (a.level.toNat + s.level.toNat)).toNat =
      a.level.toNat + s.level.toNat :=
    UInt32.toNat_ofNat_of_lt' (show a.level.toNat + s.level.toNat < 2 ^ 32 by omega)
  rw [addTile, signedLevel_of_lt (by omega), zoomBy]
  split <;> exact hword

/-- A tile that was read is added to another with a valid result exactly if it is valid and the sum
is not too deep. -/
theorem isValid_addTile_iff (ha : a.IsValid) (hs : s.IsRead) :
    (a.addTile s).IsValid ↔ s.IsValid ∧ a.level.toNat + s.level.toNat ≤ maxLevel := by
  constructor
  · intro h
    rcases hs with hvalid | hbelow
    · have hdeep := h.1
      rw [toNat_level_addTile ha (Nat.le_of_lt hvalid.1)] at hdeep
      exact ⟨hvalid, Nat.le_sub_one_of_lt hdeep⟩
    · have hdeep := h.1
      rw [toNat_level_addTile ha hbelow.le] at hdeep
      omega
  · intro h
    exact isValid_addTile ha h.1 h.2

/-- A valid sum is the first tile or lies inside it. -/
theorem eq_or_isDescendantOf_addTile (ha : a.IsValid) (hs : s.IsValid)
    (h : a.level.toNat + s.level.toNat ≤ maxLevel) :
    a.addTile s = a ∨ (a.addTile s).isDescendantOf a = true := by
  have hzoom := zoomTo_addTile ha hs h
  obtain ⟨hrow, hcolumn, hlevel⟩ := toNat_addTile ha hs h
  rcases Nat.eq_zero_or_pos s.level.toNat with hzero | hpos
  · left
    obtain ⟨-, hsrow, hscolumn⟩ := hs
    rw [hzero, rowsAt_zero, Nat.lt_one_iff] at hsrow hscolumn
    rw [hzero, rowsAt_zero, Nat.mul_one] at hrow hcolumn
    exact eq_of_toNat (by omega) (by omega) (by omega)
  · right
    have hbelow : a.level < (a.addTile s).level := by
      rw [UInt32.lt_iff_toNat_lt, hlevel]
      omega
    rw [isDescendantOf, hzoom, decide_eq_true hbelow, beq_self_eq_true, Bool.and_self]

/-- Tiles that were read stay within the tile to which they are added. -/
theorem staysWithin_addTile (ha : a.IsValid) (hs : s.IsRead) : a.StaysWithin (a.addTile s) := by
  by_cases h : (a.addTile s).IsValid
  · obtain ⟨hvalid, hlevels⟩ := (isValid_addTile_iff ha hs).1 h
    exact .inr (eq_or_isDescendantOf_addTile ha hvalid hlevels)
  · exact .inl h

/-! ## Codes -/

/-- While the levels fit, adding a code is adding a tile of as many levels. -/
theorem exists_addCode_eq (ha : a.IsValid) {c : Code}
    (h : a.level.toNat + depth c.word.toNat ≤ maxLevel) :
    ∃ s : Tile, s.IsValid ∧ s.level.toNat = depth c.word.toNat ∧ a.addCode c = a.addTile s := by
  have hlow : c.word.toNat % tilesAt (depth c.word.toNat) < tilesAt (depth c.word.toNat) :=
    Nat.mod_lt _ (tilesAt_pos _)
  obtain ⟨s, hs, hlevel, hcode⟩ := exists_code_eq ((Nat.le_add_left _ _).trans h) hlow
  -- Appending looks at the digits of a code only, and drops whatever stands before them.
  have happend : a.code.append c = a.code.append s.code := by
    simp only [append, hcode, depth_mark_add hlow, Nat.add_mod_left, Nat.mod_mod]
  refine ⟨s, hs, hlevel, ?_⟩
  rw [addCode, happend]
  exact addCode_code ha hs (hlevel ▸ h)

/-- Below the deepest level the mark of the sum has no room in the word. The digits are read without
it. -/
theorem addCode_of_too_deep (ha : a.IsValid) {c : Code}
    (h : maxLevel < a.level.toNat + depth c.word.toNat) :
    a.addCode c = ofCode ⟨UInt64.ofNat
      (interleave 32 a.row.toNat a.column.toNat * tilesAt (depth c.word.toNat) +
        c.word.toNat % tilesAt (depth c.word.toNat))⟩ := by
  have hmark : 2 ^ 64 ∣ tilesAt a.level.toNat * tilesAt (depth c.word.toNat) := by
    rw [← tilesAt_add, tilesAt_eq_two_pow]
    exact pow_dvd_pow 2 (by have : maxLevel = 31 := rfl; omega)
  have hword : ∀ rest : Nat,
      UInt64.ofNat (tilesAt a.level.toNat * tilesAt (depth c.word.toNat) + rest) =
        UInt64.ofNat rest := by
    intro rest
    obtain ⟨turns, hturns⟩ := hmark
    rw [← UInt64.toNat_inj, UInt64.toNat_ofNat', UInt64.toNat_ofNat', hturns, Nat.mul_add_mod]
  rw [addCode, append, code_toNat ha, Nat.add_mul, Nat.add_assoc, hword]

/-- Additions to a tile. Whatever text is added, the result is no tile, the tile itself or a tile
within it. The same holds of every code whose levels fit, and then the result is valid. The digits
of a code that is too deep are read without the mark of the level, behind those of the tile, and
make a valid tile exactly if they leave the highest bit of the word free. -/
theorem additions_stay_within (ha : a.IsValid) :
    (∀ key : String, a.StaysWithin (a.addQuadKey key)) ∧
    (∀ name : String, a.StaysWithin (a.addDecimalName name)) ∧
    (∀ c : Code, a.level.toNat + depth c.word.toNat ≤ maxLevel →
      (a.addCode c).IsValid ∧ a.StaysWithin (a.addCode c)) ∧
    (∀ c : Code, maxLevel < a.level.toNat + depth c.word.toNat →
      let digits := interleave 32 a.row.toNat a.column.toNat * tilesAt (depth c.word.toNat) +
        c.word.toNat % tilesAt (depth c.word.toNat)
      a.addCode c = ofCode ⟨UInt64.ofNat digits⟩ ∧
        ((a.addCode c).IsValid ↔ digits % 2 ^ 64 < 2 ^ 63)) := by
  refine ⟨fun key => staysWithin_addTile ha (isRead_ofQuadKey _),
    fun name => staysWithin_addTile ha (isRead_ofDecimalName name), fun c h => ?_, fun c h => ?_⟩
  · obtain ⟨s, hs, hlevel, hsum⟩ := exists_addCode_eq ha h
    rw [← hlevel] at h
    rw [hsum]
    exact ⟨isValid_addTile ha hs h, staysWithin_addTile ha (.inl hs)⟩
  · refine ⟨addCode_of_too_deep ha h, ?_⟩
    rw [addCode_of_too_deep ha h, isValid_ofCode_iff, UInt64.toNat_ofNat']

/-- On the deepest level nothing but the tile itself is left to add. A child that is added by a text
is no tile, and one that is added by its code is a valid one. -/
theorem additions_stay_within_deepest :
    let a : Tile := ⟨0, 0, 31⟩
    a.IsValid ∧ a.StaysWithin (a.addQuadKey "0") ∧ a.StaysWithin (a.addDecimalName "4") ∧
      a.level.toNat + depth 1 ≤ maxLevel ∧ a.StaysWithin (a.addCode ⟨1⟩) ∧
      maxLevel < a.level.toNat + depth 4 ∧ (a.addCode ⟨4⟩).IsValid := by
  intro a
  have ha : a.IsValid := by decide
  have hself : depth 1 = 0 := by simp [depth]
  have hchild : depth 4 = 1 := by simp [depth]
  have hfits : a.level.toNat + depth 1 ≤ maxLevel := by
    rw [hself]
    decide
  have hbelow : maxLevel < a.level.toNat + depth 4 := by
    rw [hchild]
    decide
  obtain ⟨hkey, hname, hcode, hdeep⟩ := additions_stay_within ha
  refine ⟨ha, hkey "0", hname "4", hfits, (hcode ⟨1⟩ hfits).2, hbelow, (hdeep ⟨4⟩ hbelow).2.2 ?_⟩
  show (interleave 32 0 0 * tilesAt (depth 4) + 4 % tilesAt (depth 4)) % 2 ^ 64 < 2 ^ 63
  rw [hchild]
  decide

/-- A code that is too deep may lead out of the tile to which it is added. -/
theorem not_forall_addCode_staysWithin :
    ¬ ∀ (a : Tile) (c : Code), a.IsValid → a.StaysWithin (a.addCode c) := by
  intro h
  let a : Tile := ⟨0, 0, 31⟩
  have ha : a.IsValid := by decide
  have hchild : depth 4 = 1 := by simp [depth]
  have hbelow : maxLevel < a.level.toNat + depth 4 := by
    rw [hchild]
    decide
  -- Only the last digit of the code is left, which leads to the root.
  have hroot : a.addCode ⟨4⟩ = root := by
    rw [addCode_of_too_deep (c := ⟨4⟩) ha hbelow]
    show ofCode ⟨UInt64.ofNat (interleave 32 0 0 * tilesAt (depth 4) + 4 % tilesAt (depth 4))⟩ = _
    rw [hchild, ofCode, position_of_le_one (by decide)]
    rfl
  exact absurd (hroot ▸ h a ⟨4⟩ ha) (by decide)

end Tile

end TilePyramid
