import Mathlib
import TilePyramid.Proofs.QuadKeys

/-!
# Ancestors

A tile descends from another one exactly if its parent, taken as often as the levels lie apart, is
that tile (`Tile.isDescendantOf_iff`). Every level up takes the last digit off the quad key
(`Tile.keyDigits_parent_iterate`) and the last two bits off the code (`Tile.code_parent_iterate`).
As keys and codes tell tiles apart, the descendants of a tile are also those whose key begins with
its key and those whose code begins with its code.
-/

namespace TilePyramid

/-- Shifting by two bits for each level divides by the number of tiles of that many levels. -/
theorem toNat_shiftRight_two_mul {n : Nat} (hn : n < levelCount) (w : UInt64) :
    (w >>> UInt64.ofNat (2 * n)).toNat = w.toNat / tilesAt n := by
  have hcount : levelCount = 32 := rfl
  rw [UInt64.toNat_shiftRight, UInt64.toNat_ofNat_of_lt' (show 2 * n < 2 ^ 64 by omega),
    Nat.mod_eq_of_lt (by omega), Nat.shiftRight_eq_div_pow, tilesAt_eq_two_pow]

namespace Tile

variable {a b c k t x : Tile} {index n : Nat}

/-! ## Descendants and parents -/

/-- A tile descends from the tiles that are reached from parent to parent. -/
theorem isDescendantOf_iff (ha : a.IsValid) :
    a.isDescendantOf b = true ↔
      b.level < a.level ∧ parent^[a.level.toNat - b.level.toNat] a = b := by
  have hdeepest : a.level.toNat ≤ maxLevel := Nat.le_sub_one_of_lt ha.1
  simp only [isDescendantOf, Bool.and_eq_true, decide_eq_true_eq, beq_iff_eq]
  refine and_congr_right fun hlt => ?_
  have habove : b.level.toNat ≤ a.level.toNat := Nat.le_of_lt (UInt32.lt_iff_toNat_lt.1 hlt)
  have hdistance :
      (b.level.toNat - a.level.toNat : Int) = -(a.level.toNat - b.level.toNat : Nat) := by
    omega
  rw [zoomTo_eq hdeepest (habove.trans hdeepest), hdistance,
    parent_iterate hdeepest (Nat.sub_le _ _)]

theorem not_isDescendantOf_self (a : Tile) : ¬ a.isDescendantOf a = true := by
  intro h
  rw [isDescendantOf, Bool.and_eq_true, decide_eq_true_eq] at h
  exact UInt32.lt_irrefl _ h.1

theorem isValid_of_isDescendantOf (ha : a.IsValid) (h : a.isDescendantOf b = true) : b.IsValid := by
  obtain ⟨-, hup⟩ := (isDescendantOf_iff ha).1 h
  rw [← hup]
  exact isValid_parent_iterate ha (Nat.sub_le _ _)

theorem isDescendantOf_trans (ha : a.IsValid) (hab : a.isDescendantOf b = true)
    (hbc : b.isDescendantOf c = true) : a.isDescendantOf c = true := by
  obtain ⟨hlt, hup⟩ := (isDescendantOf_iff ha).1 hab
  obtain ⟨hlt', hup'⟩ := (isDescendantOf_iff (isValid_of_isDescendantOf ha hab)).1 hbc
  refine (isDescendantOf_iff ha).2 ⟨UInt32.lt_trans hlt' hlt, ?_⟩
  rw [UInt32.lt_iff_toNat_lt] at hlt hlt'
  have hdistance : a.level.toNat - c.level.toNat =
      (b.level.toNat - c.level.toNat) + (a.level.toNat - b.level.toNat) := by
    omega
  rw [hdistance, Function.iterate_add_apply, hup, hup']

/-- Of two ancestors of a tile the deeper one descends from the other. -/
theorem isDescendantOf_of_lt (ha : a.IsValid) (hb : a.isDescendantOf b = true)
    (hc : a.isDescendantOf c = true) (h : b.level < c.level) : c.isDescendantOf b = true := by
  obtain ⟨hlt, hup⟩ := (isDescendantOf_iff ha).1 hb
  obtain ⟨hlt', hup'⟩ := (isDescendantOf_iff ha).1 hc
  refine (isDescendantOf_iff (isValid_of_isDescendantOf ha hc)).2 ⟨h, ?_⟩
  rw [UInt32.lt_iff_toNat_lt] at h hlt hlt'
  have hdistance : a.level.toNat - b.level.toNat =
      (c.level.toNat - b.level.toNat) + (a.level.toNat - c.level.toNat) := by
    omega
  rw [hdistance, Function.iterate_add_apply, hup'] at hup
  exact hup

theorem ancestors_comparable (ha : a.IsValid) (hb : a.isDescendantOf b = true)
    (hc : a.isDescendantOf c = true) :
    b = c ∨ b.isDescendantOf c = true ∨ c.isDescendantOf b = true := by
  rcases lt_trichotomy b.level.toNat c.level.toNat with hlt | heq | hgt
  · exact .inr (.inr (isDescendantOf_of_lt ha hb hc (UInt32.lt_iff_toNat_lt.2 hlt)))
  · obtain ⟨-, hup⟩ := (isDescendantOf_iff ha).1 hb
    obtain ⟨-, hup'⟩ := (isDescendantOf_iff ha).1 hc
    rw [heq, hup'] at hup
    exact .inl hup.symm
  · exact .inr (.inl (isDescendantOf_of_lt ha hc hb (UInt32.lt_iff_toNat_lt.2 hgt)))

/-! ## Digits of keys -/

/-- The characters of the quad key, where the hyphen of the root stands for none. -/
def keyDigits (t : Tile) : List Char :=
  if t.quadKey = "-" then [] else t.quadKey.toList

theorem keyDigits_eq (ht : t.IsValid) :
    t.keyDigits = (digits t.level.toNat t.row.toNat t.column.toNat).map digitChar := by
  rw [keyDigits, quadKey, if_pos ht]
  by_cases hroot : t.level = 0
  · rw [if_pos hroot, if_pos rfl, hroot]
    rfl
  · rw [if_neg hroot, if_neg (ofList_map_digitChar_ne_hyphen fun _ => lt_of_mem_digits),
      String.toList_ofList]

theorem length_keyDigits (ht : t.IsValid) : t.keyDigits.length = t.level.toNat := by
  rw [keyDigits_eq ht, List.length_map, length_digits]

/-- Valid tiles with the same digits are the same. -/
theorem keyDigits_injOn : Set.InjOn keyDigits { t | t.IsValid } := by
  intro s hs t ht h
  rw [keyDigits_eq hs, keyDigits_eq ht] at h
  have hread := congrArg (List.mapM digit?) h
  rw [mapM_digit?_map_digitChar fun _ => lt_of_mem_digits,
    mapM_digit?_map_digitChar fun _ => lt_of_mem_digits, Option.some.injEq] at hread
  rw [← foldl_child_digits hs, hread, foldl_child_digits ht]

/-- The first digits on the way to a tile are those of its ancestor. -/
theorem take_digits {level row column : Nat} (h : n ≤ level) :
    (digits level row column).take (level - n) =
      digits (level - n) (row / rowsAt n) (column / rowsAt n) := by
  induction n generalizing level row column with
  | zero =>
      rw [rowsAt_zero, Nat.div_one, Nat.div_one, Nat.sub_zero]
      exact List.take_of_length_le (length_digits level row column).le
  | succ n ih =>
      cases level with
      | zero => exact absurd h (Nat.not_succ_le_zero n)
      | succ above =>
          have hshort : above - n ≤ (digits above (row / 2) (column / 2)).length := by
            rw [length_digits]
            exact Nat.sub_le above n
          rw [digits, Nat.add_sub_add_right, List.take_append_of_le_length hshort,
            ih (Nat.le_of_succ_le_succ h), rowsAt_succ, Nat.div_div_eq_div_mul,
            Nat.div_div_eq_div_mul]

/-- Every level up takes the last digit off a key. -/
theorem keyDigits_parent_iterate (ht : t.IsValid) (h : n ≤ t.level.toNat) :
    (parent^[n] t).keyDigits = t.keyDigits.take (t.level.toNat - n) := by
  have hdeepest : t.level.toNat ≤ maxLevel := Nat.le_sub_one_of_lt ht.1
  obtain ⟨hrow, hcolumn, hlevel⟩ := toNat_zoomBy_up hdeepest h
  rw [keyDigits_eq (isValid_parent_iterate ht h), keyDigits_eq ht, parent_iterate hdeepest h, hrow,
    hcolumn, hlevel, ← List.map_take, take_digits h]

/-- The key of a child is written behind the key of its parent. -/
theorem toList_quadKey_child (hk : k.IsValid) (hlevel : k.level.toNat < maxLevel)
    (hindex : index < 4) :
    (k.child index).quadKey.toList = k.keyDigits ++ [Nat.digitChar index] := by
  rw [quadKey, if_pos (isValid_child hk hlevel hindex),
    if_neg (level_child_ne_zero hk hlevel hindex), String.toList_ofList,
    digits_child hk hlevel hindex, List.map_append, List.map_singleton, digitChar_eq hindex,
    keyDigits_eq hk]

/-! ## The forms of ancestry -/

/-- The tile of a level above that is reached from parent to parent is the one whose key begins the
key. -/
theorem parent_iterate_eq_iff_keyDigits (ha : a.IsValid) (hb : b.IsValid)
    (h : b.level.toNat ≤ a.level.toNat) :
    parent^[a.level.toNat - b.level.toNat] a = b ↔ b.keyDigits <+: a.keyDigits := by
  have hup := keyDigits_parent_iterate ha (Nat.sub_le a.level.toNat b.level.toNat)
  rw [Nat.sub_sub_self h] at hup
  constructor
  · intro heq
    rw [← heq, hup]
    exact List.take_prefix _ _
  · intro hbegins
    rw [List.prefix_iff_eq_take, length_keyDigits hb, ← hup] at hbegins
    exact keyDigits_injOn (isValid_parent_iterate ha (Nat.sub_le _ _)) hb hbegins.symm

/-- A key that begins another one and differs from it belongs to a level above. -/
theorem lt_and_keyDigits_iff (ha : a.IsValid) (hb : b.IsValid) :
    b.level < a.level ∧ b.keyDigits <+: a.keyDigits ↔
      b.keyDigits <+: a.keyDigits ∧ b.keyDigits ≠ a.keyDigits := by
  rw [UInt32.lt_iff_toNat_lt, ← length_keyDigits ha, ← length_keyDigits hb, and_comm]
  refine and_congr_right fun hbegins => ⟨fun hlt heq => ?_, fun hne => ?_⟩
  · rw [heq] at hlt
    exact Nat.lt_irrefl _ hlt
  · exact hbegins.length_le.lt_of_ne fun hlength => hne (hbegins.eq_of_length hlength)

/-- The tile of a level above that is reached from parent to parent is the one whose code is left
when two bits are dropped for each level. -/
theorem parent_iterate_eq_iff_shiftRight (ha : a.IsValid) (hb : b.IsValid) :
    parent^[a.level.toNat - b.level.toNat] a = b ↔
      a.code.word >>> UInt64.ofNat (2 * (a.level.toNat - b.level.toNat)) = b.code.word := by
  have hup := code_parent_iterate ha (Nat.sub_le a.level.toNat b.level.toNat)
  have hshift := toNat_shiftRight_two_mul ((Nat.sub_le a.level.toNat b.level.toNat).trans_lt ha.1)
    a.code.word
  rw [← UInt64.toNat_inj, hshift, ← hup, ← Code.eq_iff_toNat]
  exact ⟨fun heq => congrArg code heq,
    code_injOn (isValid_parent_iterate ha (Nat.sub_le _ _)) hb⟩

/-- Ancestry. That a valid tile descends from another one, that the other one is its ancestor, that
it leads to the other one from parent to parent, that its key begins with the key of the other one
and goes on, and that its code begins with the code of the other one are the same. No tile descends
from itself, descendants of descendants are descendants, and of two ancestors of a tile one descends
from the other unless they are the same. The valid tiles with a given parent above the deepest level
are its four children, which differ, lie in the quadrants of their numbers and have the key of the
parent with their number behind it. -/
theorem ancestry_agrees :
    (∀ a b : Tile, a.IsValid → b.IsValid →
      List.TFAE [
        a.isDescendantOf b = true,
        b.isAncestorOf a = true,
        b.level < a.level ∧ parent^[a.level.toNat - b.level.toNat] a = b,
        b.keyDigits <+: a.keyDigits ∧ b.keyDigits ≠ a.keyDigits,
        b.level < a.level ∧
          a.code.word >>> UInt64.ofNat (2 * (a.level.toNat - b.level.toNat)) = b.code.word]) ∧
    (∀ a : Tile, ¬ a.isDescendantOf a = true) ∧
    (∀ a b c : Tile, a.IsValid → a.isDescendantOf b = true → b.isDescendantOf c = true →
      a.isDescendantOf c = true) ∧
    (∀ a b c : Tile, a.IsValid → a.isDescendantOf b = true → a.isDescendantOf c = true →
      b = c ∨ b.isDescendantOf c = true ∨ c.isDescendantOf b = true) ∧
    (∀ k : Tile, k.IsValid → k.level.toNat < maxLevel →
      (∀ x : Tile, x.IsValid ∧ x.parent = k ↔ ∃ index < 4, x = k.child index) ∧
        (∀ index < 4, ∀ other < 4, k.child index = k.child other → index = other) ∧
        ∀ index < 4, (k.child index).quadrant.index = index ∧
          (k.child index).quadKey.toList = k.keyDigits ++ [Nat.digitChar index]) := by
  refine ⟨fun a b ha hb => ?_, not_isDescendantOf_self, fun _ _ _ => isDescendantOf_trans,
    fun _ _ _ => ancestors_comparable, fun k hk hlevel => ⟨fun x => ?_, ?_, ?_⟩⟩
  · tfae_have 1 ↔ 2 := Iff.rfl
    tfae_have 1 ↔ 3 := isDescendantOf_iff ha
    tfae_have 3 ↔ 4 := by
      rw [← lt_and_keyDigits_iff ha hb]
      exact and_congr_right fun hlt =>
        parent_iterate_eq_iff_keyDigits ha hb (Nat.le_of_lt (UInt32.lt_iff_toNat_lt.1 hlt))
    tfae_have 3 ↔ 5 := and_congr_right fun _ => parent_iterate_eq_iff_shiftRight ha hb
    tfae_finish
  · exact isValid_and_parent_eq_iff hk hlevel
  · exact fun index hindex other hother => child_injOn hk hlevel hindex hother
  · exact fun index hindex =>
      ⟨index_quadrant_child hk hlevel hindex, toList_quadKey_child hk hlevel hindex⟩

/-- A tile of the deepest level descends from its parent, and over all levels from the root, of
which the parent is a descendant too. The tile in the north west is a child of the root. -/
theorem ancestry_agrees_deepest :
    let deepest : Tile := ⟨0x7FFFFFFF, 5, 31⟩
    let above : Tile := ⟨0x3FFFFFFF, 2, 30⟩
    deepest.IsValid ∧ above.IsValid ∧ root.IsValid ∧ root.level.toNat < maxLevel ∧
      deepest.isDescendantOf above = true ∧ above.isDescendantOf root = true ∧
      parent^[31] deepest = root ∧ root.keyDigits <+: deepest.keyDigits ∧
      deepest.isDescendantOf root = true ∧
      (above = root ∨ above.isDescendantOf root = true ∨ root.isDescendantOf above = true) ∧
      (∃ index < 4, (⟨1, 0, 1⟩ : Tile) = root.child index) ∧
      (root.child 2).quadKey.toList = root.keyDigits ++ ['2'] := by
  intro deepest above
  obtain ⟨hforms, -, htrans, hcomparable, hchildren⟩ := ancestry_agrees
  have hdeepest : deepest.IsValid := by decide
  have habove : above.IsValid := by decide
  have hroot : root.IsValid := by decide
  have hlevel : root.level.toNat < maxLevel := by decide
  have hparent : deepest.isDescendantOf above = true := by decide
  have htop : above.isDescendantOf root = true := by decide
  have hlong := htrans deepest above root hdeepest hparent htop
  have hupward := ((hforms deepest root hdeepest hroot).out 0 2).1 hlong
  have hbegins := ((hforms deepest root hdeepest hroot).out 0 3).1 hlong
  obtain ⟨hchild, -, hkey⟩ := hchildren root hroot hlevel
  exact ⟨hdeepest, habove, hroot, hlevel, hparent, htop, hupward.2, hbegins.1, hlong,
    hcomparable deepest above root hdeepest hparent hlong,
    (hchild ⟨1, 0, 1⟩).1 ⟨by decide, by decide⟩, (hkey 2 (by decide)).2⟩

end Tile

end TilePyramid
