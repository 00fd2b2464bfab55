import Mathlib
import TilePyramid.Tile.Relative
import TilePyramid.Proofs.Names

/-!
# Adding relative positions

A tile within another is the sum of the two: its row is the row of the first tile, taken down, plus
the row of the second, and so is its column (`Tile.toNat_addTile`). The four ways to name the second
tile give this one sum (`Naming.add_eq`). A sum gives both of its parts back, every tile is the sum
of any of its ancestors and the rest (`Tile.exists_addTile_eq`), and sums can be regrouped
(`Tile.addTile_assoc`).
-/

namespace TilePyramid

/-- Taking a word from a sum that fits into a word leaves the other one. -/
theorem sub_eq_of_toNat_eq_add {v w x : UInt32} (h : v.toNat = w.toNat + x.toNat) : v - w = x := by
  have hle : w ≤ v := UInt32.le_iff_toNat_le.2 (by omega)
  rw [← UInt32.toNat_inj, UInt32.toNat_sub_of_le _ _ hle]
  omega

/-- A remainder of a word fits into the word. -/
theorem toNat_ofNat_mod (w : UInt32) (n : Nat) :
    (UInt32.ofNat (w.toNat % n)).toNat = w.toNat % n :=
  UInt32.toNat_ofNat_of_lt' ((Nat.mod_le _ _).trans_lt w.toNat_lt)

namespace Code

/-- A code is as long as the level that its mark stands for. -/
theorem depth_mark_add {level low : Nat} (h : low < tilesAt level) :
    depth (tilesAt level + low) = level := by
  induction level generalizing low with
  | zero =>
      obtain rfl : low = 0 := Nat.lt_one_iff.1 h
      rw [depth, if_pos (by decide)]
  | succ level ih =>
      have hpos := tilesAt_pos level
      rw [tilesAt_succ] at h ⊢
      have hrest : (4 * tilesAt level + low) / 4 = tilesAt level + low / 4 := by omega
      rw [depth, if_neg (by omega), hrest, ih (by omega)]

end Code

namespace Tile

open Code

variable {a b c s k : Tile}

/-! ## The sum of two tiles -/

/-- Within a tile, a second one has its own row and column behind those of the first, taken down. -/
theorem toNat_addTile (ha : a.IsValid) (hs : s.IsValid)
    (h : a.level.toNat + s.level.toNat ≤ maxLevel) :
    (a.addTile s).row.toNat = a.row.toNat * rowsAt s.level.toNat + s.row.toNat ∧
      (a.addTile s).column.toNat = a.column.toNat * rowsAt s.level.toNat + s.column.toNat ∧
      (a.addTile s).level.toNat = a.level.toNat + s.level.toNat := by
  obtain ⟨hrow, hcolumn, hlevel⟩ := toNat_zoomBy_down ha h
  have hword : rowsAt (a.level.toNat + s.level.toNat) < 2 ^ 32 :=
    rowsAt_lt_word (Nat.lt_succ_of_le h)
  have hnorth := (mul_rowsAt_add_lt ha.2.1 hs.2.1).trans hword
  have heast := (mul_rowsAt_add_lt ha.2.2 hs.2.2).trans hword
  rw [addTile, signedLevel_eq ((Nat.le_add_left _ _).trans h)]
  refine ⟨?_, ?_, hlevel⟩
  · rw [UInt32.toNat_add, hrow, Nat.mod_eq_of_lt hnorth]
  · rw [UInt32.toNat_add, hcolumn, Nat.mod_eq_of_lt heast]

theorem isValid_addTile (ha : a.IsValid) (hs : s.IsValid)
    (h : a.level.toNat + s.level.toNat ≤ maxLevel) : (a.addTile s).IsValid := by
  obtain ⟨hrow, hcolumn, hlevel⟩ := toNat_addTile ha hs h
  rw [IsValid, hrow, hcolumn, hlevel]
  exact ⟨Nat.lt_succ_of_le h, mul_rowsAt_add_lt ha.2.1 hs.2.1, mul_rowsAt_add_lt ha.2.2 hs.2.2⟩

theorem addTile_assoc (ha : a.IsValid) (hb : b.IsValid) (hc : c.IsValid)
    (h : a.level.toNat + b.level.toNat + c.level.toNat ≤ maxLevel) :
    (a.addTile b).addTile c = a.addTile (b.addTile c) := by
  have hab : a.level.toNat + b.level.toNat ≤ maxLevel := (Nat.le_add_right _ _).trans h
  have hbc : b.level.toNat + c.level.toNat ≤ maxLevel := by omega
  obtain ⟨hrow, hcolumn, hlevel⟩ := toNat_addTile ha hb hab
  obtain ⟨hrow', hcolumn', hlevel'⟩ := toNat_addTile hb hc hbc
  obtain ⟨hleft, hleft', hleft''⟩ :=
    toNat_addTile (isValid_addTile ha hb hab) hc (by rwa [hlevel])
  obtain ⟨hright, hright', hright''⟩ :=
    toNat_addTile ha (isValid_addTile hb hc hbc) (by rwa [hlevel', ← Nat.add_assoc])
  refine eq_of_toNat ?_ ?_ ?_
  · rw [hleft, hright, hrow, hrow', hlevel', rowsAt_add]
    ring
  · rw [hleft', hright', hcolumn, hcolumn', hlevel', rowsAt_add]
    ring
  · rw [hleft'', hright'', hlevel, hlevel', Nat.add_assoc]

/-! ## The parts of a sum -/

/-- The first part of a sum is the ancestor at its level. -/
theorem zoomTo_addTile (ha : a.IsValid) (hs : s.IsValid)
    (h : a.level.toNat + s.level.toNat ≤ maxLevel) : (a.addTile s).zoomTo a.level = a := by
  obtain ⟨hrow, hcolumn, hlevel⟩ := toNat_addTile ha hs h
  have habove : a.level.toNat ≤ (a.addTile s).level.toNat := by omega
  obtain ⟨hr, hc, hl⟩ := toNat_zoomTo_up (hlevel.trans_le h) habove
  rw [hlevel, Nat.add_sub_cancel_left] at hr hc
  rw [hrow, mul_rowsAt_add_div hs.2.1] at hr
  rw [hcolumn, mul_rowsAt_add_div hs.2.2] at hc
  exact eq_of_toNat hr hc hl

/-- The second part of a sum is the position relative to the first. -/
theorem relativeTo_addTile (ha : a.IsValid) (hs : s.IsValid)
    (h : a.level.toNat + s.level.toNat ≤ maxLevel) : (a.addTile s).relativeTo a.level = s := by
  obtain ⟨hrow, hcolumn, hlevel⟩ := toNat_addTile ha hs h
  have hbelow : a.level.toNat ≤ (a.addTile s).level.toNat := by omega
  obtain ⟨hr, hc, -⟩ := toNat_zoomTo_down ha (hlevel.trans_le h) hbelow
  rw [hlevel, Nat.add_sub_cancel_left] at hr hc
  rw [← hr] at hrow
  rw [← hc] at hcolumn
  rw [relativeTo, zoomTo_addTile ha hs h, sub_eq_of_toNat_eq_add hrow,
    sub_eq_of_toNat_eq_add hcolumn, sub_eq_of_toNat_eq_add hlevel]

/-- A tile is the sum of its ancestor some levels up and of a tile of that level. -/
theorem exists_addTile_eq (hk : k.IsValid) {depth : UInt32} (h : depth ≤ k.level) :
    ∃ s : Tile, s.IsValid ∧ s.level = depth ∧ (k.zoomBy (-depth.toNat)).IsValid ∧
      (k.zoomBy (-depth.toNat)).level = k.level - depth ∧
      (k.zoomBy (-depth.toNat)).addTile s = k := by
  have hdepth : depth.toNat ≤ k.level.toNat := UInt32.le_iff_toNat_le.1 h
  have hdeepest : k.level.toNat ≤ maxLevel := Nat.le_sub_one_of_lt hk.1
  have hpos := rowsAt_pos depth.toNat
  have hancestor := isValid_zoomBy_up hk hdepth
  obtain ⟨hrow, hcolumn, hup⟩ := toNat_zoomBy_up hdeepest hdepth
  -- The rest of the tile is what its row and its column leave below the ancestor.
  let rest : Tile := ⟨UInt32.ofNat (k.row.toNat % rowsAt depth.toNat),
    UInt32.ofNat (k.column.toNat % rowsAt depth.toNat), depth⟩
  have hnorth : rest.row.toNat = k.row.toNat % rowsAt depth.toNat := toNat_ofNat_mod k.row _
  have heast : rest.column.toNat = k.column.toNat % rowsAt depth.toNat := toNat_ofNat_mod k.column _
  have hrest : rest.IsValid :=
    ⟨hdepth.trans_lt hk.1, hnorth.trans_lt (Nat.mod_lt _ hpos), heast.trans_lt (Nat.mod_lt _ hpos)⟩
  have hsum : (k.zoomBy (-depth.toNat)).level.toNat + depth.toNat = k.level.toNat := by omega
  obtain ⟨hr, hc, hl⟩ := toNat_addTile hancestor hrest (hsum.trans_le hdeepest)
  refine ⟨rest, hrest, rfl, hancestor, ?_, eq_of_toNat ?_ ?_ ?_⟩
  · rw [← UInt32.toNat_inj, hup, UInt32.toNat_sub_of_le _ _ h]
  · rw [hr, hrow, hnorth, Nat.div_add_mod']
  · rw [hc, hcolumn, heast, Nat.div_add_mod']
  · rw [hl, hsum]

/-! ## Sums by codes and by names -/

/-- Appending a code drops the mark of its level and puts the rest behind the first code. -/
theorem append_toNat (ha : a.IsValid) (hs : s.IsValid)
    (h : a.level.toNat + s.level.toNat ≤ maxLevel) :
    (a.code.append s.code).word.toNat =
      a.code.word.toNat * tilesAt s.level.toNat +
        interleave 32 s.row.toNat s.column.toNat := by
  have hlow := interleave_lt 32 hs.2.1 hs.2.2
  have hwidth : s.level.toNat ≤ 32 := Nat.le_of_lt hs.1
  have hword := lt_two_mul_tilesAt
    (position_append_interleave (one_le_code ha) (position_code ha) hwidth hs.2.1 hs.2.2)
  have hdeepest : tilesAt (a.level.toNat + s.level.toNat) ≤ tilesAt maxLevel := tilesAt_mono h
  have htop : tilesAt maxLevel = 2 ^ 62 := by decide
  simp only [append, code_toNat hs, depth_mark_add hlow, Nat.add_mod_left, Nat.mod_eq_of_lt hlow,
    UInt64.toNat_ofNat']
  exact Nat.mod_eq_of_lt (by omega)

/-- One code appended to another stands for the sum of the two tiles. -/
theorem position_append (ha : a.IsValid) (hs : s.IsValid)
    (h : a.level.toNat + s.level.toNat ≤ maxLevel) :
    position (a.code.append s.code).word.toNat =
      (a.row.toNat * rowsAt s.level.toNat + s.row.toNat,
        a.column.toNat * rowsAt s.level.toNat + s.column.toNat,
        a.level.toNat + s.level.toNat) := by
  rw [append_toNat ha hs h]
  exact position_append_interleave (one_le_code ha) (position_code ha) (Nat.le_of_lt hs.1) hs.2.1
    hs.2.2

theorem addCode_code (ha : a.IsValid) (hs : s.IsValid)
    (h : a.level.toNat + s.level.toNat ≤ maxLevel) : a.addCode s.code = a.addTile s := by
  obtain ⟨hrow, hcolumn, hlevel⟩ := toNat_ofCode (position_append ha hs h)
  obtain ⟨hrow', hcolumn', hlevel'⟩ := toNat_addTile ha hs h
  exact eq_of_toNat (hrow.trans hrow'.symm) (hcolumn.trans hcolumn'.symm)
    (hlevel.trans hlevel'.symm)

/-- The code of a sum is the second code appended to the first. -/
theorem code_addTile (ha : a.IsValid) (hs : s.IsValid)
    (h : a.level.toNat + s.level.toNat ≤ maxLevel) :
    (a.addTile s).code = a.code.append s.code := by
  have hcanonical : (a.code.append s.code).IsCanonical := by
    rw [isCanonical_iff (position_append ha hs h), append_toNat ha hs h, tilesAt_add,
      code_toNat ha]
    exact (Nat.mul_le_mul_right _ (Nat.le_add_right _ _)).trans (Nat.le_add_right _ _)
  rw [← addCode_code ha hs h]
  exact (code_ofCode_eq_iff _).2 (.inl hcanonical)

/-- The end of the code of a sum is the code of its second part. -/
theorem relativeCode_addTile (ha : a.IsValid) (hs : s.IsValid)
    (h : a.level.toNat + s.level.toNat ≤ maxLevel) :
    (a.addTile s).relativeCode s.level.toNat = s.code := by
  have hlow := interleave_lt 32 hs.2.1 hs.2.2
  have hcode := code_toNat hs
  rw [Code.eq_iff_toNat]
  simp only [relativeCode, suffix, code_addTile ha hs h, append_toNat ha hs h, Nat.mul_add_mod',
    Nat.mod_eq_of_lt hlow, UInt64.toNat_ofNat']
  rw [Nat.add_comm, ← hcode, Nat.mod_eq_of_lt s.code.word.toNat_lt]

theorem addQuadKey_quadKey (a : Tile) (hs : s.IsValid) : a.addQuadKey s.quadKey = a.addTile s := by
  have hne : ¬ s.quadKey.isEmpty = true := by
    intro hempty
    have hread : invalid = s := by simpa [ofQuadKey, hempty] using ofQuadKey_quadKey hs
    exact absurd (hread ▸ hs) (by decide)
  rw [addQuadKey, if_neg hne, ofQuadKey_quadKey hs]

theorem addDecimalName_decimalName (a : Tile) (hs : s.IsValid) :
    a.addDecimalName s.decimalName = a.addTile s := by
  rw [addDecimalName, ofDecimalName_decimalName hs]

end Tile

/-- The ways to name a tile relative to another. -/
inductive Naming where
  | code
  | quadKey
  | decimalName
  | tile

namespace Naming

/-- The tile that lies in `t` as `sub` lies in the root, where `sub` is named in the given way. -/
def add (naming : Naming) (t sub : Tile) : Tile :=
  match naming with
  | code => t.addCode sub.code
  | quadKey => t.addQuadKey sub.quadKey
  | decimalName => t.addDecimalName sub.decimalName
  | tile => t.addTile sub

/-- However the second tile is named, it is added to the first with the same result. -/
theorem add_eq (naming : Naming) {a s : Tile} (ha : a.IsValid) (hs : s.IsValid)
    (h : a.level.toNat + s.level.toNat ≤ maxLevel) : naming.add a s = a.addTile s := by
  cases naming with
  | code => exact Tile.addCode_code ha hs h
  | quadKey => exact Tile.addQuadKey_quadKey a hs
  | decimalName => exact Tile.addDecimalName_decimalName a hs
  | tile => rfl

/-- Tiles are added in any grouping, however each of them is named. -/
theorem add_assoc (first second third fourth : Naming) {a b c : Tile} (ha : a.IsValid)
    (hb : b.IsValid) (hc : c.IsValid)
    (h : a.level.toNat + b.level.toNat + c.level.toNat ≤ maxLevel) :
    first.add (second.add a b) c = third.add a (fourth.add b c) := by
  have hab : a.level.toNat + b.level.toNat ≤ maxLevel := (Nat.le_add_right _ _).trans h
  have hbc : b.level.toNat + c.level.toNat ≤ maxLevel := by omega
  obtain ⟨-, -, hlevel⟩ := Tile.toNat_addTile ha hb hab
  obtain ⟨-, -, hlevel'⟩ := Tile.toNat_addTile hb hc hbc
  rw [second.add_eq ha hb hab, fourth.add_eq hb hc hbc,
    first.add_eq (Tile.isValid_addTile ha hb hab) hc (by rwa [hlevel]),
    third.add_eq ha (Tile.isValid_addTile hb hc hbc) (by rwa [hlevel', ← Nat.add_assoc])]
  exact Tile.addTile_assoc ha hb hc h

end Naming

namespace Tile

/-- Relative tiles. Every valid tile of a level that is left below another is added to it with the
same valid result in all four ways, and the result gives both back: the first by zooming, the
second as a tile and as a code. Every valid tile is so the sum of each of its ancestors and its
position relative to it, whose code is the end of the code of the tile. Additions can be regrouped,
in whatever ways they are made. -/
theorem relative_namings_agree :
    (∀ a s : Tile, a.IsValid → s.IsValid → a.level.toNat + s.level.toNat ≤ maxLevel →
      ∃ t : Tile, t.IsValid ∧ t.level.toNat = a.level.toNat + s.level.toNat ∧
        (∀ naming : Naming, naming.add a s = t) ∧
        t.zoomTo a.level = a ∧ t.relativeTo a.level = s ∧
        t.relativeCode s.level.toNat = s.code) ∧
    (∀ (k : Tile) (depth : UInt32), k.IsValid → depth ≤ k.level →
      (k.relativeTo (k.level - depth)).IsValid ∧
        (k.relativeTo (k.level - depth)).code = k.relativeCode depth.toNat ∧
        ∀ naming : Naming,
          naming.add (k.zoomBy (-depth.toNat)) (k.relativeTo (k.level - depth)) = k) ∧
    (∀ (first second third fourth : Naming) (a b c : Tile), a.IsValid → b.IsValid → c.IsValid →
      a.level.toNat + b.level.toNat + c.level.toNat ≤ maxLevel →
      first.add (second.add a b) c = third.add a (fourth.add b c)) := by
  refine ⟨fun a s ha hs h => ?_, fun k depth hk h => ?_, fun first second third fourth _ _ _ =>
    Naming.add_assoc first second third fourth⟩
  · exact ⟨a.addTile s, isValid_addTile ha hs h, (toNat_addTile ha hs h).2.2,
      fun naming => naming.add_eq ha hs h, zoomTo_addTile ha hs h, relativeTo_addTile ha hs h,
      relativeCode_addTile ha hs h⟩
  · obtain ⟨s, hs, rfl, hancestor, hlevel, hsum⟩ := exists_addTile_eq hk h
    have hlevels : (k.zoomBy (-s.level.toNat)).level.toNat + s.level.toNat ≤ maxLevel := by
      rw [hlevel, UInt32.toNat_sub_of_le _ _ h, Nat.sub_add_cancel (UInt32.le_iff_toNat_le.1 h)]
      exact Nat.le_sub_one_of_lt hk.1
    have hrelative := relativeTo_addTile hancestor hs hlevels
    have hcode := relativeCode_addTile hancestor hs hlevels
    rw [hsum, hlevel] at hrelative
    rw [hsum] at hcode
    rw [hrelative]
    exact ⟨hs, hcode.symm, fun naming => (naming.add_eq hancestor hs hlevels).trans hsum⟩

/-- A tile of the deepest level is added to the root, split off below the root and below itself, and
it ends a sum of three tiles. -/
theorem relative_namings_agree_deepest :
    let deepest : Tile := ⟨0x7FFFFFFF, 5, 31⟩
    let north : Tile := ⟨1, 0, 1⟩
    let inner : Tile := ⟨1000, 7, 10⟩
    let last : Tile := ⟨0xFFFFF, 0, 20⟩
    root.IsValid ∧ deepest.IsValid ∧ root.level.toNat + deepest.level.toNat ≤ maxLevel ∧
      (∃ t : Tile, (∀ naming : Naming, naming.add root deepest = t) ∧
        t.relativeTo root.level = deepest) ∧
      (∀ naming : Naming,
        naming.add (deepest.zoomBy (-31)) (deepest.relativeTo (deepest.level - 31)) = deepest) ∧
      (∀ naming : Naming,
        naming.add (deepest.zoomBy 0) (deepest.relativeTo (deepest.level - 0)) = deepest) ∧
      ∀ naming : Naming,
        naming.add (naming.add north inner) last = naming.add north (naming.add inner last) := by
  intro deepest north inner last
  obtain ⟨hadd, hrest, hassoc⟩ := relative_namings_agree
  have hroot : root.IsValid := by decide
  have hdeepest : deepest.IsValid := by decide
  have hlevels : root.level.toNat + deepest.level.toNat ≤ maxLevel := by decide
  obtain ⟨t, -, -, hsum, -, hrelative, -⟩ := hadd root deepest hroot hdeepest hlevels
  refine ⟨hroot, hdeepest, hlevels, ⟨t, hsum, hrelative⟩, ?_, ?_, fun naming => ?_⟩
  · exact (hrest deepest 31 hdeepest (by decide)).2.2
  · exact (hrest deepest 0 hdeepest (by decide)).2.2
  · exact hassoc naming naming naming naming north inner last (by decide) (by decide) (by decide)
      (by decide)

end Tile

end TilePyramid
