import Mathlib
import TilePyramid.Proofs.Fits
import TilePyramid.Proofs.Legs
import TilePyramid.Proofs.Line

/-!
# The tiles near a path

The corridor of a segment is the set of tiles near the Bresenham line between the tiles of its ends.
`Walk.calls_cover_corridors` says that the calls of a walk give the tiles of all corridors and no
others, and then nothing for ever.
-/

namespace TilePyramid

variable {α : Type} [Scalar α]

/-- The tiles within the width of the path of the line between the tiles of both ends of a segment,
with rows and columns wrapped around at the edges of the level. -/
def Scheme.corridor (s : Scheme) (options : PathOptions) (segment : Segment α) : Set Tile :=
  { tile | s.HasEnds options.level segment ∧
      ∃ centre ∈ bresenham (Walk.cellOf (s.locate segment.start options.level))
          (Walk.cellOf (s.locate segment.stop options.level)),
        ∃ cell : Cell, cell.distance centre ≤ options.width ∧
          (tile.row.toNat : Int) = cell.row % (s.subdivision.size options.level).height.toNat ∧
          (tile.column.toNat : Int) = cell.column % (s.subdivision.size options.level).width.toNat ∧
          tile.level.toNat = options.level }

/-- A number wrapped around in a count that a word can hold fits a word. -/
theorem toNat_ofNat_emod {count : UInt32} (hcount : 1 ≤ count.toNat) (n : Int) :
    ((UInt32.ofNat (n % (max (count.toNat : Int) 1)).toNat).toNat : Int) = n % count.toNat := by
  have hmax : max (count.toNat : Int) 1 = count.toNat := by omega
  have hpos : (0 : Int) < count.toNat := by omega
  have hnonneg := Int.emod_nonneg n hpos.ne'
  have hlt := Int.emod_lt_of_pos n hpos
  have hword := count.toNat_lt
  rw [hmax, UInt32.toNat_ofNat', Nat.mod_eq_of_lt (by omega), Int.toNat_of_nonneg hnonneg]

namespace Walk

omit [Scalar α] in
/-- Row and column of a cell's tile are those of the cell, wrapped around. -/
theorem tileOf_toNat {w : Walk α} (hlevel : w.options.level ≤ maxLevel)
    (hsize : (w.scheme.subdivision.size w.options.level).Fits w.options.level) (c : Cell) :
    ((w.tileOf c).row.toNat : Int) =
        c.row % (w.scheme.subdivision.size w.options.level).height.toNat ∧
      ((w.tileOf c).column.toNat : Int) =
        c.column % (w.scheme.subdivision.size w.options.level).width.toNat ∧
      (w.tileOf c).level.toNat = w.options.level :=
  ⟨toNat_ofNat_emod hsize.height_pos c.row, toNat_ofNat_emod hsize.width_pos c.column,
    toNat_ofNat_level hlevel⟩

omit [Scalar α] in
theorem tileOf_isValid {w : Walk α} (hlevel : w.options.level ≤ maxLevel)
    (hsize : (w.scheme.subdivision.size w.options.level).Fits w.options.level) (c : Cell) :
    (w.tileOf c).IsValid := by
  obtain ⟨hrow, hcolumn, hdepth⟩ := tileOf_toNat hlevel hsize c
  have hheight := hsize.height_le
  have hwidth := hsize.width_le
  have hrows := hsize.height_pos
  have hcolumns := hsize.width_pos
  have hrowlt := Int.emod_lt_of_pos c.row
    (show (0 : Int) < (w.scheme.subdivision.size w.options.level).height.toNat by omega)
  have hcolumnlt := Int.emod_lt_of_pos c.column
    (show (0 : Int) < (w.scheme.subdivision.size w.options.level).width.toNat by omega)
  rw [Tile.IsValid, hdepth]
  exact ⟨Nat.lt_succ_of_le hlevel, by omega, by omega⟩

/-- The tiles on the line of a segment whose ends have tiles are its corridor. -/
theorem mem_tilesAlong_iff {w : Walk α} (hlevel : w.options.level ≤ maxLevel)
    (hsize : (w.scheme.subdivision.size w.options.level).Fits w.options.level)
    {segment : Segment α} (hends : w.scheme.HasEnds w.options.level segment) {tile : Tile} :
    tile ∈ w.tilesAlong segment ↔ tile ∈ w.scheme.corridor w.options segment := by
  rw [tilesAlong, List.mem_map]
  constructor
  · intro h
    obtain ⟨cell, hcell, rfl⟩ := h
    obtain ⟨centre, hcentre, hdistance⟩ := Line.mem_toList_between_iff.1 hcell
    exact ⟨hends, centre, hcentre, cell, hdistance, tileOf_toNat hlevel hsize cell⟩
  · intro h
    obtain ⟨-, centre, hcentre, cell, hdistance, hrow, hcolumn, hdepth⟩ := h
    refine ⟨cell, Line.mem_toList_between_iff.2 ⟨centre, hcentre, hdistance⟩, ?_⟩
    obtain ⟨hrow', hcolumn', hdepth'⟩ := tileOf_toNat hlevel hsize cell
    exact Tile.eq_of_toNat (by omega) (by omega) (by omega)

/-- What a walk from the start gives is given by the legs of the walked segments. -/
theorem given_start (s : Scheme) (options : PathOptions) (segments : List (Segment α)) :
    (start s options segments).given =
      Window.legs options.capacity 0 []
        ((s.walked options.level segments).map (start s options segments).tilesAlong) :=
  given_eq_legs _ rfl Window.consistent_empty

/-- The lines of the walked segments hold valid tiles. -/
theorem tilesAlong_isValid {w : Walk α} (hlevel : w.options.level ≤ maxLevel)
    (hsize : (w.scheme.subdivision.size w.options.level).Fits w.options.level)
    (segments : List (Segment α)) :
    ∀ tiles ∈ segments.map w.tilesAlong, ∀ tile ∈ tiles, tile.IsValid := by
  intro tiles htiles tile htile
  obtain ⟨segment, -, rfl⟩ := List.mem_map.1 htiles
  obtain ⟨cell, -, rfl⟩ := List.mem_map.1 htile
  exact tileOf_isValid hlevel hsize cell

/-- A tile is given for the segment with number `k + 1` exactly if it is in the corridor of that
segment and every earlier gift of it is lost. -/
theorem mem_given_start_iff {s : Scheme} {options : PathOptions} (hlevel : options.level ≤ maxLevel)
    (hsize : (s.subdivision.size options.level).Fits options.level) (segments : List (Segment α))
    {k : Nat} {tile : Tile} :
    ⟨tile, k + 1⟩ ∈ (start s options segments).given ↔
      ∃ segment, (s.walked options.level segments)[k]? = some segment ∧
        tile ∈ s.corridor options segment ∧
        ∀ i gift, (start s options segments).given[i]? = some gift → gift.tile = tile →
          gift.segment < k + 1 →
            Window.Lost options.capacity (k + 1) (start s options segments).given i := by
  have hmem := @Window.mem_legs_iff options.capacity 0 [] []
    ((s.walked options.level segments).map (start s options segments).tilesAlong)
    Window.recalls_nil (by simp) (tilesAlong_isValid hlevel hsize _) k tile
  rw [List.nil_append, ← given_start, Nat.zero_add, Nat.add_comm 1 k] at hmem
  rw [hmem]
  constructor
  · intro h
    obtain ⟨tiles, htiles, htile, hlost⟩ := h
    rw [List.getElem?_map] at htiles
    obtain ⟨segment, hsegment, rfl⟩ := Option.map_eq_some_iff.1 htiles
    have hends : s.HasEnds options.level segment := by
      simpa using (List.mem_filter.1 (List.mem_of_getElem? hsegment)).2
    exact ⟨segment, hsegment, (mem_tilesAlong_iff hlevel hsize hends).1 htile, hlost⟩
  · intro h
    obtain ⟨segment, hsegment, htile, hlost⟩ := h
    refine ⟨(start s options segments).tilesAlong segment, ?_,
      (mem_tilesAlong_iff hlevel hsize htile.1).2 htile, hlost⟩
    rw [List.getElem?_map, hsegment]
    rfl

/-- Every gift is a tile in the corridor of the segment it is given for. -/
theorem exists_of_mem_given_start {s : Scheme} {options : PathOptions}
    (hlevel : options.level ≤ maxLevel)
    (hsize : (s.subdivision.size options.level).Fits options.level) {segments : List (Segment α)}
    {gift : Gift} (h : gift ∈ (start s options segments).given) :
    ∃ k segment, gift.segment = k + 1 ∧ (s.walked options.level segments)[k]? = some segment ∧
      gift.tile ∈ s.corridor options segment := by
  have hlegs := h
  rw [given_start] at hlegs
  obtain ⟨k, tiles, -, hsegment, -⟩ := Window.mem_line_of_mem_legs hlegs
    fun tiles htiles => Tile.code_injOn.mono (tilesAlong_isValid hlevel hsize _ tiles htiles)
  have hgift : gift = ⟨gift.tile, k + 1⟩ := by
    rw [show k + 1 = gift.segment by omega]
  rw [hgift, mem_given_start_iff hlevel hsize] at h
  obtain ⟨segment, hwalked, htile, -⟩ := h
  exact ⟨k, segment, by omega, hwalked, htile⟩

/-- A walk gives the tiles of the corridors of its segments. -/
theorem exists_gift_iff {s : Scheme} {options : PathOptions} (hlevel : options.level ≤ maxLevel)
    (hsize : (s.subdivision.size options.level).Fits options.level) (segments : List (Segment α))
    (tile : Tile) :
    (∃ gift ∈ (start s options segments).given, gift.tile = tile) ↔
      ∃ segment ∈ segments, tile ∈ s.corridor options segment := by
  constructor
  · intro h
    obtain ⟨gift, hgift, rfl⟩ := h
    obtain ⟨k, segment, -, hwalked, htile⟩ := exists_of_mem_given_start hlevel hsize hgift
    exact ⟨segment, List.mem_of_mem_filter (List.mem_of_getElem? hwalked), htile⟩
  · intro h
    obtain ⟨segment, hsegment, htile⟩ := h
    have hwalked : segment ∈ s.walked options.level segments :=
      List.mem_filter.2 ⟨hsegment, by simpa using htile.1⟩
    obtain ⟨k, hk⟩ := List.mem_iff_getElem?.1 hwalked
    by_contra hnone
    -- A tile that was never given has no earlier gift, so its own segment gives it.
    refine hnone ⟨⟨tile, k + 1⟩, (mem_given_start_iff hlevel hsize segments).2
      ⟨segment, hk, htile, fun i gift hgift heq => ?_⟩, rfl⟩
    exact absurd ⟨gift, List.mem_of_getElem? hgift, heq⟩ hnone

theorem corridor_isValid {s : Scheme} {options : PathOptions} (hlevel : options.level ≤ maxLevel)
    (hsize : (s.subdivision.size options.level).Fits options.level) {segment : Segment α}
    {tile : Tile} (h : tile ∈ s.corridor options segment) : tile.IsValid := by
  have hline := (mem_tilesAlong_iff (w := start s options []) hlevel hsize h.1).2 h
  exact tilesAlong_isValid (w := start s options []) hlevel hsize [segment] _
    (List.mem_singleton.2 rfl) tile hline

/-- The calls of a walk give the tiles of the corridors of all segments and no others. There are
finitely many that give a tile, each of them a valid one, and behind them no call gives any.
Segments with an end without a tile do not change what any call gives. The subdivisions that can be
named fit every level, as the sizes of the levels must. -/
theorem calls_cover_corridors :
    (∀ subdivision ∈ Subdivision.all, ∀ level ≤ maxLevel, (subdivision.size level).Fits level) ∧
    ∀ (s : Scheme) (options : PathOptions) (segments : List (Segment α)),
      options.level ≤ maxLevel → (s.subdivision.size options.level).Fits options.level →
      (∃ count, ∀ n, ((start s options segments).call n).isSome ↔ n < count) ∧
      (∀ tile, (∃ n, (start s options segments).call n = some tile) ↔
        ∃ segment ∈ segments, tile ∈ s.corridor options segment) ∧
      (∀ n tile, (start s options segments).call n = some tile → tile.IsValid) ∧
      ∀ n, (start s options segments).call n =
        (start s options (s.walked options.level segments)).call n := by
  refine ⟨fun subdivision hnamed level => Subdivision.fits_of_mem_all hnamed, ?_⟩
  intro s options segments hlevel hsize
  refine ⟨⟨_, call_isSome_iff _⟩, fun tile => ?_, fun n tile hcall => ?_, fun n => ?_⟩
  · rw [exists_call_iff, exists_gift_iff hlevel hsize]
  · obtain ⟨gift, hgift, rfl⟩ := (exists_call_iff _ _).1 ⟨n, hcall⟩
    obtain ⟨k, segment, -, -, htile⟩ := exists_of_mem_given_start hlevel hsize hgift
    exact corridor_isValid hlevel hsize htile
  · have hwalked : s.walked options.level (s.walked options.level segments) =
        s.walked options.level segments := by
      rw [Scheme.walked, Scheme.walked, List.filter_filter]
      simp
    rw [call_eq, call_eq, given_start, given_start, hwalked]
    rfl

/-- At the western edge of the world the tile at the eastern edge of the row is given, since columns
wrap around. -/
theorem calls_cover_corridors_western_edge :
    2 ≤ maxLevel ∧ (Scheme.quadTreeEquirectangular.subdivision.size 2).Fits 2 ∧
      ∃ n, (start Scheme.quadTreeEquirectangular ⟨2, 1⟩
        [(⟨⟨0.0, -3.0⟩, ⟨0.0, -3.0⟩⟩ : Segment Float)]).call n = some ⟨2, 3, 2⟩ := by
  obtain ⟨hfits, hcalls⟩ := calls_cover_corridors (α := Float)
  have hlevel : 2 ≤ maxLevel := by decide
  have hsize : (Scheme.quadTreeEquirectangular.subdivision.size 2).Fits 2 :=
    hfits .quadTree List.mem_cons_self 2 hlevel
  obtain ⟨-, hcover, -⟩ := hcalls .quadTreeEquirectangular ⟨2, 1⟩
    [⟨⟨0.0, -3.0⟩, ⟨0.0, -3.0⟩⟩] hlevel hsize
  refine ⟨hlevel, hsize, (hcover ⟨2, 3, 2⟩).2 ⟨_, List.mem_singleton.2 rfl, by decide, ?_⟩⟩
  exact ⟨⟨0, 2⟩, by decide, ⟨-1, 2⟩, by decide, by decide, by decide, rfl⟩

end Walk

end TilePyramid
