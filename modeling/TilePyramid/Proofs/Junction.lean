import Mathlib
import TilePyramid.Proofs.Corridor

/-!
# Repeats where two segments meet

A walk gives no tile twice for a segment, and none that it has given for the preceding segment
already. But a tile that the walk only meets again keeps the number of its older segment, so that it
may be lost although it lies near the preceding segment too. `Walk.given_again_iff_lost` says when a
tile near the preceding segment is given again, and `Walk.not_forall_given_apart` that this happens.
-/

namespace TilePyramid

variable {α : Type} [Scalar α]

/-- Levels below the deepest one have no tiles, and thus no segments to walk. -/
theorem Scheme.walked_of_maxLevel_lt (s : Scheme) {level : Nat} (h : maxLevel < level)
    (segments : List (Segment α)) : s.walked level segments = [] := by
  rw [walked, List.filter_eq_nil_iff]
  intro segment _
  have hstart : s.locate segment.start level = .invalid := by
    rw [locate, if_pos (.inl h)]
  have hinvalid : ¬ Tile.invalid.IsValid := by decide
  simp only [HasEnds, hstart, hinvalid, false_and, decide_false, Bool.false_eq_true,
    not_false_eq_true]

namespace Walk

/-- A gift of a segment is not lost in the next one, so its tile is not given again there. -/
theorem not_mem_given_start_succ {s : Scheme} {options : PathOptions}
    (hlevel : options.level ≤ maxLevel)
    (hsize : (s.subdivision.size options.level).Fits options.level) {segments : List (Segment α)}
    {n : Nat} {tile : Tile} (h : ⟨tile, n⟩ ∈ (start s options segments).given) :
    ⟨tile, n + 1⟩ ∉ (start s options segments).given := by
  intro hagain
  obtain ⟨-, -, -, hlost⟩ := (mem_given_start_iff hlevel hsize segments).1 hagain
  obtain ⟨i, hi⟩ := List.mem_iff_getElem?.1 h
  obtain ⟨gift, hgift, hbefore, -⟩ := hlost i _ hi rfl (Nat.lt_succ_self n)
  obtain rfl : ⟨tile, n⟩ = gift := by simpa [hi] using hgift
  exact absurd hbefore (Nat.lt_irrefl _)

theorem nodup_given_start (s : Scheme) (options : PathOptions) (segments : List (Segment α)) :
    (start s options segments).given.Nodup := by
  rw [given_start]
  exact Window.nodup_legs List.nodup_nil

/-- A walk gives no tile twice for a segment, and none for a segment and the next one. A tile near a
segment is given for the next one exactly if it is near that one too and all its gifts so far are
lost: they are from before both segments, and each of them lies further back than the capacity. -/
theorem given_again_iff_lost (s : Scheme) (options : PathOptions) (segments : List (Segment α))
    (hsize : (s.subdivision.size options.level).Fits options.level) :
    let gifts := (start s options segments).given
    let walked := s.walked options.level segments
    gifts.Nodup ∧
    (∀ n tile, ⟨tile, n⟩ ∈ gifts → ⟨tile, n + 1⟩ ∉ gifts) ∧
    ∀ n previous present, walked[n]? = some previous → walked[n + 1]? = some present →
      ∀ tile ∈ s.corridor options previous,
        (⟨tile, n + 2⟩ ∈ gifts ↔ tile ∈ s.corridor options present ∧
          ∀ i gift, gifts[i]? = some gift → gift.tile = tile → gift.segment < n + 2 →
            Window.Lost options.capacity (n + 2) gifts i) := by
  intro gifts walked
  rcases Nat.lt_or_ge maxLevel options.level with hdeep | hlevel
  · have hwalked : walked = [] := s.walked_of_maxLevel_lt hdeep segments
    have hgifts : gifts = [] := by
      show (start s options segments).given = []
      rw [given_start, s.walked_of_maxLevel_lt hdeep]
      rfl
    rw [hgifts, hwalked]
    refine ⟨List.nodup_nil, fun n tile h => absurd h List.not_mem_nil, ?_⟩
    intro n previous present hprevious
    cases hprevious
  · refine ⟨nodup_given_start s options segments,
      fun n tile => not_mem_given_start_succ hlevel hsize, ?_⟩
    intro n previous present _ hpresent tile _
    show ⟨tile, n + 1 + 1⟩ ∈ (start s options segments).given ↔ _
    rw [mem_given_start_iff hlevel hsize]
    constructor
    · intro h
      obtain ⟨segment, hsegment, htile, hlost⟩ := h
      obtain rfl : present = segment := Option.some.inj (hpresent.symm.trans hsegment)
      exact ⟨htile, hlost⟩
    · intro h
      exact ⟨present, hpresent, h.1, h.2⟩

/-! ## Forth, back and forth again -/

/-- Segments between two tiles of a level, along the equator: forth, back, and forth again. -/
def forthBackForth : List (Segment Float) :=
  [⟨⟨0.0, -1.0⟩, ⟨0.0, 1.0⟩⟩, ⟨⟨0.0, 1.0⟩, ⟨0.0, -1.0⟩⟩, ⟨⟨0.0, -1.0⟩, ⟨0.0, 1.0⟩⟩]

theorem walked_forthBackForth :
    Scheme.walked .quadTreeEquirectangular 1 forthBackForth = forthBackForth := by
  rw [Scheme.walked, List.filter_eq_self]
  decide

/-- Going back gives nothing, and the tiles keep the number of the first segment. The third segment
loses them and gives them again. -/
theorem given_forthBackForth :
    (start .quadTreeEquirectangular ⟨1, 0⟩ forthBackForth).given =
      [⟨⟨1, 0, 1⟩, 1⟩, ⟨⟨1, 1, 1⟩, 1⟩, ⟨⟨1, 0, 1⟩, 3⟩, ⟨⟨1, 1, 1⟩, 3⟩] := by
  rw [given_start, walked_forthBackForth]
  decide +kernel

/-- The first tile is near all three segments. -/
theorem mem_corridor_forthBackForth {segment : Segment Float} (h : segment ∈ forthBackForth) :
    (⟨1, 0, 1⟩ : Tile) ∈ Scheme.corridor .quadTreeEquirectangular ⟨1, 0⟩ segment := by
  simp only [forthBackForth, List.mem_cons, List.not_mem_nil, or_false] at h
  rcases h with rfl | rfl | rfl <;>
    exact ⟨by decide, ⟨0, 1⟩, by decide, ⟨0, 1⟩, by decide, by decide, by decide, rfl⟩

theorem given_again_iff_lost_forthBackForth :
    (Scheme.quadTreeEquirectangular.subdivision.size 1).Fits 1 ∧
      (start .quadTreeEquirectangular ⟨1, 0⟩ forthBackForth).given.Nodup ∧
      Window.Lost 0 3 (start .quadTreeEquirectangular ⟨1, 0⟩ forthBackForth).given 0 := by
  have hsize : (Scheme.quadTreeEquirectangular.subdivision.size 1).Fits 1 :=
    Subdivision.quadTree_fits (by decide)
  obtain ⟨hnodup, -, hjunction⟩ :=
    given_again_iff_lost .quadTreeEquirectangular ⟨1, 0⟩ forthBackForth hsize
  rw [walked_forthBackForth] at hjunction
  have hagain : ⟨⟨1, 0, 1⟩, 3⟩ ∈ (start .quadTreeEquirectangular ⟨1, 0⟩ forthBackForth).given := by
    rw [given_forthBackForth]
    decide
  obtain ⟨-, hlost⟩ := (hjunction 1 _ _ rfl rfl ⟨1, 0, 1⟩
    (mem_corridor_forthBackForth (by simp [forthBackForth]))).1 hagain
  exact ⟨hsize, hnodup, hlost 0 ⟨⟨1, 0, 1⟩, 1⟩ (by rw [given_forthBackForth]; rfl) rfl (by decide)⟩

/-- Not every walk keeps away from the tiles near the preceding segment. -/
theorem not_forall_given_apart :
    ¬ ∀ (s : Scheme) (options : PathOptions) (segments : List (Segment Float)),
      (s.subdivision.size options.level).Fits options.level →
        (start s options segments).given.Nodup ∧
          ∀ n previous tile, (s.walked options.level segments)[n]? = some previous →
            ⟨tile, n + 2⟩ ∈ (start s options segments).given →
              tile ∉ s.corridor options previous := by
  intro h
  obtain ⟨-, hapart⟩ :=
    h .quadTreeEquirectangular ⟨1, 0⟩ forthBackForth (Subdivision.quadTree_fits (by decide))
  rw [walked_forthBackForth, given_forthBackForth] at hapart
  exact hapart 1 _ ⟨1, 0, 1⟩ rfl (by decide)
    (mem_corridor_forthBackForth (by simp [forthBackForth]))

end Walk

end TilePyramid
