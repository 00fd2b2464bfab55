import Mathlib
import TilePyramid.Proofs.Code
import TilePyramid.Proofs.Walk

/-!
# When a tile is given again

The queue of a window holds the gifts made so far but for the lost ones (`Window.Lost`): those from
before the preceding segment that lie further back than the capacity. `Window.Recalls` is that
invariant of queue and gifts, which entering a segment and sweeping its line both keep. It
determines the list of all gifts (`Window.mem_legs_iff`): a tile on the line of a segment is given
for it unless an earlier gift of the tile is still recalled.
-/

namespace TilePyramid

namespace Window

/-- The gift with number `i` is lost in segment `current`: it is from before the preceding segment,
and more than `capacity` gifts were made from it on until the segment began. -/
def Lost (capacity current : Nat) (gifts : List Gift) (i : Nat) : Prop :=
  ∃ gift, gifts[i]? = some gift ∧ gift.segment + 1 < current ∧
    i + capacity < gifts.countP fun gift => gift.segment < current

/-- The queue holds the gifts made up to segment `current`, in their order, but for the lost
ones. -/
structure Recalls (capacity current : Nat) (gifts : List Gift) (visits : List Visit) : Prop where
  ascending : gifts.Pairwise fun a b => a.segment ≤ b.segment
  made : ∀ gift ∈ gifts, gift.segment ≤ current
  queue : ∃ dropped, visits = (gifts.map Gift.visit).drop dropped ∧
    ∀ i, i < dropped ↔ Lost capacity current gifts i

variable {capacity current : Nat} {gifts later : List Gift} {visits : List Visit}

theorem Lost.lt_length {i : Nat} (h : Lost capacity current gifts i) : i < gifts.length := by
  obtain ⟨gift, hgift, -⟩ := h
  exact (List.getElem?_eq_some_iff.1 hgift).1

/-- Later gifts do not change which gifts are lost. -/
theorem lost_append_iff (hlater : ∀ gift ∈ later, current ≤ gift.segment) (i : Nat) :
    Lost capacity current (gifts ++ later) i ↔ Lost capacity current gifts i := by
  have hcount : (gifts ++ later).countP (fun gift => gift.segment < current) =
      gifts.countP fun gift => gift.segment < current := by
    rw [List.countP_append, Nat.add_eq_left, List.countP_eq_zero]
    intro gift hgift
    simpa using hlater gift hgift
  unfold Lost
  rw [hcount]
  constructor
  · intro h
    obtain ⟨gift, hgift, hbefore, hlength⟩ := h
    rcases Nat.lt_or_ge i gifts.length with hi | hi
    · rw [List.getElem?_append_left hi] at hgift
      exact ⟨gift, hgift, hbefore, hlength⟩
    · rw [List.getElem?_append_right hi] at hgift
      have := hlater gift (List.mem_of_getElem? hgift)
      omega
  · intro h
    obtain ⟨gift, hgift, hbefore, hlength⟩ := h
    have hi := (List.getElem?_eq_some_iff.1 hgift).1
    exact ⟨gift, (List.getElem?_append_left hi).trans hgift, hbefore, hlength⟩

theorem recalls_nil : Recalls capacity 0 [] [] := by
  refine ⟨.nil, by simp, 0, rfl, fun i => ?_⟩
  simp [Lost]

/-- Entering a segment drops from the queue what that segment loses. -/
theorem Recalls.kept (h : Recalls capacity current gifts visits) :
    Recalls capacity (current + 1) gifts (kept capacity (current + 1) visits) := by
  obtain ⟨dropped, hqueue, hlost⟩ := h.queue
  have hmade : gifts.countP (fun gift => gift.segment < current + 1) = gifts.length := by
    rw [List.countP_eq_length]
    intro gift hgift
    simpa using Nat.lt_succ_of_le (h.made gift hgift)
  have hascending : visits.Pairwise fun a b => a.segment ≤ b.segment := by
    rw [hqueue]
    exact (h.ascending.map Gift.visit fun _ _ hle => hle).drop
  have hlength : visits.length = gifts.length - dropped := by
    rw [hqueue, List.length_drop, List.length_map]
  refine ⟨h.ascending, fun gift hgift => Nat.le_succ_of_le (h.made gift hgift),
    dropped + (stale capacity (current + 1) visits).length, ?_, fun i => ?_⟩
  · rw [Window.kept, hqueue, List.drop_drop]
  rcases Nat.lt_or_ge i dropped with hi | hi
  · -- What was lost before stays lost.
    obtain ⟨gift, hgift, hbefore, hfar⟩ := (hlost i).1 hi
    have hcount : gifts.countP (fun gift => gift.segment < current) ≤ gifts.length :=
      List.countP_le_length
    refine ⟨fun _ => ⟨gift, hgift, by omega, ?_⟩, fun _ => by omega⟩
    rw [hmade]
    omega
  · have hentry : visits[i - dropped]? = gifts[i]?.map Gift.visit := by
      rw [hqueue, List.getElem?_drop, List.getElem?_map, Nat.add_sub_cancel' hi]
    have hstale := lt_length_stale_iff capacity (current + 1) hascending (i - dropped)
    rw [hentry, hlength] at hstale
    unfold Lost
    rw [hmade]
    constructor
    · intro hlt
      obtain ⟨visit, hvisit, hbefore, hfar⟩ := hstale.1 (by omega)
      obtain ⟨gift, hgift, rfl⟩ := Option.map_eq_some_iff.1 hvisit
      exact ⟨gift, hgift, hbefore, by omega⟩
    · intro h'
      obtain ⟨gift, hgift, hbefore, hfar⟩ := h'
      have := hstale.2 ⟨gift.visit, by rw [hgift]; rfl, hbefore, by omega⟩
      omega

/-- Sweeping the line of the present segment adds its gifts to those the queue holds. -/
theorem Recalls.sweep (h : Recalls capacity current gifts visits) (tiles : List Tile) :
    Recalls capacity current (gifts ++ (sweep current visits tiles).1.map (Gift.mk · current))
      (sweep current visits tiles).2 := by
  obtain ⟨dropped, hqueue, hlost⟩ := h.queue
  have hpresent : ∀ gift ∈ (Window.sweep current visits tiles).1.map (Gift.mk · current),
      gift.segment = current := by
    intro gift hgift
    obtain ⟨tile, -, rfl⟩ := List.mem_map.1 hgift
    rfl
  refine ⟨?_, ?_, dropped, ?_, fun i => ?_⟩
  · refine List.pairwise_append.2 ⟨h.ascending, ?_, ?_⟩
    · exact List.pairwise_of_forall_mem_list fun a ha b hb =>
        ((hpresent a ha).trans (hpresent b hb).symm).le
    · intro a ha b hb
      rw [hpresent b hb]
      exact h.made a ha
  · intro gift hgift
    rcases List.mem_append.1 hgift with hold | hnew
    · exact h.made gift hold
    · exact (hpresent gift hnew).le
  · have hdropped : dropped ≤ (gifts.map Gift.visit).length := by
      rw [List.length_map]
      by_contra hlong
      exact absurd ((hlost gifts.length).1 (by omega)).lt_length (Nat.lt_irrefl _)
    rw [sweep_snd, List.map_append, List.drop_append_of_le_length hdropped, ← hqueue,
      List.map_map]
    rfl
  · rw [hlost, lost_append_iff fun gift hgift => (hpresent gift hgift).ge]

/-- A code is in the queue exactly if some gift with this code is not lost. -/
theorem Recalls.mem_codes_iff (h : Recalls capacity current gifts visits) (code : Code) :
    code ∈ visits.map Visit.code ↔
      ∃ i gift, gifts[i]? = some gift ∧ gift.tile.code = code ∧
        ¬ Lost capacity current gifts i := by
  obtain ⟨dropped, hqueue, hlost⟩ := h.queue
  rw [hqueue, List.mem_map]
  constructor
  · intro h'
    obtain ⟨visit, hvisit, hcode⟩ := h'
    obtain ⟨j, hj⟩ := List.mem_iff_getElem?.1 hvisit
    rw [List.getElem?_drop, List.getElem?_map] at hj
    obtain ⟨gift, hgift, rfl⟩ := Option.map_eq_some_iff.1 hj
    refine ⟨dropped + j, gift, hgift, hcode, ?_⟩
    rw [← hlost]
    omega
  · intro h'
    obtain ⟨i, gift, hgift, hcode, hkept⟩ := h'
    rw [← hlost, Nat.not_lt] at hkept
    refine ⟨gift.visit, List.mem_iff_getElem?.2 ⟨i - dropped, ?_⟩, hcode⟩
    rw [List.getElem?_drop, List.getElem?_map, Nat.add_sub_cancel' hkept, hgift]
    rfl

/-! ## The gifts of all legs -/

variable {tiles : List Tile} {lines : List (List Tile)}

/-- Every gift is a tile on the line of its segment. -/
theorem mem_line_of_mem_legs {gift : Gift} (h : gift ∈ legs capacity current visits lines)
    (hcodes : ∀ tiles ∈ lines, Set.InjOn Tile.code { t | t ∈ tiles }) :
    ∃ k tiles, lines[k]? = some tiles ∧ gift.segment = current + 1 + k ∧ gift.tile ∈ tiles := by
  induction lines generalizing current visits with
  | nil => exact absurd h List.not_mem_nil
  | cons first rest ih =>
      rw [legs_cons] at h
      rcases List.mem_append.1 h with hfirst | hrest
      · obtain ⟨tile, htile, rfl⟩ := List.mem_map.1 hfirst
        rw [mem_sweep_iff (hcodes first List.mem_cons_self)] at htile
        exact ⟨0, first, rfl, rfl, htile.1⟩
      · obtain ⟨k, tiles, htiles, hsegment, hmem⟩ :=
          ih hrest fun tiles htiles => hcodes tiles (List.mem_cons_of_mem first htiles)
        exact ⟨k + 1, tiles, htiles, by omega, hmem⟩

/-- Gifts of a line come after those made before. -/
theorem lt_segment_of_mem_legs {gift : Gift} (h : gift ∈ legs capacity current visits lines) :
    current < gift.segment := by
  induction lines generalizing current visits with
  | nil => exact absurd h List.not_mem_nil
  | cons first rest ih =>
      rw [legs_cons] at h
      rcases List.mem_append.1 h with hfirst | hrest
      · obtain ⟨tile, -, rfl⟩ := List.mem_map.1 hfirst
        exact Nat.lt_succ_self current
      · exact Nat.lt_of_succ_lt (ih hrest)

/-- No tile is given twice for the same segment. -/
theorem nodup_legs (h : (visits.map Visit.code).Nodup) :
    (legs capacity current visits lines).Nodup := by
  induction lines generalizing current visits with
  | nil => exact List.nodup_nil
  | cons first rest ih =>
      have hkept := nodup_kept capacity (current + 1) h
      have hsweep := nodup_sweep (current + 1) hkept first
      rw [legs_cons, List.nodup_append']
      refine ⟨?_, ih hsweep, ?_⟩
      · rw [sweep_snd, List.map_append, List.map_map] at hsweep
        exact hsweep.of_append_right.of_map.map fun _ _ heq => congrArg Gift.tile heq
      · intro gift hfirst hrest
        obtain ⟨tile, -, rfl⟩ := List.mem_map.1 hfirst
        exact absurd (lt_segment_of_mem_legs hrest) (Nat.lt_irrefl _)

/-- The gifts of a list that come before a segment are those of its front part. -/
theorem getElem?_append_before_iff (hmade : ∀ gift ∈ gifts, gift.segment ≤ current)
    (hlater : ∀ gift ∈ later, current < gift.segment) {i : Nat} {gift : Gift} :
    (gifts ++ later)[i]? = some gift ∧ gift.segment < current + 1 ↔ gifts[i]? = some gift := by
  constructor
  · intro h
    obtain ⟨hgift, hbefore⟩ := h
    rcases Nat.lt_or_ge i gifts.length with hi | hi
    · rwa [List.getElem?_append_left hi] at hgift
    · rw [List.getElem?_append_right hi] at hgift
      have := hlater gift (List.mem_of_getElem? hgift)
      omega
  · intro hgift
    have hi := (List.getElem?_eq_some_iff.1 hgift).1
    exact ⟨(List.getElem?_append_left hi).trans hgift,
      Nat.lt_succ_of_le (hmade gift (List.mem_of_getElem? hgift))⟩

/-- A sweep of valid tiles gives those of which every earlier gift is lost. -/
theorem Recalls.mem_sweep_iff (h : Recalls capacity current gifts visits)
    (hgifts : ∀ gift ∈ gifts, gift.tile.IsValid) (htiles : ∀ tile ∈ tiles, tile.IsValid)
    {tile : Tile} :
    tile ∈ (Window.sweep current visits tiles).1 ↔
      tile ∈ tiles ∧ ∀ i gift, gifts[i]? = some gift → gift.tile = tile →
        Lost capacity current gifts i := by
  rw [Window.mem_sweep_iff (Tile.code_injOn.mono htiles), h.mem_codes_iff]
  refine and_congr_right fun hmem => ⟨fun hout i gift hgift htile => ?_, ?_⟩
  · by_contra hkept
    exact hout ⟨i, gift, hgift, by rw [htile], hkept⟩
  · rintro hlost ⟨i, gift, hgift, hcode, hkept⟩
    have hvalid := hgifts gift (List.mem_of_getElem? hgift)
    exact hkept (hlost i gift hgift (Tile.code_injOn hvalid (htiles tile hmem) hcode))

/-- A tile on a line is given for it unless an earlier gift of the tile is still recalled. -/
theorem mem_legs_iff (h : Recalls capacity current gifts visits)
    (hgifts : ∀ gift ∈ gifts, gift.tile.IsValid)
    (hvalid : ∀ tiles ∈ lines, ∀ tile ∈ tiles, tile.IsValid) {k : Nat} {tile : Tile} :
    ⟨tile, current + 1 + k⟩ ∈ legs capacity current visits lines ↔
      ∃ tiles, lines[k]? = some tiles ∧ tile ∈ tiles ∧
        ∀ i gift, (gifts ++ legs capacity current visits lines)[i]? = some gift → gift.tile = tile →
          gift.segment < current + 1 + k →
            Lost capacity (current + 1 + k) (gifts ++ legs capacity current visits lines) i := by
  induction lines generalizing current gifts visits k with
  | nil => simp [legs]
  | cons first rest ih =>
      have hfirst : ∀ tile ∈ first, tile.IsValid := hvalid first List.mem_cons_self
      have hentered := h.kept
      have hswept := hentered.sweep first
      cases k with
      | zero =>
          -- The first line meets the queue as the gifts so far have left it.
          have hlater : ∀ gift ∈ legs capacity current visits (first :: rest),
              current < gift.segment := fun gift hgift => lt_segment_of_mem_legs hgift
          have hgiven :
              (⟨tile, current + 1⟩ : Gift) ∈ legs capacity current visits (first :: rest) ↔
              tile ∈ (sweep (current + 1) (kept capacity (current + 1) visits) first).1 := by
            rw [legs_cons, List.mem_append, List.mem_map]
            constructor
            · rintro (⟨other, hother, heq⟩ | hrest)
              · cases heq
                exact hother
              · exact absurd (lt_segment_of_mem_legs hrest) (Nat.lt_irrefl _)
            · exact fun htile => .inl ⟨tile, htile, rfl⟩
          rw [Nat.add_zero, hgiven, hentered.mem_sweep_iff hgifts hfirst]
          simp only [List.getElem?_cons_zero, Option.some.injEq, exists_eq_left',
            lost_append_iff hlater]
          refine and_congr_right fun _ => forall_congr' fun i => forall_congr' fun gift => ?_
          rw [← getElem?_append_before_iff h.made hlater]
          exact ⟨fun hlost hgift htile hbefore => hlost ⟨hgift, hbefore⟩ htile,
            fun hlost hgift htile => hlost hgift.1 htile hgift.2⟩
      | succ k =>
          -- A later line is one of the rest, before which the first line adds its gifts.
          have hgifts' : ∀ gift ∈ gifts ++
              (sweep (current + 1) (kept capacity (current + 1) visits) first).1.map
                (Gift.mk · (current + 1)), gift.tile.IsValid := by
            intro gift hgift
            rcases List.mem_append.1 hgift with hold | hnew
            · exact hgifts gift hold
            · obtain ⟨tile, htile, rfl⟩ := List.mem_map.1 hnew
              rw [hentered.mem_sweep_iff hgifts hfirst] at htile
              exact hfirst tile htile.1
          have hrest := @ih _ _ _ hswept hgifts'
            (fun tiles htiles => hvalid tiles (List.mem_cons_of_mem first htiles)) k
          rw [List.append_assoc, ← legs_cons] at hrest
          rw [show current + 1 + (k + 1) = current + 1 + 1 + k by omega, List.getElem?_cons_succ,
            ← hrest, legs_cons, List.mem_append, or_iff_right]
          intro hfirst
          obtain ⟨other, -, heq⟩ := List.mem_map.1 hfirst
          have hsegment : current + 1 = current + 1 + 1 + k := congrArg Gift.segment heq
          omega

end Window

end TilePyramid
