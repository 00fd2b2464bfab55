import Mathlib
import TilePyramid.Proofs.Corridor
import TilePyramid.Proofs.Domain
import TilePyramid.Proofs.Squares

/-!
# The vertices of a path

The vertices of a path may come from a source, one at a time. A `Joiner` reads them and joins each
to the next. A call of it gives the first of the segments still to come and leaves the others
(`Joiner.next_ahead`), so its calls give the segments of `Segment.ofVertices` and then nothing for
ever. Every vertex is an end of one of them (`Segment.exists_joined`), and the tiles of both ends of
a segment are near it (`Scheme.ends_mem_corridor`). So a walk along a path gives the tile of every
vertex (`Walk.vertices_joined_and_given`).
-/

namespace TilePyramid

/-! ## Sources -/

section
variable {σ β : Type*} {read : σ → Option β × σ} {source : σ} {members : List β}

/-- The calls of a source give the members of a list one after the other, and nothing for ever
behind the last of them. -/
def Yields (read : σ → Option β × σ) (source : σ) (members : List β) : Prop :=
  ∀ n, (read ((fun source => (read source).2)^[n] source)).1 = members[n]?

/-- A call gives the first member, and the source behind it yields the others. -/
theorem Yields.exists_read (h : Yields read source members) :
    ∃ rest, read source = (members.head?, rest) ∧ Yields read rest members.tail := by
  refine ⟨(read source).2, Prod.ext ?_ rfl, fun n => ?_⟩
  · rw [List.head?_eq_getElem?]
    exact h 0
  · rw [List.getElem?_tail]
    exact h (n + 1)

/-- A source yields what is ahead of it, where every call gives the first of what is ahead and leaves
the others ahead. -/
theorem Yields.of_read (Ahead : σ → List β → Prop)
    (hread : ∀ source members, Ahead source members →
      (read source).1 = members.head? ∧ Ahead (read source).2 members.tail)
    (h : Ahead source members) : Yields read source members := by
  intro n
  induction n generalizing source members with
  | zero =>
      rw [← List.head?_eq_getElem?]
      exact (hread _ _ h).1
  | succ n ih =>
      rw [← List.getElem?_tail, Function.iterate_succ_apply]
      exact ih (hread _ _ h).2

/-- The first member of a list and the list behind it. -/
def readFront (members : List β) : Option β × List β := (members.head?, members.tail)

/-- A list that is read from its front yields its members. -/
theorem yields_readFront (members : List β) : Yields readFront members members := by
  refine .of_read Eq ?_ rfl
  rintro source members rfl
  exact ⟨rfl, rfl⟩

end

/-! ## Joining vertices -/

namespace Segment

variable {α : Type}

theorem along_eq_zipWith (start : Position α) (vertices : List (Position α)) :
    along start vertices = List.zipWith mk (start :: vertices) vertices := by
  induction vertices generalizing start with
  | nil => rfl
  | cons next rest ih => rw [along, ih, List.zipWith_cons_cons]

/-- A path with two or more vertices has the segments from each of them to the next. -/
theorem ofVertices_eq_zipWith {vertices : List (Position α)} (h : 2 ≤ vertices.length) :
    ofVertices vertices = List.zipWith mk vertices vertices.tail := by
  match vertices, h with
  | first :: second :: rest, _ => exact along_eq_zipWith first (second :: rest)

theorem length_ofVertices {vertices : List (Position α)} (h : 2 ≤ vertices.length) :
    (ofVertices vertices).length + 1 = vertices.length := by
  rw [ofVertices_eq_zipWith h, List.length_zipWith, List.length_tail]
  omega

theorem getElem?_ofVertices {vertices : List (Position α)} {i : Nat}
    (h : i + 1 < vertices.length) :
    (ofVertices vertices)[i]? = some ⟨vertices[i], vertices[i + 1]⟩ := by
  have hlength : 2 ≤ vertices.length := by omega
  rw [ofVertices_eq_zipWith hlength, List.getElem?_zipWith, List.getElem?_tail,
    List.getElem?_eq_getElem (Nat.lt_of_succ_lt h), List.getElem?_eq_getElem h]

/-- Every vertex behind the start is the end of a segment. -/
theorem exists_joined_along {vertex : Position α} {vertices : List (Position α)}
    (h : vertex ∈ vertices) (start : Position α) :
    ∃ other ∈ start :: vertices, ⟨other, vertex⟩ ∈ along start vertices := by
  induction vertices generalizing start with
  | nil => cases h
  | cons next rest ih =>
      rcases List.mem_cons.1 h with rfl | hrest
      · exact ⟨start, List.mem_cons_self, List.mem_cons_self⟩
      · obtain ⟨other, hother, hsegment⟩ := ih hrest next
        exact ⟨other, List.mem_cons_of_mem _ hother, List.mem_cons_of_mem _ hsegment⟩

/-- Every vertex of a path is joined to a vertex. -/
theorem exists_joined {vertex : Position α} {vertices : List (Position α)}
    (h : vertex ∈ vertices) :
    ∃ other ∈ vertices, ⟨vertex, other⟩ ∈ ofVertices vertices ∨
      ⟨other, vertex⟩ ∈ ofVertices vertices := by
  match vertices, h with
  | [only], h =>
      obtain rfl := List.mem_singleton.1 h
      exact ⟨vertex, h, .inl List.mem_cons_self⟩
  | first :: second :: rest, h =>
      rcases List.mem_cons.1 h with rfl | hrest
      · exact ⟨second, by simp, .inl List.mem_cons_self⟩
      · obtain ⟨other, hother, hsegment⟩ := exists_joined_along hrest first
        exact ⟨other, hother, .inr hsegment⟩

end Segment

/-- A reading of the vertices of a path: the source of those to come, and the last one read. -/
structure Joiner (σ α : Type) where
  vertices : σ
  last : Option (Position α)

namespace Joiner

variable {σ α : Type}

/-- The next segment and the joiner behind it. The first segment takes two vertices, and where there
is only one, it begins and ends there. Every other segment begins at the last vertex read. -/
def next (read : σ → Option (Position α) × σ) (joiner : Joiner σ α) :
    Option (Segment α) × Joiner σ α :=
  match joiner.last with
  | some start =>
      match read joiner.vertices with
      | (none, rest) => (none, ⟨rest, some start⟩)
      | (some stop, rest) => (some ⟨start, stop⟩, ⟨rest, some stop⟩)
  | none =>
      match read joiner.vertices with
      | (none, rest) => (none, ⟨rest, none⟩)
      | (some first, rest) =>
          match read rest with
          | (none, rest) => (some ⟨first, first⟩, ⟨rest, some first⟩)
          | (some second, rest) => (some ⟨first, second⟩, ⟨rest, some second⟩)

/-- The segments still to come from the last vertex read and the vertices still to be read. -/
def ahead : Option (Position α) → List (Position α) → List (Segment α)
  | none, vertices => Segment.ofVertices vertices
  | some start, vertices => Segment.along start vertices

variable {read : σ → Option (Position α) × σ} {source : σ} {vertices : List (Position α)}

/-- A call gives the first of the segments still to come and leaves the others. -/
theorem next_ahead (last : Option (Position α)) (h : Yields read source vertices) :
    (next read ⟨source, last⟩).1 = (ahead last vertices).head? ∧
      ∃ rest, Yields read (next read ⟨source, last⟩).2.vertices rest ∧
        ahead (next read ⟨source, last⟩).2.last rest = (ahead last vertices).tail := by
  obtain ⟨behind, hread, hbehind⟩ := h.exists_read
  cases last with
  | some start =>
      cases vertices with
      | nil =>
          simp only [next, hread, List.head?_nil]
          exact ⟨rfl, [], hbehind, rfl⟩
      | cons stop rest =>
          simp only [next, hread, List.head?_cons]
          exact ⟨rfl, rest, hbehind, rfl⟩
  | none =>
      cases vertices with
      | nil =>
          simp only [next, hread, List.head?_nil]
          exact ⟨rfl, [], hbehind, rfl⟩
      | cons first others =>
          -- The first call looks for a second vertex too.
          obtain ⟨behind', hread', hbehind'⟩ := hbehind.exists_read
          cases others with
          | nil =>
              simp only [next, hread, hread', List.head?_cons, List.tail_cons, List.head?_nil]
              exact ⟨rfl, [], hbehind', rfl⟩
          | cons second rest =>
              simp only [next, hread, hread', List.head?_cons, List.tail_cons]
              exact ⟨rfl, rest, hbehind', rfl⟩

/-- A joiner yields the segments still to come. -/
theorem yields_ahead (last : Option (Position α)) (h : Yields read source vertices) :
    Yields (next read) ⟨source, last⟩ (ahead last vertices) := by
  refine .of_read (fun joiner segments => ∃ vertices,
    Yields read joiner.vertices vertices ∧ ahead joiner.last vertices = segments) ?_ ⟨_, h, rfl⟩
  rintro ⟨source, last⟩ _ ⟨vertices, hvertices, rfl⟩
  exact next_ahead last hvertices

end Joiner

/-! ## The tiles of the ends of a segment -/

namespace Scheme

variable {α : Type} [Scalar α] {s : Scheme} {options : PathOptions} {segment : Segment α}

/-- The tiles of the cells of the line itself are near the segment. -/
theorem mem_corridor_of_mem_bresenham {tile : Tile} (hends : s.HasEnds options.level segment)
    (htile : s.HasTile options.level tile)
    (hline : Walk.cellOf tile ∈ bresenham (Walk.cellOf (s.locate segment.start options.level))
      (Walk.cellOf (s.locate segment.stop options.level))) :
    tile ∈ s.corridor options segment := by
  refine ⟨hends, _, hline, _, (Cell.distance_self _).trans_le (Nat.zero_le _), ?_, ?_,
    htile.level_eq⟩
  · exact (Int.emod_eq_of_lt (Int.natCast_nonneg _) (by exact_mod_cast htile.row_lt)).symm
  · exact (Int.emod_eq_of_lt (Int.natCast_nonneg _) (by exact_mod_cast htile.column_lt)).symm

/-- The tiles of both ends of a segment are near it. -/
theorem ends_mem_corridor (hends : s.HasEnds options.level segment) :
    s.locate segment.start options.level ∈ s.corridor options segment ∧
      s.locate segment.stop options.level ∈ s.corridor options segment := by
  obtain ⟨hstart, hstop⟩ := Line.ends_mem_bresenham
    (Walk.cellOf (s.locate segment.start options.level))
    (Walk.cellOf (s.locate segment.stop options.level))
  exact ⟨mem_corridor_of_mem_bresenham hends (hasTile_of_isValid hends.1) hstart,
    mem_corridor_of_mem_bresenham hends (hasTile_of_isValid hends.2) hstop⟩

/-- Where all vertices of a path have tiles, these are near its segments. -/
theorem exists_mem_corridor {vertices : List (Position α)}
    (hvalid : ∀ vertex ∈ vertices, (s.locate vertex options.level).IsValid) {vertex : Position α}
    (h : vertex ∈ vertices) :
    ∃ segment ∈ Segment.ofVertices vertices,
      s.locate vertex options.level ∈ s.corridor options segment := by
  obtain ⟨other, hother, hjoined | hjoined⟩ := Segment.exists_joined h
  · have hends : s.HasEnds options.level ⟨vertex, other⟩ :=
      ⟨hvalid vertex h, hvalid other hother⟩
    exact ⟨_, hjoined, (ends_mem_corridor hends).1⟩
  · have hends : s.HasEnds options.level ⟨other, vertex⟩ :=
      ⟨hvalid other hother, hvalid vertex h⟩
    exact ⟨_, hjoined, (ends_mem_corridor hends).2⟩

end Scheme

namespace Walk

/-- Joining the vertices that a source yields, however it keeps them, gives the segments of the path
and then nothing for ever. There are none without a vertex, one of no length at a single vertex, and
else the segments from each vertex to the next. If every vertex has a tile, a walk along these
segments gives the tile of every vertex, in a grid that fits its level and whatever its width. -/
theorem vertices_joined_and_given {σ α : Type} [Scalar α] (read : σ → Option (Position α) × σ)
    (source : σ) (vertices : List (Position α)) (hsource : Yields read source vertices) :
    let segments := Segment.ofVertices vertices
    Yields (Joiner.next read) ⟨source, none⟩ segments ∧
    (vertices = [] → segments = []) ∧
    (∀ vertex, vertices = [vertex] → segments = [⟨vertex, vertex⟩]) ∧
    (2 ≤ vertices.length → segments.length + 1 = vertices.length ∧
      ∀ i (h : i + 1 < vertices.length), segments[i]? = some ⟨vertices[i], vertices[i + 1]⟩) ∧
    ∀ (s : Scheme) (options : PathOptions), (s.subdivision.size options.level).Fits options.level →
      (∀ vertex ∈ vertices, (s.locate vertex options.level).IsValid) →
        ∀ vertex ∈ vertices, ∃ n,
          (start s options segments).call n = some (s.locate vertex options.level) := by
  intro segments
  refine ⟨Joiner.yields_ahead none hsource, ?_, ?_, fun hlength => ?_, ?_⟩
  · rintro rfl
    rfl
  · rintro vertex rfl
    rfl
  · exact ⟨Segment.length_ofVertices hlength, fun i h => Segment.getElem?_ofVertices h⟩
  · intro s options hsize hvalid vertex hvertex
    have hlevel : options.level ≤ maxLevel := by
      rw [← (Scheme.hasTile_of_isValid (hvalid vertex hvertex)).level_eq]
      exact Nat.le_of_lt_succ (hvalid vertex hvertex).1
    obtain ⟨segment, hsegment, htile⟩ := Scheme.exists_mem_corridor hvalid hvertex
    rw [exists_call_iff, exists_gift_iff hlevel hsize]
    exact ⟨segment, hsegment, htile⟩

/-- On a path that comes back, the tile of the last vertex is that of the first one. The tile of the
vertex between them is given. -/
theorem vertices_joined_and_given_thereAndBack :
    let west : Position Float := ⟨0.0, -1.0⟩
    let east : Position Float := ⟨0.0, 1.0⟩
    let path := [west, east, west]
    Yields readFront path path ∧ (Scheme.quadTreeEquirectangular.subdivision.size 1).Fits 1 ∧
      (∀ vertex ∈ path, (Scheme.quadTreeEquirectangular.locate vertex 1).IsValid) ∧
      Yields (Joiner.next readFront) ⟨path, none⟩ [⟨west, east⟩, ⟨east, west⟩] ∧
      ∃ n, (start .quadTreeEquirectangular ⟨1, 0⟩ [⟨west, east⟩, ⟨east, west⟩]).call n =
        some ⟨1, 1, 1⟩ := by
  intro west east path
  have hpath : Yields readFront path path := yields_readFront path
  have hsize := Subdivision.quadTree_fits (show 1 ≤ maxLevel by decide)
  have hvalid : ∀ vertex ∈ path, (Scheme.quadTreeEquirectangular.locate vertex 1).IsValid := by
    decide
  have heast : Scheme.quadTreeEquirectangular.locate east 1 = ⟨1, 1, 1⟩ := by decide
  obtain ⟨hjoined, -, -, -, hgiven⟩ := vertices_joined_and_given readFront path path hpath
  refine ⟨hpath, hsize, hvalid, hjoined, ?_⟩
  rw [← heast]
  exact hgiven .quadTreeEquirectangular ⟨1, 0⟩ hsize hvalid east (by simp [path])

end Walk

end TilePyramid
