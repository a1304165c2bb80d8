import TileRealm.Proofs.Grid.Bounds
import TileRealm.Shard

/-!
# Neighbours near a tile

A region that borders across several edges is listed once, under a name that no other region in
the list has in any case.  So the candidates for a ghost zone all have different names, and a name is
among them if a region with it borders across an edge that the tile is near to
(`Shard.exists_mem_neighborsNear_iff`).
-/

namespace TileRealm

namespace GhostZone

theorem clampWidth_nonneg (width : Int32) : 0 ≤ (clampWidth width).toInt := by
  unfold clampWidth
  split
  next => decide
  next h =>
    split
    next => decide
    next =>
      rw [Int32.not_lt, Int32.le_iff_toInt_le] at h
      have hmin : minWidth.toInt = 1 := by decide
      omega

/-- Bounds with a tile have one in every ghost zone. -/
theorem exists_isNear {b : Bounds} (h : ∃ t, b.contains t = true) (d : Direction) :
    ∃ t, b.contains t = true ∧ ∀ width, isNear b t width d = true := by
  rw [Bounds.exists_contains_iff] at h
  have hwidth := clampWidth_nonneg
  cases d with
  | east | north =>
    refine ⟨⟨b.maxX, b.maxY⟩, Bounds.contains_iff.2 (by dsimp only; omega), fun width => ?_⟩
    have := hwidth width
    exact decide_eq_true (by dsimp only; omega)
  | west | south =>
    refine ⟨⟨b.minX, b.minY⟩, Bounds.contains_iff.2 (by dsimp only; omega), fun width => ?_⟩
    have := hwidth width
    exact decide_eq_true (by dsimp only; omega)

end GhostZone

namespace Realm

/-- Whether a region of a name, in any case, borders on the bounds `mine` across an edge, other than
those named `current`. -/
def BordersOn (w : Realm) (current : String) (mine : Bounds) (d : Direction) (name : String) :
    Prop :=
  ∃ r ∈ w.regions, r.isNamed name = true ∧ r.isNamed current = false ∧
    mine.borders r.bounds d = true

instance (w : Realm) (current : String) (mine : Bounds) (d : Direction) (name : String) :
    Decidable (w.BordersOn current mine d name) :=
  inferInstanceAs (Decidable (∃ r ∈ w.regions, _))

theorem pairwise_firstOfName (ns : List Nearby) :
    (firstOfName ns).Pairwise fun m n => Text.sameName m.region.name n.region.name = false := by
  induction ns with
  | nil => exact .nil
  | cons n ns ih =>
    rw [firstOfName]
    refine List.pairwise_cons.2 ⟨fun m hm => ?_, ih.filter _⟩
    have := (List.mem_filter.1 hm).2
    simpa using this

/-- Listing every name once keeps all names. -/
theorem exists_mem_firstOfName_iff {ns : List Nearby} {name : String} :
    (∃ n ∈ firstOfName ns, n.region.isNamed name = true) ↔
      ∃ n ∈ ns, n.region.isNamed name = true := by
  induction ns with
  | nil => rfl
  | cons n ns ih =>
    rw [firstOfName]
    constructor
    · rintro ⟨m, hm, hname⟩
      rcases List.mem_cons.1 hm with rfl | hm
      · exact ⟨m, List.mem_cons_self, hname⟩
      · obtain ⟨m', hm', hname'⟩ := ih.1 ⟨m, (List.mem_filter.1 hm).1, hname⟩
        exact ⟨m', List.mem_cons_of_mem n hm', hname'⟩
    · rintro ⟨m, hm, hname⟩
      by_cases hn : n.region.isNamed name = true
      · exact ⟨n, List.mem_cons_self, hn⟩
      · have hns : m ∈ ns := by
          rcases List.mem_cons.1 hm with rfl | hm
          · exact absurd hname hn
          · exact hm
        obtain ⟨m', hm', hname'⟩ := ih.2 ⟨m, hns, hname⟩
        refine ⟨m', List.mem_cons_of_mem n (List.mem_filter.2 ⟨hm', ?_⟩), hname'⟩
        -- An entry that is dropped has the name of the first one.
        rw [Bool.not_eq_true', Bool.eq_false_iff]
        intro hsame
        exact hn (Text.sameName_iff.2
          ((Text.sameName_iff.1 hsame).trans (Text.sameName_iff.1 hname')))

section Search

variable {w : Realm} {current : String} {mine effective : Bounds} {t : Tile} {width : Int32}
  {d : Direction} {n : Nearby} {name : String}

/-- What is found across an edge, if the tile is near to it. -/
def found (w : Realm) (current : String) (mine effective : Bounds) (t : Tile) (width : Int32)
    (d : Direction) : List Nearby :=
  if GhostZone.isNear effective t width d then w.across current mine d else []

theorem near_eq (w : Realm) (current : String) (mine effective : Bounds) (t : Tile)
    (width : Int32) : w.near current mine effective t width =
      firstOfName (Direction.all.flatMap (w.found current mine effective t width)) := rfl

theorem mem_found_iff :
    n ∈ w.found current mine effective t width d ↔
      n.direction = d ∧ GhostZone.isNear effective t width d = true ∧ n.region ∈ w.regions ∧
        n.region.isNamed current = false ∧ mine.borders n.region.bounds d = true := by
  unfold found
  split
  next hnear =>
    simp only [across, List.mem_map, List.mem_filter, Bool.and_eq_true, Bool.not_eq_true']
    constructor
    · rintro ⟨r, ⟨hr, hother, hborders⟩, rfl⟩
      exact ⟨rfl, hnear, hr, hother, hborders⟩
    · rintro ⟨rfl, -, hr, hother, hborders⟩
      exact ⟨n.region, ⟨hr, hother, hborders⟩, rfl⟩
  next hfar => simp [hfar]

theorem exists_mem_found_iff :
    (∃ n ∈ w.found current mine effective t width d, n.region.isNamed name = true) ↔
      GhostZone.isNear effective t width d = true ∧ w.BordersOn current mine d name := by
  constructor
  · rintro ⟨n, hn, hname⟩
    obtain ⟨-, hnear, hr, hother, hborders⟩ := mem_found_iff.1 hn
    exact ⟨hnear, n.region, hr, hname, hother, hborders⟩
  · rintro ⟨hnear, r, hr, hname, hother, hborders⟩
    exact ⟨⟨r, d⟩, mem_found_iff.2 ⟨rfl, hnear, hr, hother, hborders⟩, hname⟩

theorem exists_mem_near_iff :
    (∃ n ∈ w.near current mine effective t width, n.region.isNamed name = true) ↔
      ∃ d, GhostZone.isNear effective t width d = true ∧ w.BordersOn current mine d name := by
  rw [near_eq, exists_mem_firstOfName_iff]
  constructor
  · rintro ⟨n, hn, hname⟩
    obtain ⟨d, -, hn⟩ := List.mem_flatMap.1 hn
    exact ⟨d, exists_mem_found_iff.1 ⟨n, hn, hname⟩⟩
  · rintro ⟨d, hd⟩
    obtain ⟨n, hn, hname⟩ := exists_mem_found_iff.2 hd
    exact ⟨n, List.mem_flatMap.2 ⟨d, by cases d <;> decide, hn⟩, hname⟩

end Search

end Realm

namespace Shard

variable (shard : Shard) (book : AddressBook) (t : Tile) (width : Int32)

theorem pairwise_neighborsNear :
    (shard.neighborsNear book t width).Pairwise fun c d => c.region ≠ d.region := by
  unfold neighborsNear
  rw [List.pairwise_map]
  refine List.Pairwise.imp ?_ (Realm.pairwise_firstOfName _)
  intro m n hne heq
  rw [show m.region.name = n.region.name from heq, Text.sameName_self] at hne
  cases hne

theorem exists_mem_neighborsNear_iff {name : String} :
    (∃ c ∈ shard.neighborsNear book t width, Text.sameName c.region name = true) ↔
      ∃ d, GhostZone.isNear shard.effective t width d = true ∧
        shard.realm.BordersOn shard.name shard.configured d name := by
  rw [← Realm.exists_mem_near_iff]
  unfold neighborsNear
  constructor
  · rintro ⟨c, hc, hname⟩
    obtain ⟨n, hn, rfl⟩ := List.mem_map.1 hc
    exact ⟨n, hn, hname⟩
  · rintro ⟨n, hn, hname⟩
    exact ⟨_, List.mem_map_of_mem hn, hname⟩

theorem endpoint_of_mem_neighborsNear {c : GhostCandidate}
    (h : c ∈ shard.neighborsNear book t width) : c.endpoint = book.resolve c.region := by
  obtain ⟨n, -, rfl⟩ := List.mem_map.1 h
  rfl

end Shard

end TileRealm
