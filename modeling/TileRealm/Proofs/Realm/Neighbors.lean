import TileRealm.Proofs.Realm.Near

/-!
# Neighbours across the edges

Two bounds border on each other across an edge when a tile on the one edge is also on the other's
opposite edge, or has a tile of that edge next to it (`Bounds.borders_iff_exists`).  The search for
neighbours finds every region that borders across an edge near by, under a name that nothing else
found has, and in the first direction in which there is one of the name (`Realm.near_finds`).
-/

namespace TileRealm

namespace Direction

/-! ### Tiles by a direction -/

/-- The coordinate of a tile that grows or falls in a direction. -/
def across (d : Direction) (t : Tile) : Int :=
  match d with
  | east | west => t.x.toInt
  | north | south => t.y.toInt

/-- The coordinate of a tile that does not change in a direction. -/
def along (d : Direction) (t : Tile) : Int :=
  match d with
  | east | west => t.y.toInt
  | north | south => t.x.toInt

/-- The tile with the given coordinates across and along a direction. -/
def tile (d : Direction) (c l : Coord) : Tile :=
  match d with
  | east | west => ⟨c, l⟩
  | north | south => ⟨l, c⟩

@[simp] theorem across_tile (d : Direction) (c l : Coord) : d.across (d.tile c l) = c.toInt := by
  cases d <;> rfl

@[simp] theorem along_tile (d : Direction) (c l : Coord) : d.along (d.tile c l) = l.toInt := by
  cases d <;> rfl

@[simp] theorem across_opposite (d : Direction) (t : Tile) : d.opposite.across t = d.across t := by
  cases d <;> rfl

@[simp] theorem along_opposite (d : Direction) (t : Tile) : d.opposite.along t = d.along t := by
  cases d <;> rfl

/-- Whether a tile is the next one in a direction. -/
def IsNext (d : Direction) (a b : Tile) : Prop :=
  d.across b = d.across a + Bounds.outward d ∧ d.along b = d.along a

end Direction

namespace Bounds

variable {a b : Bounds} {d : Direction} {t : Tile}

/-! ### Edges -/

/-- The first coordinate along the edge that faces a direction. -/
def start (b : Bounds) : Direction → Coord
  | .east | .west => b.minY
  | .north | .south => b.minX

/-- The last coordinate along the edge that faces a direction. -/
def stop (b : Bounds) : Direction → Coord
  | .east | .west => b.maxY
  | .north | .south => b.maxX

/-- Whether a tile of the bounds lies on the edge that faces a direction. -/
def OnEdge (b : Bounds) (d : Direction) (t : Tile) : Prop :=
  b.contains t = true ∧ d.across t = (b.edge d).toInt

/-- How many tiles a tile lies inward of the edge that faces a direction. -/
def depth (b : Bounds) (d : Direction) (t : Tile) : Int :=
  outward d * ((b.edge d).toInt - d.across t)

@[simp] theorem start_opposite (b : Bounds) (d : Direction) : b.start d.opposite = b.start d := by
  cases d <;> rfl

@[simp] theorem stop_opposite (b : Bounds) (d : Direction) : b.stop d.opposite = b.stop d := by
  cases d <;> rfl

theorem start_le_stop (h : b.isEmpty = false) (d : Direction) :
    (b.start d).toInt ≤ (b.stop d).toInt := by
  rw [isEmpty_eq_false_iff, exists_contains_iff] at h
  cases d with
  | east | west => exact h.2
  | north | south => exact h.1

theorem onEdge_iff (h : b.isEmpty = false) :
    b.OnEdge d t ↔ d.across t = (b.edge d).toInt ∧
      (b.start d).toInt ≤ d.along t ∧ d.along t ≤ (b.stop d).toInt := by
  rw [isEmpty_eq_false_iff, exists_contains_iff] at h
  unfold OnEdge
  rw [contains_iff]
  cases d <;> simp only [Direction.across, Direction.along, edge, start, stop] <;> omega

theorem alongside_iff :
    alongside a b d = true ↔
      (a.start d).toInt ≤ (b.stop d).toInt ∧ (b.start d).toInt ≤ (a.stop d).toInt := by
  cases d <;>
    simp only [alongside, rangesOverlap, start, stop, Bool.and_eq_true, decide_eq_true_eq,
      Int32.le_iff_toInt_le]

theorem borders_iff :
    a.borders b d = true ↔
      ((b.edge d.opposite).toInt = (a.edge d).toInt ∨
        (b.edge d.opposite).toInt = (a.edge d).toInt + outward d) ∧ alongside a b d = true := by
  simp only [borders, Bool.and_eq_true, Bool.or_eq_true, beq_iff_eq]

/-- Bounds border across an edge if a tile on it is also on the opposite edge of the others, or is
next to a tile there. -/
theorem borders_iff_exists (ha : a.isEmpty = false) (hb : b.isEmpty = false) :
    a.borders b d = true ↔
      ∃ p q, a.OnEdge d p ∧ b.OnEdge d.opposite q ∧ (q = p ∨ d.IsNext p q) := by
  simp only [borders_iff, alongside_iff, onEdge_iff ha, onEdge_iff hb, Direction.across_opposite,
    Direction.along_opposite, start_opposite, stop_opposite, Direction.IsNext]
  have hla := start_le_stop ha d
  have hlb := start_le_stop hb d
  constructor
  · rintro ⟨hedge, halong⟩
    -- The two edges have this row or column in common.
    have hcommon := toInt_larger (a.start d) (b.start d)
    refine ⟨d.tile (a.edge d) (larger (a.start d) (b.start d)),
      d.tile (b.edge d.opposite) (larger (a.start d) (b.start d)), ?_, ?_, ?_⟩
    · rw [Direction.across_tile, Direction.along_tile]
      exact ⟨rfl, by omega, by omega⟩
    · rw [Direction.across_tile, Direction.along_tile]
      exact ⟨rfl, by omega, by omega⟩
    · rcases hedge with hsame | hnext
      · left
        rw [Int32.toInt_inj.1 hsame]
      · right
        rw [Direction.across_tile, Direction.across_tile, Direction.along_tile,
          Direction.along_tile]
        exact ⟨hnext, rfl⟩
  · rintro ⟨p, q, ⟨hp, hp'⟩, ⟨hq, hq'⟩, rfl | ⟨hc, hl⟩⟩
    · exact ⟨.inl (by omega), by omega⟩
    · exact ⟨.inr (by omega), by omega⟩

end Bounds

namespace GhostZone

theorem toInt_clampWidth (width : Int32) :
    (clampWidth width).toInt = max 1 (min width.toInt 3) := by
  have hmin : minWidth.toInt = 1 := by decide
  have hmax : maxWidth.toInt = 3 := by decide
  unfold clampWidth
  split
  next h =>
    rw [Int32.lt_iff_toInt_lt] at h
    omega
  next h =>
    rw [Int32.not_lt, Int32.le_iff_toInt_le] at h
    split
    next h' =>
      rw [Int32.lt_iff_toInt_lt] at h'
      omega
    next h' =>
      rw [Int32.not_lt, Int32.le_iff_toInt_le] at h'
      omega

/-- A tile is near to an edge that it is at most the width away from, and beyond it. -/
theorem isNear_iff {b : Bounds} {t : Tile} {width : Int32} {d : Direction} :
    isNear b t width d = true ↔ b.depth d t ≤ max 1 (min width.toInt 3) := by
  rw [← toInt_clampWidth]
  cases d <;>
    simp only [isNear, Bounds.depth, Bounds.outward, Bounds.edge, Direction.across,
      decide_eq_true_eq] <;>
    omega

end GhostZone

namespace Realm

/-! ### The search -/

theorem mem_of_mem_firstOfName {ns : List Nearby} {n : Nearby} (h : n ∈ firstOfName ns) :
    n ∈ ns := by
  induction ns with
  | nil => exact h
  | cons m ns ih =>
    rw [firstOfName] at h
    rcases List.mem_cons.1 h with rfl | h
    · exact List.mem_cons_self
    · exact List.mem_cons_of_mem m (ih (List.mem_filter.1 h).1)

/-- Of the entries with one name, the first is kept. -/
theorem find?_of_mem_firstOfName {ns : List Nearby} {n : Nearby} (h : n ∈ firstOfName ns) :
    ns.find? (fun m => m.region.isNamed n.region.name) = some n := by
  induction ns with
  | nil => cases h
  | cons m ns ih =>
    rw [firstOfName] at h
    rcases List.mem_cons.1 h with rfl | h
    · exact List.find?_cons_of_pos (Text.sameName_self _)
    · obtain ⟨hn, hne⟩ := List.mem_filter.1 h
      rw [List.find?_cons_of_neg, ih hn]
      simpa [Region.isNamed] using hne

section Search

variable {w : Realm} {current : String} {mine effective : Bounds} {t : Tile} {width : Int32}
  {n : Nearby}

theorem of_mem_near (h : n ∈ w.near current mine effective t width) :
    GhostZone.isNear effective t width n.direction = true ∧ n.region ∈ w.regions ∧
      n.region.isNamed current = false ∧ mine.borders n.region.bounds n.direction = true := by
  rw [near_eq] at h
  obtain ⟨d, -, hn⟩ := List.mem_flatMap.1 (mem_of_mem_firstOfName h)
  obtain ⟨rfl, hn⟩ := mem_found_iff.1 hn
  exact hn

/-- What is found lies in the first direction in which there is something of its name. -/
theorem find?_direction_of_mem_near (h : n ∈ w.near current mine effective t width) :
    Direction.all.find? (fun d => GhostZone.isNear effective t width d &&
      decide (w.BordersOn current mine d n.region.name)) = some n.direction := by
  rw [near_eq] at h
  have hfind := find?_of_mem_firstOfName h
  rw [List.find?_flatMap, List.findSome?_eq_some_iff] at hfind
  obtain ⟨before, d, after, hall, hd, hbefore⟩ := hfind
  have hn := List.mem_of_find?_eq_some hd
  have hname := List.find?_some hd
  rw [(mem_found_iff.1 hn).1, List.find?_eq_some_iff_append]
  refine ⟨?_, before, after, hall, fun d' hd' => ?_⟩
  · obtain ⟨hnear, hborders⟩ := exists_mem_found_iff.1 ⟨n, hn, hname⟩
    simp [hnear, hborders]
  · rw [Bool.not_eq_true', ← Bool.not_eq_true, Bool.and_eq_true, decide_eq_true_eq]
    intro hfound
    obtain ⟨m, hm, hname⟩ := exists_mem_found_iff.2 hfound
    exact absurd hname (List.find?_eq_none.1 (hbefore d' hd') m hm)

end Search

/-- What the search finds is never named like the region that it is for, and no two finds have one
name, in any case.  Each is a region that borders on the configured bounds across an edge of the
effective bounds that the tile is near to; each other region that does so is found, or one of its name
is; and each is found in the first direction, of the east, the west, the north and the south, in which
there is one of its name.  A tile is near to an edge from which it is at most the width away, which
is 1 at least and 3 at most, and regions border on each other when tiles on their edges fall together
or are next to each other. -/
theorem near_finds (w : Realm) (current : String) (mine effective : Bounds) (t : Tile)
    (width : Int32) :
    (∀ n ∈ w.near current mine effective t width, n.region.isNamed current = false) ∧
    (w.near current mine effective t width).Pairwise
      (fun m n => m.region.isNamed n.region.name = false) ∧
    (∀ n ∈ w.near current mine effective t width, n.region ∈ w.regions ∧
      mine.borders n.region.bounds n.direction = true ∧
      GhostZone.isNear effective t width n.direction = true) ∧
    (∀ r ∈ w.regions, r.isNamed current = false →
      ∀ d, GhostZone.isNear effective t width d = true → mine.borders r.bounds d = true →
        ∃ n ∈ w.near current mine effective t width, n.region.isNamed r.name = true) ∧
    (∀ n ∈ w.near current mine effective t width,
      [Direction.east, .west, .north, .south].find? (fun d =>
        GhostZone.isNear effective t width d &&
          decide (w.BordersOn current mine d n.region.name)) = some n.direction) ∧
    (∀ d, GhostZone.isNear effective t width d = true ↔
      effective.depth d t ≤ max 1 (min width.toInt 3)) ∧
    (∀ other d, mine.isEmpty = false → other.isEmpty = false →
      (mine.borders other d = true ↔
        ∃ p q, mine.OnEdge d p ∧ other.OnEdge d.opposite q ∧ (q = p ∨ d.IsNext p q))) := by
  refine ⟨fun n hn => ?_, pairwise_firstOfName _, fun n hn => ?_, fun r hr hother d hnear hb => ?_,
    fun n hn => find?_direction_of_mem_near hn, fun d => GhostZone.isNear_iff,
    fun other d hmine hne => Bounds.borders_iff_exists hmine hne⟩
  · obtain ⟨-, -, hother, -⟩ := of_mem_near hn
    exact hother
  · obtain ⟨hnear, hr, -, hborders⟩ := of_mem_near hn
    exact ⟨hr, hborders, hnear⟩
  · exact exists_mem_near_iff.2 ⟨d, hnear, r, hr, Text.sameName_self _, hother, hb⟩

/-! ### A realm at the end of the grid -/

/-- A region in the last columns of the grid, and around it one that has its name in capitals, a cliff
at its corner, another cliff in the west, and a meadow in the north. -/
def headland : Realm :=
  ⟨[⟨"home", ⟨2147483640, 2147483647, 0, 9⟩, none, {}⟩,
    ⟨"HOME", ⟨2147483640, 2147483647, 10, 11⟩, none, {}⟩,
    ⟨"Cliff", ⟨2147483647, 2147483647, 9, 20⟩, none, {}⟩,
    ⟨"cliff", ⟨2147483600, 2147483639, 0, 9⟩, none, {}⟩,
    ⟨"meadow", ⟨2147483640, 2147483646, 10, 19⟩, none, {}⟩]⟩

/-- From a tile near to the west and the north the cliff in the west and the meadow are found.  The
cliff at the corner borders across the north, but there is a find of its name already. -/
theorem near_finds_headland :
    let mine : Bounds := ⟨2147483640, 2147483647, 0, 9⟩
    let corner : Bounds := ⟨2147483647, 2147483647, 9, 20⟩
    let found := headland.near "home" mine mine ⟨2147483642, 9⟩ 9
    found = [⟨⟨"cliff", ⟨2147483600, 2147483639, 0, 9⟩, none, {}⟩, .west⟩,
        ⟨⟨"meadow", ⟨2147483640, 2147483646, 10, 19⟩, none, {}⟩, .north⟩] ∧
      (∀ n ∈ found, n.region.isNamed "home" = false ∧
        [Direction.east, .west, .north, .south].find? (fun d =>
          GhostZone.isNear mine ⟨2147483642, 9⟩ 9 d &&
            decide (headland.BordersOn "home" mine d n.region.name)) = some n.direction) ∧
      GhostZone.isNear mine ⟨2147483642, 9⟩ 9 .north = true ∧ mine.borders corner .north = true ∧
      (∃ n ∈ found, n.region.isNamed "Cliff" = true) ∧
      mine.isEmpty = false ∧ corner.isEmpty = false ∧
      ∃ p q, mine.OnEdge .north p ∧ corner.OnEdge .south q ∧
        (q = p ∨ Direction.IsNext .north p q) := by
  intro mine corner found
  obtain ⟨hother, -, -, hall, hfirst, -, hborders⟩ :=
    near_finds headland "home" mine mine ⟨2147483642, 9⟩ 9
  have hnear : GhostZone.isNear mine ⟨2147483642, 9⟩ 9 .north = true := by decide +kernel
  have hcorner : mine.borders corner .north = true := by decide +kernel
  have hmine : mine.isEmpty = false := by decide
  have hne : corner.isEmpty = false := by decide
  have hmem : ⟨"Cliff", corner, none, {}⟩ ∈ headland.regions := by decide +kernel
  exact ⟨by decide +kernel, fun n hn => ⟨hother n hn, hfirst n hn⟩, hnear, hcorner,
    hall _ hmem (by decide +kernel) .north hnear hcorner, hmine, hne,
    (hborders corner .north hmine hne).1 hcorner⟩

end Realm

end TileRealm
