import Mathlib.Algebra.Group.Nat.Defs
import TileRealm.Grid.Chunk

/-!
# The chunks of a map

Along each axis the chunks are stretches of one length, one behind the other, so that every tile lies
in one chunk and no other (`ChunkSize.chunkOf_eq_iff`).  The stretches that begin in front of the end
of a map are those that its grid counts (`ChunkSize.lt_covering_iff`), so the chunks of the map's tiles
lie in the grid, and in no smaller one (`ChunkSize.chunks_of_map`).
-/

namespace TileRealm

namespace ChunkSize

variable {s : ChunkSize} {t : Tile} {c : Chunk}

/-! ### The size in use -/

/-- The size in use where chunks of one size are usual and another one is asked for.  Numbers that are
no size do not count. -/
def inUse (usual : Int32) (asked : Option Int32) : ChunkSize :=
  choose asked (choose (some usual) standard)

theorem tiles_choose_of_pos {n : Int32} (h : 0 < n.toInt) (fallback : ChunkSize) :
    (choose (some n) fallback).tiles = n := by
  simp only [choose, dif_pos h]

theorem choose_of_forall_le {asked : Option Int32} (h : ∀ n ∈ asked, n.toInt ≤ 0)
    (fallback : ChunkSize) : choose asked fallback = fallback := by
  unfold choose
  split
  next n => exact dif_neg (Int.not_lt.2 (h n rfl))
  next => rfl

/-! ### The chunk of a tile -/

/-- Whether a number lies in the stretch with the given index. -/
def Spans (s : ChunkSize) (index n : Int) : Prop :=
  s.tiles.toInt * index ≤ n ∧ n < s.tiles.toInt * (index + 1)

/-- Whether a tile lies in a chunk. -/
def Holds (s : ChunkSize) (c : Chunk) (t : Tile) : Prop :=
  s.Spans c.cx.toInt t.x.toInt ∧ s.Spans c.cy.toInt t.y.toInt

theorem spans_iff {index n : Int} : s.Spans index n ↔ n / s.tiles.toInt = index := by
  unfold Spans
  rw [Int.mul_comm, Int.mul_comm _ (index + 1), ← Int.le_ediv_iff_mul_le s.tiles_pos,
    ← Int.ediv_lt_iff_lt_mul s.tiles_pos]
  omega

/-- The index of a coordinate's stretch is a coordinate, too. -/
theorem toInt_ofInt_ediv (s : ChunkSize) (x : Coord) :
    (Int32.ofInt (x.toInt / s.tiles.toInt)).toInt = x.toInt / s.tiles.toInt := by
  have hpos := s.tiles_pos
  have hl := Coord.least_le_toInt x
  have hg := Coord.toInt_le_greatest x
  simp only [Coord.least, Coord.greatest] at hl hg
  refine Coord.toInt_ofInt ?_ ?_
  · rw [Int.le_ediv_iff_mul_le hpos, Coord.least]
    omega
  · refine Int.le_of_lt_add_one ((Int.ediv_lt_iff_lt_mul hpos).2 ?_)
    rw [Coord.greatest]
    omega

/-- A tile lies in its chunk and in no other one. -/
theorem chunkOf_eq_iff : s.chunkOf t = c ↔ s.Holds c t := by
  obtain ⟨cx, cy⟩ := c
  simp only [chunkOf, Holds, spans_iff, Chunk.mk.injEq, ← Int32.toInt_inj, toInt_ofInt_ediv]

end ChunkSize

/-! ### The chunks that cover a map -/

/-- Whether a tile lies on a map whose first tile is the one at zero. -/
def Tile.IsOn (t : Tile) (width height : UInt32) : Prop :=
  (0 ≤ t.x.toInt ∧ t.x.toInt < width.toNat) ∧ 0 ≤ t.y.toInt ∧ t.y.toInt < height.toNat

/-- Whether a chunk lies in a grid of so many columns and rows. -/
def Chunk.IsIn (c : Chunk) (columns rows : Nat) : Prop :=
  (0 ≤ c.cx.toInt ∧ c.cx.toInt < columns) ∧ 0 ≤ c.cy.toInt ∧ c.cy.toInt < rows

namespace ChunkSize

section Axis

variable {s : ChunkSize} {length : UInt32}

/-- The stretches that are counted are those that begin in front of the end. -/
theorem lt_covering_iff {index : Nat} :
    index < s.covering length ↔ s.tiles.toInt * index < length.toNat := by
  have hpos := s.tiles_pos
  have hsize : s.tiles.toInt = (s.tiles.toInt.toNat : Int) := by omega
  unfold covering
  rw [← Nat.succ_le_iff, Nat.le_div_iff_mul_le (by omega), Nat.succ_mul, hsize, Int.toNat_natCast,
    Int.mul_comm]
  omega

theorem covering_le (s : ChunkSize) (length : UInt32) : s.covering length ≤ length.toNat := by
  refine Nat.le_of_not_lt fun h => ?_
  rw [lt_covering_iff] at h
  have := Int.mul_le_mul_of_nonneg_right s.tiles_pos (Int.natCast_nonneg length.toNat)
  omega

theorem ediv_lt_covering {n : Int} (hn : 0 ≤ n) (h : n < length.toNat) :
    n / s.tiles.toInt < s.covering length := by
  have hindex : ((n / s.tiles.toInt).toNat : Int) = n / s.tiles.toInt :=
    Int.toNat_of_nonneg (Int.ediv_nonneg hn (Int.le_of_lt s.tiles_pos))
  have hbegin : s.tiles.toInt * (n / s.tiles.toInt) ≤ n := (spans_iff.2 rfl).1
  rw [← hindex, Int.ofNat_lt, lt_covering_iff, hindex]
  omega

/-- The end of a map lies behind all stretches of a smaller number. -/
theorem le_ediv_of_lt_covering {index : Nat} (h : index < s.covering length) :
    (index : Int) ≤ (length.toNat - 1) / s.tiles.toInt := by
  rw [lt_covering_iff, Int.mul_comm] at h
  rw [Int.le_ediv_iff_mul_le s.tiles_pos]
  omega

end Axis

variable {s : ChunkSize} {width height : UInt32}

theorem isIn_chunkOf {t : Tile} (h : t.IsOn width height) :
    (s.chunkOf t).IsIn (s.covering width) (s.covering height) := by
  obtain ⟨⟨hx, hx'⟩, hy, hy'⟩ := h
  have hpos := Int.le_of_lt s.tiles_pos
  simp only [Chunk.IsIn, chunkOf, toInt_ofInt_ediv]
  exact ⟨⟨Int.ediv_nonneg hx hpos, ediv_lt_covering hx hx'⟩, Int.ediv_nonneg hy hpos,
    ediv_lt_covering hy hy'⟩

/-- The last tile of a map, if both of its coordinates are coordinates of the grid. -/
theorem exists_lastTile (hwidth : 1 ≤ width.toNat ∧ width.toNat ≤ 2 ^ 31)
    (hheight : 1 ≤ height.toNat ∧ height.toNat ≤ 2 ^ 31) :
    ∃ t : Tile, t.IsOn width height ∧ t.x.toInt = width.toNat - 1 ∧
      t.y.toInt = height.toNat - 1 := by
  have hx : (Int32.ofInt (width.toNat - 1)).toInt = width.toNat - 1 :=
    Int32.toInt_ofInt_of_le (by omega) (by omega)
  have hy : (Int32.ofInt (height.toNat - 1)).toInt = height.toNat - 1 :=
    Int32.toInt_ofInt_of_le (by omega) (by omega)
  refine ⟨⟨Int32.ofInt (width.toNat - 1), Int32.ofInt (height.toNat - 1)⟩, ?_, hx, hy⟩
  simp only [Tile.IsOn, hx, hy]
  omega

/-- A grid with fewer columns or rows leaves out the chunk of the last tile. -/
theorem exists_not_isIn (hwidth : 1 ≤ width.toNat ∧ width.toNat ≤ 2 ^ 31)
    (hheight : 1 ≤ height.toNat ∧ height.toNat ≤ 2 ^ 31) {columns rows : Nat}
    (h : columns < s.covering width ∨ rows < s.covering height) :
    ∃ t : Tile, t.IsOn width height ∧ ¬ (s.chunkOf t).IsIn columns rows := by
  obtain ⟨t, ht, hx, hy⟩ := exists_lastTile hwidth hheight
  -- One tile will do for both axes, as it is in the last column and in the last row.
  refine ⟨t, ht, ?_⟩
  simp only [Chunk.IsIn, chunkOf, toInt_ofInt_ediv]
  rw [hx, hy]
  rintro ⟨⟨-, hcolumns⟩, -, hrows⟩
  rcases h with h | h
  · exact absurd (le_ediv_of_lt_covering h) (Int.not_le.2 hcolumns)
  · exact absurd (le_ediv_of_lt_covering h) (Int.not_le.2 hrows)

/-- Whatever sizes are usual and asked for, the one in use divides the whole grid of tiles into chunks.
A map has its tiles in the chunks of its own grid, which has at most as many columns and rows as the
map, and, unless the map has no tile or goes on beyond the greatest coordinate, in those of no grid
with fewer columns or rows. -/
theorem chunks_of_map (usual : Int32) (asked : Option Int32) :
    let s := inUse usual asked
    ((∀ n ∈ asked, 0 < n.toInt → s.tiles = n) ∧
      ((∀ n ∈ asked, n.toInt ≤ 0) → s.tiles = if 0 < usual.toInt then usual else 32)) ∧
    (∀ t c, s.chunkOf t = c ↔ s.Holds c t) ∧
    ∀ width height : UInt32,
      let g := s.grid width height
      g.size = s ∧ g.columns ≤ width.toNat ∧ g.rows ≤ height.toNat ∧
      (∀ t : Tile, t.IsOn width height → (s.chunkOf t).IsIn g.columns g.rows) ∧
      (1 ≤ width.toNat ∧ width.toNat ≤ 2 ^ 31 → 1 ≤ height.toNat ∧ height.toNat ≤ 2 ^ 31 →
        ∀ columns rows : Nat, columns < g.columns ∨ rows < g.rows →
          ∃ t : Tile, t.IsOn width height ∧ ¬ (s.chunkOf t).IsIn columns rows) := by
  intro s
  refine ⟨⟨?_, ?_⟩, fun t c => chunkOf_eq_iff, fun width height => ⟨rfl, covering_le s width,
    covering_le s height, fun t => isIn_chunkOf, fun hwidth hheight columns rows =>
      exists_not_isIn hwidth hheight⟩⟩
  · rintro n rfl hn
    exact tiles_choose_of_pos hn _
  · intro hasked
    have hs : s = choose (some usual) standard := choose_of_forall_le hasked _
    rw [hs]
    split
    next husual => exact tiles_choose_of_pos husual _
    next husual =>
      have hle : ∀ n ∈ some usual, n.toInt ≤ 0 := by
        rintro n ⟨⟩
        exact Int.not_lt.1 husual
      rw [choose_of_forall_le hle]
      rfl

/-- Chunks of seven on a map as wide as the grid allows, and the standard size where none is given. -/
theorem chunks_of_map_wide :
    let s := inUse (-5) (some 7)
    let t : Tile := ⟨2147483647, 99⟩
    s.tiles = 7 ∧ (inUse (-5) (some (-4))).tiles = 32 ∧
      s.Holds ⟨-306783379, -1⟩ ⟨-2147483648, -7⟩ ∧
      t.IsOn 2147483648 100 ∧ s.covering 2147483648 = 306783379 ∧
      (s.chunkOf t).IsIn 306783379 15 ∧
      ∃ t : Tile, t.IsOn 2147483648 100 ∧ ¬ (s.chunkOf t).IsIn 306783378 15 := by
  intro s t
  obtain ⟨⟨hasked, -⟩, hchunk, hgrid⟩ := chunks_of_map (-5) (some 7)
  obtain ⟨⟨-, husual⟩, -⟩ := chunks_of_map (-5) (some (-4))
  obtain ⟨-, -, -, hin, hleast⟩ := hgrid 2147483648 100
  have ht : t.IsOn 2147483648 100 := by
    unfold Tile.IsOn
    decide
  refine ⟨hasked 7 rfl (by decide), husual ?_, (hchunk _ _).1 (by decide), ht, by decide, hin t ht,
    hleast (by decide) (by decide) _ _ (.inl (by decide))⟩
  rintro n ⟨⟩
  decide

end ChunkSize

end TileRealm
