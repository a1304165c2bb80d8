import TileRealm.Grid.Tile

/-!
# Chunks

The grid is divided into square chunks of one size.
-/

namespace TileRealm

/-- The edge of a chunk in tiles, at least one. -/
structure ChunkSize where
  tiles : Int32
  tiles_pos : 0 < tiles.toInt := by decide
deriving DecidableEq

/-- A chunk, by its column and its row among the chunks. -/
structure Chunk where
  cx : Int32
  cy : Int32
deriving DecidableEq, Repr, Inhabited

/-- How a map divides into chunks. -/
structure ChunkGrid where
  size : ChunkSize
  width : UInt32
  height : UInt32
  /-- The number of chunks side by side. -/
  columns : Nat
  /-- The number of chunks one above the other. -/
  rows : Nat

namespace ChunkSize

/-- The usual chunk. -/
def standard : ChunkSize where
  tiles := 32

/-- The asked size if it is one, else a fallback. -/
def choose (asked : Option Int32) (fallback : ChunkSize) : ChunkSize :=
  match asked with
  | some n => if h : 0 < n.toInt then ⟨n, h⟩ else fallback
  | none => fallback

/-- The chunk that a tile lies in. -/
def chunkOf (s : ChunkSize) (t : Tile) : Chunk :=
  ⟨Int32.ofInt (t.x.toInt / s.tiles.toInt), Int32.ofInt (t.y.toInt / s.tiles.toInt)⟩

/-- The number of chunks that cover a stretch of tiles. -/
def covering (s : ChunkSize) (length : UInt32) : Nat :=
  (length.toNat + s.tiles.toInt.toNat - 1) / s.tiles.toInt.toNat

/-- The chunks that cover a map. -/
def grid (s : ChunkSize) (width height : UInt32) : ChunkGrid :=
  ⟨s, width, height, s.covering width, s.covering height⟩

end ChunkSize

end TileRealm
