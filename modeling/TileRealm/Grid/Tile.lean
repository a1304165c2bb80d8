import TileRealm.Grid.Coord
import TileRealm.Text.Numeral

/-!
# Tiles

Positions on the grid, their distance in steps along the axes, and the single step that a wish to
go somewhere comes to.
-/

namespace TileRealm

/-- A tile, by its column and its row. -/
structure Tile where
  x : Coord
  y : Coord
deriving DecidableEq, Repr, Inhabited

namespace Tile

/-- Tiles are ordered by column, then by row. -/
instance : Ord Tile := ⟨compareLex (compareOn Tile.x) (compareOn Tile.y)⟩

instance : Std.TransOrd Tile :=
  inferInstanceAs (Std.TransCmp (compareLex (compareOn Tile.x) (compareOn Tile.y)))

instance : Std.LawfulEqOrd Tile where
  compare_self := Std.ReflCmp.compare_self
  eq_of_compare {a b} h := by
    obtain ⟨hx, hy⟩ := compareLex_eq_eq.1 h
    have hx : a.x = b.x := Std.LawfulEqOrd.compare_eq_iff_eq.1 hx
    have hy : a.y = b.y := Std.LawfulEqOrd.compare_eq_iff_eq.1 hy
    cases a; cases b; simp_all

/-- The tile where every session starts. -/
def origin : Tile := ⟨0, 0⟩

/-- The number of single steps between two tiles. -/
def distance (a b : Tile) : Nat :=
  (a.x.toInt - b.x.toInt).natAbs + (a.y.toInt - b.y.toInt).natAbs

/-- The tile moved along both axes; the ends of the grid stop it. -/
def offset (t : Tile) (dx dy : Int) : Tile :=
  ⟨.saturate (t.x.toInt + dx), .saturate (t.y.toInt + dy)⟩

/-- The single step from `a` that a wish to be on `b` comes to: along the row as long as the
columns differ, then along the column. -/
def stepToward (a b : Tile) : Tile :=
  let dx := b.x.toInt - a.x.toInt
  let dy := b.y.toInt - a.y.toInt
  if a.distance b = 1 then b
  else if dx ≠ 0 then a.offset dx.sign 0
  else a.offset 0 dy.sign

/-- The written form `(x, y)`. -/
def text (t : Tile) : String :=
  "(" ++ Numeral.ofInt t.x.toInt ++ ", " ++ Numeral.ofInt t.y.toInt ++ ")"

end Tile

end TileRealm
