import Mathlib.Data.List.Nodup
import Mathlib.Data.List.ProdSigma
import TileRealm.Proofs.Terrain.Passage

/-!
# Room at any place

A body has room at a place when every tile that it overlaps there is on the grid and can be stood on
(`Terrain.areaWalkable_iff`).  The tiles are looked at by one loop within another, and the first tile
that is in the way ends both; so what is looked at are the one, two or four overlapped tiles in the
order of `HalfPlace.tiles`, up to the first that is in the way (`Terrain.survey_eq`).
-/

namespace TileRealm

/-! ### Loops that end early -/

section Scan

variable {α β : Type}

/-- A loop that ends early when its body says so: whether it did not, and what was looked at. -/
def scan (body : α → Bool × List β) : List α → Bool × List β
  | [] => (true, [])
  | a :: as =>
    if (body a).1 then ((scan body as).1, (body a).2 ++ (scan body as).2) else (false, (body a).2)

/-- A list up to the first element on which `p` fails, that element included. -/
def upTo (p : β → Bool) : List β → List β
  | [] => []
  | b :: bs => b :: if p b then upTo p bs else []

variable {p : β → Bool} {l : List β}

theorem upTo_of_all (h : l.all p = true) : upTo p l = l := by
  induction l with
  | nil => rfl
  | cons b l ih =>
    rw [List.all_cons, Bool.and_eq_true] at h
    rw [upTo, if_pos h.1, ih h.2]

theorem exists_upTo_eq (h : l.all p = false) :
    ∃ front b rest, l = front ++ b :: rest ∧ upTo p l = front ++ [b] ∧ front.all p = true ∧
      p b = false := by
  induction l with
  | nil => cases h
  | cons b l ih =>
    unfold upTo
    cases hb : p b with
    | false => exact ⟨[], b, l, rfl, rfl, rfl, hb⟩
    | true =>
      rw [List.all_cons, hb, Bool.true_and] at h
      obtain ⟨front, b', rest, rfl, hupTo, hfront, hb'⟩ := ih h
      refine ⟨b :: front, b', rest, rfl, ?_, ?_, hb'⟩
      · rw [if_pos rfl, hupTo, List.cons_append]
      · rw [List.all_cons, hb, hfront, Bool.and_self]

theorem upTo_append (l m : List β) :
    upTo p (l ++ m) = if l.all p then l ++ upTo p m else upTo p l := by
  induction l with
  | nil => rfl
  | cons b l ih =>
    rw [List.cons_append, upTo, upTo, ih, List.all_cons]
    cases p b with
    | false => rfl
    | true =>
      rw [if_pos rfl, if_pos rfl, Bool.true_and]
      split <;> rfl

/-- When each turn of a loop searches a list, the loop searches all of them, one behind the other. -/
theorem scan_eq {body : α → Bool × List β} {part : α → List β}
    (h : ∀ a, body a = ((part a).all p, upTo p (part a))) (as : List α) :
    scan body as = ((as.flatMap part).all p, upTo p (as.flatMap part)) := by
  induction as with
  | nil => rfl
  | cons a as ih =>
    rw [scan, ih, h, List.flatMap_cons, List.all_append, upTo_append]
    cases hall : (part a).all p with
    | false => rfl
    | true => simp only [if_true, Bool.true_and, upTo_of_all hall]

end Scan

namespace HalfPlace

variable {p : HalfPlace} {x y : Int}

/-! ### The tiles that a body overlaps -/

/-- Whether a body at a place overlaps the tile of two whole numbers. -/
def Overlaps (p : HalfPlace) (x y : Int) : Prop :=
  (p.x2 - 2 * x).natAbs < 2 ∧ (p.y2 - 2 * y).natAbs < 2

/-- The tiles that a body touches, column by column. -/
def tiles (p : HalfPlace) : List (Int × Int) := touched p.x2 ×ˢ touched p.y2

theorem mem_tiles_iff : (x, y) ∈ p.tiles ↔ p.Overlaps x y := by
  rw [tiles, List.mem_product, mem_touched_iff, mem_touched_iff, Overlaps]

theorem nodup_touched (c : Int) : (touched c).Nodup := by
  unfold touched
  dsimp only
  split
  next => exact List.nodup_singleton _
  next h => exact List.nodup_cons.2 ⟨fun hmem => h (List.mem_singleton.1 hmem), List.nodup_singleton _⟩

theorem length_touched (c : Int) : (touched c).length = if 2 ∣ c then 1 else 2 := by
  unfold touched
  dsimp only
  split
  next h => rw [if_pos (by omega)]; rfl
  next h => rw [if_neg (by omega)]; rfl

theorem nodup_tiles (p : HalfPlace) : p.tiles.Nodup :=
  (nodup_touched p.x2).product (nodup_touched p.y2)

theorem length_tiles (p : HalfPlace) :
    p.tiles.length = (if 2 ∣ p.x2 then 1 else 2) * (if 2 ∣ p.y2 then 1 else 2) := by
  rw [tiles, List.length_product, length_touched, length_touched]

/-- The coordinates of a tile that a body overlaps are no larger than those of its place. -/
theorem Overlaps.natAbs_le (h : p.Overlaps x y) :
    x.natAbs ≤ p.x2.natAbs ∧ y.natAbs ≤ p.y2.natAbs := by
  unfold Overlaps at h
  omega

end HalfPlace

namespace Terrain

variable {t : Terrain} {p : HalfPlace} {x y : Int}

/-! ### Looking at the tiles -/

/-- Whether two whole numbers are the coordinates of a tile that can be stood on. -/
def IsClear (t : Terrain) (x y : Int) : Prop :=
  ∃ u : Tile, u.x.toInt = x ∧ u.y.toInt = y ∧ t.walkable u = true

theorem walkableAt_iff : t.walkableAt x y = true ↔ t.IsClear x y := by
  constructor
  · intro h
    unfold walkableAt at h
    split at h
    next x' y' hx hy =>
      exact ⟨⟨x', y'⟩, Coord.ofInt?_eq_some_iff.1 hx, Coord.ofInt?_eq_some_iff.1 hy, h⟩
    next => cases h
  · rintro ⟨u, rfl, rfl, hu⟩
    rwa [walkableAt_of_ofInt? (Coord.ofInt?_eq_some_iff.2 rfl) (Coord.ofInt?_eq_some_iff.2 rfl)]

/-- Whether a body at a place has room, and the tiles that are looked at to find out: the columns that
it touches in turn, in each of them the rows in turn, until a tile is in the way. -/
def survey (t : Terrain) (p : HalfPlace) : Bool × List (Int × Int) :=
  scan (fun x => scan (fun y => (t.walkableAt x y, [(x, y)])) (HalfPlace.touched p.y2))
    (HalfPlace.touched p.x2)

theorem survey_eq (t : Terrain) (p : HalfPlace) :
    t.survey p =
      (p.tiles.all fun u => t.walkableAt u.1 u.2, upTo (fun u => t.walkableAt u.1 u.2) p.tiles) := by
  -- One turn of the inner loop is a search of one tile.
  have htile : ∀ x y, (t.walkableAt x y, [(x, y)]) =
      ([(x, y)].all fun u => t.walkableAt u.1 u.2, upTo (fun u => t.walkableAt u.1 u.2) [(x, y)]) := by
    intro x y
    rw [List.all_cons, List.all_nil, Bool.and_true, upTo, upTo, ite_self]
  refine scan_eq (fun x => ?_) _
  rw [scan_eq (htile x), ← List.map_eq_flatMap]

theorem areaWalkable_eq (t : Terrain) (p : HalfPlace) :
    t.areaWalkable p = p.tiles.all fun u => t.walkableAt u.1 u.2 := by
  simp only [areaWalkable, HalfPlace.tiles, SProd.sprod, List.product, List.all_flatMap,
    List.all_map]
  rfl

theorem areaWalkable_iff :
    t.areaWalkable p = true ↔ ∀ x y, p.Overlaps x y → t.IsClear x y := by
  simp only [areaWalkable_eq, List.all_eq_true, Prod.forall, HalfPlace.mem_tiles_iff, walkableAt_iff]

/-- A body has room at a place if all tiles that it overlaps there are tiles of the grid that can be
stood on.  These are one, two or four, none of them with larger coordinates than the place itself; they
are looked at one by one, all of them if there is room and else up to the first that is in the way. -/
theorem room_at_place (t : Terrain) (p : HalfPlace) :
    (t.areaWalkable p = true ↔ ∀ x y, p.Overlaps x y → t.IsClear x y) ∧
    ((∀ x y, (x, y) ∈ p.tiles ↔ p.Overlaps x y) ∧ p.tiles.Nodup ∧
      p.tiles.length = (if 2 ∣ p.x2 then 1 else 2) * (if 2 ∣ p.y2 then 1 else 2)) ∧
    (∀ x y, p.Overlaps x y → x.natAbs ≤ p.x2.natAbs ∧ y.natAbs ≤ p.y2.natAbs) ∧
    (t.survey p).1 = t.areaWalkable p ∧
    (t.areaWalkable p = true → (t.survey p).2 = p.tiles) ∧
    (t.areaWalkable p = false → ∃ front u rest, p.tiles = front ++ u :: rest ∧
      (t.survey p).2 = front ++ [u] ∧ (∀ v ∈ front, t.IsClear v.1 v.2) ∧ ¬ t.IsClear u.1 u.2) := by
  rw [survey_eq, ← areaWalkable_eq]
  refine ⟨areaWalkable_iff, ⟨fun x y => HalfPlace.mem_tiles_iff, p.nodup_tiles, p.length_tiles⟩,
    fun x y h => h.natAbs_le, rfl, fun h => ?_, fun h => ?_⟩
  · rw [areaWalkable_eq] at h
    exact upTo_of_all h
  · rw [areaWalkable_eq] at h
    obtain ⟨front, u, rest, htiles, hupTo, hfront, hu⟩ := exists_upTo_eq h
    refine ⟨front, u, rest, htiles, hupTo, fun v hv => ?_, fun hclear => ?_⟩
    · exact walkableAt_iff.1 (List.all_eq_true.1 hfront v hv)
    · rw [walkableAt_iff.2 hclear] at hu
      cases hu

/-- A wall two rows above the tile at zero. -/
def fenced : Terrain :=
  ({ width := 4, height := 4 : Terrain }.withTileKind { id := "wall", walkable := false }).withTile
    ⟨0, -2⟩ "wall"

/-- Where the wall meets three other tiles a body has no room, one column further left it has, and at
the end of the grid it would reach over a column that is not there. -/
theorem room_at_place_wall :
    let corner : HalfPlace := ⟨-1, -3⟩
    let beside : HalfPlace := ⟨-3, -3⟩
    fenced.areaWalkable corner = false ∧ corner.Overlaps 0 (-2) ∧
      ((0 : Int).natAbs ≤ corner.x2.natAbs ∧ (-2 : Int).natAbs ≤ corner.y2.natAbs) ∧
      (∃ front u rest, corner.tiles = front ++ u :: rest ∧
        (fenced.survey corner).2 = front ++ [u] ∧ (∀ v ∈ front, fenced.IsClear v.1 v.2) ∧
        ¬ fenced.IsClear u.1 u.2) ∧
      fenced.areaWalkable beside = true ∧
      (fenced.survey beside).2 = [(-2, -2), (-2, -1), (-1, -2), (-1, -1)] ∧
      fenced.areaWalkable ⟨4294967295, 0⟩ = false ∧ ¬ fenced.IsClear 2147483648 0 := by
  intro corner beside
  obtain ⟨-, -, hsize, -, -, hstop⟩ := room_at_place fenced corner
  obtain ⟨-, -, -, -, hall, -⟩ := room_at_place fenced beside
  have hcorner : fenced.areaWalkable corner = false := by decide +kernel
  have hover : corner.Overlaps 0 (-2) := by
    unfold HalfPlace.Overlaps
    decide
  have hbeside : fenced.areaWalkable beside = true := by decide +kernel
  refine ⟨hcorner, hover, hsize _ _ hover, hstop hcorner, hbeside, (hall hbeside).trans (by decide),
    by decide +kernel, ?_⟩
  rintro ⟨u, hu, -, -⟩
  have := Coord.toInt_le_greatest u.x
  rw [hu, Coord.greatest] at this
  omega

end Terrain

end TileRealm
