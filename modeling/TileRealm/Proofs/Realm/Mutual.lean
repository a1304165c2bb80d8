import Mathlib.Data.List.Pairwise
import TileRealm.Proofs.Realm.Neighbors

/-!
# Neighbours of each other

Bounds border on others across an edge just when those border on them across the opposite edge
(`Bounds.borders_comm`).  So where no two regions have one name, in any case, a region is found from
somewhere in another one just when this is found from somewhere in it (`Realm.finds_comm`).
-/

namespace TileRealm

namespace Direction

@[simp] theorem opposite_opposite (d : Direction) : d.opposite.opposite = d := by cases d <;> rfl

end Direction

namespace Bounds

variable {a b : Bounds} {d : Direction}

@[simp] theorem outward_opposite (d : Direction) : outward d.opposite = -outward d := by
  cases d <;> rfl

theorem alongside_comm : alongside a b d = true ↔ alongside b a d.opposite = true := by
  rw [alongside_iff, alongside_iff, start_opposite, start_opposite, stop_opposite, stop_opposite,
    and_comm]

/-- The step outward over the one edge is undone by the step outward over the other. -/
theorem borders_comm : a.borders b d = true ↔ b.borders a d.opposite = true := by
  rw [borders_iff, borders_iff, ← alongside_comm, Direction.opposite_opposite, outward_opposite]
  refine and_congr_left' ?_
  constructor
  · rintro (hsame | hnext)
    · exact .inl hsame.symm
    · exact .inr (by omega)
  · rintro (hsame | hnext)
    · exact .inl hsame.symm
    · exact .inr (by omega)

end Bounds

namespace GhostZone

/-- A tile on an edge is near to it, whether or not the bounds hold a tile. -/
theorem isNear_tile (b : Bounds) (d : Direction) (l : Coord) (width : Int32) :
    isNear b (d.tile (b.edge d) l) width d = true := by
  rw [isNear_iff, Bounds.depth, Direction.across_tile, Int.sub_self, Int.mul_zero]
  omega

end GhostZone

namespace Realm

/-- No two regions have one name, in any case. -/
def NamesDiffer (w : Realm) : Prop :=
  w.regions.Pairwise fun r s => r.isNamed s.name = false

instance (w : Realm) : Decidable w.NamesDiffer :=
  inferInstanceAs (Decidable (List.Pairwise _ _))

/-- A region, with its own bounds, finds another one from a tile. -/
def FindsFrom (w : Realm) (r s : Region) (effective : Bounds) (t : Tile) (width : Int32) : Prop :=
  ∃ n ∈ w.near r.name r.bounds effective t width, n.region = s

section Names

variable {w : Realm} {r s : Region} {effective : Bounds} {t : Tile} {width : Int32}

theorem NamesDiffer.isNamed_eq_false (h : w.NamesDiffer) (hr : r ∈ w.regions) (hs : s ∈ w.regions)
    (hne : r ≠ s) : r.isNamed s.name = false := by
  have hsymm : Std.Symm fun r s : Region => r.isNamed s.name = false :=
    ⟨fun r s hrs => (Text.sameName_comm s.name r.name).trans hrs⟩
  exact List.Pairwise.forall h hr hs hne

theorem NamesDiffer.eq_of_isNamed (h : w.NamesDiffer) (hr : r ∈ w.regions) (hs : s ∈ w.regions)
    (hname : r.isNamed s.name = true) : r = s := by
  by_contra hne
  rw [h.isNamed_eq_false hr hs hne] at hname
  cases hname

/-- What a region finds from a tile are the other regions that border on it across an edge that the
tile is near to. -/
theorem NamesDiffer.findsFrom_iff (h : w.NamesDiffer) (hr : r ∈ w.regions) (hs : s ∈ w.regions) :
    w.FindsFrom r s effective t width ↔ r ≠ s ∧
      ∃ d, GhostZone.isNear effective t width d = true ∧ r.bounds.borders s.bounds d = true := by
  constructor
  · rintro ⟨n, hn, rfl⟩
    obtain ⟨hnear, -, hother, hborders⟩ := of_mem_near hn
    refine ⟨?_, n.direction, hnear, hborders⟩
    rintro rfl
    rw [Region.isNamed, Text.sameName_self] at hother
    cases hother
  · rintro ⟨hne, d, hnear, hborders⟩
    have hother := h.isNamed_eq_false hs hr hne.symm
    obtain ⟨n, hn, hname⟩ := exists_mem_near_iff.2
      ⟨d, hnear, s, hs, Text.sameName_self s.name, hother, hborders⟩
    exact ⟨n, hn, h.eq_of_isNamed (of_mem_near hn).2.1 hs hname⟩

theorem NamesDiffer.exists_findsFrom_iff (h : w.NamesDiffer) (hr : r ∈ w.regions)
    (hs : s ∈ w.regions) (effective : Bounds) (width : Int32) :
    (∃ t, w.FindsFrom r s effective t width) ↔
      r ≠ s ∧ ∃ d, r.bounds.borders s.bounds d = true := by
  simp only [h.findsFrom_iff hr hs]
  constructor
  · rintro ⟨t, hne, d, -, hborders⟩
    exact ⟨hne, d, hborders⟩
  · rintro ⟨hne, d, hborders⟩
    exact ⟨_, hne, d, GhostZone.isNear_tile effective d 0 width, hborders⟩

/-- If the bounds hold a tile, a region that is found is found from one of their tiles. -/
theorem NamesDiffer.exists_contains_findsFrom_iff (h : w.NamesDiffer) (hr : r ∈ w.regions)
    (hs : s ∈ w.regions) (hne : effective.isEmpty = false) (width : Int32) :
    (∃ t, effective.contains t = true ∧ w.FindsFrom r s effective t width) ↔
      ∃ t, w.FindsFrom r s effective t width := by
  constructor
  · rintro ⟨t, -, ht⟩
    exact ⟨t, ht⟩
  · intro hfinds
    obtain ⟨hrs, d, hborders⟩ := (h.exists_findsFrom_iff hr hs effective width).1 hfinds
    obtain ⟨t, ht, hnear⟩ := GhostZone.exists_isNear (Bounds.isEmpty_eq_false_iff.1 hne) d
    exact ⟨t, ht, (h.findsFrom_iff hr hs).2 ⟨hrs, d, hnear width, hborders⟩⟩

end Names

/-- Bounds border on others across an edge just when those border on them across the opposite edge.
So where no two regions have one name, in any case, and each has its own bounds, one region is found
from some tile in the search of another one just when that one is found from some tile in the search
of it.  It does not matter where the effective bounds are and how wide the ghost zones, and if both
bounds hold a tile, the regions are found from tiles of these bounds. -/
theorem finds_comm :
    (∀ (a b : Bounds) (d : Direction),
      a.borders b d = true ↔ b.borders a d.opposite = true) ∧
    ∀ w : Realm, w.NamesDiffer →
      ∀ r ∈ w.regions, ∀ s ∈ w.regions, ∀ width width' : Int32,
        (∀ effective effective' : Bounds,
          (∃ t, w.FindsFrom r s effective t width) ↔
            ∃ t, w.FindsFrom s r effective' t width') ∧
        (r.bounds.isEmpty = false → s.bounds.isEmpty = false →
          ((∃ t, r.bounds.contains t = true ∧ w.FindsFrom r s r.bounds t width) ↔
            ∃ t, s.bounds.contains t = true ∧ w.FindsFrom s r s.bounds t width')) := by
  refine ⟨fun a b d => Bounds.borders_comm, fun w h r hr s hs width width' => ?_⟩
  have hborders : (∃ d, r.bounds.borders s.bounds d = true) ↔
      ∃ d, s.bounds.borders r.bounds d = true := by
    constructor
    · rintro ⟨d, hd⟩
      exact ⟨d.opposite, Bounds.borders_comm.1 hd⟩
    · rintro ⟨d, hd⟩
      exact ⟨d.opposite, Bounds.borders_comm.1 hd⟩
  have hfinds : ∀ effective effective' : Bounds,
      (∃ t, w.FindsFrom r s effective t width) ↔
        ∃ t, w.FindsFrom s r effective' t width' := by
    intro effective effective'
    rw [h.exists_findsFrom_iff hr hs, h.exists_findsFrom_iff hs hr, hborders, ne_comm]
  refine ⟨hfinds, fun hre hse => ?_⟩
  rw [h.exists_contains_findsFrom_iff hr hs hre, h.exists_contains_findsFrom_iff hs hr hse]
  exact hfinds r.bounds s.bounds

/-! ### A realm from end to end of the grid -/

/-- A region in the last columns of the grid. -/
def shore : Region := ⟨"shore", ⟨2147483640, 2147483647, 0, 9⟩, none, {}⟩

/-- A region from the first column to the shore. -/
def sea : Region := ⟨"sea", ⟨-2147483648, 2147483639, 5, 2147483647⟩, none, {}⟩

/-- A region in the first column, from the first row to the sea. -/
def isle : Region := ⟨"isle", ⟨-2147483648, -2147483648, -2147483648, 4⟩, none, {}⟩

/-- The three regions. -/
def strait : Realm := ⟨[shore, sea, isle]⟩

/-- The shore finds the sea, so the sea finds the shore from one of its tiles.  The last column and the
first one are not next to each other, so the shore and the isle do not find each other. -/
theorem finds_comm_strait :
    strait.NamesDiffer ∧ shore.bounds.isEmpty = false ∧ sea.bounds.isEmpty = false ∧
      shore.bounds.contains ⟨2147483641, 7⟩ = true ∧
      strait.FindsFrom shore sea shore.bounds ⟨2147483641, 7⟩ 1 ∧
      (∃ t, sea.bounds.contains t = true ∧ strait.FindsFrom sea shore sea.bounds t 3) ∧
      (¬ ∃ t, strait.FindsFrom shore isle shore.bounds t 3) ∧
      ∀ effective, ¬ ∃ t, strait.FindsFrom isle shore effective t 1 := by
  have hdiffer : strait.NamesDiffer := by decide +kernel
  have hshore : shore ∈ strait.regions := List.mem_cons_self
  have hsea : sea ∈ strait.regions := List.mem_cons_of_mem _ List.mem_cons_self
  have hisle : isle ∈ strait.regions := by simp [strait]
  have hempty : shore.bounds.isEmpty = false := by decide
  have hempty' : sea.bounds.isEmpty = false := by decide
  have hinside : shore.bounds.contains ⟨2147483641, 7⟩ = true := by decide
  have hfinds : strait.FindsFrom shore sea shore.bounds ⟨2147483641, 7⟩ 1 :=
    ⟨⟨sea, .west⟩, by decide +kernel, rfl⟩
  have hapart : ¬ ∃ t, strait.FindsFrom shore isle shore.bounds t 3 := by
    rw [hdiffer.exists_findsFrom_iff hshore hisle]
    rintro ⟨-, d, hd⟩
    cases d <;> revert hd <;> decide
  obtain ⟨-, hcomm⟩ := finds_comm
  refine ⟨hdiffer, hempty, hempty', hinside, hfinds, ?_, hapart, fun effective hisleFinds => ?_⟩
  · exact ((hcomm strait hdiffer shore hshore sea hsea 1 3).2 hempty hempty').1 ⟨_, hinside, hfinds⟩
  · have hshoreFinds := (hcomm strait hdiffer shore hshore isle hisle 3 1).1 shore.bounds effective
    exact hapart (hshoreFinds.2 hisleFinds)

end Realm

end TileRealm
