import Mathlib.Data.Finset.Card
import TileRealm.Proofs.Table
import TileRealm.Terrain.Basic

/-!
# Dead zones

The tiles that cannot be entered are finitely many, and they are listed once each: those with a
blocking object, then the other ones, both by columns and rows (`Terrain.deadZones_of_limit`).  It is
the list that is noted by going through the objects and then the tiles, passing over what was noted
already, until the limit is reached (`Terrain.deadZones_eq_note`).
-/

namespace TileRealm

namespace Tile

/-- Whether a tile comes before another one: by its column, and in one column by its row. -/
def Precedes (a b : Tile) : Prop := a.x < b.x ∨ a.x = b.x ∧ a.y < b.y

theorem compare_eq_lt_iff {a b : Tile} : compare a b = .lt ↔ a.Precedes b := by
  show (compare a.x b.x).then (compare a.y b.y) = .lt ↔ _
  rw [Ordering.then_eq_lt, Std.compare_eq_lt, Std.compare_eq_lt, Std.LawfulEqOrd.compare_eq_iff_eq,
    Precedes]

theorem Precedes.ne {a b : Tile} (h : a.Precedes b) : a ≠ b :=
  Table.ne_of_lt (compare_eq_lt_iff.2 h)

end Tile

namespace Terrain

variable {t : Terrain} {p : Tile} {z : Tile × Obstacle} {limit : Nat}

/-! ### Blocked tiles -/

/-- The tiles on which a blocking object stands. -/
def blockedByObject (t : Terrain) : List Tile := t.objects.keys.filter t.objectBlocks

/-- The tiles that are of a kind that is not walkable. -/
def blockedByKind (t : Terrain) : List Tile := t.tiles.keys.filter t.tileBlocks

/-- All tiles that cannot be entered, with the reason, as they are listed without a limit. -/
def blocked (t : Terrain) : List (Tile × Obstacle) :=
  t.blockedByObject.map (·, .object) ++
    (t.blockedByKind.filter fun p => !t.objectBlocks p).map (·, .tile)

theorem deadZones_eq_take (t : Terrain) (limit : Nat) :
    t.deadZones limit = t.blocked.take limit := by
  simp only [deadZones, blocked, blockedByObject, blockedByKind, List.filter_filter, Bool.and_comm]

theorem mem_keys_of_any_bind {α β : Type} {table : Table Tile α} {kind : α → Option β}
    {blocks : β → Bool} (h : ((table.get? p).bind kind).any blocks = true) : p ∈ table.keys := by
  rw [← Table.contains_eq_true_iff, Table.contains]
  cases hp : table.get? p with
  | some a => rfl
  | none => simp [hp] at h

theorem mem_blockedByObject_iff : p ∈ t.blockedByObject ↔ t.objectBlocks p = true := by
  rw [blockedByObject, List.mem_filter]
  exact ⟨fun h => h.2, fun h => ⟨mem_keys_of_any_bind h, h⟩⟩

theorem mem_blockedByKind_iff : p ∈ t.blockedByKind ↔ t.tileBlocks p = true := by
  rw [blockedByKind, List.mem_filter]
  exact ⟨fun h => h.2, fun h => ⟨mem_keys_of_any_bind h, h⟩⟩

/-- A tile is listed if it cannot be entered, and with an object as the reason if a blocking one
stands there. -/
theorem mem_blocked_iff :
    z ∈ t.blocked ↔ t.walkable z.1 = false ∧ (z.2 = .object ↔ t.objectBlocks z.1 = true) := by
  obtain ⟨p, o⟩ := z
  simp only [blocked, List.mem_append, List.mem_map, List.mem_filter, Prod.mk.injEq,
    mem_blockedByObject_iff, mem_blockedByKind_iff, walkable]
  cases o with
  | object => cases h : t.objectBlocks p <;> simp [h]
  | tile => cases h : t.objectBlocks p <;> simp [h]

theorem mem_map_fst_blocked_iff : p ∈ t.blocked.map Prod.fst ↔ t.walkable p = false := by
  rw [List.mem_map]
  constructor
  · rintro ⟨z, hz, rfl⟩
    exact (mem_blocked_iff.1 hz).1
  · intro h
    cases ho : t.objectBlocks p with
    | true => exact ⟨(p, .object), mem_blocked_iff.2 ⟨h, by simp [ho]⟩, rfl⟩
    | false => exact ⟨(p, .tile), mem_blocked_iff.2 ⟨h, by simp [ho]⟩, rfl⟩

/-! ### The order of the list -/

/-- Whether an entry is listed before another one: objects before tiles, and each by their place. -/
def ListedBefore (y z : Tile × Obstacle) : Prop :=
  y.2 = .object ∧ z.2 = .tile ∨ y.2 = z.2 ∧ y.1.Precedes z.1

theorem pairwise_keys {α : Type} (table : Table Tile α) : table.keys.Pairwise Tile.Precedes :=
  List.pairwise_map.2 (table.sorted.imp Tile.compare_eq_lt_iff.1)

theorem pairwise_map_of_precedes {ps : List Tile} (h : ps.Pairwise Tile.Precedes) (o : Obstacle) :
    (ps.map (·, o)).Pairwise ListedBefore :=
  List.pairwise_map.2 (h.imp fun hp => .inr ⟨rfl, hp⟩)

theorem pairwise_blocked (t : Terrain) : t.blocked.Pairwise ListedBefore := by
  refine List.pairwise_append.2 ⟨?_, ?_, ?_⟩
  · exact pairwise_map_of_precedes ((pairwise_keys t.objects).filter _) .object
  · exact pairwise_map_of_precedes (((pairwise_keys t.tiles).filter _).filter _) .tile
  · intro y hy z hz
    obtain ⟨p, -, rfl⟩ := List.mem_map.1 hy
    obtain ⟨q, -, rfl⟩ := List.mem_map.1 hz
    exact .inl ⟨rfl, rfl⟩

/-- No tile is listed twice: whether an object stands there settles the reason. -/
theorem nodup_map_fst_blocked (t : Terrain) : (t.blocked.map Prod.fst).Nodup := by
  refine List.pairwise_map.2 (List.Pairwise.imp_of_mem ?_ (pairwise_blocked t))
  rintro y z hy hz (⟨hy2, hz2⟩ | ⟨-, hlt⟩) heq
  · have hyo := (mem_blocked_iff.1 hy).2.1 hy2
    rw [heq, ← (mem_blocked_iff.1 hz).2, hz2] at hyo
    cases hyo
  · exact hlt.ne heq

/-! ### Noting tiles until the limit -/

/-- Go through entries and note those whose tile was not noted before, up to a limit. -/
def note (limit : Nat) (noted : List (Tile × Obstacle)) :
    List (Tile × Obstacle) → List (Tile × Obstacle)
  | [] => noted
  | z :: zs =>
    if limit ≤ noted.length then noted
    else if z.1 ∈ noted.map Prod.fst then note limit noted zs
    else note limit (noted ++ [z]) zs

theorem note_of_le {noted : List (Tile × Obstacle)} (h : limit ≤ noted.length)
    (zs : List (Tile × Obstacle)) : note limit noted zs = noted := by
  cases zs with
  | nil => rfl
  | cons z zs => rw [note, if_pos h]

theorem note_append (limit : Nat) (noted xs ys : List (Tile × Obstacle)) :
    note limit noted (xs ++ ys) = note limit (note limit noted xs) ys := by
  induction xs generalizing noted with
  | nil => rfl
  | cons x xs ih =>
    rw [List.cons_append, note, note]
    split
    next h => rw [note_of_le h]
    next =>
      split
      next => exact ih noted
      next => exact ih (noted ++ [x])

/-- Entries with different tiles are all noted, as far as the limit allows. -/
theorem note_of_nodup {noted zs : List (Tile × Obstacle)}
    (h : ((noted ++ zs).map Prod.fst).Nodup) (hle : noted.length ≤ limit) :
    note limit noted zs = (noted ++ zs).take limit := by
  induction zs generalizing noted with
  | nil => rw [note, List.append_nil, List.take_of_length_le hle]
  | cons z zs ih =>
    rw [note]
    split
    next hfull =>
      rw [List.take_append_of_le_length hfull, List.take_of_length_le hle]
    next hroom =>
      have hz : z.1 ∉ noted.map Prod.fst := by
        intro hmem
        rw [List.map_append, List.nodup_append] at h
        exact h.2.2 z.1 hmem z.1 List.mem_cons_self rfl
      rw [if_neg hz, ih (by simpa using h) (by simp; omega), List.append_assoc]
      rfl

/-- What was noted before need not be gone through again. -/
theorem note_filter {seen : Tile → Bool} {noted : List (Tile × Obstacle)}
    (h : ∀ p, seen p = true → p ∈ noted.map Prod.fst) (zs : List (Tile × Obstacle)) :
    note limit noted (zs.filter fun z => !seen z.1) = note limit noted zs := by
  induction zs generalizing noted with
  | nil => rfl
  | cons z zs ih =>
    cases hz : seen z.1 with
    | true =>
      rw [List.filter_cons_of_neg (by simp [hz]), ih h, note, if_pos (h z.1 hz)]
      split
      next hfull => exact note_of_le hfull zs
      next => rfl
    | false =>
      have hnext : ∀ p, seen p = true → p ∈ (noted ++ [z]).map Prod.fst := by
        intro p hp
        simp [h p hp]
      rw [List.filter_cons_of_pos (by simp [hz]), note, note, ih h, ih hnext]

/-- The dead zones are what is noted of the objects and then of the tiles, up to the limit. -/
theorem deadZones_eq_note (t : Terrain) (limit : Nat) :
    t.deadZones limit = note limit []
      (t.blockedByObject.map (·, .object) ++ t.blockedByKind.map (·, .tile)) := by
  have hnodup := nodup_map_fst_blocked t
  rw [deadZones_eq_take]
  unfold blocked at hnodup ⊢
  have hobjects := hnodup
  rw [List.map_append, List.nodup_append] at hobjects
  have hnote : note limit [] (t.blockedByObject.map (·, .object)) =
      (t.blockedByObject.map (·, .object)).take limit :=
    note_of_nodup hobjects.1 (Nat.zero_le limit)
  have hseen : ∀ p, t.objectBlocks p = true →
      p ∈ (t.blockedByObject.map (·, Obstacle.object)).map Prod.fst := by
    intro p hp
    simpa [mem_blockedByObject_iff] using hp
  rw [note_append, hnote]
  rcases Nat.le_total (t.blockedByObject.map (·, Obstacle.object)).length limit with hle | hle
  · rw [List.take_of_length_le hle, ← note_filter hseen, List.filter_map]
    exact (note_of_nodup hnodup hle).symm
  · -- The limit is reached among the objects.
    rw [List.take_append_of_le_length hle, note_of_le (by rw [List.length_take]; omega)]

/-! ### The list up to a limit -/

/-- The tiles that cannot be entered are finitely many.  Up to a limit they are listed once each, those
with a blocking object first and marked so, and otherwise in their order on the grid.  As many are
listed as there are or as the limit allows, so all of them if the limit is not reached, and a larger
limit only adds to the list. -/
theorem deadZones_of_limit (t : Terrain) :
    ∃ closed : Finset Tile, (∀ p, p ∈ closed ↔ t.walkable p = false) ∧ ∀ limit,
      ((t.deadZones limit).map Prod.fst).Nodup ∧
      (∀ z ∈ t.deadZones limit,
        t.walkable z.1 = false ∧ (z.2 = .object ↔ t.objectBlocks z.1 = true)) ∧
      (t.deadZones limit).Pairwise ListedBefore ∧
      (t.deadZones limit).length = min limit closed.card ∧
      ((t.deadZones limit).length < limit →
        ∀ p, p ∈ (t.deadZones limit).map Prod.fst ↔ t.walkable p = false) ∧
      ∀ larger, limit ≤ larger → t.deadZones limit <+: t.deadZones larger := by
  refine ⟨(t.blocked.map Prod.fst).toFinset, fun p => ?_, fun limit => ?_⟩
  · rw [List.mem_toFinset, mem_map_fst_blocked_iff]
  simp only [deadZones_eq_take]
  have hsub : (t.blocked.take limit).Sublist t.blocked := List.take_sublist limit t.blocked
  refine ⟨?_, ?_, ?_, ?_, ?_, ?_⟩
  · exact (nodup_map_fst_blocked t).sublist (hsub.map Prod.fst)
  · intro z hz
    exact mem_blocked_iff.1 (hsub.subset hz)
  · exact (pairwise_blocked t).sublist hsub
  · rw [List.length_take, List.toFinset_card_of_nodup (nodup_map_fst_blocked t), List.length_map]
  · intro hlt p
    rw [List.length_take] at hlt
    rw [List.take_of_length_le (by omega)]
    exact mem_map_fst_blocked_iff
  · intro larger hle
    exact List.take_prefix_take_left hle

/-- A crate on a wall, another crate, and two more walls; a mat is no obstacle, and nothing is known of
the lava. -/
def storeroom : Terrain :=
  (((((((({ width := 4, height := 4 : Terrain }.withTileKind
    { id := "wall", walkable := false }).withObjectKind
    { id := "crate", blocksMovement := true }).withTile ⟨1, 2⟩ "wall").withTile ⟨1, 0⟩ "wall").withTile
    ⟨0, 3⟩ "wall").withTile ⟨2, 2⟩ "lava").withObject ⟨1, 2⟩ "crate").withObject ⟨-1, 5⟩
    "crate").withObject ⟨3, 3⟩ "mat"

/-- With room for three of the four closed tiles the list is cut among the walls. -/
theorem deadZones_of_limit_storeroom :
    ∃ closed : Finset Tile, (∀ p, p ∈ closed ↔ storeroom.walkable p = false) ∧ closed.card = 4 ∧
      storeroom.deadZones 3 = [(⟨-1, 5⟩, .object), (⟨1, 2⟩, .object), (⟨0, 3⟩, .tile)] ∧
      (storeroom.deadZones 3).length = min 3 closed.card ∧
      (⟨1, 2⟩, .object) ∈ storeroom.deadZones 3 ∧ storeroom.walkable ⟨1, 2⟩ = false ∧
      (storeroom.deadZones 9).length < 9 ∧
      (⟨1, 0⟩ ∈ (storeroom.deadZones 9).map Prod.fst ↔ storeroom.walkable ⟨1, 0⟩ = false) ∧
      (⟨2, 2⟩ ∈ (storeroom.deadZones 9).map Prod.fst ↔ storeroom.walkable ⟨2, 2⟩ = false) ∧
      3 ≤ 9 ∧ storeroom.deadZones 3 <+: storeroom.deadZones 9 := by
  obtain ⟨closed, hclosed, hlimit⟩ := deadZones_of_limit storeroom
  obtain ⟨-, hreason, -, hlength, -, hprefix⟩ := hlimit 3
  obtain ⟨-, -, -, hlength', hall, -⟩ := hlimit 9
  have hfour : (storeroom.deadZones 9).length = 4 := by decide +kernel
  have hlt : (storeroom.deadZones 9).length < 9 := by omega
  have hmem : (⟨1, 2⟩, .object) ∈ storeroom.deadZones 3 := by decide +kernel
  exact ⟨closed, hclosed, by omega, by decide +kernel, hlength, hmem, (hreason _ hmem).1, hlt, hall hlt _,
    hall hlt _, by decide, hprefix 9 (by decide)⟩

end Terrain

end TileRealm
