import TileRealm.Proofs.Realm.Near
import TileRealm.Proofs.Service.Startup

/-!
# Seams between regions

Which regions players can be told of at all is settled when a plan is made: it is the regions that
border on the bounds with the overrides in place (`Plan.neighbors_of_make`).  The size of the map
does not matter for that.  The overrides do, so a seam that the document of the realm has can be
missing on one side (`Plan.neighbor_lost_by_override`).
-/

namespace TileRealm

namespace Shard

/-- Whether a region of a name, in any case, is a candidate somewhere, for some width. -/
def Sees (shard : Shard) (book : AddressBook) (name : String) : Prop :=
  ∃ t width, ∃ c ∈ shard.neighborsNear book t width, Text.sameName c.region name = true

/-- Players see a neighbour from a playable tile, whatever their width, if they see it at all. -/
theorem exists_isInside_neighborsNear_iff {shard : Shard} (h : ∃ t, shard.isInside t = true)
    (book : AddressBook) (width : Int32) (name : String) :
    (∃ t, shard.isInside t = true ∧
      ∃ c ∈ shard.neighborsNear book t width, Text.sameName c.region name = true) ↔
      ∃ d, shard.realm.BordersOn shard.name shard.configured d name := by
  constructor
  · rintro ⟨t, -, hc⟩
    obtain ⟨d, -, hborders⟩ := (exists_mem_neighborsNear_iff shard book t width).1 hc
    exact ⟨d, hborders⟩
  · rintro ⟨d, hborders⟩
    obtain ⟨t, ht, hnear⟩ := GhostZone.exists_isNear h d
    exact ⟨t, ht, (exists_mem_neighborsNear_iff shard book t width).2 ⟨d, hnear width, hborders⟩⟩

theorem sees_iff {shard : Shard} (h : ∃ t, shard.isInside t = true) (book : AddressBook)
    (name : String) :
    shard.Sees book name ↔ ∃ d, shard.realm.BordersOn shard.name shard.configured d name := by
  constructor
  · rintro ⟨t, width, hc⟩
    obtain ⟨d, -, hborders⟩ := (exists_mem_neighborsNear_iff shard book t width).1 hc
    exact ⟨d, hborders⟩
  · intro hborders
    obtain ⟨t, -, hc⟩ := (exists_isInside_neighborsNear_iff h book 1 name).2 hborders
    exact ⟨t, 1, hc⟩

end Shard

namespace Plan

variable {lookup : String → Option String} {storage : Storage} {p : Plan}

/-- The region of a plan is the one that the realm has under the name in the settings, with the
overrides in place of its bounds, and there is a playable tile. -/
theorem shard_of_make (h : Plan.make lookup storage = .ok p) :
    ∃ own, p.shard.realm.get? p.settings.regionName = some own ∧ p.shard.name = own.name ∧
      p.shard.configured = p.settings.overridden own.bounds ∧ ∃ t, p.shard.isInside t = true := by
  let s : Surroundings := ⟨lookup, storage, fun _ => none, fun _ => true⟩
  have hmake : Plan.make s.lookup s.storage = .ok p := h
  obtain ⟨f, hf, rfl⟩ := Surroundings.exists_reaches_of_make hmake
  exact ⟨f.region, hf .region (by decide), rfl, rfl, hf .overlap (by decide)⟩

/-- Where a player is near an edge, the candidates are the other regions that border across it on the
bounds with the overrides in place.  So over all tiles, or all playable ones, the candidates are the
regions that border on these bounds.  They are the regions that border on the bounds in the document
just when both bounds have the same neighbours, as they do when nothing is overridden. -/
theorem neighbors_of_make (h : Plan.make lookup storage = .ok p) :
    ∃ own, p.shard.realm.get? p.settings.regionName = some own ∧
      let mine := p.settings.overridden own.bounds
      (∀ book t width name,
        (∃ c ∈ p.shard.neighborsNear book t width, Text.sameName c.region name = true) ↔
          ∃ d, GhostZone.isNear p.shard.effective t width d = true ∧
            p.shard.realm.BordersOn own.name mine d name) ∧
      (∀ book name, p.shard.Sees book name ↔ ∃ d, p.shard.realm.BordersOn own.name mine d name) ∧
      (∀ book width name,
        (∃ t, p.shard.isInside t = true ∧
          ∃ c ∈ p.shard.neighborsNear book t width, Text.sameName c.region name = true) ↔
          ∃ d, p.shard.realm.BordersOn own.name mine d name) ∧
      (∀ book,
        (∀ name, p.shard.Sees book name ↔
          ∃ d, p.shard.realm.BordersOn own.name own.bounds d name) ↔
        ∀ name, (∃ d, p.shard.realm.BordersOn own.name mine d name) ↔
          ∃ d, p.shard.realm.BordersOn own.name own.bounds d name) ∧
      (mine = own.bounds → ∀ book name, p.shard.Sees book name ↔
        ∃ d, p.shard.realm.BordersOn own.name own.bounds d name) := by
  obtain ⟨own, hown, hname, hconfigured, hinside⟩ := shard_of_make h
  have hsees := Shard.sees_iff hinside
  have hplayable := Shard.exists_isInside_neighborsNear_iff hinside
  rw [hname, hconfigured] at hsees hplayable
  refine ⟨own, hown, fun book t width name => ?_, hsees, hplayable, fun book => ?_,
    fun hmine book name => ?_⟩
  · rw [Shard.exists_mem_neighborsNear_iff, hname, hconfigured]
  · exact forall_congr' fun name => by rw [hsees]
  · rw [hsees, hmine]

/-! ### A small seam -/

/-- Two regions that border on each other. -/
def pair : Realm :=
  ⟨[⟨"a", ⟨0, 3, 0, 1⟩, none, {}⟩, ⟨"east", ⟨4, 7, 0, 1⟩, none, {}⟩]⟩

/-- What a process for the first of the two regions depends on, if its last column may be
overridden. -/
def seam (lastColumn : Option String) : Surroundings where
  lookup key :=
    if key = "REGION_NAME" then some "A" else if key = "REGION_MAX_X" then lastColumn else none
  storage := Startup.stored 4 4 ("\x7b\"regions\":[" ++ Startup.record "a" 0 3 ++ "," ++
    Startup.record "east" 4 7 ++ "]\x7d")
  directory _ := none
  bind _ := true

/-- With the last column as it is in the document, players see the neighbour. -/
theorem neighbors_of_make_seam :
    ∃ p, Plan.make (seam none).lookup (seam none).storage = .ok p ∧
      ∀ book, p.shard.Sees book "EAST" := by
  obtain ⟨p, hp, hlook⟩ : ∃ p, Plan.make (seam none).lookup (seam none).storage = .ok p ∧
      (p.settings.regionName, p.shard.realm, p.settings.overridden ⟨0, 3, 0, 1⟩) =
        ("A", pair, ⟨0, 3, 0, 1⟩) := Terrain.exists_ok_of_look _ (by decide +kernel)
  obtain ⟨hname, hrealm, hmine⟩ : p.settings.regionName = "A" ∧ p.shard.realm = pair ∧
      p.settings.overridden ⟨0, 3, 0, 1⟩ = ⟨0, 3, 0, 1⟩ := by simpa using hlook
  obtain ⟨own, hown, -, -, -, -, hsees⟩ := neighbors_of_make hp
  rw [hname, hrealm] at hown
  cases hown
  refine ⟨p, hp, fun book => (hsees hmine book "EAST").2 ⟨.east, ?_⟩⟩
  rw [hrealm]
  decide +kernel

/-- With the last column overridden, the document still has the neighbour across the seam, but
players do not see it. -/
theorem neighbor_lost_by_override :
    ∃ p own, Plan.make (seam (some "2")).lookup (seam (some "2")).storage = .ok p ∧
      p.shard.realm.get? p.settings.regionName = some own ∧
      (∃ d, p.shard.realm.BordersOn own.name own.bounds d "east") ∧
      ∀ book, ¬ p.shard.Sees book "east" := by
  obtain ⟨p, hp, hlook⟩ : ∃ p,
      Plan.make (seam (some "2")).lookup (seam (some "2")).storage = .ok p ∧
      (p.settings.regionName, p.shard.realm, p.shard.name, p.shard.configured) =
        ("A", pair, "a", ⟨0, 2, 0, 1⟩) := Terrain.exists_ok_of_look _ (by decide +kernel)
  obtain ⟨hname, hrealm, hshard, hmine⟩ : p.settings.regionName = "A" ∧ p.shard.realm = pair ∧
      p.shard.name = "a" ∧ p.shard.configured = ⟨0, 2, 0, 1⟩ := by simpa using hlook
  obtain ⟨own, hown, -, -, hinside⟩ := shard_of_make hp
  refine ⟨p, own, hp, hown, ?_, fun book => ?_⟩
  · rw [hname, hrealm] at hown
    cases hown
    rw [hrealm]
    exact ⟨.east, by decide +kernel⟩
  · rw [Shard.sees_iff hinside, hrealm, hshard, hmine]
    rintro ⟨d, hborders⟩
    cases d <;> revert hborders <;> decide +kernel

end Plan

end TileRealm
