import TileRealm.Proofs.Realm.Playable
import TileRealm.Proofs.Terrain.Atlas
import TileRealm.Service.Startup

/-!
# What a start comes to

On its way to a host that serves, a start has gates to get past (`Gate`), and what it finds on the
way (`Findings`) decides whether it does (`Surroundings.Passes`).  Either it gets past all of them,
or it stops at the first one that it does not (`Surroundings.StopsAt`), with the error of that gate;
which of the two, the directory has no say in (`Startup.outcome`).
-/

namespace TileRealm

/-! ### Realm documents -/

namespace Realm

/-- Whether a document describes a realm, with empty regions or without. -/
def Describes (text : String) (w : Realm) : Prop := (Json.parse text).bind ofJson? = some w

theorem parse_of_describes {text : String} {w : Realm} (h : Describes text w)
    (hne : ∀ r ∈ w.regions, ∃ t, r.bounds.contains t = true) : parse text = .ok w := by
  have hnone : w.emptyRegion? = none := by
    refine List.find?_eq_none.2 fun r hr hempty => ?_
    exact Bounds.isEmpty_eq_true_iff.1 hempty (hne r hr)
  unfold Describes at h
  simp only [parse, h, hnone]

theorem parse_of_empty {text : String} {w : Realm} (h : Describes text w) {pre post : List Region}
    {r : Region} (hw : w.regions = pre ++ r :: post)
    (hpre : ∀ r' ∈ pre, ∃ t, r'.bounds.contains t = true)
    (hr : ¬ ∃ t, r.bounds.contains t = true) : parse text = .error (.emptyBounds r.name) := by
  have hsome : w.emptyRegion? = some r := by
    refine List.find?_eq_some_iff_append.2 ⟨Bounds.isEmpty_eq_true_iff.2 hr, pre, post, hw, ?_⟩
    intro r' hr'
    rw [Bounds.isEmpty_eq_false_iff.2 (hpre r' hr')]
    rfl
  unfold Describes at h
  simp only [parse, h, hsome]

theorem parse_of_not_describes {text : String} (h : ∀ w, ¬ Describes text w) :
    parse text = .error .malformed := by
  have hnone : (Json.parse text).bind ofJson? = none :=
    Option.eq_none_iff_forall_ne_some.2 h
  simp only [parse, hnone]

/-- A realm has a first region without a tile, or none. -/
theorem exists_empty_or (w : Realm) :
    (∀ r ∈ w.regions, ∃ t, r.bounds.contains t = true) ∨
      ∃ pre r post, w.regions = pre ++ r :: post ∧
        (∀ r' ∈ pre, ∃ t, r'.bounds.contains t = true) ∧ ¬ ∃ t, r.bounds.contains t = true := by
  cases h : w.emptyRegion? with
  | none =>
    refine .inl fun r hr => Bounds.isEmpty_eq_false_iff.1 ?_
    exact Bool.eq_false_iff.2 (List.find?_eq_none.1 h r hr)
  | some r =>
    obtain ⟨hempty, pre, post, hw, hpre⟩ := List.find?_eq_some_iff_append.1 h
    refine .inr ⟨pre, r, post, hw, fun r' hr' => ?_, Bounds.isEmpty_eq_true_iff.1 hempty⟩
    exact Bounds.isEmpty_eq_false_iff.1 (by simpa using hpre r' hr')

end Realm

/-! ### Gates -/

/-- What a start has to get past. -/
inductive Gate where
  /-- The variables can be read. -/
  | settings
  /-- The data folder holds a map. -/
  | maps
  /-- The realm can be read, and each of its regions holds a tile. -/
  | realm
  /-- The realm has the region that is to be served. -/
  | region
  /-- The region holds a tile, overrides included. -/
  | bounds
  /-- A tile is playable. -/
  | overlap
  /-- The address can be listened on. -/
  | bind
deriving DecidableEq

/-- Which gates come before a gate. -/
def Gate.place : Gate → Nat
  | settings => 0
  | maps => 1
  | realm => 2
  | region => 3
  | bounds => 4
  | overlap => 5
  | bind => 6

@[simp] theorem Gate.not_place_lt_settings (g : Gate) : ¬ g.place < settings.place :=
  Nat.not_lt_zero _

theorem Gate.place_injective : Function.Injective Gate.place := by
  intro g g' h
  cases g <;> cases g' <;> first | rfl | cases h

/-- What a start finds on its way. -/
structure Findings where
  settings : Settings
  /-- The entries of the data folder. -/
  entries : List (String × StoredNode)
  mapName : String
  terrain : Terrain
  realm : Realm
  region : Region

namespace Findings

/-- What is found before anything was looked at. -/
instance : Inhabited Findings where
  default :=
    { settings := ⟨"", none, none, none, none, [], "", "", "", false, .host, .v4 0 0 0 0 0⟩
      entries := []
      mapName := ""
      terrain := { width := 0, height := 0 }
      realm := {}
      region := ⟨"", default, none, {}⟩ }

/-- The bounds of the region, overrides included. -/
def bounds (f : Findings) : Bounds := f.settings.overridden f.region.bounds

/-- The shard that is to be served. -/
def shard (f : Findings) : Shard where
  name := f.region.name
  configured := f.bounds
  terrain := f.terrain
  realm := f.realm

/-- What is settled when the network is touched. -/
def plan (f : Findings) : Plan where
  settings := f.settings
  mapName := f.mapName
  shard := f.shard
  book := f.settings.addressBook f.region f.realm

end Findings

namespace Surroundings

variable {s : Surroundings} {f f' : Findings} {g : Gate} {e : StartupError}

/-- Whether a start with some findings gets past a gate that it has come to. -/
def Passes (s : Surroundings) (f : Findings) : Gate → Prop
  | .settings => Settings.ofLookup s.lookup = .ok f.settings
  | .maps =>
    s.storage f.settings.mapFolder = some (.folder f.entries) ∧ Atlas.HoldsMap f.entries ∧
      (Atlas.ofEntries f.entries).select f.settings.regionName = some (f.mapName, f.terrain)
  | .realm =>
    ∃ text, StoredNode.readText (s.storage f.settings.realmPath) = .ok text ∧
      Realm.Describes text f.realm ∧ ∀ r ∈ f.realm.regions, ∃ t, r.bounds.contains t = true
  | .region => f.realm.get? f.settings.regionName = some f.region
  | .bounds => ∃ t, f.bounds.contains t = true
  | .overlap => ∃ t, f.shard.isInside t = true
  | .bind => s.bind f.settings.bindAddress = true

/-- What is wrong at a gate that a start with some findings has come to and does not get past. -/
inductive Fails (s : Surroundings) (f : Findings) : Gate → StartupError → Prop
  | settings (error : SettingsError) (h : Settings.ofLookup s.lookup = .error error) :
    Fails s f .settings (.settings error)
  | noFolder (h : s.storage f.settings.mapFolder = none) :
    Fails s f .maps (.atlas f.settings.mapFolder (.unreadable .notFound))
  | file (content : Bytes) (h : s.storage f.settings.mapFolder = some (.file content)) :
    Fails s f .maps (.atlas f.settings.mapFolder (.unreadable .isFile))
  | noMaps (entries : List (String × StoredNode))
    (h : s.storage f.settings.mapFolder = some (.folder entries))
    (hnone : ¬ Atlas.HoldsMap entries) :
    Fails s f .maps (.atlas f.settings.mapFolder .noMaps)
  | unreadable (error : ReadError)
    (h : StoredNode.readText (s.storage f.settings.realmPath) = .error error) :
    Fails s f .realm (.realm f.settings.realmPath (.unreadable error))
  | malformed (text : String)
    (h : StoredNode.readText (s.storage f.settings.realmPath) = .ok text)
    (hnone : ∀ w, ¬ Realm.Describes text w) :
    Fails s f .realm (.realm f.settings.realmPath .malformed)
  | emptyRegion (text : String) (w : Realm) (pre post : List Region) (r : Region)
    (h : StoredNode.readText (s.storage f.settings.realmPath) = .ok text)
    (hdescribes : Realm.Describes text w) (hw : w.regions = pre ++ r :: post)
    (hpre : ∀ r' ∈ pre, ∃ t, r'.bounds.contains t = true)
    (hr : ¬ ∃ t, r.bounds.contains t = true) :
    Fails s f .realm (.realm f.settings.realmPath (.emptyBounds r.name))
  | unknownRegion (h : ∀ r ∈ f.realm.regions, r.isNamed f.settings.regionName = false) :
    Fails s f .region (.realm f.settings.realmPath (.unknownRegion f.settings.regionName))
  | emptyBounds (h : ¬ ∃ t, f.bounds.contains t = true) :
    Fails s f .bounds (.bounds (.emptyBounds f.region.name f.bounds))
  | noOverlap (h : ¬ ∃ t, f.shard.isInside t = true) :
    Fails s f .overlap (.noOverlap f.region.name f.bounds f.mapName)
  | bind (h : s.bind f.settings.bindAddress = false) : Fails s f .bind .bind

/-- Whether a start gets past all gates before a certain one. -/
def Reaches (s : Surroundings) (f : Findings) (g : Gate) : Prop :=
  ∀ g', g'.place < g.place → s.Passes f g'

/-- Where a start stops, and for what. -/
structure StopsAt (s : Surroundings) (f : Findings) (g : Gate) (e : StartupError) : Prop where
  reaches : s.Reaches f g
  fails : s.Fails f g e

theorem Reaches.passes (h : s.Reaches f g) (hp : s.Passes f g) {g' : Gate}
    (hg : g'.place ≤ g.place) : s.Passes f g' := by
  rcases Nat.lt_or_eq_of_le hg with hlt | heq
  · exact h g' hlt
  · exact Gate.place_injective heq ▸ hp

theorem Reaches.next (h : s.Reaches f g) (hp : s.Passes f g) {g' : Gate}
    (hg : g'.place ≤ g.place + 1) : s.Reaches f g' := fun _ hg' =>
  h.passes hp (Nat.le_of_lt_succ (Nat.lt_of_lt_of_le hg' hg))

/-! ### What the gates come to

Each step of a start gives what was found when its gate is passed, and the error when it is not. -/

theorem Reaches.settings (h : s.Reaches f g) (hg : Gate.settings.place < g.place) :
    (Settings.ofLookup s.lookup).mapError StartupError.settings = .ok f.settings := by
  have hread : Settings.ofLookup s.lookup = .ok f.settings := h .settings hg
  rw [hread]
  rfl

theorem Fails.settings_eq (h : s.Fails f .settings e) :
    (Settings.ofLookup s.lookup).mapError StartupError.settings = .error e := by
  cases h with
  | settings error h =>
    rw [h]
    rfl

theorem Reaches.atlas (h : s.Reaches f g) (hg : Gate.maps.place < g.place) :
    (Atlas.load (s.storage f.settings.mapFolder)).mapError
      (StartupError.atlas f.settings.mapFolder) = .ok (Atlas.ofEntries f.entries) := by
  obtain ⟨hfolder, hmaps, -⟩ := h .maps hg
  rw [hfolder, Atlas.load_folder_of_holdsMap hmaps]
  rfl

theorem Reaches.select (h : s.Reaches f g) (hg : Gate.maps.place < g.place) :
    (Atlas.ofEntries f.entries).select f.settings.regionName = some (f.mapName, f.terrain) :=
  (h .maps hg).2.2

theorem Fails.atlas_eq (h : s.Fails f .maps e) :
    (Atlas.load (s.storage f.settings.mapFolder)).mapError
      (StartupError.atlas f.settings.mapFolder) = .error e := by
  cases h with
  | noFolder h =>
    rw [h]
    rfl
  | file content h =>
    rw [h]
    rfl
  | noMaps entries h hnone =>
    rw [h, Atlas.load_folder_of_not_holdsMap hnone]
    rfl

theorem Reaches.realm (h : s.Reaches f g) (hg : Gate.realm.place < g.place) :
    (Realm.load (s.storage f.settings.realmPath)).mapError
      (StartupError.realm f.settings.realmPath) = .ok f.realm := by
  obtain ⟨text, hread, hdescribes, hne⟩ := h .realm hg
  simp only [Realm.load, hread, Realm.parse_of_describes hdescribes hne, Except.mapError]

theorem Fails.realm_eq (h : s.Fails f .realm e) :
    (Realm.load (s.storage f.settings.realmPath)).mapError
      (StartupError.realm f.settings.realmPath) = .error e := by
  cases h with
  | unreadable error h => simp only [Realm.load, h, Except.mapError]
  | malformed text h hnone =>
    simp only [Realm.load, h, Realm.parse_of_not_describes hnone, Except.mapError]
  | emptyRegion text w pre post r h hdescribes hw hpre hr =>
    simp only [Realm.load, h, Realm.parse_of_empty hdescribes hw hpre hr, Except.mapError]

theorem Reaches.region (h : s.Reaches f g) (hg : Gate.region.place < g.place) :
    (f.realm.require f.settings.regionName).mapError
      (StartupError.realm f.settings.realmPath) = .ok f.region := by
  have hnamed : f.realm.get? f.settings.regionName = some f.region := h .region hg
  simp only [Realm.require, hnamed, Except.mapError]

theorem Fails.region_eq (h : s.Fails f .region e) :
    (f.realm.require f.settings.regionName).mapError
      (StartupError.realm f.settings.realmPath) = .error e := by
  cases h with
  | unknownRegion h =>
    have hnone : f.realm.get? f.settings.regionName = none :=
      List.find?_eq_none.2 fun r hr => by simp [h r hr]
    simp only [Realm.require, hnone, Except.mapError]

theorem Reaches.bounds (h : s.Reaches f g) (hg : Gate.bounds.place < g.place) :
    (f.settings.boundsFor f.region).mapError StartupError.bounds = .ok f.bounds := by
  have hne : (f.settings.overridden f.region.bounds).isEmpty = false :=
    Bounds.isEmpty_eq_false_iff.2 (h .bounds hg)
  simp only [Settings.boundsFor, hne]
  rfl

theorem Fails.bounds_eq (h : s.Fails f .bounds e) :
    (f.settings.boundsFor f.region).mapError StartupError.bounds = .error e := by
  cases h with
  | emptyBounds h =>
    have hempty : (f.settings.overridden f.region.bounds).isEmpty = true :=
      Bounds.isEmpty_eq_true_iff.2 h
    simp only [Settings.boundsFor, hempty]
    rfl

/-- Starts find the same as far as they get. -/
theorem Reaches.agree (h : s.Reaches f g) (h' : s.Reaches f' g) :
    (Gate.settings.place < g.place → f.settings = f'.settings) ∧
    (Gate.maps.place < g.place → f.mapName = f'.mapName ∧ f.terrain = f'.terrain) ∧
    (Gate.realm.place < g.place → f.realm = f'.realm) ∧
    (Gate.region.place < g.place → f.region = f'.region) := by
  have hsettings : Gate.settings.place < g.place → f.settings = f'.settings := fun hg =>
    Except.ok.inj ((h.settings hg).symm.trans (h'.settings hg))
  have hrealm : Gate.realm.place < g.place → f.realm = f'.realm := fun hg => by
    have hload := h.realm hg
    rw [hsettings (Nat.lt_trans (by decide) hg)] at hload
    exact Except.ok.inj (hload.symm.trans (h'.realm hg))
  refine ⟨hsettings, fun hg => ?_, hrealm, fun hg => ?_⟩
  · have hload := h.atlas hg
    have hselect := h.select hg
    rw [hsettings (Nat.lt_trans (by decide) hg)] at hload hselect
    rw [Except.ok.inj (hload.symm.trans (h'.atlas hg)), h'.select hg] at hselect
    obtain ⟨hname, hterrain⟩ := Prod.mk.inj (Option.some.inj hselect)
    exact ⟨hname.symm, hterrain.symm⟩
  · have hrequire := h.region hg
    rw [hsettings (Nat.lt_trans (by decide) hg), hrealm (Nat.lt_trans (by decide) hg)] at hrequire
    exact Except.ok.inj (hrequire.symm.trans (h'.region hg))

/-- What stops a start stops it whatever it may find. -/
theorem StopsAt.not_passes (h : s.StopsAt f g e) (h' : s.Reaches f' g) : ¬ s.Passes f' g := by
  intro hp
  obtain ⟨h, hfails⟩ := h
  obtain ⟨hsettings, hmap, hrealm, hregion⟩ := h.agree h'
  cases g with
  | settings =>
    have hnext : s.Reaches f' .maps := h'.next hp (by decide)
    have hread := hfails.settings_eq
    rw [hnext.settings (by decide)] at hread
    cases hread
  | maps =>
    have hnext : s.Reaches f' .realm := h'.next hp (by decide)
    have hload := hfails.atlas_eq
    rw [hsettings (by decide), hnext.atlas (by decide)] at hload
    cases hload
  | realm =>
    have hnext : s.Reaches f' .region := h'.next hp (by decide)
    have hload := hfails.realm_eq
    rw [hsettings (by decide), hnext.realm (by decide)] at hload
    cases hload
  | region =>
    have hnext : s.Reaches f' .bounds := h'.next hp (by decide)
    have hrequire := hfails.region_eq
    rw [hsettings (by decide), hrealm (by decide), hnext.region (by decide)] at hrequire
    cases hrequire
  | bounds =>
    have hnext : s.Reaches f' .overlap := h'.next hp (by decide)
    have hbounds := hfails.bounds_eq
    rw [hsettings (by decide), hregion (by decide), hnext.bounds (by decide)] at hbounds
    cases hbounds
  | overlap =>
    cases hfails with
    | noOverlap hnone =>
      have hshard : f.shard = f'.shard := by
        unfold Findings.shard Findings.bounds
        rw [hsettings (by decide), (hmap (by decide)).2, hrealm (by decide), hregion (by decide)]
      rw [hshard] at hnone
      exact hnone hp
  | bind =>
    cases hfails with
    | bind hbind =>
      rw [hsettings (by decide)] at hbind
      exact Bool.eq_false_iff.1 hbind hp

/-! ### What a start comes to -/

theorem Reaches.make_eq_ok (h : s.Reaches f .bind) :
    Plan.make s.lookup s.storage = .ok f.plan := by
  have hinside : f.shard.effective.isEmpty = false :=
    Bounds.isEmpty_eq_false_iff.2 (h .overlap (by decide))
  simp (disch := decide) only [Plan.make, h.settings, h.atlas, h.select, h.realm, h.region,
    h.bounds, Bind.bind, Except.bind]
  exact if_neg (Bool.eq_false_iff.1 hinside)

theorem StopsAt.make_eq_error (h : s.StopsAt f g e) (hg : g ≠ .bind) :
    Plan.make s.lookup s.storage = .error e := by
  obtain ⟨h, hfails⟩ := h
  cases g with
  | settings => simp only [Plan.make, hfails.settings_eq, Bind.bind, Except.bind]
  | maps =>
    simp (disch := decide) only [Plan.make, h.settings, hfails.atlas_eq, Bind.bind, Except.bind]
  | realm =>
    simp (disch := decide) only [Plan.make, h.settings, h.atlas, h.select, hfails.realm_eq,
      Bind.bind, Except.bind]
  | region =>
    simp (disch := decide) only [Plan.make, h.settings, h.atlas, h.select, h.realm,
      hfails.region_eq, Bind.bind, Except.bind]
  | bounds =>
    simp (disch := decide) only [Plan.make, h.settings, h.atlas, h.select, h.realm, h.region,
      hfails.bounds_eq, Bind.bind, Except.bind]
  | overlap =>
    cases hfails with
    | noOverlap hnone =>
      have hempty : f.shard.effective.isEmpty = true := Bounds.isEmpty_eq_true_iff.2 hnone
      simp (disch := decide) only [Plan.make, h.settings, h.atlas, h.select, h.realm, h.region,
        h.bounds, Bind.bind, Except.bind]
      exact if_pos hempty
  | bind => exact absurd rfl hg

/-- At a gate that a start comes to, it finds what is needed to get past, or something is wrong. -/
theorem Reaches.passes_or_fails (h : s.Reaches f g) :
    (∃ f', s.Reaches f' g ∧ s.Passes f' g) ∨ ∃ e, s.Fails f g e := by
  cases g with
  | settings =>
    cases hread : Settings.ofLookup s.lookup with
    | ok settings =>
      exact .inl ⟨{ f with settings }, fun g' hg' => absurd hg' g'.not_place_lt_settings, hread⟩
    | error error => exact .inr ⟨_, .settings error hread⟩
  | maps =>
    cases hfolder : s.storage f.settings.mapFolder with
    | none => exact .inr ⟨_, .noFolder hfolder⟩
    | some node =>
      cases node with
      | file content => exact .inr ⟨_, .file content hfolder⟩
      | folder entries =>
        by_cases hmaps : Atlas.HoldsMap entries
        · obtain ⟨mapName, terrain, hselect⟩ :=
            Atlas.exists_select_eq_some hmaps f.settings.regionName
          refine .inl ⟨{ f with entries, mapName, terrain }, fun g' hg' => ?_, hfolder, hmaps,
            hselect⟩
          cases g' with
          | settings => exact h .settings hg'
          | _ => exact absurd hg' (by decide)
        · exact .inr ⟨_, .noMaps entries hfolder hmaps⟩
  | realm =>
    cases hread : StoredNode.readText (s.storage f.settings.realmPath) with
    | error error => exact .inr ⟨_, .unreadable error hread⟩
    | ok text =>
      by_cases hdescribes : ∃ w, Realm.Describes text w
      · obtain ⟨realm, hdescribes⟩ := hdescribes
        rcases realm.exists_empty_or with hne | ⟨pre, r, post, hw, hpre, hr⟩
        · refine .inl ⟨{ f with realm }, fun g' hg' => ?_, text, hread, hdescribes, hne⟩
          cases g' with
          | settings => exact h .settings hg'
          | maps => exact h .maps hg'
          | _ => exact absurd hg' (by decide)
        · exact .inr ⟨_, .emptyRegion text realm pre post r hread hdescribes hw hpre hr⟩
      · exact .inr ⟨_, .malformed text hread (not_exists.1 hdescribes)⟩
  | region =>
    cases hnamed : f.realm.get? f.settings.regionName with
    | some region =>
      refine .inl ⟨{ f with region }, fun g' hg' => ?_, hnamed⟩
      cases g' with
      | settings => exact h .settings hg'
      | maps => exact h .maps hg'
      | realm => exact h .realm hg'
      | _ => exact absurd hg' (by decide)
    | none =>
      refine .inr ⟨_, .unknownRegion fun r hr => ?_⟩
      exact Bool.eq_false_iff.2 (List.find?_eq_none.1 hnamed r hr)
  | bounds =>
    by_cases hne : ∃ t, f.bounds.contains t = true
    · exact .inl ⟨f, h, hne⟩
    · exact .inr ⟨_, .emptyBounds hne⟩
  | overlap =>
    by_cases hne : ∃ t, f.shard.isInside t = true
    · exact .inl ⟨f, h, hne⟩
    · exact .inr ⟨_, .noOverlap hne⟩
  | bind =>
    cases hbind : s.bind f.settings.bindAddress with
    | true => exact .inl ⟨f, h, hbind⟩
    | false => exact .inr ⟨_, .bind hbind⟩

/-- A start gets past all gates or stops at one. -/
theorem passes_or_stopsAt (s : Surroundings) :
    (∃ f, ∀ g, s.Passes f g) ∨ ∃ f g e, s.StopsAt f g e := by
  have hplaces : ∀ n, (∃ f, ∀ g, g.place < n → s.Passes f g) ∨ ∃ f g e, s.StopsAt f g e := by
    intro n
    induction n with
    | zero => exact .inl ⟨default, fun g hg => absurd hg (Nat.not_lt_zero _)⟩
    | succ n ih =>
      rcases ih with ⟨f, hf⟩ | hstops
      · by_cases hg : ∃ g : Gate, g.place = n
        · obtain ⟨g, rfl⟩ := hg
          rcases Reaches.passes_or_fails hf with ⟨f', hreaches, hpasses⟩ | ⟨e, hfails⟩
          · exact .inl ⟨f', fun g' hg' => hreaches.passes hpasses (Nat.le_of_lt_succ hg')⟩
          · exact .inr ⟨f, g, e, hf, hfails⟩
        · refine .inl ⟨f, fun g' hg' => hf g' ?_⟩
          have hne : g'.place ≠ n := fun heq => hg ⟨g', heq⟩
          omega
      · exact .inr hstops
  rcases hplaces (Gate.bind.place + 1) with ⟨f, hf⟩ | hstops
  · exact .inl ⟨f, fun g => hf g (by cases g <;> decide)⟩
  · exact .inr hstops

/-- A plan is what was found by a start that it was made in. -/
theorem exists_reaches_of_make {p : Plan} (h : Plan.make s.lookup s.storage = .ok p) :
    ∃ f, s.Reaches f .bind ∧ f.plan = p := by
  have hreaches : ∃ f, s.Reaches f .bind := by
    rcases s.passes_or_stopsAt with ⟨f, hf⟩ | ⟨f, g, e, hstops⟩
    · exact ⟨f, fun g _ => hf g⟩
    · by_cases hg : g = .bind
      · exact ⟨f, hg ▸ hstops.reaches⟩
      · rw [hstops.make_eq_error hg] at h
        cases h
  obtain ⟨f, hf⟩ := hreaches
  exact ⟨f, hf, Except.ok.inj (hf.make_eq_ok.symm.trans h)⟩

theorem Reaches.plan_eq {p : Plan} (hf : s.Reaches f .overlap)
    (h : Plan.make s.lookup s.storage = .ok p) : f.plan = p := by
  by_cases hp : s.Passes f .overlap
  · have hnext : s.Reaches f .bind := hf.next hp (by decide)
    exact Except.ok.inj (hnext.make_eq_ok.symm.trans h)
  · have hstops : s.StopsAt f .overlap _ := ⟨hf, .noOverlap hp⟩
    rw [hstops.make_eq_error (by decide)] at h
    cases h

end Surroundings

namespace Startup

open Surroundings

variable {s : Surroundings} {f : Findings} {g : Gate} {e : StartupError}

theorem run_of_passes (h : ∀ g, s.Passes f g) :
    (run s).result = .ok f.plan.host ∧ (run s).listensOn = some f.settings.bindAddress := by
  have hreaches : s.Reaches f .bind := fun g _ => h g
  have hbind : s.bind f.plan.settings.bindAddress = true := h .bind
  unfold run
  rw [hreaches.make_eq_ok]
  dsimp only
  rw [hbind]
  exact ⟨rfl, rfl⟩

theorem run_of_stopsAt (h : s.StopsAt f g e) :
    (run s).result = .error e ∧ (run s).listensOn = none := by
  unfold run
  by_cases hg : g = .bind
  · subst hg
    cases h.fails with
    | bind hbind =>
      have hbind' : s.bind f.plan.settings.bindAddress = false := hbind
      rw [h.reaches.make_eq_ok]
      dsimp only
      rw [hbind']
      exact ⟨rfl, rfl⟩
  · rw [h.make_eq_error hg]
    exact ⟨rfl, rfl⟩

/-- A region is served when its start gets past all gates.  Otherwise the start comes to the error
of the first gate that cannot be passed and to the exit status 2, and listens on nothing; before the
last gate it does not even ask whether it could.  The directory makes no difference.  Of the gates,
only the one for playable tiles asks for something else than what it is there for: a tile of the
bounds that lies on the map is not needed if the map is pinned to the least coordinates. -/
theorem outcome (s : Surroundings) :
    ((∃ h, (run s).result = .ok h) ↔ ∃ f, ∀ g, s.Passes f g) ∧
    (∀ f, (∀ g, s.Passes f g) →
      (run s).result = .ok f.plan.host ∧ (run s).listensOn = some f.settings.bindAddress) ∧
    (∀ e, (run s).result = .error e ↔ ∃ f g, s.StopsAt f g e) ∧
    (∀ f g e, s.StopsAt f g e →
      (∀ f', s.Reaches f' g → ¬ s.Passes f' g) ∧ (run s).exitStatus = 2 ∧
        (run s).listensOn = none ∧ (g ≠ .bind → ∀ bind, run { s with bind } = run s)) ∧
    (∀ directory, (run { s with directory }).result = (run s).result ∧
      (run { s with directory }).exitStatus = (run s).exitStatus ∧
      (run { s with directory }).listensOn = (run s).listensOn) ∧
    ∀ f, s.Reaches f .overlap →
      (s.Passes f .overlap ↔
        (∃ t, f.bounds.contains t = true ∧ f.shard.OnMap t) ∨ f.shard.IsPinned) := by
  have hdirectory : ∀ directory, (run { s with directory }).result = (run s).result ∧
      (run { s with directory }).listensOn = (run s).listensOn := by
    intro directory
    unfold run
    dsimp only
    split <;> exact ⟨rfl, rfl⟩
  refine ⟨⟨fun ⟨h, hh⟩ => ?_, fun ⟨f, hf⟩ => ⟨_, (run_of_passes hf).1⟩⟩,
    fun f hf => run_of_passes hf, fun e => ⟨fun he => ?_, fun ⟨f, g, h⟩ => (run_of_stopsAt h).1⟩,
    fun f g e h => ⟨fun f' => h.not_passes, ?_, (run_of_stopsAt h).2, fun hg bind => ?_⟩,
    fun directory => ⟨(hdirectory directory).1, ?_, (hdirectory directory).2⟩,
    fun f h => Shard.exists_isInside_iff (h .bounds (by decide))⟩
  · rcases s.passes_or_stopsAt with hf | ⟨f, g, e, hstops⟩
    · exact hf
    · rw [(run_of_stopsAt hstops).1] at hh
      cases hh
  · rcases s.passes_or_stopsAt with ⟨f, hf⟩ | ⟨f, g, e', hstops⟩
    · rw [(run_of_passes hf).1] at he
      cases he
    · rw [(run_of_stopsAt hstops).1] at he
      cases he
      exact ⟨f, g, hstops⟩
  · simp only [exitStatus, (run_of_stopsAt h).1]
    rfl
  · simp only [run, h.make_eq_error hg]
  · simp only [exitStatus, (hdirectory directory).1]

/-! ### A small region -/

/-- A data folder with one map, of a given size, and the document of a realm. -/
def stored (width height : Nat) (document : String) : Storage := fun path =>
  if path = "data" then
    let layout := "\x7b\"width\":" ++ Numeral.ofNat width ++ ",\"height\":" ++
      Numeral.ofNat height ++ "\x7d"
    some (.folder [("m", .folder [("map.json", .file (Text.utf8 layout)),
      ("tile_definitions.json", .file (Text.utf8 "[]")),
      ("object_definitions.json", .file (Text.utf8 "[]"))])])
  else if path = "data/Game/world.regions.json" then some (.file (Text.utf8 document))
  else none

/-- The record of a region in the document of a realm, for two rows of tiles. -/
def record (name : String) (minX maxX : Int) : String :=
  "\x7b\"name\":\"" ++ name ++ "\",\"minX\":" ++ Numeral.ofInt minX ++ ",\"maxX\":" ++
    Numeral.ofInt maxX ++ ",\"minY\":0,\"maxY\":1\x7d"

/-- A region of two by two tiles, by its first column and the width of its map. -/
def hamlet (first : Int) (width : Nat) (bind : SocketAddress → Bool) : Surroundings where
  lookup key := if key = "REGION_NAME" then some "A" else none
  storage := stored width 4 ("\x7b\"regions\":[" ++ record "a" first (first + 1) ++ "]\x7d")
  directory _ := none
  bind

/-- A region whose map covers it is served, unless its address cannot be listened on. -/
theorem outcome_hamlet :
    let s := hamlet 0 4
    (∃ f, (∀ g, (s fun _ => true).Passes f g) ∧
      (run (s fun _ => true)).result = .ok f.plan.host ∧
      (run (s fun _ => true)).listensOn = some f.settings.bindAddress) ∧
    ∃ f g, (s fun _ => false).StopsAt f g .bind ∧ (run (s fun _ => false)).exitStatus = 2 ∧
      (run (s fun _ => false)).listensOn = none := by
  intro s
  obtain ⟨p, hp, -⟩ : ∃ p, Plan.make (s fun _ => true).lookup (s fun _ => true).storage = .ok p ∧
      p.mapName = "m" := Terrain.exists_ok_of_look _ (by decide +kernel)
  constructor
  · obtain ⟨hserves, hcourse, -⟩ := outcome (s fun _ => true)
    obtain ⟨f, hf⟩ := hserves.1 ⟨p.host, by simp only [run, hp]; rfl⟩
    exact ⟨f, hf, hcourse f hf⟩
  · have hp' : Plan.make (s fun _ => false).lookup (s fun _ => false).storage = .ok p := hp
    obtain ⟨-, -, hstops, hcourse, -⟩ := outcome (s fun _ => false)
    obtain ⟨f, g, h⟩ := (hstops .bind).1 (by simp only [run, hp']; rfl)
    obtain ⟨-, hstatus, hlistens, -⟩ := hcourse f g .bind h
    exact ⟨f, g, h, hstatus, hlistens⟩

/-- The bounds of this region begin at the least coordinate, and its map has no column.  So none of
its tiles lies on the map, but it is served, and if its address cannot be listened on then that is
what its start comes to. -/
theorem serves_without_tile :
    let s := hamlet (-2147483648) 0
    (∃ h, (run (s fun _ => true)).result = .ok h) ∧
    (run (s fun _ => false)).result = .error .bind ∧
    ∀ bind f, (s bind).Reaches f .overlap →
      ¬ ∃ t, f.bounds.contains t = true ∧ f.shard.OnMap t := by
  intro s
  obtain ⟨p, hp, hwidth⟩ : ∃ p, Plan.make (s fun _ => true).lookup (s fun _ => true).storage =
      .ok p ∧ p.shard.terrain.width = 0 := Terrain.exists_ok_of_look _ (by decide +kernel)
  have hp' : ∀ bind, Plan.make (s bind).lookup (s bind).storage = .ok p := fun _ => hp
  refine ⟨⟨p.host, by simp only [run, hp]; rfl⟩, by simp only [run, hp']; rfl, fun bind f hf => ?_⟩
  rintro ⟨t, -, ⟨hfirst, hlast⟩, -⟩
  have hplan : f.shard = p.shard := congrArg Plan.shard (hf.plan_eq (hp' bind))
  rw [hplan] at hfirst hlast
  rw [hwidth, UInt32.toNat_zero] at hlast
  omega

end Startup

end TileRealm
