import TileRealm.Proofs.Bytes
import TileRealm.Proofs.Terrain.Document
import TileRealm.Terrain.Atlas

/-!
# The maps of a data folder

A folder holds a map when all three files are there and can be read (`Atlas.IsMap`), that is, when the
documents in them describe one (`Atlas.isMap_iff`).  An atlas can be loaded just when a folder among the
entries holds one, it has the maps of all the folders that do, and there is a map in it for every region:
one that is named like the region, the first of several, or else the first of all
(`Atlas.load_and_select`).
-/

namespace TileRealm

namespace Atlas

/-! ### Folders that hold a map -/

/-- A folder that holds a map: its three files are files, and the map is what they describe. -/
structure IsMap (inner : List (String × StoredNode)) (t : Terrain) : Prop where
  files : ∀ part : MapFile, ∃ content,
    StoredNode.child? part.fileName inner = some (.file content)
  load : Terrain.load (fun part => StoredNode.child? part.fileName inner) = .ok t

/-- Entries with a folder among them that holds a map. -/
def HoldsMap (entries : List (String × StoredNode)) : Prop :=
  ∃ name inner t, (name, .folder inner) ∈ entries ∧ IsMap inner t

theorem isFile_iff {node : Option StoredNode} :
    StoredNode.isFile node = true ↔ ∃ content, node = some (.file content) := by
  cases node with
  | none => simp [StoredNode.isFile]
  | some n => cases n <;> simp [StoredNode.isFile]

theorem mapIn?_eq_some_iff {inner : List (String × StoredNode)} {t : Terrain} :
    mapIn? inner = some t ↔ IsMap inner t := by
  have hfiles : (MapFile.all.all fun part =>
      StoredNode.isFile (StoredNode.child? part.fileName inner)) = true ↔
      ∀ part : MapFile, ∃ content,
        StoredNode.child? part.fileName inner = some (.file content) := by
    simp only [List.all_eq_true, isFile_iff]
    constructor
    · intro h part
      exact h part (by cases part <;> decide)
    · exact fun h part _ => h part
  unfold mapIn?
  dsimp only
  constructor
  · intro h
    split at h
    next hall =>
      refine ⟨hfiles.1 hall, ?_⟩
      cases hload : Terrain.load (fun part => StoredNode.child? part.fileName inner) with
      | ok t' =>
        rw [hload] at h
        rw [Option.some.inj h]
      | error e =>
        rw [hload] at h
        cases h
    next => cases h
  · intro h
    rw [if_pos (hfiles.2 h.files), h.load]
    rfl

/-- A folder holds a map just when there is a document in each of its files and these describe it. -/
theorem isMap_iff {inner : List (String × StoredNode)} {t : Terrain} :
    IsMap inner t ↔ ∃ d : MapDocuments,
      d.StoredIn (fun part => StoredNode.child? part.fileName inner) ∧ d.Describe t := by
  constructor
  · exact fun h => Terrain.load_eq_ok_iff.1 h.load
  · rintro ⟨d, hstored, hd⟩
    refine ⟨fun part => ?_, Terrain.load_eq_ok_iff.2 ⟨d, hstored, hd⟩⟩
    obtain ⟨text, htext, -⟩ := hstored part
    exact ⟨Text.utf8 text, htext⟩

/-- Whether a folder of some name is among the entries, with documents in its three files that describe
a map. -/
def HasMap (entries : List (String × StoredNode)) (name : String) (t : Terrain) : Prop :=
  ∃ inner, (name, .folder inner) ∈ entries ∧ ∃ d : MapDocuments,
    d.StoredIn (fun part => StoredNode.child? part.fileName inner) ∧ d.Describe t

theorem hasMap_iff {entries : List (String × StoredNode)} {name : String} {t : Terrain} :
    HasMap entries name t ↔ ∃ inner, (name, .folder inner) ∈ entries ∧ IsMap inner t := by
  simp only [HasMap, isMap_iff]

theorem holdsMap_iff {entries : List (String × StoredNode)} :
    HoldsMap entries ↔ ∃ name t, HasMap entries name t := by
  simp only [HasMap, HoldsMap, isMap_iff]
  constructor
  · rintro ⟨name, inner, t, h⟩
    exact ⟨name, t, inner, h⟩
  · rintro ⟨name, t, inner, h⟩
    exact ⟨name, inner, t, h⟩

/-! ### Loading -/

/-- The map of an entry with its name, if the entry is a folder that holds one. -/
def mapOf? : String × StoredNode → Option (String × Terrain)
  | (name, .folder inner) => (mapIn? inner).map (name, ·)
  | (_, .file _) => none

theorem mapOf?_eq_some_iff {e : String × StoredNode} {name : String} {t : Terrain} :
    mapOf? e = some (name, t) ↔ ∃ inner, e = (name, .folder inner) ∧ IsMap inner t := by
  obtain ⟨name', node⟩ := e
  cases node with
  | file => simp [mapOf?]
  | folder inner =>
    simp only [mapOf?, Option.map_eq_some_iff, mapIn?_eq_some_iff, Prod.mk.injEq,
      StoredNode.folder.injEq]
    constructor
    · rintro ⟨t', ht', rfl, rfl⟩
      exact ⟨inner, ⟨rfl, rfl⟩, ht'⟩
    · rintro ⟨inner', ⟨rfl, rfl⟩, ht⟩
      exact ⟨t, ht, rfl, rfl⟩

theorem ofEntries_eq (entries : List (String × StoredNode)) :
    ofEntries entries = Table.ofList (entries.filterMap mapOf?) := by
  unfold ofEntries
  congr 2
  funext ⟨name, node⟩
  cases node with
  | file => rfl
  | folder => rfl

theorem mem_filterMap_mapOf?_iff {entries : List (String × StoredNode)} {name : String} {t : Terrain} :
    (name, t) ∈ entries.filterMap mapOf? ↔ HasMap entries name t := by
  simp only [List.mem_filterMap, mapOf?_eq_some_iff, hasMap_iff]
  constructor
  · rintro ⟨_, hmem, inner, rfl, ht⟩
    exact ⟨inner, hmem, ht⟩
  · rintro ⟨inner, hmem, ht⟩
    exact ⟨_, hmem, inner, rfl, ht⟩

theorem nodup_filterMap_mapOf? {entries : List (String × StoredNode)}
    (h : (entries.map Prod.fst).Nodup) : ((entries.filterMap mapOf?).map Prod.fst).Nodup := by
  refine List.Nodup.sublist ?_ h
  induction entries with
  | nil => exact List.nil_sublist _
  | cons e entries ih =>
    have hrest := ih (List.nodup_cons.1 h).2
    cases he : mapOf? e with
    | none =>
      rw [List.filterMap_cons_none he]
      exact hrest.cons e.1
    | some nt =>
      obtain ⟨inner, rfl, -⟩ := mapOf?_eq_some_iff.1 he
      rw [List.filterMap_cons_some he]
      exact hrest.cons_cons nt.1

theorem isEmpty_ofEntries_eq_false_iff {entries : List (String × StoredNode)} :
    (ofEntries entries).isEmpty = false ↔ HoldsMap entries := by
  rw [ofEntries_eq, Table.isEmpty_ofList, List.isEmpty_eq_false_iff_exists_mem, holdsMap_iff]
  constructor
  · rintro ⟨⟨name, t⟩, h⟩
    exact ⟨name, t, mem_filterMap_mapOf?_iff.1 h⟩
  · rintro ⟨name, t, h⟩
    exact ⟨(name, t), mem_filterMap_mapOf?_iff.2 h⟩

/-- The maps of entries with different names are those of the folders among them. -/
theorem get?_ofEntries_eq_some_iff {entries : List (String × StoredNode)}
    (hnames : (entries.map Prod.fst).Nodup) {name : String} {t : Terrain} :
    (ofEntries entries).get? name = some t ↔ HasMap entries name t := by
  rw [ofEntries_eq, Table.get?_ofList_eq_some_iff (nodup_filterMap_mapOf? hnames),
    mem_filterMap_mapOf?_iff]

theorem load_folder_of_holdsMap {entries : List (String × StoredNode)} (h : HoldsMap entries) :
    load (some (.folder entries)) = .ok (ofEntries entries) := by
  have hne := isEmpty_ofEntries_eq_false_iff.2 h
  simp [load, hne]

theorem load_folder_of_not_holdsMap {entries : List (String × StoredNode)}
    (h : ¬ HoldsMap entries) : load (some (.folder entries)) = .error .noMaps := by
  have hempty : (ofEntries entries).isEmpty = true := by
    rw [← Bool.not_eq_false, isEmpty_ofEntries_eq_false_iff]
    exact h
  simp [load, hempty]

/-! ### Choosing -/

/-- Whether one of some names comes into question for a region: it is like the region's, or none is. -/
def Suits (names : List String) (region name : String) : Prop :=
  Text.sameName name region = true ∨ ∀ other ∈ names, Text.sameName other region = false

instance (names : List String) (region name : String) : Decidable (Suits names region name) :=
  inferInstanceAs (Decidable (_ ∨ _))

/-- The one of some names for a region: the first, by its bytes, that comes into question. -/
structure IsNameFor (names : List String) (region name : String) : Prop where
  mem : name ∈ names
  suits : Suits names region name
  first : ∀ other ∈ names, Suits names region other → Text.utf8 name ≤ Text.utf8 other

/-- The map for a region is the first one whose name comes into question. -/
theorem select_eq_find? (atlas : Atlas) (region : String) :
    atlas.select region = atlas.toList.find? fun e => decide (Suits atlas.keys region e.1) := by
  unfold select
  by_cases hnone : ∀ other ∈ atlas.keys, Text.sameName other region = false
  · have hall : (fun e : String × Terrain => decide (Suits atlas.keys region e.1)) = fun _ => true :=
      funext fun e => decide_eq_true (.inr hnone)
    have hfind : (atlas.toList.find? fun e => Text.sameName e.1 region) = none :=
      List.find?_eq_none.2 fun e he => by
        rw [hnone e.1 (List.mem_map_of_mem he)]
        exact Bool.false_ne_true
    rw [hfind, Option.none_or, hall]
    cases atlas.toList with
    | nil => rfl
    | cons => rfl
  · have hlike : (fun e : String × Terrain => decide (Suits atlas.keys region e.1)) =
        fun e => Text.sameName e.1 region := by
      funext e
      rw [Bool.eq_iff_iff, decide_eq_true_iff]
      exact or_iff_left hnone
    have hsome : (atlas.toList.find? fun e => Text.sameName e.1 region).isSome = true := by
      simp only [not_forall, Bool.not_eq_false] at hnone
      obtain ⟨name, hname, hsame⟩ := hnone
      obtain ⟨e, he, rfl⟩ := List.mem_map.1 hname
      exact List.find?_isSome.2 ⟨e, he, hsame⟩
    rw [hlike, Option.or_of_isSome hsome]

/-- There is a map for every region as soon as there is one. -/
theorem exists_select_of_isEmpty {atlas : Atlas} (h : atlas.isEmpty = false) (region : String) :
    ∃ name t, atlas.select region = some (name, t) := by
  have hne : atlas.toList ≠ [] := List.isEmpty_eq_false_iff.1 h
  have hsome : (atlas.select region).isSome = true := by
    rw [select, Option.isSome_or, Bool.or_eq_true, List.isSome_head?]
    exact .inr hne
  obtain ⟨⟨name, t⟩, heq⟩ := Option.isSome_iff_exists.1 hsome
  exact ⟨name, t, heq⟩

theorem exists_select_eq_some {entries : List (String × StoredNode)} (h : HoldsMap entries)
    (region : String) : ∃ name t, (ofEntries entries).select region = some (name, t) :=
  exists_select_of_isEmpty (isEmpty_ofEntries_eq_false_iff.2 h) region

/-- The map that is chosen is the one of the name for the region. -/
theorem of_select {atlas : Atlas} {region name : String} {t : Terrain}
    (h : atlas.select region = some (name, t)) :
    IsNameFor atlas.keys region name ∧ atlas.get? name = some t := by
  rw [select_eq_find?] at h
  have hmem := List.mem_of_find?_eq_some h
  have hsuits := List.find?_some h
  rw [decide_eq_true_iff] at hsuits
  refine ⟨⟨List.mem_map_of_mem hmem, hsuits, ?_⟩, Table.mem_toList_iff.1 hmem⟩
  intro other hother hsuits
  obtain ⟨e, he, rfl⟩ := List.mem_map.1 hother
  rcases Table.lt_of_find?_toList h he (decide_eq_true hsuits) with rfl | hlt
  · exact List.le_refl _
  · exact List.le_of_lt (Text.compare_eq_lt_iff.1 hlt)

theorem suits_congr {names names' : List String} (h : ∀ n, n ∈ names ↔ n ∈ names')
    {region name : String} : Suits names region name ↔ Suits names' region name := by
  simp only [Suits, h]

theorem IsNameFor.congr {names names' : List String} (h : ∀ n, n ∈ names ↔ n ∈ names')
    {region name : String} (hname : IsNameFor names region name) : IsNameFor names' region name where
  mem := (h name).1 hname.mem
  suits := (suits_congr h).1 hname.suits
  first other hother hsuits := hname.first other ((h other).2 hother) ((suits_congr h).2 hsuits)

/-- In an atlas that maps were put into, the map for a region is the one put last under the name for
it. -/
theorem exists_select_ofList {maps : List (String × Terrain)} (hmaps : maps ≠ []) (region : String) :
    ∃ name t, select (Table.ofList maps) region = some (name, t) ∧
      IsNameFor (maps.map Prod.fst) region name ∧
      (maps.filter fun e => e.1 = name).getLast? = some (name, t) := by
  have hne : (Table.ofList maps).isEmpty = false := by
    rw [Table.isEmpty_ofList, List.isEmpty_eq_false_iff]
    exact hmaps
  obtain ⟨name, t, hselect⟩ := exists_select_of_isEmpty hne region
  obtain ⟨hname, hget⟩ := of_select hselect
  refine ⟨name, t, hselect, hname.congr fun n => Table.mem_keys_ofList_iff, ?_⟩
  rw [Table.get?_ofList, Option.map_eq_some_iff] at hget
  obtain ⟨e, hlast, rfl⟩ := hget
  have hmem := (List.mem_filter.1 (List.mem_of_getLast? hlast)).2
  rw [hlast, ← of_decide_eq_true hmem]

/-- Loading the maps of a folder fails just when no folder in it holds one, and otherwise gives those of
all the folders that do, by the names of these.  In an atlas that maps were put into there is one for
every region: the one put last under the first name, by its bytes, that is like the region's, or under
the first of all names if none is. -/
theorem load_and_select {entries : List (String × StoredNode)} (hnames : (entries.map Prod.fst).Nodup) :
    (load (some (.folder entries)) = .error .noMaps ↔ ∀ name t, ¬ HasMap entries name t) ∧
    ((∃ name t, HasMap entries name t) → ∃ atlas, load (some (.folder entries)) = .ok atlas ∧
      ∀ name t, atlas.get? name = some t ↔ HasMap entries name t) ∧
    ∀ maps : List (String × Terrain), maps ≠ [] → ∀ region, ∃ name t,
      select (Table.ofList maps) region = some (name, t) ∧ IsNameFor (maps.map Prod.fst) region name ∧
      (maps.filter fun e => e.1 = name).getLast? = some (name, t) := by
  refine ⟨⟨fun hload name t h => ?_, fun hnone => ?_⟩, fun hsome => ?_, fun maps hmaps region =>
    exists_select_ofList hmaps region⟩
  · rw [load_folder_of_holdsMap (holdsMap_iff.2 ⟨name, t, h⟩)] at hload
    cases hload
  · refine load_folder_of_not_holdsMap fun h => ?_
    obtain ⟨name, t, ht⟩ := holdsMap_iff.1 h
    exact hnone name t ht
  · exact ⟨ofEntries entries, load_folder_of_holdsMap (holdsMap_iff.2 hsome),
      fun _ _ => get?_ofEntries_eq_some_iff hnames⟩

/-- A folder with the files of the terrace. -/
def terraceFolder : List (String × StoredNode) :=
  MapFile.all.filterMap fun part => (Terrain.terrace part).map (part.fileName, ·)

/-- A file, a folder with a layout that is no text, one with a folder in place of the layout, and two
terraces. -/
def shelf : List (String × StoredNode) :=
  [("notes.txt", .file []), ("broken", .folder (("map.json", .file [0xFF]) :: terraceFolder)),
    ("meadow", .folder terraceFolder), ("odd", .folder (("map.json", .folder []) :: terraceFolder)),
    ("Meadow", .folder terraceFolder)]

theorem exists_isMap_terraceFolder : ∃ t, IsMap terraceFolder t := by
  obtain ⟨t, ht, -⟩ := Terrain.exists_load_terrace
  have hfiles : (fun part => StoredNode.child? part.fileName terraceFolder) = Terrain.terrace := by
    funext part
    cases part <;> rfl
  refine ⟨t, fun part => ?_, hfiles ▸ ht⟩
  rw [show StoredNode.child? part.fileName terraceFolder = Terrain.terrace part from congrFun hfiles part]
  cases part <;> exact ⟨_, rfl⟩

theorem load_and_select_shelf :
    ∃ atlas t, load (some (.folder shelf)) = .ok atlas ∧ atlas.get? "meadow" = some t ∧
      (∀ t', atlas.get? "broken" ≠ some t') ∧ (∀ t', atlas.get? "odd" ≠ some t') ∧
      ∀ small large : Terrain, select (Table.ofList [("meadow", small), ("Meadow", small),
        ("Alpha", small), ("Meadow", large)]) "MEADOW" = some ("Meadow", large) := by
  obtain ⟨t, ht⟩ := exists_isMap_terraceFolder
  have hmeadow : HasMap shelf "meadow" t := hasMap_iff.2 ⟨terraceFolder, by simp [shelf], ht⟩
  obtain ⟨-, hsome, hchoose⟩ := @load_and_select shelf (by decide)
  obtain ⟨atlas, hload, hget⟩ := hsome ⟨"meadow", t, hmeadow⟩
  refine ⟨atlas, t, hload, (hget _ _).2 hmeadow, fun t' h => ?_, fun t' h => ?_, fun small large => ?_⟩
  · obtain ⟨inner, hmem, hmap⟩ := hasMap_iff.1 ((hget _ _).1 h)
    obtain rfl : inner = ("map.json", .file [0xFF]) :: terraceFolder := by simpa [shelf] using hmem
    rw [← mapIn?_eq_some_iff, show mapIn? _ = none by decide +kernel] at hmap
    cases hmap
  · obtain ⟨inner, hmem, hmap⟩ := hasMap_iff.1 ((hget _ _).1 h)
    obtain rfl : inner = ("map.json", .folder []) :: terraceFolder := by simpa [shelf] using hmem
    rw [← mapIn?_eq_some_iff, show mapIn? _ = none by decide +kernel] at hmap
    cases hmap
  · obtain ⟨name, t', hselect, hname, hlast⟩ := hchoose
      [("meadow", small), ("Meadow", small), ("Alpha", small), ("Meadow", large)] (by simp) "MEADOW"
    have hmem : name = "meadow" ∨ name = "Meadow" ∨ name = "Alpha" ∨ name = "Meadow" := by
      simpa using hname.mem
    obtain rfl : name = "Meadow" := by
      rcases hmem with rfl | rfl | rfl | rfl
      · exact absurd (hname.first "Meadow" (by simp) (.inl (by decide))) (by decide)
      · rfl
      · rcases hname.suits with hlike | hnone
        · exact absurd hlike (by decide)
        · exact absurd (hnone "meadow" (by simp)) (by decide)
      · rfl
    obtain rfl : large = t' := by simpa using hlast
    exact hselect

end Atlas

end TileRealm
