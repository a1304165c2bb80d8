import TileRealm.Proofs.Json.Record
import TileRealm.Proofs.Table
import TileRealm.Terrain.Document

/-!
# What map documents say

Three documents are a map if each of them can be read (`Terrain.load_eq_ok_iff`).  Where their records
repeat a position or an id, the last one counts: it says what stands on a tile, where a teleport leads
and what an id means, and what no record says is no obstacle (`Terrain.last_records_of_load`).
-/

namespace TileRealm

/-! ### Records -/

namespace Json

/-- The text in a field of a record. -/
def textIn? (name : String) (place : Nat) (v : Json) : Option String := (v.field? [name] place).bind text?

/-- The number in a field of a record. -/
def int32In? (name : String) (place : Nat) (v : Json) : Option Int32 :=
  (v.field? [name] place).bind int32?

/-- The tile that a record is about. -/
def position? (v : Json) : Option Tile := do
  return ⟨← v.int32In? "x" 0, ← v.int32In? "y" 1⟩

/-- Where the teleport of a record leads. -/
def destination? (v : Json) : Option Teleport := do
  return ⟨← v.textIn? "targetRegion" 2, ← v.int32In? "targetX" 3, ← v.int32In? "targetY" 4⟩

/-- The records in a list that may be missing. -/
def records (v : Option Json) : List Json := v.elim [] items

theorem forall₂_records {α : Type} {item : Json → Option α} {v : Option Json} {xs : List α}
    (h : optional (list? item) [] v = some xs) :
    List.Forall₂ (fun v x => item v = some x) (records v) xs := by
  cases v with
  | none =>
    cases h
    exact .nil
  | some v => exact forall₂_of_list? h

theorem forall₂_records_of_nullable {α : Type} {item : Json → Option α} {v : Option Json}
    {xs : Option (List α)} (h : optional (nullable? (list? item)) none v = some xs) :
    List.Forall₂ (fun v x => item v = some x) (records v) (xs.getD []) := by
  cases v with
  | none =>
    cases h
    exact .nil
  | some v =>
    change nullable? (list? item) v = some xs at h
    unfold nullable? at h
    split at h
    next =>
      cases h
      exact .nil
    next =>
      obtain ⟨xs, hxs, rfl⟩ := Option.map_eq_some_iff.1 h
      exact forall₂_of_list? hxs

/-- A truth value is other than the one of a missing field just when the field says so. -/
theorem eq_iff_of_optional_bool? {a b : Bool} {v : Option Json}
    (h : optional bool? (!a) v = some b) : b = a ↔ v = some (.bool a) := by
  cases v with
  | none =>
    cases h
    simp
  | some v =>
    cases v with
    | bool c =>
      cases h
      simp
    | _ => cases h

end Json

namespace Layout

theorem of_placed? {idName : String} {v : Json} {e : Tile × String} (h : placed? idName v = some e) :
    v.position? = some e.1 ∧ v.textIn? idName 2 = some e.2 := by
  unfold placed? at h
  obtain ⟨vs, hvs, h⟩ := Option.bind_eq_some_iff.1 h
  obtain rfl : vs = [v.field? ["x"] 0, v.field? ["y"] 1, v.field? [idName] 2] := Json.eq_of_fields? hvs
  obtain ⟨x, hx, h⟩ := Option.bind_eq_some_iff.1 h
  obtain ⟨y, hy, h⟩ := Option.bind_eq_some_iff.1 h
  obtain ⟨id, hid, h⟩ := Option.bind_eq_some_iff.1 h
  cases h
  exact ⟨Option.bind_eq_some_iff.2 ⟨x, hx, Option.bind_eq_some_iff.2 ⟨y, hy, rfl⟩⟩, hid⟩

theorem of_teleport? {v : Json} {e : Tile × Teleport} (h : teleport? v = some e) :
    v.position? = some e.1 ∧ v.destination? = some e.2 := by
  unfold teleport? at h
  obtain ⟨vs, hvs, h⟩ := Option.bind_eq_some_iff.1 h
  obtain rfl : vs = [v.field? ["x"] 0, v.field? ["y"] 1, v.field? ["targetRegion"] 2,
    v.field? ["targetX"] 3, v.field? ["targetY"] 4] := Json.eq_of_fields? hvs
  obtain ⟨x, hx, h⟩ := Option.bind_eq_some_iff.1 h
  obtain ⟨y, hy, h⟩ := Option.bind_eq_some_iff.1 h
  obtain ⟨region, hregion, h⟩ := Option.bind_eq_some_iff.1 h
  obtain ⟨targetX, htx, h⟩ := Option.bind_eq_some_iff.1 h
  obtain ⟨targetY, hty, h⟩ := Option.bind_eq_some_iff.1 h
  cases h
  constructor
  · exact Option.bind_eq_some_iff.2 ⟨x, hx, Option.bind_eq_some_iff.2 ⟨y, hy, rfl⟩⟩
  · exact Option.bind_eq_some_iff.2 ⟨region, hregion, Option.bind_eq_some_iff.2
      ⟨targetX, htx, Option.bind_eq_some_iff.2 ⟨targetY, hty, rfl⟩⟩⟩

/-- The lists of a layout are read record by record. -/
theorem of_ofJson? {v : Json} {l : Layout} (h : ofJson? v = some l) :
    List.Forall₂ (fun v e => placed? "tileId" v = some e) (Json.records (v.field? ["tiles"] 2))
      l.tiles ∧
    List.Forall₂ (fun v e => placed? "objectId" v = some e) (Json.records (v.field? ["objects"] 3))
      l.objects ∧
    List.Forall₂ (fun v e => teleport? v = some e) (Json.records (v.field? ["teleports"] 4))
      l.teleports := by
  unfold ofJson? at h
  obtain ⟨vs, hvs, h⟩ := Option.bind_eq_some_iff.1 h
  obtain rfl : vs = [v.field? ["width"] 0, v.field? ["height"] 1, v.field? ["tiles"] 2,
    v.field? ["objects"] 3, v.field? ["teleports"] 4] := Json.eq_of_fields? hvs
  obtain ⟨width, -, h⟩ := Option.bind_eq_some_iff.1 h
  obtain ⟨height, -, h⟩ := Option.bind_eq_some_iff.1 h
  obtain ⟨tiles, htiles, h⟩ := Option.bind_eq_some_iff.1 h
  obtain ⟨objects, hobjects, h⟩ := Option.bind_eq_some_iff.1 h
  obtain ⟨teleports, hteleports, h⟩ := Option.bind_eq_some_iff.1 h
  cases h
  exact ⟨Json.forall₂_records htiles, Json.forall₂_records hobjects,
    Json.forall₂_records_of_nullable hteleports⟩

end Layout

theorem TileKind.of_ofJson? {v : Json} {k : TileKind} (h : ofJson? v = some k) :
    v.textIn? "tileId" 0 = some k.id ∧
      (k.walkable = false ↔ v.field? ["isWalkable"] 2 = some (.bool false)) := by
  unfold ofJson? at h
  obtain ⟨vs, hvs, h⟩ := Option.bind_eq_some_iff.1 h
  obtain rfl : vs = [v.field? ["tileId"] 0, v.field? ["name", "nome"] 1, v.field? ["isWalkable"] 2,
    v.field? ["blocksVision"] 3] := Json.eq_of_fields? hvs
  obtain ⟨id, hid, h⟩ := Option.bind_eq_some_iff.1 h
  obtain ⟨name, -, h⟩ := Option.bind_eq_some_iff.1 h
  obtain ⟨walkable, hwalkable, h⟩ := Option.bind_eq_some_iff.1 h
  obtain ⟨blocksVision, -, h⟩ := Option.bind_eq_some_iff.1 h
  cases h
  exact ⟨hid, Json.eq_iff_of_optional_bool? hwalkable⟩

theorem ObjectKind.of_ofJson? {v : Json} {k : ObjectKind} (h : ofJson? v = some k) :
    v.textIn? "objectId" 0 = some k.id ∧
      (k.blocksMovement = true ↔ v.field? ["blocksMovement"] 2 = some (.bool true)) := by
  unfold ofJson? at h
  obtain ⟨vs, hvs, h⟩ := Option.bind_eq_some_iff.1 h
  obtain rfl : vs = [v.field? ["objectId"] 0, v.field? ["name", "nome"] 1,
    v.field? ["blocksMovement"] 2, v.field? ["interactable"] 3] := Json.eq_of_fields? hvs
  obtain ⟨id, hid, h⟩ := Option.bind_eq_some_iff.1 h
  obtain ⟨name, -, h⟩ := Option.bind_eq_some_iff.1 h
  obtain ⟨blocksMovement, hblocks, h⟩ := Option.bind_eq_some_iff.1 h
  obtain ⟨interactable, -, h⟩ := Option.bind_eq_some_iff.1 h
  cases h
  exact ⟨hid, Json.eq_iff_of_optional_bool? hblocks⟩

/-! ### The three documents -/

/-- The documents of a map. -/
structure MapDocuments where
  layout : Json
  tileKinds : Json
  objectKinds : Json

namespace MapDocuments

/-- The document of a part. -/
def part (d : MapDocuments) : MapFile → Json
  | .layout => d.layout
  | .tileKinds => d.tileKinds
  | .objectKinds => d.objectKinds

/-- Whether these are the documents in some files. -/
def StoredIn (d : MapDocuments) (files : MapFile → Option StoredNode) : Prop :=
  ∀ part, ∃ text, files part = some (.file (Text.utf8 text)) ∧ Json.parse text = some (d.part part)

/-- Whether the documents can be read, as those of a certain map. -/
def Describe (d : MapDocuments) (t : Terrain) : Prop :=
  ∃ l tileKinds objectKinds, Layout.ofJson? d.layout = some l ∧
    Json.list? TileKind.ofJson? d.tileKinds = some tileKinds ∧
    Json.list? ObjectKind.ofJson? d.objectKinds = some objectKinds ∧
    t = Terrain.ofLayout l tileKinds objectKinds

/-- The records of what stands on tiles. -/
def tiles (d : MapDocuments) : List Json := Json.records (d.layout.field? ["tiles"] 2)

/-- The records of objects. -/
def objects (d : MapDocuments) : List Json := Json.records (d.layout.field? ["objects"] 3)

/-- The records of teleports. -/
def teleports (d : MapDocuments) : List Json := Json.records (d.layout.field? ["teleports"] 4)

/-- The last of some records about a tile. -/
def lastAt (p : Tile) (vs : List Json) : Option Json :=
  (vs.filter fun v => v.position? = some p).getLast?

/-- The last of some records with an id. -/
def lastOf (idName id : String) (vs : List Json) : Option Json :=
  (vs.filter fun v => v.textIn? idName 0 = some id).getLast?

/-- Whether the last record about a tile has an id, and the last record of that id a certain answer
to a question. -/
def Answers (places kinds : List Json) (idName question : String) (answer : Bool) (p : Tile) : Prop :=
  ∃ id, (∃ v, lastAt p places = some v ∧ v.textIn? idName 2 = some id) ∧
    ∃ k, lastOf idName id kinds = some k ∧ k.field? [question] 2 = some (.bool answer)

/-- Whether the documents put an object on a tile that blocks movement. -/
def ObjectBlocks (d : MapDocuments) (p : Tile) : Prop :=
  Answers d.objects d.objectKinds.items "objectId" "blocksMovement" true p

/-- Whether the documents put on a tile what is not walkable. -/
def TileBlocks (d : MapDocuments) (p : Tile) : Prop :=
  Answers d.tiles d.tileKinds.items "tileId" "isWalkable" false p

/-- The different tiles that some records are about. -/
def positions (vs : List Json) : Finset Tile := (vs.filterMap Json.position?).toFinset

end MapDocuments

namespace Terrain

theorem readText_eq_ok_iff {node : Option StoredNode} {text : String} :
    StoredNode.readText node = .ok text ↔ node = some (.file (Text.utf8 text)) := by
  cases node with
  | none => simp [StoredNode.readText]
  | some node =>
    cases node with
    | folder => simp [StoredNode.readText]
    | file content =>
      simp only [StoredNode.readText, Option.some.injEq, StoredNode.file.injEq,
        ← Text.ofUtf8?_eq_some_iff]
      cases Text.ofUtf8? content with
      | none => simp
      | some s => simp

theorem readPart_eq_ok_iff {α : Type} {files : MapFile → Option StoredNode} {part : MapFile}
    {ofJson? : Json → Option α} {a : α} :
    readPart files part ofJson? = .ok a ↔ ∃ v, (∃ text, files part = some (.file (Text.utf8 text)) ∧
      Json.parse text = some v) ∧ ofJson? v = some a := by
  unfold readPart
  constructor
  · intro h
    split at h
    next => cases h
    next text htext =>
      split at h
      next b hb =>
        cases h
        obtain ⟨v, hv, hread⟩ := Option.bind_eq_some_iff.1 hb
        exact ⟨v, ⟨text, readText_eq_ok_iff.1 htext, hv⟩, hread⟩
      next => cases h
  · rintro ⟨v, ⟨text, htext, hv⟩, hread⟩
    simp only [readText_eq_ok_iff.2 htext, hv, Option.bind_some, hread]

theorem ok_bind_iff {ε α β : Type} {x : Except ε α} {f : α → Except ε β} {b : β} :
    (x >>= f) = .ok b ↔ ∃ a, x = .ok a ∧ f a = .ok b := by
  cases x with
  | error => simp [bind, Except.bind]
  | ok => simp [bind, Except.bind]

/-- A result of which something is known. -/
theorem exists_ok_of_look {ε α β : Type} {x : Except ε α} (look : α → β) {b : β}
    (h : x.toOption.map look = some b) : ∃ a, x = .ok a ∧ look a = b := by
  cases x with
  | error => cases h
  | ok a => exact ⟨a, rfl, Option.some.inj h⟩

/-- Three files are a map just when there is a document in each of them, and each can be read. -/
theorem load_eq_ok_iff {files : MapFile → Option StoredNode} {t : Terrain} :
    load files = .ok t ↔ ∃ d : MapDocuments, d.StoredIn files ∧ d.Describe t := by
  unfold load
  simp only [ok_bind_iff, readPart_eq_ok_iff]
  constructor
  · rintro ⟨l, ⟨layout, hlayout, hl⟩, tileKinds, ⟨ts, hts, ht⟩, objectKinds, ⟨os, hos, ho⟩, hload⟩
    cases hload
    refine ⟨⟨layout, ts, os⟩, fun part => ?_, l, tileKinds, objectKinds, hl, ht, ho, rfl⟩
    cases part with
    | layout => exact hlayout
    | tileKinds => exact hts
    | objectKinds => exact hos
  · rintro ⟨d, hstored, l, tileKinds, objectKinds, hl, ht, ho, rfl⟩
    exact ⟨l, ⟨d.layout, hstored .layout, hl⟩, tileKinds, ⟨d.tileKinds, hstored .tileKinds, ht⟩,
      objectKinds, ⟨d.objectKinds, hstored .objectKinds, ho⟩, rfl⟩

/-! ### The last record counts -/

section Last

variable {α β : Type} {R : α → β → Prop} {p : α → Bool} {q : β → Bool} {xs : List α} {ys : List β}

theorem rel_getLast?_filter (h : List.Forall₂ R xs ys) (hpq : ∀ x y, R x y → (p x = true ↔ q y = true)) :
    Option.Rel R (xs.filter p).getLast? (ys.filter q).getLast? := by
  have hfilter : List.Forall₂ R (xs.filter p) (ys.filter q) :=
    List.rel_filter (fun {x y} hR => hpq x y hR) h
  have hreverse := List.forall₂_reverse_iff.2 hfilter
  rw [← List.head?_reverse, ← List.head?_reverse]
  generalize (xs.filter p).reverse = as at hreverse ⊢
  generalize (ys.filter q).reverse = bs at hreverse ⊢
  cases hreverse with
  | nil => exact .none
  | cons hR _ => exact .some hR

/-- The last of some records with a property has another one if that is so of what they are read
as. -/
theorem exists_last_iff {P : α → Prop} {Q : β → Prop} (h : List.Forall₂ R xs ys)
    (hpq : ∀ x y, R x y → (p x = true ↔ q y = true)) (hPQ : ∀ x y, R x y → (P x ↔ Q y)) :
    (∃ x, (xs.filter p).getLast? = some x ∧ P x) ↔ ∃ y, (ys.filter q).getLast? = some y ∧ Q y := by
  have hrel := rel_getLast?_filter h hpq
  generalize (xs.filter p).getLast? = a at hrel ⊢
  generalize (ys.filter q).getLast? = b at hrel ⊢
  cases hrel with
  | none => simp
  | some hR => simpa using hPQ _ _ hR

end Last

section Describe

variable {idName : String} {vs : List Json}

/-- What a table of the records about tiles has for a tile is what the last of them says. -/
theorem get?_ofList_eq_some_iff_lastAt {α : Type} {value : Json → Option α} {es : List (Tile × α)}
    (h : List.Forall₂ (fun v e => v.position? = some e.1 ∧ value v = some e.2) vs es) {p : Tile} {a : α} :
    (Table.ofList es).get? p = some a ↔ ∃ v, MapDocuments.lastAt p vs = some v ∧ value v = some a := by
  rw [Table.get?_ofList, Option.map_eq_some_iff]
  refine (exists_last_iff h ?_ ?_).symm
  · rintro v e ⟨hpos, -⟩
    simp [hpos]
  · rintro v e ⟨-, hvalue⟩
    rw [hvalue, Option.some.injEq]

/-- What a table of the records of ids has for an id has a property if the last of them says so. -/
theorem exists_get?_ofList_iff_lastOf {α : Type} {id : α → String} {P : Json → Prop} {Q : α → Prop}
    {ks : List α}
    (h : List.Forall₂ (fun v k => v.textIn? idName 0 = some (id k) ∧ (Q k ↔ P v)) vs ks) {i : String} :
    (∃ k, (Table.ofList (ks.map fun k => (id k, k))).get? i = some k ∧ Q k) ↔
      ∃ v, MapDocuments.lastOf idName i vs = some v ∧ P v := by
  have hpairs : List.Forall₂ (fun v e => v.textIn? idName 0 = some e.1 ∧ (Q e.2 ↔ P v)) vs
      (ks.map fun k => (id k, k)) := List.forall₂_map_right_iff.2 h
  rw [Table.get?_ofList]
  simp only [Option.map_eq_some_iff, exists_exists_and_eq_and]
  refine (exists_last_iff hpairs ?_ ?_).symm
  · rintro v e ⟨hid, -⟩
    simp [hid]
  · rintro v e ⟨-, hrecords⟩
    exact hrecords.symm

/-- There is one entry for each tile that a record is about. -/
theorem size_ofList_records {α : Type} {value : Json → Option α} {es : List (Tile × α)}
    (h : List.Forall₂ (fun v e => v.position? = some e.1 ∧ value v = some e.2) vs es) :
    (Table.ofList es).size = (MapDocuments.positions vs).card := by
  have hpositions : vs.filterMap Json.position? = es.map Prod.fst := by
    induction h with
    | nil => rfl
    | cons he _ ih => rw [List.filterMap_cons_some he.1, ih, List.map_cons]
  rw [Table.size_ofList, MapDocuments.positions, hpositions]

/-- What stands in the way on a tile is what the last record about it and the last one of its id say. -/
theorem any_bind_get?_iff_answers {α : Type} {es : List (Tile × String)} {ws : List Json} {ks : List α}
    {id : α → String} {f : α → Bool} {question : String} {answer : Bool} {p : Tile}
    (hplaces : List.Forall₂ (fun v e => v.position? = some e.1 ∧ v.textIn? idName 2 = some e.2) vs es)
    (hkinds : List.Forall₂ (fun v k => v.textIn? idName 0 = some (id k) ∧
      (f k = true ↔ v.field? [question] 2 = some (.bool answer))) ws ks) :
    (((Table.ofList es).get? p).bind (Table.ofList (ks.map fun k => (id k, k))).get?).any f = true ↔
      MapDocuments.Answers vs ws idName question answer p := by
  unfold MapDocuments.Answers
  simp only [Option.any_eq_true, Option.bind_eq_some_iff, ← get?_ofList_eq_some_iff_lastAt hplaces,
    ← exists_get?_ofList_iff_lastOf hkinds]
  constructor
  · rintro ⟨k, ⟨i, hi, hk⟩, hf⟩
    exact ⟨i, hi, k, hk, hf⟩
  · rintro ⟨i, hi, k, hk, hf⟩
    exact ⟨k, ⟨i, hi, hk⟩, hf⟩

end Describe

section Described

variable {d : MapDocuments} {t : Terrain}

theorem objectBlocks_iff (h : d.Describe t) (p : Tile) :
    t.objectBlocks p = true ↔ d.ObjectBlocks p := by
  obtain ⟨l, tileKinds, objectKinds, hl, -, hos, rfl⟩ := h
  obtain ⟨-, hobjects, -⟩ := Layout.of_ofJson? hl
  exact any_bind_get?_iff_answers (hobjects.imp fun _ _ => Layout.of_placed?)
    ((Json.forall₂_of_list? hos).imp fun _ _ => ObjectKind.of_ofJson?)

theorem tileBlocks_iff (h : d.Describe t) (p : Tile) : t.tileBlocks p = true ↔ d.TileBlocks p := by
  obtain ⟨l, tileKinds, objectKinds, hl, hts, -, rfl⟩ := h
  obtain ⟨htiles, -, -⟩ := Layout.of_ofJson? hl
  refine any_bind_get?_iff_answers (htiles.imp fun _ _ => Layout.of_placed?)
    ((Json.forall₂_of_list? hts).imp fun v k hk => ?_)
  obtain ⟨hid, hwalkable⟩ := TileKind.of_ofJson? hk
  exact ⟨hid, by rw [← hwalkable, Bool.not_eq_true']⟩

theorem get?_teleports_eq_some_iff (h : d.Describe t) (p : Tile) (teleport : Teleport) :
    t.teleports.get? p = some teleport ↔
      ∃ v, MapDocuments.lastAt p d.teleports = some v ∧ v.destination? = some teleport := by
  obtain ⟨l, tileKinds, objectKinds, hl, -, -, rfl⟩ := h
  obtain ⟨-, -, hteleports⟩ := Layout.of_ofJson? hl
  exact get?_ofList_eq_some_iff_lastAt (hteleports.imp fun _ _ => Layout.of_teleport?)

theorem sizes_eq (h : d.Describe t) :
    t.tiles.size = (MapDocuments.positions d.tiles).card ∧
      t.objects.size = (MapDocuments.positions d.objects).card ∧
      t.teleports.size = (MapDocuments.positions d.teleports).card := by
  obtain ⟨l, tileKinds, objectKinds, hl, -, -, rfl⟩ := h
  obtain ⟨htiles, hobjects, hteleports⟩ := Layout.of_ofJson? hl
  exact ⟨size_ofList_records (htiles.imp fun _ _ => Layout.of_placed?),
    size_ofList_records (hobjects.imp fun _ _ => Layout.of_placed?),
    size_ofList_records (hteleports.imp fun _ _ => Layout.of_teleport?)⟩

end Described

/-- A map that was loaded is what the last records of its documents say.  One can stand on a tile unless
the last object there is of a kind that blocks movement, or what is there last of a kind that is not
walkable; a teleport leads where the last record there says; and there are as many entries as tiles that
records are about. -/
theorem last_records_of_load {files : MapFile → Option StoredNode} {t : Terrain} (h : load files = .ok t) :
    ∃ d : MapDocuments, d.StoredIn files ∧
      (∀ p, (t.walkable p = true ↔ ¬ d.ObjectBlocks p ∧ ¬ d.TileBlocks p) ∧
        ∀ teleport, t.teleports.get? p = some teleport ↔
          ∃ v, MapDocuments.lastAt p d.teleports = some v ∧ v.destination? = some teleport) ∧
      t.tiles.size = (MapDocuments.positions d.tiles).card ∧
      t.objects.size = (MapDocuments.positions d.objects).card ∧
      t.teleports.size = (MapDocuments.positions d.teleports).card := by
  obtain ⟨d, hstored, hd⟩ := load_eq_ok_iff.1 h
  refine ⟨d, hstored, fun p => ⟨?_, get?_teleports_eq_some_iff hd p⟩, sizes_eq hd⟩
  rw [← objectBlocks_iff hd, ← tileBlocks_iff hd]
  simp [walkable]

/-- Water is walkable and then not, and a tree blocks movement and then does not.  On one tile there is
water and then mud, a teleport leads to the attic and then to the cave, and nothing is known of the
ghost. -/
def terrace : MapFile → Option StoredNode
  | .layout => some <| .file <| Text.utf8 <|
    "\x7b\"width\":4,\"height\":3,\"tiles\":[[1,1,\"water\"],[2,1,\"water\"]," ++
      "\x7b\"y\":1,\"x\":2,\"tileId\":\"mud\"\x7d],\"objects\":[[0,2,\"tree\"],[3,0,\"ghost\"]]," ++
      "\"teleports\":[[0,0,\"attic\",1,1],[0,0,\"cave\",-3,4]]\x7d"
  | .tileKinds => some <| .file <| Text.utf8 <|
    "[[\"water\"],[\"mud\"],\x7b\"tileId\":\"water\",\"isWalkable\":false\x7d]"
  | .objectKinds => some <| .file <| Text.utf8 <|
    "[\x7b\"objectId\":\"tree\",\"blocksMovement\":true\x7d,[\"tree\"]]"

theorem exists_load_terrace :
    ∃ t, load terrace = .ok t ∧
      (t.walkable ⟨1, 1⟩, [⟨2, 1⟩, ⟨0, 2⟩, ⟨3, 0⟩].all t.walkable, t.teleports.get? ⟨0, 0⟩,
        t.tiles.size, t.objects.size, t.teleports.size) =
      (false, true, some ⟨"cave", ⟨-3, 4⟩⟩, 2, 2, 1) :=
  exists_ok_of_look _ (by decide +kernel)

theorem last_records_of_load_terrace :
    ∃ t d, load terrace = .ok t ∧ MapDocuments.StoredIn d terrace ∧
      (d.ObjectBlocks ⟨1, 1⟩ ∨ d.TileBlocks ⟨1, 1⟩) ∧
      (∀ p ∈ [⟨2, 1⟩, ⟨0, 2⟩, ⟨3, 0⟩], ¬ d.ObjectBlocks p ∧ ¬ d.TileBlocks p) ∧
      (∃ v, MapDocuments.lastAt ⟨0, 0⟩ d.teleports = some v ∧
        v.destination? = some ⟨"cave", ⟨-3, 4⟩⟩) ∧
      (MapDocuments.positions d.tiles).card = 2 ∧ (MapDocuments.positions d.objects).card = 2 ∧
      (MapDocuments.positions d.teleports).card = 1 := by
  obtain ⟨t, ht, hlook⟩ := exists_load_terrace
  simp only [Prod.mk.injEq, List.all_eq_true] at hlook
  obtain ⟨hwater, hfree, hcave, htiles, hobjects, hteleports⟩ := hlook
  obtain ⟨d, hstored, hrecords, htiles', hobjects', hteleports'⟩ := last_records_of_load ht
  refine ⟨t, d, ht, hstored, ?_, fun p hp => (hrecords p).1.1 (hfree p hp), ((hrecords _).2 _).1 hcave,
    htiles'.symm.trans htiles, hobjects'.symm.trans hobjects, hteleports'.symm.trans hteleports⟩
  by_contra hnone
  rw [(hrecords ⟨1, 1⟩).1.2 (not_or.1 hnone)] at hwater
  cases hwater

end Terrain

end TileRealm
