import TileRealm.Proofs.Player.Handoff
import TileRealm.Proofs.Player.Replay
import TileRealm.Proofs.Realm.Near

/-!
# What players are told of neighbours

A wish to be on a tile has the player told of the neighbours near that tile
(`Session.contains_ghosts_approached_iff`), and what the player is told is just what takes a
client from the neighbours before to those after it (`Session.replay_hints`).  So a client that
keeps to the messages knows exactly the neighbours of its session at any time
(`World.replays_of_run`).
-/

namespace TileRealm

namespace Endpoint

/-- An endpoint as players are told of it. -/
def told (e : Endpoint) : String × Int32 := (e.host, Int32.ofNat e.port.toNat)

theorem told_injective : Function.Injective told := by
  rintro ⟨host, port⟩ ⟨host', port'⟩ h
  obtain ⟨rfl, hport⟩ := Prod.mk.inj h
  have hlt := port.toNat_lt
  have hlt' := port'.toNat_lt
  have hint : (Int32.ofNat port.toNat).toInt = (Int32.ofNat port'.toNat).toInt :=
    congrArg Int32.toInt hport
  rw [Int32.toInt_ofNat_of_lt (by omega), Int32.toInt_ofNat_of_lt (by omega)] at hint
  have hnat : port.toNat = port'.toNat := by omega
  rw [UInt16.toNat_inj.1 hnat]

end Endpoint

namespace Session

open ServerMessage

/-! ### Neighbours that are entered and left -/

section Told

variable {known : Known} {gs : List (String × Endpoint)}

theorem replay_map_enterMessage (known : Known) (gs : List (String × Endpoint)) :
    replay known (gs.map fun g => enterMessage g.1 g.2) =
      known.insertAll (gs.map fun g => (g.1, g.2.told)) := by
  rw [replay, Table.insertAll, List.foldl_map, List.foldl_map]
  rfl

theorem replay_map_leaveMessage (known : Known) (gs : List (String × Endpoint)) :
    replay known (gs.map fun g => leaveMessage g.1 g.2) = (gs.map Prod.fst).foldl .erase known := by
  rw [replay, List.foldl_map, List.foldl_map]
  rfl

theorem coherent_map_enterMessage (hgs : (gs.map Prod.fst).Nodup)
    (h : ∀ g ∈ gs, known.get? g.1 = none) :
    Coherent known (gs.map fun g => enterMessage g.1 g.2) := by
  induction gs generalizing known with
  | nil => trivial
  | cons g gs ih =>
    rw [List.map_cons, List.nodup_cons] at hgs
    refine ⟨h g List.mem_cons_self, ih hgs.2 fun g' hg' => ?_⟩
    have hne : g'.1 ≠ g.1 := fun heq => hgs.1 (heq ▸ List.mem_map_of_mem hg')
    exact (Table.get?_insert_of_ne hne _).trans (h g' (List.mem_cons_of_mem _ hg'))

theorem coherent_map_leaveMessage (hgs : (gs.map Prod.fst).Nodup)
    (h : ∀ g ∈ gs, known.get? g.1 = some g.2.told) :
    Coherent known (gs.map fun g => leaveMessage g.1 g.2) := by
  induction gs generalizing known with
  | nil => trivial
  | cons g gs ih =>
    rw [List.map_cons, List.nodup_cons] at hgs
    refine ⟨h g List.mem_cons_self, ih hgs.2 fun g' hg' => ?_⟩
    have hne : g'.1 ≠ g.1 := fun heq => hgs.1 (heq ▸ List.mem_map_of_mem hg')
    exact (Table.get?_erase ..).trans ((if_neg hne).trans (h g' (List.mem_cons_of_mem _ hg')))

end Told

/-! ### Neighbours near a tile -/

section Near

variable {scene : Scene} {s : Session} {t : Tile} {region : String}

/-- The neighbours that a player is told of after a wish, as far as they are known. -/
def nearGhosts (scene : Scene) (s : Session) (t : Tile) : List (String × Endpoint) :=
  s.ghostsNear (scene.shard.neighborsNear scene.book t s.ghostWidth)

/-- The neighbours that a wish has the player told of for the first time. -/
def entered (scene : Scene) (s : Session) (t : Tile) : List (String × Endpoint) :=
  (s.nearGhosts scene t).filter fun g => !s.ghosts.contains g.1

/-- The neighbours that a wish has taken back. -/
def left (scene : Scene) (s : Session) (t : Tile) : List (String × Endpoint) :=
  s.ghosts.toList.filter fun g => !(s.approached scene t).ghosts.contains g.1

theorem nearGhosts_noteArrival (scene : Scene) (s : Session) (t : Tile) :
    (s.noteArrival scene.now t).nearGhosts scene t = s.nearGhosts scene t := by
  simp only [nearGhosts, ghostsNear, ghosts_noteArrival, ghostWidth_noteArrival]

theorem ghosts_approached (scene : Scene) (s : Session) (t : Tile) :
    (s.approached scene t).ghosts = .ofList (s.nearGhosts scene t) := by
  rw [← nearGhosts_noteArrival]
  rfl

theorem hints_eq (scene : Scene) (s : Session) (t : Tile) :
    s.hints scene t = (s.entered scene t).map (fun g => enterMessage g.1 g.2) ++
      (s.left scene t).map fun g => leaveMessage g.1 g.2 := by
  rw [entered, left, ghosts_approached, ← nearGhosts_noteArrival, ← ghosts_noteArrival s scene.now t]
  rfl

theorem mem_nearGhosts_iff {e : Endpoint} :
    (region, e) ∈ s.nearGhosts scene t ↔
      ∃ c ∈ scene.shard.neighborsNear scene.book t s.ghostWidth, c.region = region ∧
        (s.ghosts.get? region).or (scene.book.resolve region) = some e := by
  rw [nearGhosts, ghostsNear, List.mem_filterMap]
  refine exists_congr fun c => and_congr_right fun hc => ?_
  rw [Shard.endpoint_of_mem_neighborsNear _ _ _ _ hc, Option.map_eq_some_iff]
  constructor
  · rintro ⟨e', he', heq⟩
    cases heq
    exact ⟨rfl, he'⟩
  · rintro ⟨rfl, he⟩
    exact ⟨e, he, rfl⟩

theorem nodup_nearGhosts (scene : Scene) (s : Session) (t : Tile) :
    ((s.nearGhosts scene t).map Prod.fst).Nodup := by
  rw [nearGhosts, ghostsNear]
  refine List.pairwise_map.2 (List.Pairwise.filterMap _ ?_
    (Shard.pairwise_neighborsNear scene.shard scene.book t s.ghostWidth))
  intro c d hne g hg g' hg'
  obtain ⟨e, -, rfl⟩ := Option.map_eq_some_iff.1 hg
  obtain ⟨e', -, rfl⟩ := Option.map_eq_some_iff.1 hg'
  exact hne

theorem get?_ghosts_approached_iff {e : Endpoint} :
    (s.approached scene t).ghosts.get? region = some e ↔
      ∃ c ∈ scene.shard.neighborsNear scene.book t s.ghostWidth, c.region = region ∧
        (s.ghosts.get? region).or (scene.book.resolve region) = some e := by
  rw [ghosts_approached, Table.get?_ofList_eq_some_iff (nodup_nearGhosts scene s t),
    mem_nearGhosts_iff]

/-- After a wish a player has been told of the neighbours near the tile that were told before or
that are known now. -/
theorem contains_ghosts_approached_iff :
    (s.approached scene t).ghosts.contains region = true ↔
      ∃ c ∈ scene.shard.neighborsNear scene.book t s.ghostWidth, c.region = region ∧
        (s.ghosts.contains region = true ∨ (scene.book.resolve region).isSome = true) := by
  rw [Table.contains_iff_exists]
  simp only [get?_ghosts_approached_iff]
  rw [exists_comm]
  refine exists_congr fun c => ?_
  rw [exists_and_left, exists_and_left, ← Option.isSome_iff_exists, Option.isSome_or,
    Bool.or_eq_true]
  rfl

end Near

/-! ### What a client knows -/

/-- The neighbours that a player was told of, as a client knows them. -/
def known (s : Session) : Known := s.ghosts.mapValues Endpoint.told

theorem get?_known (s : Session) (region : String) :
    s.known.get? region = (s.ghosts.get? region).map Endpoint.told :=
  Table.get?_mapValues ..

theorem mem_entered_iff {scene : Scene} {s : Session} {t : Tile} {region : String} {e : Endpoint} :
    (region, e) ∈ s.entered scene t ↔
      s.ghosts.get? region = none ∧ (s.approached scene t).ghosts.get? region = some e := by
  rw [entered, List.mem_filter, ghosts_approached,
    Table.get?_ofList_eq_some_iff (nodup_nearGhosts scene s t), Table.contains, Bool.not_eq_true',
    Option.isSome_eq_false_iff, Option.isNone_iff_eq_none, and_comm]

theorem mem_left_iff {scene : Scene} {s : Session} {t : Tile} {region : String} {e : Endpoint} :
    (region, e) ∈ s.left scene t ↔
      s.ghosts.get? region = some e ∧ (s.approached scene t).ghosts.get? region = none := by
  rw [left, List.mem_filter, Table.mem_toList_iff, Table.contains, Bool.not_eq_true',
    Option.isSome_eq_false_iff, Option.isNone_iff_eq_none]

theorem nodup_entered (scene : Scene) (s : Session) (t : Tile) :
    ((s.entered scene t).map Prod.fst).Nodup :=
  (nodup_nearGhosts scene s t).sublist (List.filter_sublist.map Prod.fst)

theorem nodup_left (scene : Scene) (s : Session) (t : Tile) :
    ((s.left scene t).map Prod.fst).Nodup :=
  (Table.nodup_keys s.ghosts).sublist (List.filter_sublist.map Prod.fst)

/-- Between the entered and the left neighbours a client knows those before and those after. -/
theorem get?_replay_entered (scene : Scene) (s : Session) (t : Tile) (region : String) :
    (replay s.known ((s.entered scene t).map fun g => enterMessage g.1 g.2)).get? region =
      ((s.ghosts.get? region).or ((s.approached scene t).ghosts.get? region)).map
        Endpoint.told := by
  have hkeys : ((s.entered scene t).map fun g => (g.1, g.2.told)).map Prod.fst =
      (s.entered scene t).map Prod.fst := by
    rw [List.map_map]
    rfl
  rw [replay_map_enterMessage]
  by_cases hent : region ∈ (s.entered scene t).map Prod.fst
  · obtain ⟨⟨k, e⟩, he, rfl⟩ := List.mem_map.1 hent
    obtain ⟨hold, hnew⟩ := mem_entered_iff.1 he
    have hmem : (k, e.told) ∈ (s.entered scene t).map fun g => (g.1, g.2.told) :=
      List.mem_map.2 ⟨(k, e), he, rfl⟩
    rw [hold, hnew, Table.get?_insertAll_of_mem (hkeys ▸ nodup_entered scene s t) hmem]
    rfl
  · rw [Table.get?_insertAll_of_not_mem (hkeys ▸ hent), get?_known]
    cases hold : s.ghosts.get? region with
    | some e => rfl
    | none =>
      cases hnew : (s.approached scene t).ghosts.get? region with
      | none => rfl
      | some e =>
        exact absurd (List.mem_map.2 ⟨(region, e), mem_entered_iff.2 ⟨hold, hnew⟩, rfl⟩) hent

/-- A wish has the player told of new neighbours, and takes back only what was told. -/
theorem coherent_hints (scene : Scene) (s : Session) (t : Tile) :
    Coherent s.known (s.hints scene t) := by
  rw [hints_eq, coherent_append]
  constructor
  · refine coherent_map_enterMessage (nodup_entered scene s t) fun g hg => ?_
    rw [get?_known, (mem_entered_iff.1 hg).1]
    rfl
  · refine coherent_map_leaveMessage (nodup_left scene s t) fun g hg => ?_
    rw [get?_replay_entered, (mem_left_iff.1 hg).1]
    rfl

/-- What a wish has the player told takes a client from the neighbours before to those after. -/
theorem replay_hints (scene : Scene) (s : Session) (t : Tile) :
    replay s.known (s.hints scene t) = (s.approached scene t).known := by
  refine Table.ext_get? fun region => ?_
  rw [hints_eq, replay_append, replay_map_leaveMessage, Table.get?_foldl_erase,
    get?_replay_entered, get?_known]
  split
  next hleft =>
    obtain ⟨⟨k, e⟩, he, rfl⟩ := List.mem_map.1 hleft
    rw [(mem_left_iff.1 he).2]
    rfl
  next hstays =>
    congr 1
    cases hold : s.ghosts.get? region with
    | none => rw [Option.none_or]
    | some e =>
      cases hnew : (s.approached scene t).ghosts.get? region with
      | none => exact absurd (List.mem_map.2 ⟨(region, e), mem_left_iff.2 ⟨hold, hnew⟩, rfl⟩) hstays
      | some e' =>
        -- A neighbour that stays is known by the endpoint that was told.
        obtain ⟨c, -, -, he'⟩ := get?_ghosts_approached_iff.1 hnew
        rw [hold, Option.some_or] at he'
        rw [Option.some_or, he']

/-- What a client learns from the answers to a message fits what it knows, and leads to what the
session tells after the message. -/
theorem Handling.coherent {s s' : Session} {scene : Scene} {m : ClientMessage} {as : List Action}
    (h : Handling scene s m s' as) :
    Coherent s.known (as.filterMap Action.message?) ∧
      replay s.known (as.filterMap Action.message?) = s'.known := by
  have hwish : ∀ t p, Coherent s.known (s.hints scene t ++ [.positionUpdate p]) ∧
      replay s.known (s.hints scene t ++ [.positionUpdate p]) = (s.approached scene t).known := by
    intro t p
    rw [coherent_append, replay_append, replay_hints]
    exact ⟨⟨coherent_hints scene s t, trivial, trivial⟩, rfl⟩
  cases h with
  | configured width username =>
    split
    next => exact ⟨⟨trivial, trivial, trivial, trivial⟩, rfl⟩
    next => exact ⟨⟨trivial, trivial, trivial, trivial⟩, rfl⟩
  | provisional => exact ⟨trivial, rfl⟩
  | sameMoving => exact ⟨trivial, rfl⟩
  | otherMoving moving h => exact ⟨trivial, rfl⟩
  | handedOff x y teleport h =>
    obtain ⟨host, port, hm⟩ := exists_handoffMessage_eq scene.book teleport
    rw [hm]
    exact ⟨⟨trivial, trivial⟩, rfl⟩
  | granted x y s' h =>
    obtain ⟨b, rfl, -, -⟩ := exists_of_granted? h
    rw [List.filterMap_append, Action.filterMap_message?_map_send]
    exact hwish ⟨x, y⟩ b
  | refused x y ht hg =>
    rw [List.filterMap_append, Action.filterMap_message?_map_send]
    exact hwish ⟨x, y⟩ s.pos

end Session

namespace World

open ServerMessage

section Transcripts

variable {shard : Shard} {book : AddressBook} {grace now : Nat} {es : List Event}
  {id : ConnectionId} {s : Session}

theorem withoutSnapshots_transcript (w : World) (id : ConnectionId) (es : List Event) :
    withoutSnapshots (w.transcript id es) =
      w.along (fun w e => withoutSnapshots (w.queuedBy e id)) es := by
  induction es generalizing w with
  | nil => rfl
  | cons e es ih =>
    rw [along, ← ih, ← withoutSnapshots_append]
    rfl

theorem owned_withoutSnapshots_queuedBy :
    Owned id fun w e => withoutSnapshots (w.queuedBy e id) := by
  intro w e hw h
  by_cases hm : ∃ m, e = .message id m
  · obtain ⟨m, rfl⟩ := hm
    rcases h with h | h
    · dsimp only
      rw [queuedBy_message_of_none h, withoutSnapshots_nil]
    · exact absurd rfl (h m)
  · exact withoutSnapshots_queuedBy hw fun m heq => hm ⟨m, heq⟩

/-- A client that keeps to the messages knows the neighbours of its session. -/
theorem replay_transcript (h : ((fresh shard book grace now).run es).sessions.get? id = some s) :
    replay ∅ ((fresh shard book grace now).transcript id es) = s.known := by
  rw [← replay_withoutSnapshots, withoutSnapshots_transcript]
  refine history_induction owned_withoutSnapshots_queuedBy
    (motive := fun l s => replay ∅ l = s.known) rfl (fun es s m hs ih => ?_) h
  rw [replay_append, ih, withoutSnapshots_queuedBy_message (sound_run shard book grace now es) hs,
    replay_withoutSnapshots]
  exact (s.handling _ m).coherent.2

theorem coherent_transcript (shard : Shard) (book : AddressBook) (grace now : Nat)
    (es : List Event) (id : ConnectionId) :
    Coherent ∅ ((fresh shard book grace now).transcript id es) := by
  induction es using List.reverseRecOn with
  | nil => trivial
  | append_singleton es e ih => ?_
  have hw := sound_run shard book grace now es
  rw [transcript, along_concat, coherent_append]
  refine ⟨ih, coherent_withoutSnapshots.1 ?_⟩
  by_cases hown : ∃ m s, e = .message id m ∧
      ((fresh shard book grace now).run es).sessions.get? id = some s
  · obtain ⟨m, s, rfl, hs⟩ := hown
    have hreplay := replay_transcript hs
    rw [transcript] at hreplay
    rw [hreplay, withoutSnapshots_queuedBy_message hw hs, coherent_withoutSnapshots]
    exact (s.handling _ m).coherent.1
  · have hnil : withoutSnapshots (((fresh shard book grace now).run es).queuedBy e id) = [] := by
      refine owned_withoutSnapshots_queuedBy _ e hw ?_
      cases hs : ((fresh shard book grace now).run es).sessions.get? id with
      | none => exact .inl rfl
      | some s => exact .inr fun m heq => hown ⟨m, s, heq, hs⟩
    rw [hnil]
    trivial

theorem ghosts_step_moveRequest {w : World} (hw : w.Sound) (hs : w.sessions.get? id = some s)
    (x y : Coord) (hno : ∀ region host port target, .handoff region host port target ∉
      w.queuedBy (.message id (.moveRequest x y)) id) :
    ∃ s', (w.step (.message id (.moveRequest x y))).sessions.get? id = some s' ∧
      s'.ghosts = (s.approached w.scene ⟨x, y⟩).ghosts := by
  have hp := s.handling w.scene (.moveRequest x y)
  refine ⟨_, sessions_step_message hs _, ?_⟩
  generalize (s.handle w.scene (.moveRequest x y)).1 = s' at hp ⊢
  generalize (s.handle w.scene (.moveRequest x y)).2 = as at hp
  cases hp with
  | handedOff _ _ teleport ht =>
    obtain ⟨host, port, hmsg⟩ := Session.exists_handoffMessage_eq w.book teleport
    have hq := queuedBy_of_trigger? hw hs ht id
    rw [if_pos rfl, hmsg] at hq
    exact absurd (hq ▸ List.mem_singleton.2 rfl) (hno _ host port _)
  | granted _ _ s' hg =>
    obtain ⟨b, rfl, -, -⟩ := Session.exists_of_granted? hg
    rfl
  | refused => rfl

end Transcripts

/-- A client that starts with nothing and keeps to the messages about neighbours knows at any time
just what its session has told.  It is told of a neighbour only when it does not know it, and a
neighbour is taken back by the host and port by which the client was told of it last.  After a
wish that is not handed over, the told neighbours are those near the wished tile that were told
before or that the address book can resolve. -/
theorem replays_of_run (shard : Shard) (book : AddressBook) (grace now : Nat) (es : List Event)
    (id : ConnectionId) :
    let w₀ := fresh shard book grace now
    let w := w₀.run es
    (∀ s, w.sessions.get? id = some s →
      replay ∅ (w₀.transcript id es) = s.ghosts.mapValues Endpoint.told ∧
        ∀ region e, (replay ∅ (w₀.transcript id es)).get? region = some e.told ↔
          s.ghosts.get? region = some e) ∧
    (∀ pre region host port post,
      w₀.transcript id es = pre ++ .ghostZoneEnter region host port :: post →
        (replay ∅ pre).get? region = none) ∧
    (∀ pre region host port post,
      w₀.transcript id es = pre ++ .ghostZoneLeave region host port :: post →
        (replay ∅ pre).get? region = some (host, port) ∧
          ∃ pre₁ pre₂, pre = pre₁ ++ .ghostZoneEnter region host port :: pre₂ ∧
            ∀ m ∈ pre₂, m.neighbor? ≠ some region) ∧
    (∀ s x y, w.sessions.get? id = some s →
      (∀ region host port target, .handoff region host port target ∉
        w.queuedBy (.message id (.moveRequest x y)) id) →
      ∃ s', (w.step (.message id (.moveRequest x y))).sessions.get? id = some s' ∧
        ∀ region, s'.ghosts.contains region = true ↔
          ∃ c ∈ shard.neighborsNear w.book ⟨x, y⟩ s.ghostWidth, c.region = region ∧
            (s.ghosts.contains region = true ∨ (w.book.resolve region).isSome = true)) := by
  intro w₀ w
  have hw : w.Sound := sound_run shard book grace now es
  have hshard : w.shard = shard := shard_run w₀ es
  have hcoherent : Coherent ∅ (w₀.transcript id es) := coherent_transcript shard book grace now es id
  refine ⟨fun s hs => ?_, fun pre region host port post heq => ?_,
    fun pre region host port post heq => ?_, fun s x y hs hno => ?_⟩
  · have hreplay : replay ∅ (w₀.transcript id es) = s.known := replay_transcript hs
    refine ⟨hreplay, fun region e => ?_⟩
    rw [hreplay, Session.get?_known, Option.map_eq_some_iff]
    constructor
    · rintro ⟨e', he', htold⟩
      rw [he', Endpoint.told_injective htold]
    · exact fun he => ⟨e, he, rfl⟩
  · rw [heq] at hcoherent
    exact hcoherent.fits
  · rw [heq] at hcoherent
    exact ⟨hcoherent.fits, exists_enter_of_get?_replay hcoherent.fits⟩
  · obtain ⟨s', hs', hghosts⟩ := ghosts_step_moveRequest hw hs x y hno
    refine ⟨s', hs', fun region => ?_⟩
    rw [hghosts, Session.contains_ghosts_approached_iff, show w.scene.shard = shard from hshard]
    rfl

/-- The neighbour in the east is told, then moves to another host, and is taken back by the host
that was told; near the edge again the player is told the new one. -/
theorem replays_of_run_moved :
    let es : List Event := [.connect, .message 0 (.moveRequest 8 5),
      .report [⟨"east", "", "10.0.0.7:9200", true⟩] 1, .message 0 (.moveRequest 5 5)]
    let w := quietCrossing.run es
    let told : List ServerMessage := [.ghostZoneEnter "east" "127.0.0.1" 9102,
      .playersSnapshot 0 [], .positionUpdate ⟨8, 5⟩]
    quietCrossing.transcript 0 es = told ++ .ghostZoneLeave "east" "127.0.0.1" 9102 ::
        [.playersSnapshot 0 [], .positionUpdate ⟨7, 5⟩] ∧
      (replay ∅ []).get? "east" = none ∧
      (replay ∅ told).get? "east" = some ("127.0.0.1", 9102) ∧
      (∃ s, w.sessions.get? 0 = some s ∧
        replay ∅ (quietCrossing.transcript 0 es) = s.ghosts.mapValues Endpoint.told) ∧
      w.queuedBy (.message 0 (.moveRequest 9 5)) 0 = [.ghostZoneEnter "east" "10.0.0.7" 9200,
        .playersSnapshot 0 [], .positionUpdate ⟨8, 5⟩] ∧
      ∃ s s', w.sessions.get? 0 = some s ∧
        (w.step (.message 0 (.moveRequest 9 5))).sessions.get? 0 = some s' ∧
        (s'.ghosts.contains "east" = true ↔
          ∃ c ∈ crossing.neighborsNear w.book ⟨9, 5⟩ s.ghostWidth, c.region = "east" ∧
            (s.ghosts.contains "east" = true ∨ (w.book.resolve "east").isSome = true)) := by
  intro es w told
  obtain ⟨hknown, henter, hleave, hghosts⟩ :=
    replays_of_run crossing (.seeded .host crossing.realm) 250 0 es 0
  have htranscript : quietCrossing.transcript 0 es =
      told ++ .ghostZoneLeave "east" "127.0.0.1" 9102 ::
        [.playersSnapshot 0 [], .positionUpdate ⟨7, 5⟩] := by decide +kernel
  have hq : w.queuedBy (.message 0 (.moveRequest 9 5)) 0 =
      [.ghostZoneEnter "east" "10.0.0.7" 9200, .playersSnapshot 0 [], .positionUpdate ⟨8, 5⟩] := by
    decide +kernel
  have hno : ∀ region host port target, .handoff region host port target ∉
      w.queuedBy (.message 0 (.moveRequest 9 5)) 0 := by
    intro region host port target
    rw [hq]
    simp
  have hs : (w.sessions.get? 0).isSome = true := by decide +kernel
  obtain ⟨s, hs⟩ := Option.isSome_iff_exists.1 hs
  obtain ⟨s', hs', hnear⟩ := hghosts s 9 5 hs hno
  exact ⟨htranscript, henter [] "east" "127.0.0.1" 9102 _ htranscript,
    (hleave told "east" _ _ _ htranscript).1, ⟨s, hs, (hknown s hs).1⟩, hq, s, s', hs, hs',
    hnear "east"⟩

end World

end TileRealm
