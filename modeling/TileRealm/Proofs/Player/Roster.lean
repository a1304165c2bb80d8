import Mathlib.Algebra.Order.BigOperators.Group.List
import Mathlib.Algebra.Order.Ring.Nat
import Mathlib.Order.Bounds.Basic
import TileRealm.Proofs.Player.Registration
import TileRealm.Proofs.Player.Snapshot
import TileRealm.Proofs.Wire.Rendering

/-!
# How many players a snapshot can list

The names that sessions show are short (`World.username_le`), so there is a limit to what each
player takes up in a snapshot.  A region can fill up with players of the longest names
(`World.exists_crowded`), which shows that the limit is reached: 1337 players always find room in a
snapshot, and 1338 do not always (`World.snapshots_fit_of_run`).
-/

namespace TileRealm

/-! ### The size of a snapshot -/

namespace ServerMessage

theorem length_playerBytes (p : Player) :
    (playerBytes p).length = 17 + p.username.utf8ByteSize := by
  unfold playerBytes tileBytes
  simp only [List.length_append, Payload.length_int32, length_text, Payload.flag,
    List.length_singleton]
  omega

theorem length_payload_playersSnapshot (myId : Int32) (players : List Player) :
    (playersSnapshot myId players).payload.length =
      8 + (players.map fun p => 17 + p.username.utf8ByteSize).sum := by
  have hflat : (players.flatMap playerBytes).length =
      (players.map fun p => 17 + p.username.utf8ByteSize).sum := by
    rw [List.length_flatMap]
    simp only [length_playerBytes]
  unfold payload
  rw [List.length_append, hflat]
  rfl

theorem exists_encode_playersSnapshot_iff (myId : Int32) (players : List Player) :
    (∃ b, (playersSnapshot myId players).encode = .ok b) ↔
      8 + (players.map fun p => 17 + p.username.utf8ByteSize).sum ≤ 65535 := by
  rw [← length_payload_playersSnapshot myId players]
  exact Frame.exists_encode_eq_ok_iff _

/-- Players with short names find room in a snapshot if they are not too many. -/
theorem exists_encode_playersSnapshot (limit : Nat) {players : List Player}
    (hname : ∀ p ∈ players, p.username.utf8ByteSize ≤ limit)
    (hlen : 8 + players.length * (17 + limit) ≤ 65535) (myId : Int32) :
    ∃ b, (playersSnapshot myId players).encode = .ok b := by
  rw [exists_encode_playersSnapshot_iff]
  have hsum : (players.map fun p => 17 + p.username.utf8ByteSize).sum ≤
      (players.map fun p => 17 + p.username.utf8ByteSize).length • (17 + limit) := by
    apply List.sum_le_card_nsmul
    intro n hn
    obtain ⟨p, hp, rfl⟩ := List.mem_map.1 hn
    exact Nat.add_le_add_left (hname p hp) 17
  rw [List.length_map, Nat.nsmul_eq_mul] at hsum
  omega

end ServerMessage

/-! ### Short names -/

namespace Session

theorem Handling.username_le {scene : Scene} {s s' : Session} {m : ClientMessage}
    {as : List Action} (h : Handling scene s m s' as)
    (hs : s.username.utf8ByteSize ≤ maxUsernameLength) :
    s'.username.utf8ByteSize ≤ maxUsernameLength := by
  have happroached : ∀ t, (s.approached scene t).username = s.username := fun t =>
    congrArg View.username (view_approached scene s t)
  cases h with
  | configured width username =>
    cases username with
    | none => exact hs
    | some name => exact Text.utf8ByteSize_truncate_le _ name
  | granted x y s' h =>
    obtain ⟨b, rfl, -, -⟩ := exists_of_granted? h
    exact (happroached ⟨x, y⟩).symm ▸ hs
  | refused x y ht hg => exact (happroached ⟨x, y⟩).symm ▸ hs
  | _ => exact hs

end Session

namespace World

section Names

variable {shard : Shard} {book : AddressBook} {grace now : Nat} {es : List Event}
  {id : ConnectionId}

theorem username_le {s : Session}
    (h : ((fresh shard book grace now).run es).sessions.get? id = some s) :
    s.username.utf8ByteSize ≤ maxUsernameLength :=
  session_induction (motive := fun s => s.username.utf8ByteSize ≤ maxUsernameLength)
    (Nat.zero_le _) (fun scene s m _ hs => (s.handling scene m).username_le hs) h

theorem username_le_of_view {v : View}
    (h : ((fresh shard book grace now).run es).lobby.views.get? id = some v) :
    v.username.utf8ByteSize ≤ maxUsernameLength := by
  obtain ⟨s, hs, rfl⟩ := (sound_run shard book grace now es).views h
  exact username_le hs

theorem username_le_of_mem_roster {p : Player}
    (h : p ∈ Lobby.roster
      (((fresh shard book grace now).run es).lobby.views.toList.map Prod.snd)) :
    p.username.utf8ByteSize ≤ maxUsernameLength := by
  obtain ⟨id, v, hv, -, rfl⟩ := Lobby.exists_view_of_mem_roster h
  exact username_le_of_view hv

end Names

/-- What is queued as a snapshot is the snapshot of what is shown after the event. -/
theorem exists_view_of_mem_snapshots {w : World} (hw : w.Sound) {e : Event} {id : ConnectionId}
    {m : ServerMessage} (h : m ∈ ServerMessage.snapshots (w.queuedBy e id)) :
    ∃ v, (w.step e).lobby.views.get? id = some v ∧
      m = Lobby.snapshotFor (w.step e).lobby.views v := by
  cases ha : w.announces e with
  | false =>
    rw [snapshots_queuedBy_of_not_announces hw ha] at h
    cases h
  | true =>
    rw [snapshots_queuedBy hw ha] at h
    split at h
    next =>
      obtain ⟨v, hv, rfl⟩ := Option.map_eq_some_iff.1 (Option.mem_toList.1 h)
      exact ⟨v, hv, rfl⟩
    next => cases h

/-! ### A region that fills up -/

/-- A name as long as names may be. -/
def longName : String := "abcdefghijklmnopqrstuvwxyz012345"

/-- The session of the connection that came `id`th, when each was configured as it came. -/
def guest (id : ConnectionId) : Session := { clientId := idAfter id, username := longName }

/-- A connection comes and is configured. -/
def arrival (id : ConnectionId) : List Event :=
  [.connect, .message id (.clientConfig 1 (some longName))]

/-- What holds when `n` players have come and nobody has left. -/
structure Crowded (n : Nat) (w : World) : Prop where
  sound : w.Sound
  nextConnection : w.nextConnection = n
  nextId : w.lobby.nextId = idAfter n
  sessions : ∀ id : Nat, w.sessions.get? id = if id < n then some (guest id) else none
  registered : ∀ id : Nat, id < n → w.lobby.isRegistered id = true
  timers : w.timers = []

/-- A message that hands nobody over sets no timer, and removes nobody while there is none. -/
theorem quiet_message {w : World} (hw : w.Sound) (ht : w.timers = []) {id : ConnectionId}
    {s : Session} (hs : w.sessions.get? id = some s) {m : ClientMessage}
    (hm : .dismissLater ∉ (s.handle w.scene m).2) :
    (w.step (.message id m)).timers = [] ∧ w.removedBy (.message id m) = [] := by
  have htimers : (w.handled id m).timers = [] := by
    rw [handled, hs]
    exact (timers_performAll hm _).trans ht
  constructor
  · rw [step_message hw, expire_eq]
    simp [htimers]
  · unfold removedBy due
    simp [htimers]

theorem handle_clientConfig_guest (scene : Scene) {id : ConnectionId}
    (h : scene.nextId = idAfter id) :
    (({} : Session).handle scene (.clientConfig 1 (some longName))).1 = guest id := by
  have hname : Text.truncate maxUsernameLength longName = longName :=
    Text.truncate_of_le (by decide)
  unfold Session.handle Session.configure Session.configured guest
  simp [hname, h]
  decide

theorem crowded_fresh (shard : Shard) (book : AddressBook) (grace now : Nat) :
    Crowded 0 (fresh shard book grace now) where
  sound := sound_fresh shard book grace now
  nextConnection := rfl
  nextId := rfl
  sessions _ := rfl
  registered _ h := absurd h (Nat.not_lt_zero _)
  timers := rfl

/-- A new connection has a session like every new one and disturbs nobody. -/
theorem get?_sessions_connect {n : Nat} {w : World} (h : Crowded n w) (id : Nat) :
    (w.step .connect).sessions.get? id =
      if id = n then some {} else if id < n then some (guest id) else none := by
  rw [get?_sessions_step, ← h.sessions id, h.nextConnection]

theorem isRegistered_connect {n : Nat} {w : World} (h : Crowded n w) {id : Nat}
    (hid : id < n + 1) : (w.step .connect).lobby.isRegistered id = true := by
  rw [isRegistered_step h.sound, h.nextConnection]
  rcases Nat.lt_succ_iff_lt_or_eq.1 hid with hlt | rfl
  · simp [h.registered id hlt, removedBy]
  · simp [removedBy]

theorem Crowded.succ {n : Nat} {w : World} (h : Crowded n w) :
    Crowded (n + 1) (w.run (arrival n)) := by
  -- The world in between, in which the last connection is not configured yet.
  let w₁ := w.step .connect
  let m : ClientMessage := .clientConfig 1 (some longName)
  have hw₁ : w₁.Sound := sound_step h.sound .connect
  have hs : w₁.sessions.get? n = some {} := by rw [get?_sessions_connect h, if_pos rfl]
  have hnext : w₁.lobby.nextId = idAfter n := by
    rw [nextId_step, h.nextId]
    exact Int32.add_zero _
  obtain ⟨htimers, hremoved⟩ := quiet_message (m := m) hw₁ h.timers hs (by
    simp [m, Session.handle, Session.configure])
  have hrun : w.run (arrival n) = w₁.step (.message n m) := rfl
  rw [hrun]
  refine ⟨sound_step hw₁ _, ?_, ?_, fun id => ?_, fun id hid => ?_, htimers⟩
  · rw [(surroundings_step _ _).2.2.2.2,
      (surroundings_step _ _).2.2.2.2, h.nextConnection]
  · rw [nextId_step, hnext, idsBy_message hs, idAfter_add]
    rfl
  · rw [get?_sessions_step]
    dsimp only
    rw [get?_sessions_connect h]
    by_cases hid : id = n
    · rw [if_pos hid, if_pos hid, if_pos (by omega), hid]
      exact congrArg some (handle_clientConfig_guest w₁.scene hnext)
    · have hiff : id < n + 1 ↔ id < n := by omega
      simp only [if_neg hid, hiff]
  · rw [isRegistered_step hw₁, hremoved]
    exact ⟨.inl (isRegistered_connect h hid), List.not_mem_nil⟩

theorem exists_crowded (shard : Shard) (book : AddressBook) (grace now n : Nat) :
    ∃ es, Crowded n ((fresh shard book grace now).run es) := by
  induction n with
  | zero => exact ⟨[], crowded_fresh shard book grace now⟩
  | succ n ih =>
    obtain ⟨es, h⟩ := ih
    refine ⟨es ++ arrival n, ?_⟩
    rw [run_append]
    exact h.succ

/-! ### A full snapshot -/

/-- Someone who has no id yet has come to a crowd, and the first player has begun to walk. -/
structure Watched (n : Nat) (w : World) : Prop where
  sessions : ∀ id : Nat, w.sessions.get? id =
    if id = n then some {} else if id < n then some { guest id with moving := id = 0 } else none
  registered : ∀ id : Nat, id < n + 1 → w.lobby.isRegistered id = true

theorem Watched.length_players {n : Nat} {w : World} (h : Watched n w) (hn : n < 2 ^ 31) :
    w.players.length = n := by
  let walker (id : Nat) : Session := { guest id with moving := id = 0 }
  let listed : List (ConnectionId × Session) :=
    (n, {}) :: (List.range n).map fun id => (id, walker id)
  have hkeys : (listed.map Prod.fst).Nodup := by
    have hids : listed.map Prod.fst = n :: List.range n := by
      simp [listed, Function.comp_def]
    rw [hids, List.nodup_cons]
    exact ⟨by simp, List.nodup_range⟩
  have hperm : w.sessions.toList.Perm listed := by
    apply Table.perm_toList hkeys
    intro id s
    rw [h.sessions id]
    simp only [listed, List.mem_cons, List.mem_map, List.mem_range, Prod.mk.injEq]
    constructor
    · intro hs
      split_ifs at hs with hn hlt
      · exact .inl ⟨hn, (Option.some.inj hs).symm⟩
      · exact .inr ⟨id, hlt, rfl, Option.some.inj hs⟩
    · rintro (⟨rfl, rfl⟩ | ⟨id', hlt, rfl, rfl⟩)
      · rw [if_pos rfl]
      · rw [if_neg (Nat.ne_of_lt hlt), if_pos hlt]
  have hlisted : listed.filter (fun e => w.lobby.isRegistered e.1 && e.2.clientId ≠ 0) =
      (List.range n).map fun id => (id, walker id) := by
    rw [List.filter_cons_of_neg (by simp), List.filter_eq_self]
    intro e he
    obtain ⟨id, hid, rfl⟩ := List.mem_map.1 he
    have hlt := List.mem_range.1 hid
    have hreg := h.registered id (by omega)
    have hne : (walker id).clientId ≠ 0 := idAfter_ne_zero (by omega)
    simp [hreg, hne]
  unfold players
  rw [List.length_map, (hperm.filter _).length_eq, hlisted, List.length_map, List.length_range]

theorem Crowded.watched {n : Nat} {w : World} (h : Crowded n w) (h0 : 0 < n) :
    Watched n ((w.step .connect).step (.message 0 (.moveState true))) := by
  have hw := sound_step h.sound .connect
  have hs : (w.step .connect).sessions.get? 0 = some (guest 0) := by
    rw [get?_sessions_connect h, if_neg (by omega), if_pos h0]
  obtain ⟨-, hremoved⟩ := quiet_message (m := .moveState true) hw h.timers hs (by
    simp [Session.handle, Session.setMoving, guest])
  constructor
  · intro id
    rw [get?_sessions_step]
    dsimp only
    rw [get?_sessions_connect h]
    by_cases hid : id = 0
    · subst hid
      rw [if_pos rfl, if_neg (by omega), if_pos h0, if_neg (by omega), if_pos h0]
      rfl
    · have hsame : guest id = { guest id with moving := decide (id = 0) } := by
        simp [guest, hid]
      rw [if_neg hid, ← hsame]
  · intro id hid
    rw [isRegistered_step hw, hremoved]
    exact ⟨.inl (isRegistered_connect h hid), List.not_mem_nil⟩

theorem Watched.username_eq {n : Nat} {w : World} (h : Watched n w) {p : Player}
    (hp : p ∈ w.players) : p.username = longName := by
  obtain ⟨id, s, -, hid, hs, rfl⟩ := mem_players_iff.1 hp
  rw [h.sessions id] at hs
  split_ifs at hs
  · cases hs
    exact absurd rfl hid
  · cases hs
    rfl

/-- Any number of players can be listed in one snapshot, all of them with the longest names. -/
theorem exists_full_snapshot (shard : Shard) (book : AddressBook) (grace now : Nat) {n : Nat}
    (h0 : 0 < n) (hn : n < 2 ^ 31) :
    ∃ es e id myId players,
      .playersSnapshot myId players ∈ ((fresh shard book grace now).run es).queuedBy e id ∧
        players.length = n ∧ ∀ p ∈ players, p.username = longName := by
  obtain ⟨es, h⟩ := exists_crowded shard book grace now n
  generalize hw : (fresh shard book grace now).run es = w at h
  have hwatched := h.watched h0
  have ha : (w.step .connect).announces (.message 0 (.moveState true)) = true := by
    have hs : (w.step .connect).sessions.get? 0 = some (guest 0) := by
      rw [get?_sessions_connect h, if_neg (by omega), if_pos h0]
    simp only [announces, hs]
    rfl
  have hroom : (w.step .connect).hasRoom (.message 0 (.moveState true)) n = true := by
    have hline : (w.step .connect).lobby.lines.get? n = some { capacity := outboundQueue } := by
      rw [← h.nextConnection]
      exact Table.get?_insert_self ..
    have hne : n ≠ 0 := by omega
    simp only [hasRoom, ahead, hline, if_neg hne]
    rfl
  obtain ⟨players, hperm, htold⟩ := exists_told (sound_step h.sound .connect) ha
  obtain ⟨s, -, hqueued⟩ := htold n (hwatched.registered n (Nat.lt_succ_self n)) hroom
  refine ⟨es ++ [.connect], .message 0 (.moveState true), n, s.clientId, players, ?_, ?_, ?_⟩
  · rw [run_concat, hw]
    have hmem : .playersSnapshot s.clientId players ∈ ServerMessage.snapshots
        ((w.step .connect).queuedBy (.message 0 (.moveState true)) n) := by
      rw [hqueued]
      exact List.mem_singleton_self _
    exact (List.mem_filter.1 hmem).1
  · rw [hperm.length_eq, hwatched.length_players hn]
  · intro p hp
    exact hwatched.username_eq (hperm.mem_iff.1 hp)

/-! ### Every snapshot -/

/-- A snapshot of what is shown can be sent if it takes up no more bytes than a frame carries, eight
and for each player seventeen and those of the name.  No name that is shown takes up more than 32
bytes, whatever name a player sent, so every snapshot of at most 1337 players can be sent, and 1337
is the largest such number.  What is queued as a snapshot is one of what is shown. -/
theorem snapshots_fit_of_run (shard : Shard) (book : AddressBook) (grace now : Nat) :
    let w₀ := fresh shard book grace now
    (∀ es id v, (w₀.run es).lobby.views.get? id = some v →
      let players := Lobby.roster ((w₀.run es).lobby.views.toList.map Prod.snd)
      v.username.utf8ByteSize ≤ 32 ∧
      ((∃ b, (Lobby.snapshotFor (w₀.run es).lobby.views v).encode = .ok b) ↔
        8 + (players.map fun p => 17 + p.username.utf8ByteSize).sum ≤ 65535) ∧
      (players.length ≤ 1337 →
        ∃ b, (Lobby.snapshotFor (w₀.run es).lobby.views v).encode = .ok b)) ∧
    (∀ es e id myId players, .playersSnapshot myId players ∈ (w₀.run es).queuedBy e id →
      ∃ v, (w₀.run (es ++ [e])).lobby.views.get? id = some v ∧
        .playersSnapshot myId players = Lobby.snapshotFor (w₀.run (es ++ [e])).lobby.views v) ∧
    IsGreatest {n | ∀ es e id myId players,
      .playersSnapshot myId players ∈ (w₀.run es).queuedBy e id → players.length ≤ n →
        ∃ b, (ServerMessage.playersSnapshot myId players).encode = .ok b} 1337 := by
  intro w₀
  -- A snapshot of what is shown after a run, which can always be sent to 1337 players.
  have hfits : ∀ es v, (Lobby.roster ((w₀.run es).lobby.views.toList.map Prod.snd)).length ≤ 1337 →
      ∃ b, (Lobby.snapshotFor (w₀.run es).lobby.views v).encode = .ok b := by
    intro es v hlen
    apply ServerMessage.exists_encode_playersSnapshot maxUsernameLength
    · intro p hp
      exact username_le_of_mem_roster hp
    · show 8 + _ * (17 + 32) ≤ 65535
      omega
  have hshown : ∀ es e id myId players,
      .playersSnapshot myId players ∈ (w₀.run es).queuedBy e id →
        ∃ v, (w₀.run (es ++ [e])).lobby.views.get? id = some v ∧
          .playersSnapshot myId players =
            Lobby.snapshotFor (w₀.run (es ++ [e])).lobby.views v := by
    intro es e id myId players h
    rw [run_concat]
    exact exists_view_of_mem_snapshots (sound_run shard book grace now es)
      (List.mem_filter.2 ⟨h, rfl⟩)
  refine ⟨fun es id v hv => ?_, hshown, ?_, ?_⟩
  · exact ⟨username_le_of_view hv, ServerMessage.exists_encode_playersSnapshot_iff _ _, hfits es v⟩
  · intro es e id myId players h hlen
    obtain ⟨v, -, heq⟩ := hshown es e id myId players h
    obtain ⟨-, hplayers⟩ := ServerMessage.playersSnapshot.inj heq
    rw [heq]
    apply hfits
    rwa [← hplayers]
  · intro n hn
    by_contra hlt
    obtain ⟨es, e, id, myId, players, h, hlen, hname⟩ :=
      exists_full_snapshot shard book grace now (n := 1338) (by omega) (by omega)
    have hfit := hn es e id myId players h (by omega)
    rw [ServerMessage.exists_encode_playersSnapshot_iff] at hfit
    have hsum : (players.map fun p => 17 + p.username.utf8ByteSize).sum =
        (players.map fun p => 17 + p.username.utf8ByteSize).length • 49 := by
      apply List.sum_eq_card_nsmul
      intro k hk
      obtain ⟨p, hp, rfl⟩ := List.mem_map.1 hk
      rw [hname p hp]
      decide
    rw [List.length_map, hlen, Nat.nsmul_eq_mul] at hsum
    omega

/-- The name of the first player is cut in front of a character that would end behind the 32nd byte,
and everyone is told of both players. -/
theorem snapshots_fit_of_run_cut :
    let es : List Event := [.connect, .connect,
      .message 0 (.clientConfig 1 (some "abcdefghijklmnopqrstuvwxyz01234\u00e9abc")),
      .message 1 (.clientConfig 1 (some "b"))]
    let e : Event := .message 1 (.moveState true)
    let w := quietCrossing.run es
    let v : View := ⟨1, "abcdefghijklmnopqrstuvwxyz01234", .origin, false⟩
    let players : List Player :=
      [⟨1, .origin, false, "abcdefghijklmnopqrstuvwxyz01234"⟩, ⟨2, .origin, true, "b"⟩]
    w.lobby.views.get? 0 = some v ∧ v.username.utf8ByteSize ≤ 32 ∧
      .playersSnapshot 1 players ∈ w.queuedBy e 0 ∧ players.length ≤ 1337 ∧
      (∃ b, (ServerMessage.playersSnapshot 1 players).encode = .ok b) ∧
      ∃ v', (quietCrossing.run (es ++ [e])).lobby.views.get? 0 = some v' ∧
        .playersSnapshot 1 players =
          Lobby.snapshotFor (quietCrossing.run (es ++ [e])).lobby.views v' := by
  intro es e w v players
  have hview : w.lobby.views.get? 0 = some v := by decide +kernel
  have hqueued : .playersSnapshot 1 players ∈ w.queuedBy e 0 := by decide +kernel
  obtain ⟨hshown, htold, hgreatest⟩ :=
    snapshots_fit_of_run crossing (.seeded .host crossing.realm) 250 0
  exact ⟨hview, (hshown es 0 v hview).1, hqueued, by decide,
    hgreatest.1 es e 0 1 players hqueued (by decide), htold es e 0 1 players hqueued⟩

end World

end TileRealm
