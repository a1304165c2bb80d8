import TileRealm.Proofs.Player.Queue

/-!
# Announcements

Which events have everyone told who is in the region (`World.announces`), and what is told then: one
snapshot for each registered connection that has room for it, of what is shown after the event
(`World.snapshots_queuedBy`).  All that a connection is ever told is snapshots and what its own
messages send to it (`World.mem_queuedBy`).
-/

namespace TileRealm

namespace ServerMessage

/-- The snapshots among messages. -/
def snapshots (ms : List ServerMessage) : List ServerMessage := ms.filter isSnapshot

@[simp] theorem snapshots_nil : snapshots [] = [] := rfl

theorem snapshots_append (ms ns : List ServerMessage) :
    snapshots (ms ++ ns) = snapshots ms ++ snapshots ns :=
  List.filter_append ..

end ServerMessage

namespace Session

/-! ### Announcements -/

/-- Whether a message has everyone told: a wish to be on a tile if it is granted, and news of the
player's walking if it is new. -/
def announces (scene : Scene) (s : Session) : ClientMessage → Bool
  | .moveRequest x y => (s.granted? scene ⟨x, y⟩).isSome
  | .moveState moving => s.moving ≠ moving
  | _ => false

/-- What the player is told before everyone is told. -/
def ahead (scene : Scene) (s : Session) : ClientMessage → List ServerMessage
  | .moveRequest x y => s.hints scene ⟨x, y⟩
  | _ => []

variable {scene : Scene} {s s' : Session} {m : ClientMessage} {as : List Action}

theorem Handling.isSnapshot_eq_false {n : ServerMessage} (h : Handling scene s m s' as)
    (hn : .send n ∈ as) : n.isSnapshot = false := by
  have hanswer := h.answer hn
  cases n with
  | playersSnapshot myId players => exact hanswer.elim
  | _ => rfl

/-- A message that has everyone told has the view of the new session shown first, and afterwards
only the player is told something. -/
theorem Handling.of_announces (h : Handling scene s m s' as) (ha : s.announces scene m = true) :
    ∃ rest : List ServerMessage, as = (s.ahead scene m).map .send ++
      (.publish s'.view :: .broadcast :: rest.map .send) := by
  cases h with
  | otherMoving moving h => exact ⟨[], rfl⟩
  | granted x y s' h => exact ⟨[.positionUpdate s'.pos], rfl⟩
  | sameMoving => simp [announces] at ha
  | handedOff x y teleport ht => simp [announces, granted?, ht] at ha
  | refused x y ht hg => simp [announces, hg] at ha
  | _ => cases ha

theorem Handling.broadcast_not_mem (h : Handling scene s m s' as)
    (ha : s.announces scene m = false) : .broadcast ∉ as := by
  cases h with
  | configured width username => split <;> simp
  | otherMoving moving h => simp [announces, h] at ha
  | granted x y s' h => simp [announces, h] at ha
  | _ => simp

end Session

namespace Lobby

/-- A broadcast, by the views that are shown and the room that there is. -/
theorem offered_eq {l l' : Lobby} {id : ConnectionId} {room : Bool} (hviews : l'.views = l.views)
    (hroom : (l.lines.get? id).any Line.hasRoom = room) :
    l.offered id =
      if room then ((l'.views.get? id).map (snapshotFor l'.views)).toList else [] := by
  rw [offered, hroom, hviews]
  cases l.views.get? id with
  | none => exact (ite_self _).symm
  | some v => rfl

end Lobby

namespace World

open ServerMessage

/-! ### Actions -/

theorem toldAll_append (id : ConnectionId) (w : World) (as bs : List Action)
    (id' : ConnectionId) :
    toldAll id w (as ++ bs) id' = toldAll id w as id' ++ toldAll id (performAll id w as) bs id' := by
  induction as generalizing w with
  | nil => rfl
  | cons a as ih => rw [List.cons_append, toldAll, toldAll, ih, performAll_cons, List.append_assoc]

theorem snapshots_offered (l : Lobby) (id : ConnectionId) :
    snapshots (l.offered id) = l.offered id := by
  refine List.filter_eq_self.2 fun m hm => ?_
  obtain ⟨v, -, rfl⟩ := Lobby.mem_offered hm
  rfl

theorem broadcast_not_mem_map_send (ms : List ServerMessage) :
    .broadcast ∉ ms.map Action.send := by simp

/-- Without a broadcast no snapshots are queued. -/
theorem snapshots_toldAll_of_not_mem {as : List Action} (hb : .broadcast ∉ as)
    (hs : ∀ n, .send n ∈ as → n.isSnapshot = false) (id : ConnectionId) (w : World)
    (id' : ConnectionId) : snapshots (toldAll id w as id') = [] := by
  induction as generalizing w with
  | nil => rfl
  | cons a as ih =>
    rw [List.mem_cons, not_or] at hb
    rw [toldAll, snapshots_append, ih hb.2 fun n hn => hs n (List.mem_cons_of_mem _ hn),
      List.append_nil]
    cases a with
    | send n =>
      rw [told]
      split
      next => exact List.filter_cons_of_neg (by simp [hs n List.mem_cons_self])
      next => rfl
    | broadcast => exact absurd rfl hb.1
    | _ => rfl

/-- A world with another lobby. -/
def withLobby (w : World) (lobby : Lobby) : World := { w with lobby }

/-- Messages to a connection change nothing but its line. -/
theorem performAll_map_send (id : ConnectionId) (w : World) (ms : List ServerMessage) :
    ∃ lobby, performAll id w (ms.map .send) = w.withLobby lobby ∧
      lobby.views = w.lobby.views ∧
      ∀ id', lobby.lines.get? id' =
        (w.lobby.lines.get? id').map ((if id' = id then ms else []).foldl Line.push) := by
  induction ms generalizing w with
  | nil =>
    refine ⟨w.lobby, rfl, rfl, fun id' => ?_⟩
    rw [ite_self]
    exact Option.map_id'.symm
  | cons m ms ih =>
    obtain ⟨lobby, heq, hviews, hlines⟩ := ih (perform id w (.send m))
    refine ⟨lobby, heq, hviews, fun id' => (hlines id').trans ?_⟩
    rw [perform, Lobby.get?_lines_send]
    split
    next h => rw [h, Option.map_map]; rfl
    next => rfl

theorem withoutQueues_performAll_map_send (id : ConnectionId) (w : World)
    (ms : List ServerMessage) :
    (performAll id w (ms.map .send)).lobby.withoutQueues = w.lobby.withoutQueues := by
  induction ms generalizing w with
  | nil => rfl
  | cons m ms ih => exact (ih _).trans (Lobby.withoutQueues_send ..)

/-! ### Events -/

/-- Whether an event has everyone told who is in the region: a granted move, a change of a player's
walking, and the end of a player who had an id. -/
def announces (w : World) : Event → Bool
  | .message id m => (w.sessions.get? id).any fun s => s.announces w.scene m
  | .close id => (w.sessions.get? id).any fun s => s.clientId ≠ 0
  | _ => false

/-- What an event has queued for a connection before everyone is told. -/
def ahead (w : World) (id' : ConnectionId) : Event → List ServerMessage
  | .message id m =>
    if id' = id then ((w.sessions.get? id).map fun s => s.ahead w.scene m).getD [] else []
  | _ => []

/-- Whether the line of a connection has room for a snapshot when everyone is told. -/
def hasRoom (w : World) (e : Event) (id : ConnectionId) : Bool :=
  (w.lobby.lines.get? id).any fun line => ((w.ahead id e).foldl Line.push line).hasRoom

/-- What an event tells everyone is what a lobby broadcasts that shows what is shown afterwards. -/
structure Broadcasts (w : World) (e : Event) (l : Lobby) : Prop where
  views : (w.step e).lobby.views = l.views
  room : ∀ id, (l.lines.get? id).any Line.hasRoom = w.hasRoom e id
  told : ∀ id, snapshots (w.queuedBy e id) = l.offered id

theorem exists_broadcasts_message {w : World} (hw : w.Sound) {id : ConnectionId} {s : Session}
    (hs : w.sessions.get? id = some s) {m : ClientMessage}
    (ha : s.announces w.scene m = true) : ∃ l, w.Broadcasts (.message id m) l := by
  have hp := s.handling w.scene m
  have hqueued := queuedBy_message hw hs m
  have hstep : w.step (.message id m) = _ := dispatch_of_some hs m
  have hsend := fun n => hp.isSnapshot_eq_false (n := n)
  generalize (s.handle w.scene m).1 = s' at hp hqueued hstep
  generalize (s.handle w.scene m).2 = as at hp hqueued hstep hsend
  obtain ⟨rest, rfl⟩ := hp.of_announces ha
  obtain ⟨lobby, heq, hviews, hlines⟩ :=
    performAll_map_send id (w.withSession id s') (s.ahead w.scene m)
  -- The world after the broadcast; what is sent to the player then changes no view.
  let w₁ := (w.withSession id s').withLobby (lobby.publish id s'.view).broadcast.1
  obtain ⟨lobby', heq', hviews', -⟩ := performAll_map_send id w₁ rest
  refine ⟨lobby.publish id s'.view, ?_, fun id' => ?_, fun id' => ?_⟩
  · rw [hstep, performAll_append, heq]
    show (performAll id w₁ (rest.map .send)).expire.lobby.views = _
    rw [heq', expire_eq_self (w := w₁.withLobby lobby') hw.timers]
    exact hviews'.trans (Lobby.views_broadcast _)
  · show (lobby.lines.get? id').any Line.hasRoom = _
    rw [hlines, hasRoom, ahead, hs, Option.any_map]
    rfl
  · have hfront := snapshots_toldAll_of_not_mem (broadcast_not_mem_map_send (s.ahead w.scene m))
      (fun n hn => hsend n (List.mem_append_left _ hn)) id (w.withSession id s') id'
    have hrest := snapshots_toldAll_of_not_mem (broadcast_not_mem_map_send rest)
      (fun n hn => hsend n (List.mem_append_right _ (List.mem_cons_of_mem _
        (List.mem_cons_of_mem _ hn)))) id w₁ id'
    rw [hqueued, toldAll_append, snapshots_append, heq, hfront, List.nil_append]
    show snapshots ((lobby.publish id s'.view).offered id' ++ toldAll id w₁ (rest.map .send) id') = _
    rw [snapshots_append, hrest, List.append_nil, snapshots_offered]

theorem exists_broadcasts_close {w : World} {id : ConnectionId}
    (ha : w.announces (.close id) = true) : ∃ l, w.Broadcasts (.close id) l := by
  rw [announces] at ha
  refine ⟨w.lobby.leave id, ?_, fun id' => ?_, fun id' => ?_⟩
  · simp only [step, close, ha]
    exact Lobby.views_broadcast _
  · -- The line of the connection that ends is marked, which takes up no room.
    obtain ⟨mark, hmark⟩ := w.lobby.get?_lines_leave id id'
    rw [hmark, Option.any_map]
    rfl
  · rw [queuedBy_close, ha, if_pos rfl, snapshots_offered]

theorem exists_broadcasts {w : World} (hw : w.Sound) {e : Event} (ha : w.announces e = true) :
    ∃ l, w.Broadcasts e l := by
  cases e with
  | message id m =>
    cases hs : w.sessions.get? id with
    | none =>
      rw [announces, hs] at ha
      cases ha
    | some s =>
      rw [announces, hs] at ha
      exact exists_broadcasts_message hw hs ha
  | close id => exact exists_broadcasts_close ha
  | _ => cases ha

/-- When everyone is told, each connection that is registered afterwards and has room is told once
what is shown afterwards. -/
theorem snapshots_queuedBy {w : World} (hw : w.Sound) {e : Event} (ha : w.announces e = true)
    (id' : ConnectionId) :
    snapshots (w.queuedBy e id') =
      if w.hasRoom e id' then
        (((w.step e).lobby.views.get? id').map
          (Lobby.snapshotFor (w.step e).lobby.views)).toList
      else [] := by
  obtain ⟨l, hl⟩ := exists_broadcasts hw ha
  rw [hl.told, Lobby.offered_eq hl.views (hl.room id')]

theorem snapshots_queuedBy_of_not_announces {w : World} (hw : w.Sound) {e : Event}
    (ha : w.announces e = false) (id' : ConnectionId) : snapshots (w.queuedBy e id') = [] := by
  cases e with
  | message id m =>
    cases hs : w.sessions.get? id with
    | none => rw [queuedBy_message_of_none hs, snapshots_nil]
    | some s =>
      have hp := s.handling w.scene m
      rw [announces, hs] at ha
      rw [queuedBy_message hw hs]
      exact snapshots_toldAll_of_not_mem (hp.broadcast_not_mem ha)
        (fun n => hp.isSnapshot_eq_false) ..
  | close id =>
    rw [announces] at ha
    rw [queuedBy_close, ha]
    rfl
  | connect => rw [queuedBy_connect hw, snapshots_nil]
  | wait ms => rw [queuedBy_wait, snapshots_nil]
  | report reports now => rw [queuedBy_report, snapshots_nil]
  | remove id => rw [queuedBy_remove, snapshots_nil]
  | collect id => rw [queuedBy_collect, snapshots_nil]

/-- What a connection is told is sent by the actions of its message, or it is a snapshot of views
that sessions have after the event. -/
theorem mem_queuedBy {w : World} (hw : w.Sound) {e : Event} {id' : ConnectionId}
    {m : ServerMessage} (h : m ∈ w.queuedBy e id') :
    (∃ c s, e = .message id' c ∧ w.sessions.get? id' = some s ∧
        .send m ∈ (s.handle w.scene c).2) ∨
      ∃ shown u, m = Lobby.snapshotFor shown u ∧
        ∀ id v, shown.get? id = some v → ∃ s, (w.step e).sessions.get? id = some s ∧ v = s.view := by
  cases hsnap : m.isSnapshot with
  | true =>
    have hm : m ∈ snapshots (w.queuedBy e id') := List.mem_filter.2 ⟨h, hsnap⟩
    cases ha : w.announces e with
    | false =>
      rw [snapshots_queuedBy_of_not_announces hw ha] at hm
      cases hm
    | true =>
      rw [snapshots_queuedBy hw ha] at hm
      split at hm
      next =>
        obtain ⟨u, -, rfl⟩ := Option.map_eq_some_iff.1 (Option.mem_toList.1 hm)
        exact .inr ⟨_, u, rfl, fun _ _ hv => (sound_step hw e).views hv⟩
      next => cases hm
  | false =>
    have hm : m ∈ withoutSnapshots (w.queuedBy e id') :=
      List.mem_filter.2 ⟨h, by rw [hsnap]; rfl⟩
    by_cases hown : ∃ c, e = .message id' c
    · obtain ⟨c, rfl⟩ := hown
      cases hs : w.sessions.get? id' with
      | none =>
        rw [queuedBy_message_of_none hs] at h
        cases h
      | some s =>
        rw [withoutSnapshots_queuedBy_message hw hs] at hm
        exact .inl ⟨c, s, rfl, rfl, Action.mem_filterMap_message?.1 (List.mem_filter.1 hm).1⟩
    · rw [withoutSnapshots_queuedBy hw fun c heq => hown ⟨c, heq⟩] at hm
      cases hm

end World

end TileRealm
