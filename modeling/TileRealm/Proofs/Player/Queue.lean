import TileRealm.Proofs.Player.Sound

/-!
# What an event queues

The messages that an event adds to the line of a connection (`World.queuedBy`).  A connection is
told what the actions of its own messages send to it (`World.withoutSnapshots_queuedBy_message`); all
else that it is told is snapshots (`World.withoutSnapshots_queuedBy`).
-/

namespace TileRealm

namespace ServerMessage

/-- Whether a message is a snapshot of all players. -/
def isSnapshot : ServerMessage → Bool
  | playersSnapshot .. => true
  | _ => false

/-- The messages other than snapshots. -/
def withoutSnapshots (ms : List ServerMessage) : List ServerMessage :=
  ms.filter fun m => !m.isSnapshot

@[simp] theorem withoutSnapshots_nil : withoutSnapshots [] = [] := rfl

theorem withoutSnapshots_append (ms ns : List ServerMessage) :
    withoutSnapshots (ms ++ ns) = withoutSnapshots ms ++ withoutSnapshots ns :=
  List.filter_append ..

end ServerMessage

namespace Action

/-- The message that an action sends to the player. -/
def message? : Action → Option ServerMessage
  | .send m => some m
  | _ => none

theorem filterMap_message?_send (m : ServerMessage) (as : List Action) :
    (.send m :: as : List Action).filterMap message? = m :: as.filterMap message? := rfl

theorem filterMap_message?_map_send (ms : List ServerMessage) :
    (ms.map Action.send).filterMap message? = ms := by
  induction ms with
  | nil => rfl
  | cons m ms ih => rw [List.map_cons, filterMap_message?_send, ih]

theorem mem_filterMap_message? {m : ServerMessage} {as : List Action} :
    m ∈ as.filterMap message? ↔ .send m ∈ as := by
  rw [List.mem_filterMap]
  constructor
  · rintro ⟨a, ha, hm⟩
    cases a with
    | send n => rwa [← Option.some.inj hm]
    | _ => cases hm
  · exact fun ha => ⟨_, ha, rfl⟩

end Action

namespace World

/-! ### Actions -/

/-- What an action of one connection adds to the line of another, or to its own. -/
def told (id : ConnectionId) (w : World) (a : Action) (id' : ConnectionId) :
    List ServerMessage :=
  match a with
  | .send m => if id' = id then [m] else []
  | .broadcast => w.lobby.offered id'
  | _ => []

/-- What actions of one connection add to the line of another, or to its own. -/
def toldAll (id : ConnectionId) (w : World) : List Action → ConnectionId → List ServerMessage
  | [], _ => []
  | a :: as, id' => told id w a id' ++ toldAll id (perform id w a) as id'

theorem queued_perform {id : ConnectionId} {w : World} (h : w.lobby.hungUp? id = some false)
    (a : Action) (id' : ConnectionId) :
    (perform id w a).lobby.queued id' = w.lobby.queued id' ++ told id w a id' := by
  cases a with
  | send m =>
    by_cases hid : id' = id
    · obtain ⟨line, hl, ho⟩ := Lobby.exists_line_of_hungUp? h
      rw [told, if_pos hid, hid]
      exact Lobby.queued_send hl ho m
    · rw [told, if_neg hid, List.append_nil]
      exact Lobby.queued_send_of_ne hid w.lobby m
  | broadcast => exact Lobby.queued_broadcast w.lobby id'
  | _ => exact (List.append_nil _).symm

theorem queued_performAll {id : ConnectionId} {w : World} (h : w.lobby.hungUp? id = some false)
    (as : List Action) (id' : ConnectionId) :
    (performAll id w as).lobby.queued id' = w.lobby.queued id' ++ toldAll id w as id' := by
  induction as generalizing w with
  | nil => exact (List.append_nil _).symm
  | cons a as ih =>
    rw [performAll_cons, ih (by rwa [hungUp?_perform]), queued_perform h, toldAll,
      List.append_assoc]

theorem withoutSnapshots_offered (l : Lobby) (id : ConnectionId) :
    ServerMessage.withoutSnapshots (l.offered id) = [] := by
  refine List.filter_eq_nil_iff.2 fun m hm => ?_
  obtain ⟨v, -, rfl⟩ := Lobby.mem_offered hm
  simp [Lobby.snapshotFor, ServerMessage.isSnapshot]

/-- But for snapshots, actions tell their own connection what they send. -/
theorem withoutSnapshots_toldAll_self (id : ConnectionId) (w : World) (as : List Action) :
    ServerMessage.withoutSnapshots (toldAll id w as id) =
      ServerMessage.withoutSnapshots (as.filterMap Action.message?) := by
  induction as generalizing w with
  | nil => rfl
  | cons a as ih =>
    rw [toldAll, ServerMessage.withoutSnapshots_append, ih]
    cases a with
    | send m =>
      rw [told, if_pos rfl, Action.filterMap_message?_send,
        ← ServerMessage.withoutSnapshots_append, List.singleton_append]
    | broadcast => rw [told, withoutSnapshots_offered]; rfl
    | _ => rfl

/-- But for snapshots, actions tell other connections nothing. -/
theorem withoutSnapshots_toldAll_of_ne {id id' : ConnectionId} (h : id' ≠ id) (w : World)
    (as : List Action) : ServerMessage.withoutSnapshots (toldAll id w as id') = [] := by
  induction as generalizing w with
  | nil => rfl
  | cons a as ih =>
    rw [toldAll, ServerMessage.withoutSnapshots_append, ih, List.append_nil]
    cases a with
    | send m => rw [told, if_neg h]; rfl
    | broadcast => exact withoutSnapshots_offered ..
    | _ => rfl

/-- All that actions tell a connection is snapshots and, if it is their own, what they send. -/
theorem mem_toldAll {id id' : ConnectionId} {w : World} {as : List Action} {m : ServerMessage}
    (h : m ∈ toldAll id w as id') : id' = id ∧ .send m ∈ as ∨ m.isSnapshot = true := by
  induction as generalizing w with
  | nil => cases h
  | cons a as ih =>
    rw [toldAll, List.mem_append] at h
    rcases h with h | h
    · cases a with
      | send n =>
        rw [told] at h
        split at h
        next hid =>
          rw [List.mem_singleton.1 h]
          exact .inl ⟨hid, List.mem_cons_self⟩
        next => cases h
      | broadcast =>
        obtain ⟨v, -, rfl⟩ := Lobby.mem_offered h
        exact .inr rfl
      | _ => cases h
    · exact (ih h).imp_left fun ⟨hid, hm⟩ => ⟨hid, List.mem_cons_of_mem a hm⟩

/-! ### Events -/

/-- What an event adds to the line of a connection. -/
def queuedBy (w : World) (e : Event) (id : ConnectionId) : List ServerMessage :=
  ((w.step e).lobby.queued id).drop (w.lobby.queued id).length

/-- All that was ever queued for a connection in a run. -/
def transcript (w : World) (id : ConnectionId) (es : List Event) : List ServerMessage :=
  w.along (fun w e => w.queuedBy e id) es

theorem transcript_concat (w : World) (id : ConnectionId) (es : List Event) (e : Event) :
    w.transcript id (es ++ [e]) = w.transcript id es ++ (w.run es).queuedBy e id :=
  along_concat ..

theorem queuedBy_of_append {w : World} {e : Event} {id : ConnectionId} {ms : List ServerMessage}
    (h : (w.step e).lobby.queued id = w.lobby.queued id ++ ms) : w.queuedBy e id = ms := by
  rw [queuedBy, h, List.drop_left]

theorem queuedBy_of_eq {w : World} {e : Event} {id : ConnectionId}
    (h : (w.step e).lobby.queued id = w.lobby.queued id) : w.queuedBy e id = [] := by
  rw [queuedBy, h, List.drop_length]

theorem queuedBy_message {w : World} (hw : w.Sound) {id : ConnectionId} {s : Session}
    (hs : w.sessions.get? id = some s) (m : ClientMessage) (id' : ConnectionId) :
    w.queuedBy (.message id m) id' =
      toldAll id (w.withSession id (s.handle w.scene m).1) (s.handle w.scene m).2 id' := by
  refine queuedBy_of_append ?_
  rw [step, dispatch_of_some hs, queued_expire]
  exact queued_performAll (w := w.withSession id _) (hw.hungUp? hs) ..

theorem queuedBy_message_of_none {w : World} {id : ConnectionId}
    (hs : w.sessions.get? id = none) (m : ClientMessage) (id' : ConnectionId) :
    w.queuedBy (.message id m) id' = [] :=
  queuedBy_of_eq (by rw [step, dispatch_of_none hs])

theorem queuedBy_connect {w : World} (hw : w.Sound) (id' : ConnectionId) :
    w.queuedBy .connect id' = [] := by
  refine queuedBy_of_eq ?_
  by_cases h : id' = w.nextConnection
  · rw [h, hw.queued_nextConnection]
    show (w.lobby.join w.nextConnection outboundQueue).queued w.nextConnection = []
    simp only [Lobby.queued, Lobby.join, Table.get?_insert_self]
  · exact Lobby.queued_eq_of_get? (Table.get?_insert_of_ne h _)

theorem queuedBy_collect (w : World) (id id' : ConnectionId) :
    w.queuedBy (.collect id) id' = [] := by
  have h : (w.step (.collect id)).lobby.queued id' = if id' = id then [] else w.lobby.queued id' :=
    Lobby.queued_drain ..
  by_cases hid : id' = id
  · rw [queuedBy, h, if_pos hid, List.drop_nil]
  · exact queuedBy_of_eq (by rw [h, if_neg hid])

/-- The end of a connection tells the others a snapshot at most. -/
theorem queuedBy_close (w : World) (id id' : ConnectionId) :
    w.queuedBy (.close id) id' =
      if (w.sessions.get? id).any fun s => s.clientId ≠ 0 then (w.lobby.leave id).offered id'
      else [] := by
  refine queuedBy_of_append ?_
  simp only [step, close]
  split
  next =>
    refine (Lobby.queued_broadcast (w.lobby.leave id) id').trans ?_
    rw [Lobby.queued_leave]
  next =>
    rw [List.append_nil]
    exact Lobby.queued_leave ..

theorem queuedBy_wait (w : World) (ms : Nat) (id' : ConnectionId) :
    w.queuedBy (.wait ms) id' = [] :=
  queuedBy_of_eq (queued_expire { w with now := w.now + ms } id')

theorem queuedBy_report (w : World) (reports : List AddressReport) (now : Int)
    (id' : ConnectionId) : w.queuedBy (.report reports now) id' = [] :=
  queuedBy_of_eq rfl

theorem queuedBy_remove (w : World) (id id' : ConnectionId) :
    w.queuedBy (.remove id) id' = [] :=
  queuedBy_of_eq (Lobby.queued_leave ..)

/-- But for snapshots, a message tells its connection what the actions send. -/
theorem withoutSnapshots_queuedBy_message {w : World} (hw : w.Sound) {id : ConnectionId}
    {s : Session} (hs : w.sessions.get? id = some s) (m : ClientMessage) :
    ServerMessage.withoutSnapshots (w.queuedBy (.message id m) id) =
      ServerMessage.withoutSnapshots ((s.handle w.scene m).2.filterMap Action.message?) := by
  rw [queuedBy_message hw hs, withoutSnapshots_toldAll_self]

/-- But for snapshots, nothing but its own messages has a connection told anything. -/
theorem withoutSnapshots_queuedBy {w : World} (hw : w.Sound) {e : Event} {id' : ConnectionId}
    (h : ∀ m, e ≠ .message id' m) : ServerMessage.withoutSnapshots (w.queuedBy e id') = [] := by
  cases e with
  | message id m =>
    have hid : id' ≠ id := fun hid => h m (by rw [hid])
    cases hs : w.sessions.get? id with
    | none => rw [queuedBy_message_of_none hs]; rfl
    | some s => rw [queuedBy_message hw hs, withoutSnapshots_toldAll_of_ne hid]
  | close id =>
    rw [queuedBy_close]
    split
    · exact withoutSnapshots_offered ..
    · rfl
  | connect => rw [queuedBy_connect hw]; rfl
  | wait ms => rw [queuedBy_wait]; rfl
  | report reports now => rw [queuedBy_report]; rfl
  | remove id => rw [queuedBy_remove]; rfl
  | collect id => rw [queuedBy_collect]; rfl

end World

end TileRealm
