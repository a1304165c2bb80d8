import TileRealm.Proofs.Player.Assignment
import TileRealm.Proofs.Player.Handoff

/-!
# Registrations

A connection is registered from when it comes to when it is first removed, by a timer, by its own end
or otherwise; no other removal finds it (`World.isRegistered_run`, `World.count_endings`).  A timer
that is set removes its connection when its time has come (`World.mem_removals_of_mem_timers`), so a
player who was handed over is gone when the grace is over (`World.registrations_of_run`).
-/

namespace TileRealm

namespace Lobby

/-! ### Removals -/

/-- The connections that are found when connections are removed one after the other. -/
def found (l : Lobby) : List ConnectionId → List ConnectionId
  | [] => []
  | id :: ids => (if l.isRegistered id then [id] else []) ++ (l.leave id).found ids

theorem isRegistered_leave {l : Lobby} {id id' : ConnectionId} :
    (l.leave id).isRegistered id' = true ↔ l.isRegistered id' = true ∧ id' ≠ id := by
  rw [isRegistered, Table.contains, get?_views_leave, isRegistered, Table.contains]
  by_cases h : id' = id
  · simp [h]
  · simp [h]

theorem isRegistered_foldl_leave {l : Lobby} {ids : List ConnectionId} {id : ConnectionId} :
    (ids.foldl leave l).isRegistered id = true ↔ l.isRegistered id = true ∧ id ∉ ids := by
  induction ids generalizing l with
  | nil => simp
  | cons a ids ih => rw [List.foldl_cons, ih, isRegistered_leave, List.mem_cons, not_or, and_assoc]

/-- However often a connection is removed, it is found once. -/
theorem count_found (l : Lobby) (ids : List ConnectionId) (id : ConnectionId) :
    (l.found ids).count id = if l.isRegistered id = true ∧ id ∈ ids then 1 else 0 := by
  induction ids generalizing l with
  | nil => simp [found]
  | cons a ids ih =>
    rw [found, List.count_append, ih]
    by_cases h : id = a
    · subst h
      by_cases hr : l.isRegistered id = true
      · simp [hr, isRegistered_leave]
      · simp [hr, isRegistered_leave]
    · have hcount : (if l.isRegistered a = true then [a] else []).count id = 0 := by
        refine List.count_eq_zero_of_not_mem ?_
        split
        · simpa using h
        · simp
      simp [hcount, h, isRegistered_leave]

/-! ### Notices -/

/-- A notice is a mark on the line, which queued messages do not change. -/
theorem isDismissed_eq_of_map {l l' : Lobby} {id : ConnectionId}
    (h : (l'.lines.get? id).map Line.dismissed = (l.lines.get? id).map Line.dismissed) :
    l'.isDismissed id = l.isDismissed id := by
  have hany := congrArg (Option.any fun b => b) h
  rwa [Option.any_map, Option.any_map] at hany

/-- A connection is told of its removal if the removal finds it. -/
theorem isDismissed_leave {l : Lobby} (hl : ∀ id, l.isRegistered id = true → l.lines.contains id = true)
    {id id' : ConnectionId} : (l.leave id).isDismissed id' = true ↔
      l.isDismissed id' = true ∨ l.isRegistered id' = true ∧ id' = id := by
  unfold leave
  split
  next h =>
    rw [isDismissed, Table.get?_modify, isDismissed]
    by_cases hid : id' = id
    · subst hid
      obtain ⟨line, hline⟩ := Option.isSome_iff_exists.1 (hl _ h)
      simp [hline, h]
    · simp [hid]
  next h =>
    refine ⟨.inl, ?_⟩
    rintro (hd | ⟨hr, rfl⟩)
    · exact hd
    · exact absurd hr h

theorem isDismissed_foldl_leave {l : Lobby}
    (hl : ∀ id, l.isRegistered id = true → l.lines.contains id = true)
    {ids : List ConnectionId} {id : ConnectionId} : (ids.foldl leave l).isDismissed id = true ↔
      l.isDismissed id = true ∨ l.isRegistered id = true ∧ id ∈ ids := by
  induction ids generalizing l with
  | nil => simp
  | cons a ids ih =>
    have hl' : ∀ id, (l.leave a).isRegistered id = true → (l.leave a).lines.contains id = true := by
      intro id hr
      have := hl id (isRegistered_leave.1 hr).1
      obtain ⟨mark, h⟩ := l.get?_lines_leave a id
      rw [Table.contains, h]
      simpa [Table.contains] using this
    rw [List.foldl_cons, ih hl', isDismissed_leave hl, isRegistered_leave, List.mem_cons]
    by_cases h : id = a
    · simp [h]
    · simp [h]

end Lobby

namespace World

/-! ### Removals by events -/

/-- The connections whose timers have run out. -/
def due (w : World) : List ConnectionId :=
  (w.timers.filter fun t => t.due ≤ w.now).map Timer.connection

/-- A world in which a message was handled, but no timer was looked at. -/
def handled (w : World) (id : ConnectionId) (m : ClientMessage) : World :=
  match w.sessions.get? id with
  | some s => performAll id (w.withSession id (s.handle w.scene m).1) (s.handle w.scene m).2
  | none => w

/-- The connections that an event removes, in the order of the removals: those that end and those
whose time has come. -/
def removedBy (w : World) : Event → List ConnectionId
  | .remove id => [id]
  | .close id => [id]
  | .message id m => (w.handled id m).due
  | .wait ms => { w with now := w.now + ms : World }.due
  | _ => []

/-- The connections that are removed in a run. -/
def removals (w : World) (es : List Event) : List ConnectionId := w.along removedBy es

/-- The connections that are found to be registered when they are removed in a run. -/
def endings (w : World) (es : List Event) : List ConnectionId :=
  w.along (fun w e => w.lobby.found (w.removedBy e)) es

@[simp] theorem removals_nil (w : World) : w.removals [] = [] := rfl

theorem removals_cons (w : World) (e : Event) (es : List Event) :
    w.removals (e :: es) = w.removedBy e ++ (w.step e).removals es := rfl

@[simp] theorem endings_nil (w : World) : w.endings [] = [] := rfl

theorem endings_cons (w : World) (e : Event) (es : List Event) :
    w.endings (e :: es) = w.lobby.found (w.removedBy e) ++ (w.step e).endings es := rfl

theorem lobby_expire (w : World) : w.expire.lobby = w.due.foldl Lobby.leave w.lobby := by
  rw [expire_eq, due, List.foldl_map]

theorem step_message {w : World} (hw : w.Sound) (id : ConnectionId) (m : ClientMessage) :
    w.step (.message id m) = (w.handled id m).expire := by
  cases hs : w.sessions.get? id with
  | none => simp only [step, dispatch_of_none hs, handled, hs, expire_eq_self hw.timers]
  | some s => simp only [step, dispatch_of_some hs, handled, hs]

theorem isRegistered_performAll (id : ConnectionId) (w : World) (as : List Action)
    (id' : ConnectionId) : (performAll id w as).lobby.isRegistered id' = w.lobby.isRegistered id' := by
  rw [Lobby.isRegistered, Table.contains, Lobby.isRegistered, Table.contains]
  by_cases h : id' = id
  · rw [h, get?_views_performAll, Option.isSome_map]
  · rw [get?_views_performAll_of_ne h]

theorem isRegistered_handled (w : World) (id : ConnectionId) (m : ClientMessage)
    (id' : ConnectionId) : (w.handled id m).lobby.isRegistered id' = w.lobby.isRegistered id' := by
  rw [handled]
  split
  next s hs => exact isRegistered_performAll ..
  next => rfl

/-- After an event a connection is registered if it was, or has just come, and was not removed. -/
theorem isRegistered_step {w : World} (hw : w.Sound) (e : Event) (id : ConnectionId) :
    (w.step e).lobby.isRegistered id = true ↔
      (w.lobby.isRegistered id = true ∨ e = .connect ∧ id = w.nextConnection) ∧
        id ∉ w.removedBy e := by
  cases e with
  | connect =>
    show (w.lobby.views.insert w.nextConnection {}).contains id = true ↔ _
    rw [Table.contains, Table.get?_insert]
    by_cases h : id = w.nextConnection
    · simp [h, removedBy]
    · simp [h, removedBy, Lobby.isRegistered, Table.contains]
  | message id' m =>
    rw [step_message hw, lobby_expire, Lobby.isRegistered_foldl_leave, isRegistered_handled]
    simp [removedBy]
  | wait ms =>
    rw [step, advance, lobby_expire, Lobby.isRegistered_foldl_leave]
    simp [removedBy]
  | remove id' =>
    show (w.lobby.leave id').isRegistered id = true ↔ _
    simp [Lobby.isRegistered_leave, removedBy]
  | close id' =>
    rw [step, Lobby.isRegistered, views_close]
    show (w.lobby.leave id').isRegistered id = true ↔ _
    simp [Lobby.isRegistered_leave, removedBy]
  | report reports now => simp [step, report, removedBy]
  | collect id' =>
    show w.lobby.isRegistered id = true ↔ _
    simp [removedBy]

theorem contains_lines {w : World} (hw : w.Sound) {id : ConnectionId}
    (h : w.lobby.isRegistered id = true) : w.lobby.lines.contains id = true := by
  obtain ⟨v, hv⟩ := Option.isSome_iff_exists.1 h
  obtain ⟨s, hs, -⟩ := hw.views hv
  obtain ⟨line, hline, -⟩ := Lobby.exists_line_of_hungUp? (hw.hungUp? hs)
  exact Table.contains_iff_exists.2 ⟨line, hline⟩

theorem map_lines_handled {α : Type} {f : Line → α}
    (hf : ∀ line ms, f { line with queued := ms } = f line) (w : World) (id : ConnectionId)
    (m : ClientMessage) (id' : ConnectionId) :
    ((w.handled id m).lobby.lines.get? id').map f = (w.lobby.lines.get? id').map f := by
  rw [handled]
  split
  next s hs => exact map_lines_performAll hf ..
  next => rfl

/-- An event tells a connection that it was removed if it was registered and the event removes
it. -/
theorem isDismissed_step {w : World} (hw : w.Sound) (e : Event) (id : ConnectionId) :
    (w.step e).lobby.isDismissed id = true ↔
      w.lobby.isDismissed id = true ∨ w.lobby.isRegistered id = true ∧ id ∈ w.removedBy e := by
  have hl : ∀ id, w.lobby.isRegistered id = true → w.lobby.lines.contains id = true :=
    fun _ => contains_lines hw
  cases e with
  | connect =>
    show ((w.lobby.lines.insert w.nextConnection _).get? id).any _ = true ↔ _
    by_cases h : id = w.nextConnection
    · have hnone : w.lobby.lines.get? id = none := by
        have := hw.lines id
        rwa [if_neg (h ▸ Nat.lt_irrefl _), Lobby.hungUp?, Option.map_eq_none_iff] at this
      simp [h ▸ hnone, h, Lobby.isDismissed, removedBy]
    · rw [Table.get?_insert_of_ne h]
      simp [Lobby.isDismissed, removedBy]
  | message id' m =>
    have hl' : ∀ id, (w.handled id' m).lobby.isRegistered id = true →
        (w.handled id' m).lobby.lines.contains id = true := by
      intro id hr
      rw [isRegistered_handled] at hr
      have := map_lines_handled (f := fun _ => ()) (fun _ _ => rfl) w id' m id
      rw [Table.contains, ← Option.isSome_map, this, Option.isSome_map]
      exact hl id hr
    rw [step_message hw, lobby_expire, Lobby.isDismissed_foldl_leave hl', isRegistered_handled,
      Lobby.isDismissed_eq_of_map (map_lines_handled (fun _ _ => rfl) ..)]
    rfl
  | wait ms =>
    rw [step, advance, lobby_expire, Lobby.isDismissed_foldl_leave hl]
    rfl
  | remove id' =>
    show (w.lobby.leave id').isDismissed id = true ↔ _
    simp [Lobby.isDismissed_leave hl, removedBy]
  | close id' =>
    have hlines : ((w.close id').lobby.lines.get? id).map Line.dismissed =
        ((w.lobby.leave id').lines.get? id).map Line.dismissed := by
      simp only [close]
      split
      · exact Lobby.map_lines_broadcast (fun _ _ => rfl) ..
      · rfl
    rw [step, Lobby.isDismissed_eq_of_map hlines, Lobby.isDismissed_leave hl]
    simp [removedBy]
  | report reports now => simp [step, report, removedBy]
  | collect id' =>
    have hlines := Lobby.map_lines_drain (f := Line.dismissed) (fun _ _ => rfl) w.lobby id' id
    show (w.lobby.drain id').isDismissed id = true ↔ _
    rw [Lobby.isDismissed_eq_of_map hlines]
    simp [removedBy]

/-! ### Registrations in a run -/

section Runs

variable {w : World} (hw : w.Sound) {id : ConnectionId} (hid : id < w.nextConnection)
  (es : List Event)

include hw hid

/-- A connection that has come stays registered until it is removed. -/
theorem isRegistered_run : (w.run es).lobby.isRegistered id = true ↔
    w.lobby.isRegistered id = true ∧ id ∉ w.removals es := by
  induction es generalizing w with
  | nil => simp
  | cons e es ih =>
    have hid' := Nat.lt_of_lt_of_le hid (step_frame w e).2.2.2
    rw [run_cons, ih (sound_step hw e) hid', isRegistered_step hw, removals_cons, List.mem_append,
      not_or, and_assoc]
    simp [Nat.ne_of_lt hid]

/-- A connection that is not registered is not registered again. -/
theorem isRegistered_run_eq_false (h : w.lobby.isRegistered id = false) :
    (w.run es).lobby.isRegistered id = false := by
  rw [Bool.eq_false_iff, ne_eq, isRegistered_run hw hid, h]
  simp

/-- A connection is told once it was removed. -/
theorem isDismissed_run : (w.run es).lobby.isDismissed id = true ↔
    w.lobby.isDismissed id = true ∨ w.lobby.isRegistered id = true ∧ id ∈ w.removals es := by
  induction es generalizing w with
  | nil => simp
  | cons e es ih =>
    have hid' := Nat.lt_of_lt_of_le hid (step_frame w e).2.2.2
    rw [run_cons, ih (sound_step hw e) hid', isDismissed_step hw, isRegistered_step hw,
      removals_cons, List.mem_append]
    simp only [Nat.ne_of_lt hid, and_false, or_false]
    tauto

/-- Only the first removal of a connection finds it. -/
theorem count_endings : (w.endings es).count id =
    if w.lobby.isRegistered id = true ∧ id ∈ w.removals es then 1 else 0 := by
  induction es generalizing w with
  | nil => simp
  | cons e es ih =>
    have hid' := Nat.lt_of_lt_of_le hid (step_frame w e).2.2.2
    rw [endings_cons, List.count_append, Lobby.count_found, ih (sound_step hw e) hid']
    simp only [isRegistered_step hw, removals_cons, List.mem_append]
    by_cases hr : w.lobby.isRegistered id = true
    · by_cases he : id ∈ w.removedBy e
      · simp [hr, he]
      · simp [hr, he]
    · simp [hr, Nat.ne_of_lt hid]

end Runs

theorem lt_nextConnection {w : World} (hw : w.Sound) {id : ConnectionId}
    (h : w.lobby.isRegistered id = true) : id < w.nextConnection := by
  obtain ⟨v, hv⟩ := Option.isSome_iff_exists.1 h
  obtain ⟨s, hs, -⟩ := hw.views hv
  exact hw.sessions_lt hs

/-- No removal finds a connection that has not come. -/
theorem count_endings_of_le {w : World} (hw : w.Sound) {id : ConnectionId} {es : List Event}
    (h : (w.run es).nextConnection ≤ id) : (w.endings es).count id = 0 := by
  induction es generalizing w with
  | nil => rfl
  | cons e es ih =>
    have hid : ¬id < w.nextConnection :=
      Nat.not_lt.2 (Nat.le_trans (nextConnection_le_run w (e :: es)) h)
    rw [endings_cons, List.count_append, Lobby.count_found, ih (sound_step hw e) h, if_neg]
    exact fun hr => hid (lt_nextConnection hw hr.1)

section Connections

variable {w : World} (hw : w.Sound) (es : List Event)

include hw

theorem isRegistered_step_connect :
    (w.step .connect).lobby.isRegistered w.nextConnection = true := by
  rw [isRegistered_step hw]
  simp [removedBy]

/-- A new connection is registered until it is removed, and then it is told. -/
theorem isRegistered_run_connect :
    ((w.run (.connect :: es)).lobby.isRegistered w.nextConnection = true ↔
      w.nextConnection ∉ (w.step .connect).removals es) ∧
    ((w.run (.connect :: es)).lobby.isDismissed w.nextConnection = true ↔
      w.nextConnection ∈ (w.step .connect).removals es) := by
  have hw' := sound_step hw .connect
  have hid : w.nextConnection < (w.step .connect).nextConnection := Nat.lt_succ_self _
  have htold : (w.step .connect).lobby.isDismissed w.nextConnection = false := by
    show ((w.lobby.lines.insert w.nextConnection _).get? w.nextConnection).any _ = false
    rw [Table.get?_insert_self]
    rfl
  rw [run_cons, isRegistered_run hw' hid, isDismissed_run hw' hid, isRegistered_step_connect hw,
    htold]
  simp

/-- One removal of a new connection finds it, if there is any. -/
theorem count_endings_connect : (w.endings (.connect :: es)).count w.nextConnection =
    if w.nextConnection ∈ (w.step .connect).removals es then 1 else 0 := by
  rw [endings_cons, List.count_append, count_endings (sound_step hw .connect) (Nat.lt_succ_self _)]
  simp [isRegistered_step_connect hw, removedBy, Lobby.found]

end Connections

/-! ### Timers -/

theorem mem_timers_performAll {w : World} {t : Timer} (ht : t ∈ w.timers) (id : ConnectionId)
    (as : List Action) : t ∈ (performAll id w as).timers := by
  induction as generalizing w with
  | nil => exact ht
  | cons a as ih =>
    refine ih ?_
    cases a with
    | dismissLater => exact List.mem_append_left _ ht
    | _ => exact ht

theorem mem_timers_handled {w : World} {t : Timer} (ht : t ∈ w.timers) (id : ConnectionId)
    (m : ClientMessage) : t ∈ (w.handled id m).timers := by
  rw [handled]
  split
  next => exact mem_timers_performAll (w := w.withSession id _) ht ..
  next => exact ht

theorem mem_timers_expire {w : World} {t : Timer} (ht : t ∈ w.timers) :
    t ∈ w.expire.timers ∨ t.connection ∈ w.due := by
  rw [expire_eq]
  by_cases h : t.due ≤ w.now
  · exact .inr (List.mem_map_of_mem (List.mem_filter.2 ⟨ht, by simpa using h⟩))
  · exact .inl (List.mem_filter.2 ⟨ht, by simpa using h⟩)

/-- A timer runs until it removes its connection. -/
theorem mem_timers_step {w : World} (hw : w.Sound) {t : Timer} (ht : t ∈ w.timers) (e : Event) :
    t ∈ (w.step e).timers ∨ t.connection ∈ w.removedBy e := by
  cases e with
  | message id m =>
    rw [step_message hw]
    exact mem_timers_expire (mem_timers_handled ht id m)
  | wait ms => exact mem_timers_expire (w := { w with now := w.now + ms }) ht
  | close id =>
    left
    simp only [step, close]
    split <;> exact ht
  | _ => exact .inl ht

/-- A timer has removed its connection when its time has come. -/
theorem mem_removals_of_mem_timers {w : World} (hw : w.Sound) {t : Timer} (ht : t ∈ w.timers)
    {es : List Event} (hdue : t.due ≤ (w.run es).now) : t.connection ∈ w.removals es := by
  induction es generalizing w with
  | nil => exact absurd (hw.timers t ht) (Nat.not_lt.2 hdue)
  | cons e es ih =>
    rw [removals_cons, List.mem_append]
    rcases mem_timers_step hw ht e with h | h
    · exact .inr (ih (sound_step hw e) h hdue)
    · exact .inl h

/-- A handoff sets a timer. -/
theorem exists_timer_of_handoff {w : World} (hw : w.Sound) {e : Event} {id : ConnectionId}
    {region host : String} {port : Int32} {target : Tile}
    (h : .handoff region host port target ∈ w.queuedBy e id) :
    ∃ m s, e = .message id m ∧ w.sessions.get? id = some s ∧
      ⟨w.now + w.grace, id⟩ ∈ (w.handled id m).timers := by
  rcases mem_queuedBy hw h with ⟨m, s, rfl, hs, hsend⟩ | ⟨shown, u, hu, -⟩
  · obtain ⟨x, y, teleport, rfl, ht⟩ := (s.handling w.scene m).answer hsend
    refine ⟨_, s, rfl, hs, ?_⟩
    simp only [handled, hs, Session.handle_of_trigger? ht]
    exact List.mem_append_right _ (List.mem_singleton_self _)
  · cases hu

/-- A player who was handed over is removed before the grace is over. -/
theorem mem_removals_of_handoff {w : World} (hw : w.Sound) {e : Event} {id : ConnectionId}
    {region host : String} {port : Int32} {target : Tile}
    (h : .handoff region host port target ∈ w.queuedBy e id) {es : List Event}
    (hnow : w.now + w.grace ≤ (w.run (e :: es)).now) : id ∈ w.removals (e :: es) := by
  obtain ⟨m, -, rfl, -, ht⟩ := exists_timer_of_handoff hw h
  rw [removals_cons, List.mem_append]
  have hstep := mem_timers_expire ht
  rw [← step_message hw] at hstep
  rcases hstep with ht | hdue
  · exact .inr (mem_removals_of_mem_timers (sound_step hw _) ht hnow)
  · exact .inl hdue

/-! ### Snapshots -/

/-- A snapshot lists players who have an id and are registered. -/
theorem of_mem_snapshot {w : World} (hw : w.Sound) {e : Event} {id : ConnectionId} {myId : Int32}
    {players : List Player} (h : .playersSnapshot myId players ∈ w.queuedBy e id) {p : Player}
    (hp : p ∈ players) : p.id ≠ 0 ∧ ∃ id' s, (w.step e).lobby.isRegistered id' = true ∧
      (w.step e).sessions.get? id' = some s ∧ p = ⟨s.clientId, s.pos, s.moving, s.username⟩ := by
  have hsnap : .playersSnapshot myId players ∈ ServerMessage.snapshots (w.queuedBy e id) :=
    List.mem_filter.2 ⟨h, rfl⟩
  cases ha : w.announces e with
  | false =>
    rw [snapshots_queuedBy_of_not_announces hw ha] at hsnap
    cases hsnap
  | true =>
    rw [snapshots_queuedBy hw ha] at hsnap
    split at hsnap
    next =>
      obtain ⟨u, -, hu⟩ := Option.map_eq_some_iff.1 (Option.mem_toList.1 hsnap)
      obtain ⟨-, rfl⟩ := ServerMessage.playersSnapshot.inj hu
      obtain ⟨id', v, hv, h0, rfl⟩ := Lobby.exists_view_of_mem_roster hp
      obtain ⟨s, hs, rfl⟩ := (sound_step hw e).views hv
      exact ⟨h0, id', s, Option.isSome_iff_exists.2 ⟨_, hv⟩, hs, rfl⟩
    next => cases hsnap

/-- A connection is registered from when it comes to its first removal, which alone finds it and
tells it, and never again.  Who is handed over is removed when the grace is over, and no snapshot
from then on lists that player. -/
theorem registrations_of_run (shard : Shard) (book : AddressBook) (grace now : Nat)
    (es : List Event) :
    let w₀ := fresh shard book grace now
    (∀ es₁ es₂, es = es₁ ++ .connect :: es₂ →
      let id := (w₀.run es₁).nextConnection
      let removals := ((w₀.run es₁).step .connect).removals es₂
      (∀ es₃ es₄, es₁ = es₃ ++ es₄ → (w₀.run es₃).lobby.isRegistered id = false) ∧
      ((w₀.run es).lobby.isRegistered id = true ↔ id ∉ removals) ∧
      ((w₀.run es).lobby.isDismissed id = true ↔ id ∈ removals) ∧
      ((w₀.endings es).count id = if id ∈ removals then 1 else 0) ∧
      (id ∈ removals → ∀ es₃, ((w₀.run es).run es₃).lobby.isRegistered id = false)) ∧
    ∀ es₁ e es₂ id region host port target, es = es₁ ++ e :: es₂ →
      .handoff region host port target ∈ (w₀.run es₁).queuedBy e id →
      (w₀.run es₁).now + grace < (w₀.run es).now →
        (w₀.run es).lobby.isRegistered id = false ∧
        ∀ f id' myId players, .playersSnapshot myId players ∈ (w₀.run es).queuedBy f id' →
          ∀ p ∈ players,
            (∃ id'' s, id'' ≠ id ∧ (w₀.run (es ++ [f])).sessions.get? id'' = some s ∧
              p = ⟨s.clientId, s.pos, s.moving, s.username⟩) ∧
            ((w₀.ids (es ++ [f])).length < 2 ^ 32 → ∀ es₃ es₄ s, es = es₃ ++ es₄ →
              (w₀.run es₃).sessions.get? id = some s → p.id ≠ s.clientId) := by
  intro w₀
  have sound : ∀ es, (w₀.run es).Sound := sound_run shard book grace now
  refine ⟨?_, ?_⟩
  · rintro es₁ es₂ rfl id removals
    have hw := sound es₁
    obtain ⟨hreg, htold⟩ := isRegistered_run_connect hw es₂
    have hcount := count_endings_connect hw es₂
    rw [run_append]
    refine ⟨?_, hreg, htold, ?_, fun hmem es₃ => ?_⟩
    · rintro es₃ es₄ rfl
      refine Bool.eq_false_iff.2 fun h => Nat.not_lt.2 ?_ (lt_nextConnection (sound es₃) h)
      show (w₀.run es₃).nextConnection ≤ (w₀.run (es₃ ++ es₄)).nextConnection
      rw [run_append]
      exact nextConnection_le_run ..
    · rw [endings, along_append, List.count_append]
      show (w₀.endings es₁).count id + ((w₀.run es₁).endings (.connect :: es₂)).count id = _
      rw [count_endings_of_le (sound_fresh ..) (Nat.le_refl _), hcount, Nat.zero_add]
    · have hgone := Bool.eq_false_iff.2 fun h => hreg.1 h hmem
      refine isRegistered_run_eq_false ?_ ?_ es₃ hgone
      · rw [← run_append]
        exact sound _
      · exact Nat.lt_of_lt_of_le (Nat.lt_succ_self _)
          (nextConnection_le_run ((w₀.run es₁).step .connect) es₂)
  · rintro es₁ e es₂ id region host port target rfl hm hnow
    have hw := sound es₁
    obtain ⟨-, s₁, -, hs₁, -⟩ := exists_timer_of_handoff hw hm
    have hid := hw.sessions_lt hs₁
    have hgone : (w₀.run (es₁ ++ e :: es₂)).lobby.isRegistered id = false := by
      rw [run_append] at hnow ⊢
      refine Bool.eq_false_iff.2 fun h => ?_
      refine ((isRegistered_run hw hid _).1 h).2 (mem_removals_of_handoff hw hm ?_)
      rw [grace_run]
      exact Nat.le_of_lt hnow
    refine ⟨hgone, fun f id' myId players hsnap p hp => ?_⟩
    obtain ⟨h0, id'', s, hreg, hs, rfl⟩ := of_mem_snapshot (sound _) hsnap hp
    rw [← run_concat] at hreg hs
    have hother : id'' ≠ id := by
      rintro rfl
      have hid' : id'' < (w₀.run (es₁ ++ e :: es₂)).nextConnection := by
        rw [run_append]
        exact Nat.lt_of_lt_of_le hid (nextConnection_le_run ..)
      rw [run_append, isRegistered_run_eq_false (sound _) hid' [f] hgone] at hreg
      cases hreg
    refine ⟨⟨id'', s, hother, hs, rfl⟩, fun hlt es₃ es₄ s' hes hs' heq => hother ?_⟩
    rw [hes, List.append_assoc] at hs hlt
    exact (belongs_run hs' (heq ▸ h0) hlt _ _ hs).1 heq

/-- A player goes through the gate and back to sending frames.  The timer ends the registration, and
the end of the connection finds none.  The other player is told of a move with nobody else in the
region. -/
theorem registrations_of_run_gate :
    let es₁ : List Event := [.connect, .connect, .message 0 (.clientConfig 1 (some "a")),
      .message 1 (.clientConfig 1 (some "b")), .message 0 (.moveRequest 5 5), .wait 1500]
    let e : Event := .message 0 (.moveRequest 6 5)
    let es₂ : List Event := [.message 0 (.moveState true), .wait 251,
      .message 0 (.clientConfig 1 (some "c")), .message 0 (.moveState false), .remove 0]
    let f : Event := .message 1 (.moveRequest 3 3)
    let w := quietCrossing.run (es₁ ++ e :: es₂)
    .handoff "cave" "" 0 ⟨101, 102⟩ ∈ (quietCrossing.run es₁).queuedBy e 0 ∧
      (quietCrossing.run es₁).now + 250 < w.now ∧ w.lobby.isRegistered 0 = false ∧
      ((quietCrossing.step .connect).removals (es₁.tail ++ e :: es₂)) = [0, 0] ∧
      w.lobby.isDismissed 0 = true ∧ (quietCrossing.endings (es₁ ++ e :: es₂)).count 0 = 1 ∧
      w.queuedBy f 1 =
        [.playersSnapshot 2 [⟨2, ⟨3, 3⟩, false, "b"⟩], .positionUpdate ⟨3, 3⟩] ∧
      ∃ id s, id ≠ 0 ∧ (quietCrossing.run (es₁ ++ e :: es₂ ++ [f])).sessions.get? id = some s ∧
        (⟨2, ⟨3, 3⟩, false, "b"⟩ : Player) = ⟨s.clientId, s.pos, s.moving, s.username⟩ := by
  intro es₁ e es₂ f w
  have hm : .handoff "cave" "" 0 ⟨101, 102⟩ ∈ (quietCrossing.run es₁).queuedBy e 0 := by
    decide +kernel
  have hnow : (quietCrossing.run es₁).now + 250 < w.now := by decide +kernel
  have hremovals : (quietCrossing.step .connect).removals (es₁.tail ++ e :: es₂) = [0, 0] := by
    decide +kernel
  have hq : w.queuedBy f 1 =
      [.playersSnapshot 2 [⟨2, ⟨3, 3⟩, false, "b"⟩], .positionUpdate ⟨3, 3⟩] := by decide +kernel
  have hmem : 0 ∈ (quietCrossing.step .connect).removals (es₁.tail ++ e :: es₂) := by
    simp [hremovals]
  obtain ⟨hconnected, hhanded⟩ :=
    registrations_of_run crossing (.seeded .host crossing.realm) 250 0 (es₁ ++ e :: es₂)
  obtain ⟨-, -, htold, hcount, -⟩ := hconnected [] (es₁.tail ++ e :: es₂) rfl
  obtain ⟨hgone, hsnapshots⟩ := hhanded es₁ e es₂ 0 _ _ _ _ rfl hm hnow
  have hsnap : .playersSnapshot 2 [⟨2, ⟨3, 3⟩, false, "b"⟩] ∈ w.queuedBy f 1 := by
    rw [hq]
    exact List.mem_cons_self
  have hlisted := (hsnapshots f 1 _ _ hsnap _ List.mem_cons_self).1
  exact ⟨hm, hnow, hgone, hremovals, htold.2 hmem, hcount.trans (if_pos hmem), hq, hlisted⟩

end World

end TileRealm
