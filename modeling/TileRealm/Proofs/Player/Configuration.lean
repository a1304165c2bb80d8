import TileRealm.Proofs.Player.Announcement
import TileRealm.Proofs.Player.Ids
import TileRealm.Proofs.Realm.Neighbors

/-!
# Configurations

A configuration sets the width and the name of a session and gives it an id if it has none; the rest
of the session and all other connections stay as they are (`World.step_clientConfig`).  A session that
has its id is left as it is by the same configuration again, which is only answered once more.  But the
id that comes after all other numbers is 0, which is none: a session that was given it is given another
one by the same configuration again (`World.configurations_of_sound`).
-/

namespace TileRealm

namespace Session

/-- The answer to a configuration, by the session that it leaves. -/
def welcome (shard : Shard) (s : Session) : List ServerMessage :=
  [.ghostZoneInfo s.ghostWidth shard.effective, .playerInfo s.clientId,
    .deadZones shard.deadZones]

variable {s : Session} {c : Int32} {width : Int32} {username : Option String}

theorem playerInfo_mem_welcome_iff {shard : Shard} :
    .playerInfo c ∈ s.welcome shard ↔ c = s.clientId := by
  simp [welcome]

theorem clientId_configured_of_ne_zero (h : s.clientId ≠ 0) :
    (s.configured c width username).clientId = s.clientId :=
  if_neg h

theorem clientId_configured_of_eq_zero (h : s.clientId = 0) :
    (s.configured c width username).clientId = c :=
  if_pos h

/-- A session is left without an id only if it had none and the one that it was given is none. -/
theorem clientId_configured_eq_zero_iff :
    (s.configured c width username).clientId = 0 ↔ s.clientId = 0 ∧ c = 0 := by
  unfold configured
  dsimp only
  split
  next h => simp [h]
  next h => simp [h]

theorem ghostWidth_configured_mem (s : Session) (c width : Int32) (username : Option String) :
    1 ≤ (s.configured c width username).ghostWidth ∧
      (s.configured c width username).ghostWidth ≤ 3 := by
  have h := GhostZone.toInt_clampWidth width
  have h1 : (1 : Int32).toInt = 1 := by decide
  have h3 : (3 : Int32).toInt = 3 := by decide
  rw [Int32.le_iff_toInt_le, Int32.le_iff_toInt_le, h1, h3]
  show 1 ≤ (GhostZone.clampWidth width).toInt ∧ (GhostZone.clampWidth width).toInt ≤ 3
  omega

/-- With an id the same configuration changes nothing, whatever id comes next. -/
theorem configured_configured (h : (s.configured c width username).clientId ≠ 0) (c' : Int32) :
    (s.configured c width username).configured c' width username =
      s.configured c width username := by
  unfold configured at h ⊢
  dsimp only at h ⊢
  rw [if_neg h]
  cases username <;> rfl

end Session

namespace Lobby

/-- The lobby after a session has used up an id, if it needs one. -/
def reserve (l : Lobby) (s : Session) : Lobby := if s.clientId = 0 then l.takeId else l

@[simp] theorem views_reserve (l : Lobby) (s : Session) : (l.reserve s).views = l.views := by
  unfold reserve
  split <;> rfl

@[simp] theorem lines_reserve (l : Lobby) (s : Session) : (l.reserve s).lines = l.lines := by
  unfold reserve
  split <;> rfl

theorem reserve_of_ne_zero {s : Session} (h : s.clientId ≠ 0) (l : Lobby) : l.reserve s = l :=
  if_neg h

/-- Showing a view again shows nothing new. -/
theorem publish_publish (l : Lobby) (id : ConnectionId) (v : View) :
    (l.publish id v).publish id v = l.publish id v := by
  have hviews : ((l.publish id v).publish id v).views = (l.publish id v).views := by
    refine Table.ext_get? fun id' => ?_
    rw [get?_views_publish, get?_views_publish, get?_views_publish, if_pos rfl, Option.map_map]
    split <;> rfl
  exact congrArg (fun views => { l with views }) hviews

end Lobby

namespace World

theorem toldAll_map_send (id : ConnectionId) (w : World) (ms : List ServerMessage)
    (id' : ConnectionId) :
    toldAll id w (ms.map .send) id' = if id' = id then ms else [] := by
  induction ms generalizing w with
  | nil => exact (ite_self _).symm
  | cons m ms ih =>
    rw [List.map_cons, toldAll, ih, told]
    split <;> rfl

variable {w : World} {id : ConnectionId} {s : Session}

/-- A configuration changes the session, uses up an id if the session has none, shows the session
and answers. -/
theorem step_clientConfig (hw : w.Sound) (hs : w.sessions.get? id = some s) (width : Int32)
    (username : Option String) :
    let s₁ := s.configured w.lobby.nextId width username
    w.step (.message id (.clientConfig width username)) =
      performAll id ((w.withSession id s₁).withLobby ((w.lobby.reserve s).publish id s₁.view))
        ((s₁.welcome w.shard).map .send) := by
  intro s₁
  have hquiet : .dismissLater ∉ (s.handle w.scene (.clientConfig width username)).2 := by
    unfold Session.handle Session.configure
    dsimp only
    split <;> simp
  rw [step, dispatch_of_some hs, expire_performAll (w := w.withSession id _) hw.timers hquiet]
  unfold Session.handle Session.configure Lobby.reserve
  dsimp only
  split <;> rfl

section Configured

variable {width : Int32} {username : Option String}

/-- Beside the session and the lobby a configuration changes nothing. -/
theorem step_clientConfig_eq (hw : w.Sound) (hs : w.sessions.get? id = some s) :
    w.step (.message id (.clientConfig width username)) =
      (w.withSession id (s.configured w.lobby.nextId width username)).withLobby
        (w.step (.message id (.clientConfig width username))).lobby := by
  have hstep := step_clientConfig hw hs width username
  obtain ⟨lobby, hperform, -, -⟩ := performAll_map_send id _ _
  rw [hstep, hperform]
  rfl

theorem get?_lobby_step_clientConfig_of_ne (hw : w.Sound) (hs : w.sessions.get? id = some s)
    {id' : ConnectionId} (hid : id' ≠ id) :
    (w.step (.message id (.clientConfig width username))).lobby.views.get? id' =
        w.lobby.views.get? id' ∧
      (w.step (.message id (.clientConfig width username))).lobby.lines.get? id' =
        w.lobby.lines.get? id' := by
  have hstep := step_clientConfig hw hs width username
  obtain ⟨lobby, hperform, hviews, hlines⟩ := performAll_map_send id _ _
  rw [hstep, hperform]
  constructor
  · show lobby.views.get? id' = _
    rw [hviews]
    refine (Lobby.get?_views_publish ..).trans ?_
    rw [if_neg hid, Lobby.views_reserve]
  · show lobby.lines.get? id' = _
    rw [hlines, if_neg hid]
    refine Option.map_id'.trans ?_
    show (w.lobby.reserve s).lines.get? id' = _
    rw [Lobby.lines_reserve]

theorem withoutQueues_step_clientConfig (hw : w.Sound) (hs : w.sessions.get? id = some s) :
    (w.step (.message id (.clientConfig width username))).lobby.withoutQueues =
      (w.lobby.reserve s).withoutQueues.publish id
        (s.configured w.lobby.nextId width username).view := by
  rw [step_clientConfig hw hs, withoutQueues_performAll_map_send]
  rfl

theorem queuedBy_clientConfig (hw : w.Sound) (hs : w.sessions.get? id = some s) :
    w.queuedBy (.message id (.clientConfig width username)) id =
      (s.configured w.lobby.nextId width username).welcome w.shard := by
  have hwelcome := fun w' => (toldAll_map_send id w'
    ((s.configured w.lobby.nextId width username).welcome w.shard) id).trans (if_pos rfl)
  rw [queuedBy_message hw hs]
  unfold Session.handle Session.configure
  dsimp only
  split <;> exact hwelcome _

/-- A session that has its id has nothing changed by the same configuration again. -/
theorem step_step_clientConfig (hw : w.Sound) (hs : w.sessions.get? id = some s)
    (hid : (s.configured w.lobby.nextId width username).clientId ≠ 0) :
    let e : Event := .message id (.clientConfig width username)
    ((w.step e).step e).sessions = (w.step e).sessions ∧
      ((w.step e).step e).lobby.withoutQueues = (w.step e).lobby.withoutQueues ∧
      (w.step e).queuedBy e id = w.queuedBy e id := by
  intro e
  have hw₁ : (w.step e).Sound := sound_step hw e
  have hs₁ : (w.step e).sessions.get? id = some (s.configured w.lobby.nextId width username) :=
    sessions_step_message hs _
  have hagain := Session.configured_configured hid (w.step e).lobby.nextId
  have hshard : (w.step e).shard = w.shard := (step_frame w e).1
  refine ⟨?_, ?_, ?_⟩
  · rw [step_clientConfig_eq hw₁ hs₁, hagain]
    exact Table.insert_eq_self hs₁
  · rw [withoutQueues_step_clientConfig hw₁ hs₁, hagain, Lobby.reserve_of_ne_zero hid,
      withoutQueues_step_clientConfig hw hs, Lobby.publish_publish]
  · rw [queuedBy_clientConfig hw₁ hs₁, hagain, hshard, queuedBy_clientConfig hw hs]

theorem nextId_step_clientConfig (hs : w.sessions.get? id = some s) :
    (w.step (.message id (.clientConfig width username))).lobby.nextId =
      if s.clientId = 0 then w.lobby.nextId + 1 else w.lobby.nextId := by
  rw [nextId_step, idsBy_message hs]
  simp only [Session.takesId, decide_eq_true_eq]
  split
  · rfl
  · exact Int32.add_zero _

/-! ### The same configuration again -/

/-- A session that has been given 0 for an id is given 1 by the same configuration again. -/
theorem step_step_clientConfig_of_eq_zero (hw : w.Sound) (hs : w.sessions.get? id = some s)
    (h0 : (s.configured w.lobby.nextId width username).clientId = 0) :
    let e : Event := .message id (.clientConfig width username)
    let w₁ := w.step e
    let w₂ := w₁.step e
    (w₁.sessions.get? id).map Session.clientId = some 0 ∧
      (w₂.sessions.get? id).map Session.clientId = some 1 ∧
      w₁.lobby.nextId = 1 ∧ w₂.lobby.nextId = 2 ∧
      .playerInfo 0 ∈ w.queuedBy e id ∧ .playerInfo 1 ∈ w₁.queuedBy e id := by
  intro e w₁ w₂
  let s₁ := s.configured w.lobby.nextId width username
  have hw₁ : w₁.Sound := sound_step hw e
  have hs₁ : w₁.sessions.get? id = some s₁ := sessions_step_message hs _
  have hs₂ : w₂.sessions.get? id = some (s₁.configured w₁.lobby.nextId width username) :=
    sessions_step_message hs₁ _
  obtain ⟨hs0, hc0⟩ := Session.clientId_configured_eq_zero_iff.1 h0
  have hnext : w₁.lobby.nextId = 1 := by
    rw [nextId_step_clientConfig hs, if_pos hs0, hc0]
    rfl
  have hid : (s₁.configured w₁.lobby.nextId width username).clientId = 1 := by
    rw [Session.clientId_configured_of_eq_zero h0, hnext]
  refine ⟨?_, ?_, hnext, ?_, ?_, ?_⟩
  · rw [hs₁]
    exact congrArg some h0
  · rw [hs₂]
    exact congrArg some hid
  · rw [nextId_step_clientConfig hs₁, if_pos h0, hnext]
    rfl
  · rw [queuedBy_clientConfig hw hs, Session.playerInfo_mem_welcome_iff]
    exact h0.symm
  · rw [queuedBy_clientConfig hw₁ hs₁, Session.playerInfo_mem_welcome_iff]
    exact hid.symm

theorem sessions_step_step_iff (hw : w.Sound) (hs : w.sessions.get? id = some s) :
    let e : Event := .message id (.clientConfig width username)
    ((w.step e).step e).sessions = (w.step e).sessions ↔
      (s.configured w.lobby.nextId width username).clientId ≠ 0 := by
  intro e
  refine ⟨fun h h0 => ?_, fun h => (step_step_clientConfig hw hs h).1⟩
  obtain ⟨hid₁, hid₂, -⟩ := step_step_clientConfig_of_eq_zero hw hs h0
  rw [h, hid₁] at hid₂
  cases hid₂

theorem withoutQueues_step_step_iff (hw : w.Sound) (hs : w.sessions.get? id = some s) :
    let e : Event := .message id (.clientConfig width username)
    ((w.step e).step e).lobby.withoutQueues = (w.step e).lobby.withoutQueues ↔
      (s.configured w.lobby.nextId width username).clientId ≠ 0 := by
  intro e
  refine ⟨fun h h0 => ?_, fun h => (step_step_clientConfig hw hs h).2.1⟩
  obtain ⟨-, -, hnext₁, hnext₂, -⟩ := step_step_clientConfig_of_eq_zero hw hs h0
  have hsame : ((w.step e).step e).lobby.nextId = (w.step e).lobby.nextId :=
    (congrArg Lobby.nextId h :)
  rw [hnext₁, hnext₂] at hsame
  cases hsame

theorem queuedBy_step_iff (hw : w.Sound) (hs : w.sessions.get? id = some s) :
    let e : Event := .message id (.clientConfig width username)
    (w.step e).queuedBy e id = w.queuedBy e id ↔
      (s.configured w.lobby.nextId width username).clientId ≠ 0 := by
  intro e
  refine ⟨fun h h0 => ?_, fun h => (step_step_clientConfig hw hs h).2.2⟩
  obtain ⟨-, -, -, -, -, hinfo⟩ := step_step_clientConfig_of_eq_zero hw hs h0
  rw [h, queuedBy_clientConfig hw hs, Session.playerInfo_mem_welcome_iff, h0] at hinfo
  cases hinfo

end Configured

/-! ### Until the numbers come round -/

/-- Someone connects, is given an id and leaves. -/
def visit (id : ConnectionId) : List Event :=
  [.connect, .message id (.clientConfig 1 none), .close id]

/-- Visits, one after the other. -/
def visits (n : Nat) : List Event := (List.range n).flatMap visit

theorem ids_visit {n : Nat} {w : World} (h : w.nextConnection = n) :
    w.ids (visit n) = [w.lobby.nextId] := by
  have hs : (w.step .connect).sessions.get? n = some {} := by
    rw [get?_sessions_step, h, if_pos rfl]
  show [] ++ ((w.step .connect).idsBy (.message n (.clientConfig 1 none)) ++ ([] ++ [])) = _
  rw [idsBy_message hs]
  rfl

/-- Each visitor is a new connection and takes one id. -/
theorem run_visits (w : World) (h : w.nextConnection = 0) (n : Nat) :
    (w.run (visits n)).nextConnection = n ∧ (w.ids (visits n)).length = n := by
  induction n with
  | zero => exact ⟨h, rfl⟩
  | succ n ih =>
    have hvisits : visits (n + 1) = visits n ++ visit n := by
      rw [visits, List.range_succ, List.flatMap_append, List.flatMap_singleton]
      rfl
    rw [hvisits, run_append]
    constructor
    · rw [visit, run_cons, run_cons, run_cons, run_nil]
      simp only [(surroundings_step _ _).2.2.2.2, ih.1]
    · rw [ids, along_append, List.length_append]
      exact congrArg₂ (· + ·) ih.2 (congrArg List.length (ids_visit ih.1))

/-- Who connects after visitors is without an id, and the ids of the visitors are not handed out
again yet. -/
theorem connect_after_visits (shard : Shard) (book : AddressBook) (grace now n : Nat) :
    let w₀ := fresh shard book grace now
    let w := (w₀.run (visits n)).step .connect
    w.sessions.get? n = some {} ∧ w.lobby.nextId = idAfter n ∧
      w₀.ids (visits n) = (List.range n).map idAfter := by
  intro w₀ w
  obtain ⟨hconnection, hlength⟩ := run_visits w₀ rfl n
  have hids := numbered_run shard book grace now (visits n)
  refine ⟨?_, hids.nextId.trans (congrArg idAfter hlength), ?_⟩
  · rw [get?_sessions_step, hconnection, if_pos rfl]
  · exact hids.ids_eq.trans (congrArg (fun n => (List.range n).map idAfter) hlength)

/-- Who connects when the ids have come round to 0 is given 0, is given 1, which was the id of the first
visitor, by the same configuration again, and is told so. -/
theorem configured_after_visits (shard : Shard) (book : AddressBook) (grace now : Nat)
    {n : ConnectionId} (hn : 0 < n) (hround : idAfter n = 0) :
    let w₀ := fresh shard book grace now
    let w := (w₀.run (visits n)).step .connect
    let e : Event := .message n (.clientConfig 1 none)
    let w₁ := w.step e
    let w₂ := w₁.step e
    w.sessions.get? n = some {} ∧ (1 : Int32) ∈ w₀.ids (visits n) ∧
      (w₁.sessions.get? n).map Session.clientId = some 0 ∧
      (w₂.sessions.get? n).map Session.clientId = some 1 ∧
      w₂.sessions ≠ w₁.sessions ∧
      w₁.lobby.nextId = 1 ∧ w₂.lobby.nextId = 2 ∧
      w₂.lobby.withoutQueues ≠ w₁.lobby.withoutQueues ∧
      .playerInfo 0 ∈ w.queuedBy e n ∧ .playerInfo 1 ∈ w₁.queuedBy e n ∧
      w₁.queuedBy e n ≠ w.queuedBy e n := by
  intro w₀ w e w₁ w₂
  obtain ⟨hs, hnext, hids⟩ := connect_after_visits shard book grace now n
  have hw : w.Sound := sound_step (sound_run shard book grace now (visits n)) .connect
  have h0 : (({} : Session).configured w.lobby.nextId 1 none).clientId = 0 :=
    Session.clientId_configured_eq_zero_iff.2 ⟨rfl, hnext.trans hround⟩
  obtain ⟨hid₁, hid₂, hnext₁, hnext₂, hinfo₁, hinfo₂⟩ := step_step_clientConfig_of_eq_zero hw hs h0
  have hfirst : idAfter 0 ∈ w₀.ids (visits n) := by
    rw [hids]
    exact List.mem_map_of_mem (List.mem_range.2 hn)
  exact ⟨hs, hfirst, hid₁, hid₂, mt (sessions_step_step_iff hw hs).1 (not_not_intro h0),
    hnext₁, hnext₂, mt (withoutQueues_step_step_iff hw hs).1 (not_not_intro h0), hinfo₁, hinfo₂,
    mt (queuedBy_step_iff hw hs).1 (not_not_intro h0)⟩

/-- A configuration changes the width, the name and, if it was 0, the id of the session, and nothing
else of it; no other session, and neither what another connection shows nor its line.  The width is
from 1 to 3 and the one that the player is told.  The same configuration again is answered as before,
changes no session, and of the lobby only what is queued, each of these just when the session has an id
then.  It has none just when it had none and the next one was 0, which comes after all the other
numbers. -/
theorem configurations_of_sound (hw : w.Sound) (hs : w.sessions.get? id = some s) (width : Int32)
    (username : Option String) :
    let e : Event := .message id (.clientConfig width username)
    let w₁ := w.step e
    let w₂ := w₁.step e
    ∃ s₁, w₁.sessions.get? id = some s₁ ∧
      s₁ = { s with
        ghostWidth := s₁.ghostWidth, username := s₁.username, clientId := s₁.clientId } ∧
      (s.clientId ≠ 0 → s₁.clientId = s.clientId) ∧
      w₁ = (w.withSession id s₁).withLobby w₁.lobby ∧
      (∀ id', id' ≠ id → w₁.lobby.views.get? id' = w.lobby.views.get? id' ∧
        w₁.lobby.lines.get? id' = w.lobby.lines.get? id') ∧
      (1 ≤ s₁.ghostWidth ∧ s₁.ghostWidth ≤ 3) ∧
      w.queuedBy e id = [.ghostZoneInfo s₁.ghostWidth w.shard.effective,
        .playerInfo s₁.clientId, .deadZones w.shard.deadZones] ∧
      (w₂.sessions = w₁.sessions ↔ s₁.clientId ≠ 0) ∧
      (w₂.lobby.withoutQueues = w₁.lobby.withoutQueues ↔ s₁.clientId ≠ 0) ∧
      (w₁.queuedBy e id = w.queuedBy e id ↔ s₁.clientId ≠ 0) ∧
      (s₁.clientId = 0 ↔ s.clientId = 0 ∧ w.lobby.nextId = 0) ∧
      ∀ ids, Numbered ids w → (w.lobby.nextId = 0 ↔ 2 ^ 32 ∣ ids.length + 1) := by
  intro e w₁ w₂
  refine ⟨s.configured w.lobby.nextId width username, sessions_step_message hs _, rfl,
    Session.clientId_configured_of_ne_zero, step_clientConfig_eq hw hs,
    fun id' hid => get?_lobby_step_clientConfig_of_ne hw hs hid,
    Session.ghostWidth_configured_mem .., queuedBy_clientConfig hw hs, sessions_step_step_iff hw hs,
    withoutQueues_step_step_iff hw hs, queuedBy_step_iff hw hs,
    Session.clientId_configured_eq_zero_iff, fun ids hids => ?_⟩
  rw [hids.nextId]
  exact idAfter_eq_zero_iff

/-- A player at the crossing is configured twice after a first move, with a name that is too long. -/
theorem configurations_of_sound_crossing :
    let es : List Event := [.connect, .connect, .message 0 (.moveRequest 5 5)]
    let w := quietCrossing.run es
    let name := "a name of more than thirty-two bytes"
    let e : Event := .message 0 (.clientConfig 9 (some name))
    ∃ s s₁, (w.Sound ∧ w.sessions.get? 0 = some s ∧ s.clientId = 0 ∧ Numbered [] w) ∧
      ((w.step e).sessions.get? 0 = some s₁ ∧ s₁.clientId ≠ 0 ∧ s₁.pos = s.pos ∧
        s₁.lastMove = s.lastMove ∧ s₁.ghosts = s.ghosts ∧ s₁.ghostWidth ≤ 3) ∧
      ((w.step e).lobby.views.get? 1 = w.lobby.views.get? 1 ∧
        (w.step e).lobby.lines.get? 1 = w.lobby.lines.get? 1) ∧
      w.queuedBy e 0 = [.ghostZoneInfo s₁.ghostWidth crossing.effective,
        .playerInfo s₁.clientId, .deadZones crossing.deadZones] ∧
      ((w.step e).step e).sessions = (w.step e).sessions ∧
      ((w.step e).step e).lobby.withoutQueues = (w.step e).lobby.withoutQueues ∧
      (w.step e).queuedBy e 0 = w.queuedBy e 0 := by
  intro es w name e
  have hw : w.Sound := sound_run crossing (.seeded .host crossing.realm) 250 0 es
  have hids : Numbered [] w := numbered_run crossing (.seeded .host crossing.realm) 250 0 es
  have hid : (w.sessions.get? 0).map Session.clientId = some 0 := by decide +kernel
  obtain ⟨s, hs, h0⟩ := Option.map_eq_some_iff.1 hid
  obtain ⟨s₁, hs₁, hframe, -, -, hothers, hwidth, hanswer, hsessions, hlobby, hqueue, hzero, hnext⟩ :=
    configurations_of_sound hw hs 9 (some name)
  have hne₁ : s₁.clientId ≠ 0 := fun hid₁ =>
    absurd ((hnext [] hids).1 (hzero.1 hid₁).2) (by decide)
  exact ⟨s, s₁, ⟨hw, hs, h0, hids⟩,
    ⟨hs₁, hne₁, (congrArg Session.pos hframe :), (congrArg Session.lastMove hframe :),
      (congrArg Session.ghosts hframe :), hwidth.2⟩,
    hothers 1 (by decide), hanswer, hsessions.2 hne₁, hlobby.2 hne₁, hqueue.2 hne₁⟩

/-- After visitors have been given all other numbers the next one to come is given 0, is given 1, which
was the id of the first visitor, by the same configuration again, and is told so. -/
theorem configured_again_with_other_id :
    let n : ConnectionId := 2 ^ 32 - 1
    let w := (quietCrossing.run (visits n)).step .connect
    let e : Event := .message n (.clientConfig 1 none)
    let w₁ := w.step e
    let w₂ := w₁.step e
    w.sessions.get? n = some {} ∧ (1 : Int32) ∈ quietCrossing.ids (visits n) ∧
      (w₁.sessions.get? n).map Session.clientId = some 0 ∧
      (w₂.sessions.get? n).map Session.clientId = some 1 ∧
      w₂.sessions ≠ w₁.sessions ∧
      w₁.lobby.nextId = 1 ∧ w₂.lobby.nextId = 2 ∧
      w₂.lobby.withoutQueues ≠ w₁.lobby.withoutQueues ∧
      .playerInfo 0 ∈ w.queuedBy e n ∧ .playerInfo 1 ∈ w₁.queuedBy e n ∧
      w₁.queuedBy e n ≠ w.queuedBy e n := by
  -- Opened first, since otherwise the two runs are compared by running them.
  unfold quietCrossing
  exact configured_after_visits crossing (.seeded .host crossing.realm) 250 0 (by decide) (by decide)

end World

end TileRealm
