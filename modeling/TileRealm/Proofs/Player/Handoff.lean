import TileRealm.Proofs.Player.Announcement
import TileRealm.Proofs.Player.History

/-!
# Handoffs

When a wish to be on a tile hands the player over, and that it changes nothing then but the
player's own line and the registration that is to end (`World.handoffs_of_run`).
-/

namespace TileRealm

namespace Session

/-- Whatever is known of the region, the message names it and the tile to land on. -/
theorem exists_handoffMessage_eq (book : AddressBook) (teleport : Teleport) :
    ∃ host port, handoffMessage book teleport =
      .handoff teleport.region host port teleport.target := by
  unfold handoffMessage
  split
  · exact ⟨_, _, rfl⟩
  · exact ⟨_, _, rfl⟩

end Session

namespace World

/-- A world with a message queued for a connection whose registration is to end. -/
def handOver (w : World) (id : ConnectionId) (m : ServerMessage) : World :=
  { w with
    lobby := w.lobby.send id m
    timers := w.timers ++ [⟨w.now + w.grace, id⟩] }

section Handoffs

variable {w : World} {id : ConnectionId} {s : Session} {x y : Coord} {teleport : Teleport}

theorem step_of_trigger? (hs : w.sessions.get? id = some s)
    (ht : s.trigger? w.scene ⟨x, y⟩ = some teleport) :
    w.step (.message id (.moveRequest x y)) =
      (w.handOver id (Session.handoffMessage w.book teleport)).expire := by
  rw [step, dispatch_of_some hs, Session.handle_of_trigger? ht, withSession,
    Table.insert_eq_self hs]
  rfl

/-- With a grace the registration goes on for now, without one it ends at once. -/
theorem lobby_expire_handOver (hw : w.Sound) (id : ConnectionId) (m : ServerMessage) :
    (w.handOver id m).expire.lobby =
      if 0 < w.grace then w.lobby.send id m else (w.lobby.send id m).leave id := by
  have hn : (w.timers.filter fun t => decide (t.due ≤ w.now)) = [] := by
    refine List.filter_eq_nil_iff.2 fun t ht => ?_
    have := hw.timers t ht
    simpa using this
  -- The timers of a sound world are not due, so only the new one can be.
  have hdue : ((w.handOver id m).timers.filter fun t => decide (t.due ≤ w.now)) =
      if 0 < w.grace then [] else [⟨w.now + w.grace, id⟩] := by
    rw [handOver, List.filter_append, hn, List.nil_append]
    split
    next h => rw [List.filter_cons_of_neg (by simp; omega), List.filter_nil]
    next h => rw [List.filter_cons_of_pos (by simp; omega), List.filter_nil]
  rw [expire_eq]
  show ((w.handOver id m).timers.filter fun t => decide (t.due ≤ w.now)).foldl
    (fun l t => l.leave t.connection) (w.lobby.send id m) = _
  rw [hdue]
  split
  next => rfl
  next => rfl

theorem get?_lines_expire_handOver_of_ne (hw : w.Sound) {id' : ConnectionId} (h : id' ≠ id)
    (m : ServerMessage) :
    (w.handOver id m).expire.lobby.lines.get? id' = w.lobby.lines.get? id' := by
  have hsend : (w.lobby.send id m).lines.get? id' = w.lobby.lines.get? id' := by
    rw [Lobby.get?_lines_send, if_neg h]
  rw [lobby_expire_handOver hw]
  split
  next => exact hsend
  next => rw [Lobby.get?_lines_leave_of_ne h, hsend]

theorem get?_views_expire_handOver (hw : w.Sound) {id' : ConnectionId}
    (h : id' ≠ id ∨ 0 < w.grace) (m : ServerMessage) :
    (w.handOver id m).expire.lobby.views.get? id' = w.lobby.views.get? id' := by
  rw [lobby_expire_handOver hw]
  split
  next => rw [Lobby.views_send]
  next hg =>
    rcases h with h | h
    · rw [Lobby.get?_views_leave, if_neg h, Lobby.views_send]
    · exact absurd h hg

theorem queuedBy_of_trigger? (hw : w.Sound) (hs : w.sessions.get? id = some s)
    (ht : s.trigger? w.scene ⟨x, y⟩ = some teleport) (id' : ConnectionId) :
    w.queuedBy (.message id (.moveRequest x y)) id' =
      if id' = id then [Session.handoffMessage w.book teleport] else [] := by
  rw [queuedBy_message hw hs, Session.handle_of_trigger? ht]
  simp only [toldAll, told, List.append_nil]
  rfl

end Handoffs

/-- A handoff answers a wish for a tile at most one tile away that carries the teleport, of a
player who has moved and has not arrived of late.  All that it changes is the line of the player,
which the handoff alone is added to, and a timer that ends the registration. -/
theorem handoffs_of_run (shard : Shard) (book : AddressBook) (grace now : Nat)
    (es : List Event) (e : Event) (id : ConnectionId) (region host : String) (port : Int32)
    (target : Tile) :
    let w₀ := fresh shard book grace now
    let w := w₀.run es
    .handoff region host port target ∈ w.queuedBy e id →
      (∃ x y s, e = .message id (.moveRequest x y) ∧ w.sessions.get? id = some s ∧
        w₀.moves id es ≠ [] ∧ s.pos.distance ⟨x, y⟩ ≤ 1 ∧
        shard.teleport? ⟨x, y⟩ = some ⟨region, target⟩) ∧
      (∀ a ∈ w₀.arrivals id es, a + teleportGrace ≤ w.now) ∧
      w.step e = (w.handOver id (.handoff region host port target)).expire ∧
      (w.step e).sessions = w.sessions ∧
      (∀ id', id' ≠ id ∨ 0 < grace →
        (w.step e).lobby.views.get? id' = w.lobby.views.get? id') ∧
      (∀ id', id' ≠ id → (w.step e).lobby.lines.get? id' = w.lobby.lines.get? id') ∧
      w.queuedBy e id = [.handoff region host port target] := by
  intro w₀ w hm
  have hw : w.Sound := sound_run shard book grace now es
  have hshard : w.shard = shard := shard_run w₀ es
  have hgrace : w.grace = grace := grace_run w₀ es
  rcases mem_queuedBy hw hm with ⟨c, s, rfl, hs, hsend⟩ | ⟨shown, u, hu, -⟩
  · obtain ⟨x, y, teleport, rfl, ht⟩ := (s.handling w.scene c).answer hsend
    obtain ⟨harrives, hgraceOver, -, htile⟩ := Session.trigger?_eq_some_iff.1 ht
    obtain ⟨hf, hd⟩ := Session.arrives_eq_false_iff.1 harrives
    obtain ⟨host', port', hmsg⟩ := Session.exists_handoffMessage_eq w.book teleport
    have hq := queuedBy_of_trigger? hw hs ht id
    have hstep := step_of_trigger? hs ht
    rw [if_pos rfl, hmsg] at hq
    rw [hmsg] at hstep
    rw [hq, List.mem_singleton, ServerMessage.handoff.injEq] at hm
    obtain ⟨rfl, rfl, rfl, rfl⟩ := hm
    have hmoved : w₀.moves id es ≠ [] := (isFirstMove_eq_false_iff_moves hs).1 hf
    refine ⟨⟨x, y, s, rfl, hs, hmoved, hd, hshard ▸ htile⟩, (graceOver_iff_arrivals hs w.now).1
      hgraceOver, hstep, ?_, fun id' h => ?_, fun id' h => ?_, hq⟩
    · rw [hstep, expire_eq]
      rfl
    · rw [hstep]
      exact get?_views_expire_handOver hw (hgrace ▸ h) _
    · rw [hstep]
      exact get?_lines_expire_handOver_of_ne hw h _
  · cases hu

/-- A player at the crossing goes through the gate, next to which the player has waited. -/
theorem handoffs_of_run_gate :
    let es : List Event := [.connect, .message 0 (.clientConfig 1 none),
      .message 0 (.moveRequest 5 5), .wait 1500]
    let e : Event := .message 0 (.moveRequest 6 5)
    let w := quietCrossing.run es
    .handoff "cave" "" 0 ⟨101, 102⟩ ∈ w.queuedBy e 0 ∧
      (∃ x y s, e = .message 0 (.moveRequest x y) ∧ w.sessions.get? 0 = some s ∧
        quietCrossing.moves 0 es ≠ [] ∧ s.pos.distance ⟨x, y⟩ ≤ 1 ∧
        crossing.teleport? ⟨x, y⟩ = some ⟨"cave", ⟨101, 102⟩⟩) ∧
      quietCrossing.arrivals 0 es = [0] ∧
      (∀ a ∈ quietCrossing.arrivals 0 es, a + teleportGrace ≤ w.now) ∧
      (w.step e).sessions = w.sessions ∧
      (w.step e).lobby.views.get? 0 = w.lobby.views.get? 0 ∧
      w.queuedBy e 0 = [.handoff "cave" "" 0 ⟨101, 102⟩] := by
  intro es e w
  have hm : .handoff "cave" "" 0 ⟨101, 102⟩ ∈ w.queuedBy e 0 := by decide +kernel
  have ha : quietCrossing.arrivals 0 es = [0] := by decide +kernel
  obtain ⟨hwish, harrivals, -, hsessions, hviews, -, hq⟩ :=
    handoffs_of_run crossing (.seeded .host crossing.realm) 250 0 es e 0 _ _ _ _ hm
  exact ⟨hm, hwish, ha, harrivals, hsessions, hviews 0 (.inr (by decide)), hq⟩

end World

end TileRealm
