import TileRealm.Proofs.Player.Position
import TileRealm.Proofs.Terrain.Passage

/-!
# Granted and refused wishes

A wish to be on a tile is granted by a simple rule.  For the first move the tile has to be playable and
to be one that can be stood on; later it has to be playable and another one than where the player is,
and the tile one step toward it one that can be stood on.  No more is needed, since a player who has
moved stands where one can stand: the step stays inside the bounds, and there is room half way.  The
player is told the position once and last, and a refused wish leaves everyone else alone
(`World.wishes_of_run`).
-/

namespace TileRealm

namespace Session

variable {shard : Shard} {scene : Scene} {now : Nat} {s s' : Session} {t : Tile}

/-! ### The rule -/

/-- A wish is granted if its tile is playable and it comes to a step, onto a playable tile and with
room on the way. -/
theorem isSome_tryMove_iff :
    (s.tryMove shard now t).isSome = true ↔
      shard.isInside t = true ∧ ∃ a b, s.step? t = some (a, b) ∧
        shard.isInside b = true ∧ shard.terrain.traversable a b = true := by
  unfold tryMove
  constructor
  · intro h
    split at h
    next hinside =>
      refine ⟨hinside, ?_⟩
      split at h
      next a b hstep =>
        split at h
        next hroom => exact ⟨a, b, hstep, Bool.and_eq_true_iff.1 hroom⟩
        next => cases h
      next => cases h
    next => cases h
  · rintro ⟨hinside, a, b, hstep, hb, hroom⟩
    simp [hinside, hstep, hb, hroom]

theorem step?_of_first (hf : s.isFirstMove = true) : s.step? t = some (t, t) := by
  rw [step?, if_pos hf]

theorem step?_of_moved (hf : s.isFirstMove = false) :
    s.step? t = if s.pos = t then none else some (s.pos, s.pos.stepToward t) := by
  simp [step?, hf, Tile.stepToward_eq_self_iff]

theorem isSome_tryMove_of_first (hf : s.isFirstMove = true) :
    (s.tryMove shard now t).isSome = true ↔
      shard.isInside t = true ∧ shard.terrain.walkable t = true := by
  rw [isSome_tryMove_iff, step?_of_first hf]
  constructor
  · rintro ⟨hinside, a, b, hstep, -, hroom⟩
    cases hstep
    rw [Terrain.traversable_self] at hroom
    exact ⟨hinside, hroom⟩
  · rintro ⟨hinside, hwalkable⟩
    refine ⟨hinside, t, t, rfl, hinside, ?_⟩
    rw [Terrain.traversable_self, hwalkable]

/-- For a player who stands where one can stand, neither the bounds nor the way keep a step from being
made that leads to a tile on which one can stand. -/
theorem isSome_tryMove_of_moved (hf : s.isFirstMove = false) (hp : shard.Standable s.pos) :
    (s.tryMove shard now t).isSome = true ↔
      shard.isInside t = true ∧ t ≠ s.pos ∧
        shard.terrain.walkable (s.pos.stepToward t) = true := by
  rw [isSome_tryMove_iff, step?_of_moved hf]
  constructor
  · rintro ⟨hinside, a, b, hstep, -, hroom⟩
    split at hstep
    next => cases hstep
    next hne =>
      cases hstep
      exact ⟨hinside, Ne.symm hne, Shard.walkable_of_traversable hroom⟩
  · rintro ⟨hinside, hne, hwalkable⟩
    refine ⟨hinside, s.pos, s.pos.stepToward t, if_neg (Ne.symm hne), ?_, ?_⟩
    · exact Bounds.contains_stepToward hp.1 hinside
    · have hone := Tile.distance_stepToward (Ne.symm hne)
      exact (Terrain.traversable_iff_of_distance_eq_one hone).2 ⟨hp.2, hwalkable⟩

/-! ### The reply -/

/-- The last action of a wish that sets off no teleport tells the player the position, and no other
one does. -/
theorem Handling.exists_reply {x y : Coord} {as : List Action}
    (h : Handling scene s (.moveRequest x y) s' as) (ht : s.trigger? scene ⟨x, y⟩ = none) :
    ∃ before, as = before ++ [.send (.positionUpdate s'.pos)] ∧
      ∀ p, .send (.positionUpdate p) ∉ before := by
  have hhints : ∀ p, Action.send (.positionUpdate p) ∉ (s.hints scene ⟨x, y⟩).map .send := by
    intro p hp
    obtain ⟨n, hn, heq⟩ := List.mem_map.1 hp
    obtain ⟨region, e, rfl | rfl⟩ := eq_of_mem_hints hn <;> cases heq
  cases h with
  | handedOff x y teleport hteleport =>
    rw [ht] at hteleport
    cases hteleport
  | granted x y s' hg =>
    refine ⟨(s.hints scene ⟨x, y⟩).map .send ++ [.publish s'.view, .broadcast], ?_, fun p hp => ?_⟩
    · simp
    · rcases List.mem_append.1 hp with hp | hp
      · exact hhints p hp
      · simp at hp
  | refused x y _ hg =>
    refine ⟨(s.hints scene ⟨x, y⟩).map .send, ?_, hhints⟩
    rw [pos_approached]

end Session

namespace World

open ServerMessage

variable {w : World} {id : ConnectionId} {s : Session} {x y : Coord}

theorem toldAll_concat_send (id : ConnectionId) (w : World) (as : List Action)
    (m : ServerMessage) : toldAll id w (as ++ [.send m]) id = toldAll id w as id ++ [m] := by
  rw [toldAll_append, toldAll, told, if_pos rfl, toldAll, List.append_nil]

/-- A wish is answered once and last with the position. -/
theorem exists_queuedBy_eq (hw : w.Sound) (hs : w.sessions.get? id = some s)
    (ht : s.trigger? w.scene ⟨x, y⟩ = none) :
    ∃ ms, w.queuedBy (.message id (.moveRequest x y)) id =
        ms ++ [.positionUpdate (s.handle w.scene (.moveRequest x y)).1.pos] ∧
      ∀ p, .positionUpdate p ∉ ms := by
  obtain ⟨before, has, hbefore⟩ := (s.handling w.scene (.moveRequest x y)).exists_reply ht
  rw [queuedBy_message hw hs, has, toldAll_concat_send]
  refine ⟨_, rfl, fun p hp => ?_⟩
  rcases mem_toldAll hp with ⟨-, hsend⟩ | hsnap
  · exact hbefore p hsend
  · cases hsnap

theorem positionUpdate_not_mem_queuedBy (hw : w.Sound) (hs : w.sessions.get? id = some s)
    (m : ClientMessage) {id' : ConnectionId} (hid : id' ≠ id) (p : Tile) :
    .positionUpdate p ∉ w.queuedBy (.message id m) id' := by
  rw [queuedBy_message hw hs]
  intro hp
  rcases mem_toldAll hp with ⟨heq, -⟩ | hsnap
  · exact hid heq
  · cases hsnap

/-- A refused wish only has messages queued for the player. -/
theorem withoutQueues_step_of_refused (hw : w.Sound) (hs : w.sessions.get? id = some s)
    (ht : s.trigger? w.scene ⟨x, y⟩ = none) (hg : s.granted? w.scene ⟨x, y⟩ = none) :
    (w.step (.message id (.moveRequest x y))).lobby.withoutQueues = w.lobby.withoutQueues := by
  rw [step, dispatch_of_some hs, Session.handle_of_refused ht hg]
  have hsends : (s.hints w.scene ⟨x, y⟩).map Action.send ++ [.send (.positionUpdate s.pos)] =
      (s.hints w.scene ⟨x, y⟩ ++ [ServerMessage.positionUpdate s.pos]).map Action.send := by
    rw [List.map_append, List.map_singleton]
  rw [hsends, expire_performAll (w := w.withSession id _) hw.timers (by simp)]
  exact withoutQueues_performAll_map_send ..

/-- A wish of a reachable session that sets off no teleport is granted, for the first move, if the tile
is playable and can be stood on; and later if the tile is playable, is another one than the player's,
and one step toward it is a tile that can be stood on.  Then the player is on that tile, and in its
chunk.  If the wish is refused, the position, the chunk, the time of the last move and the lobby stay
as they are, but for what is queued, and no snapshot is queued.  Either way the last message that is
queued for the player, and it alone, tells the position. -/
theorem wishes_of_run (shard : Shard) (book : AddressBook) (grace now : Nat) (es : List Event)
    (id : ConnectionId) (s : Session) (x y : Coord) :
    let w := (fresh shard book grace now).run es
    let t : Tile := ⟨x, y⟩
    let e : Event := .message id (.moveRequest x y)
    let w' := w.step e
    w.sessions.get? id = some s → s.trigger? w.scene t = none →
      (s.isFirstMove = true →
        (w.moveBy id e ≠ [] ↔ shard.isInside t = true ∧ shard.terrain.walkable t = true)) ∧
      (s.isFirstMove = false →
        (w.moveBy id e ≠ [] ↔ shard.isInside t = true ∧ t ≠ s.pos ∧
          shard.terrain.walkable (s.pos.stepToward t) = true)) ∧
      ∃ s', w'.sessions.get? id = some s' ∧
        (w.moveBy id e ≠ [] →
          s'.pos = (if s.isFirstMove then t else s.pos.stepToward t) ∧
          s'.chunk = shard.chunkOf s'.pos ∧ s'.lastMove = some w.now) ∧
        (w.moveBy id e = [] →
          s'.pos = s.pos ∧ s'.chunk = s.chunk ∧ s'.lastMove = s.lastMove ∧
          w'.lobby.withoutQueues = w.lobby.withoutQueues ∧
          ∀ id', snapshots (w.queuedBy e id') = []) ∧
        (∃ ms, w.queuedBy e id = ms ++ [.positionUpdate s'.pos] ∧ ∀ p, .positionUpdate p ∉ ms) ∧
        ∀ id' ≠ id, ∀ p, .positionUpdate p ∉ w.queuedBy e id' := by
  intro w t e w' hs ht
  have hw : w.Sound := sound_run shard book grace now es
  have hshard : w.scene.shard = shard := shard_run (fresh shard book grace now) es
  have hgranted : (w.moveBy id e ≠ []) ↔ (s.granted? w.scene t).isSome = true := by
    rw [moveBy_moveRequest hs]
    cases s.granted? w.scene t <;> simp
  have htry := Session.granted?_of_trigger? ht
  refine ⟨fun hf => ?_, fun hf => ?_, _, sessions_step_message hs _, fun hm => ?_, fun hm => ?_,
    exists_queuedBy_eq hw hs ht, fun id' hid p => positionUpdate_not_mem_queuedBy hw hs _ hid p⟩
  · rw [hgranted, htry, Session.isSome_tryMove_of_first (by rwa [Session.isFirstMove_approached]),
      hshard]
  · have hp : shard.Standable (s.approached w.scene t).pos := by
      rw [Session.pos_approached]
      exact standable_of_moves hs ((isFirstMove_eq_false_iff_moves hs).1 hf)
    rw [hgranted, htry, hshard,
      Session.isSome_tryMove_of_moved (by rwa [Session.isFirstMove_approached]) hp,
      Session.pos_approached]
  · obtain ⟨s', hg⟩ := Option.isSome_iff_exists.1 (hgranted.1 hm)
    rw [Session.handle_of_granted? hg]
    obtain ⟨b, rfl, -, ⟨hf, rfl⟩ | ⟨hf, rfl, -⟩⟩ := Session.exists_of_granted? hg
    · exact ⟨by rw [hf]; rfl, by rw [← hshard]; rfl, rfl⟩
    · exact ⟨by rw [hf]; rfl, by rw [← hshard]; rfl, rfl⟩
  · have hg : s.granted? w.scene t = none := by
      rw [← Option.not_isSome_iff_eq_none, ← hgranted, hm]
      exact fun h => h rfl
    have hannounces : w.announces e = false := by
      simp [announces, e, hs, Session.announces, t, hg]
    rw [Session.handle_of_refused ht hg]
    exact ⟨Session.pos_approached .., Session.chunk_approached .., Session.lastMove_approached ..,
      withoutQueues_step_of_refused hw hs ht hg,
      snapshots_queuedBy_of_not_announces hw hannounces⟩

/-- A player jumps next to the wall at the crossing, and is refused the tile behind it. -/
theorem wishes_of_run_wall :
    let jump : Event := .message 0 (.moveRequest 5 5)
    let w := quietCrossing.run [.connect]
    let v := quietCrossing.run [.connect, jump]
    let through : Event := .message 0 (.moveRequest 3 5)
    ∃ s r q, (w.sessions.get? 0 = some s ∧ s.trigger? w.scene ⟨5, 5⟩ = none ∧
        s.isFirstMove = true ∧ w.moveBy 0 jump ≠ []) ∧
      (crossing.isInside ⟨5, 5⟩ = true ∧ crossing.terrain.walkable ⟨5, 5⟩ = true) ∧
      (v.sessions.get? 0 = some r ∧ r.pos = ⟨5, 5⟩ ∧ r.trigger? v.scene ⟨3, 5⟩ = none ∧
        r.isFirstMove = false ∧ v.moveBy 0 through = []) ∧
      ¬(crossing.isInside ⟨3, 5⟩ = true ∧ ⟨3, 5⟩ ≠ r.pos ∧
        crossing.terrain.walkable (r.pos.stepToward ⟨3, 5⟩) = true) ∧
      ((v.step through).sessions.get? 0 = some q ∧ q.pos = r.pos ∧ q.lastMove = r.lastMove ∧
        (v.step through).lobby.withoutQueues = v.lobby.withoutQueues) ∧
      ∃ ms, v.queuedBy through 0 = ms ++ [.positionUpdate q.pos] ∧
        ∀ p, .positionUpdate p ∉ ms := by
  intro jump w v through
  have hw : (w.sessions.get? 0).map (fun s => (s.trigger? w.scene ⟨5, 5⟩, s.isFirstMove)) =
      some (none, true) := by decide +kernel
  have hv : (v.sessions.get? 0).map (fun r => (r.trigger? v.scene ⟨3, 5⟩, r.isFirstMove)) =
      some (none, false) := by decide +kernel
  have hjump : w.moveBy 0 jump ≠ [] := by decide +kernel
  have hthrough : v.moveBy 0 through = [] := by decide +kernel
  obtain ⟨s, hs, hfacts⟩ := Option.map_eq_some_iff.1 hw
  obtain ⟨r, hr, hfacts'⟩ := Option.map_eq_some_iff.1 hv
  obtain ⟨ht, hf⟩ := Prod.mk.inj hfacts
  obtain ⟨ht', hf'⟩ := Prod.mk.inj hfacts'
  obtain ⟨hfirst, -, r', hr', hgranted, -⟩ :=
    wishes_of_run crossing (.seeded .host crossing.realm) 250 0 [.connect] 0 s 5 5 hs ht
  obtain ⟨-, hlater, q, hq, -, hrefused, htold, -⟩ :=
    wishes_of_run crossing (.seeded .host crossing.realm) 250 0 [.connect, jump] 0 r 3 5 hr ht'
  obtain ⟨hpos, -, hlast, hlobby, -⟩ := hrefused hthrough
  obtain rfl : r' = r := Option.some.inj (hr'.symm.trans hr)
  have hat : r'.pos = ⟨5, 5⟩ := by rw [(hgranted hjump).1, hf]; rfl
  exact ⟨s, r', q, ⟨hs, ht, hf, hjump⟩, (hfirst hf).1 hjump, ⟨hr, hat, ht', hf', hthrough⟩,
    fun h => (hlater hf').2 h hthrough, ⟨hq, hpos, hlast, hlobby⟩, htold⟩

end World

end TileRealm
