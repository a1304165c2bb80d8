import TileRealm.Proofs.Player.Queue

/-!
# Players apart from each other

What other players do has no influence on a player but for the id that the player is given and the
snapshots.  Two worlds look alike to a connection if they differ only in what the others have done
(`World.Alike`); its own messages do the same in both of them, and when all the others' messages
are left out of a run it goes on as before (`World.isolated_of_run`).
-/

namespace TileRealm

namespace Session

/-- A session with another id. -/
def renumbered (s : Session) (c : Int32) : Session := { s with clientId := c }

/-- A session without its id, which depends on the others. -/
def unnumbered (s : Session) : Session := s.renumbered 0

theorem eq_renumbered {s s' : Session} (h : s'.unnumbered = s.unnumbered) :
    s' = s.renumbered s'.clientId := by
  cases s
  cases s'
  simp only [unnumbered, renumbered, Session.mk.injEq] at h ⊢
  exact ⟨trivial, h.2⟩

theorem unnumbered_renumbered (s : Session) (c : Int32) :
    (s.renumbered c).unnumbered = s.unnumbered := rfl

end Session

namespace ServerMessage

/-- A message without the id of the player to whom it goes. -/
def withoutId : ServerMessage → ServerMessage
  | playerInfo _ => playerInfo 0
  | m => m

/-- What messages tell a player of no one but the player. -/
def own (ms : List ServerMessage) : List ServerMessage := (withoutSnapshots ms).map withoutId

theorem own_append (ms ns : List ServerMessage) : own (ms ++ ns) = own ms ++ own ns := by
  rw [own, withoutSnapshots_append, List.map_append]
  rfl

theorem own_eq_nil {ms : List ServerMessage} (h : withoutSnapshots ms = []) : own ms = [] := by
  rw [own, h]
  rfl

end ServerMessage

namespace Session

open ServerMessage

/-! ### Messages do the same whatever the id -/

/-- What actions tell the player of no one but the player. -/
def told (as : List Action) : List ServerMessage := own (as.filterMap Action.message?)

section Renumbered

variable (scene : Scene) (s : Session) (c : Int32) (t : Tile)

theorem noteArrival_renumbered (now : Nat) :
    (s.renumbered c).noteArrival now t = (s.noteArrival now t).renumbered c := by
  unfold noteArrival
  rw [show (s.renumbered c).arrives t = s.arrives t from rfl]
  split <;> rfl

theorem approached_renumbered :
    (s.renumbered c).approached scene t = (s.approached scene t).renumbered c := by
  rw [approached, noteArrival_renumbered]
  rfl

theorem hints_renumbered : (s.renumbered c).hints scene t = s.hints scene t := by
  rw [hints, noteArrival_renumbered]
  rfl

theorem tryMove_renumbered (shard : Shard) (now : Nat) :
    (s.renumbered c).tryMove shard now t = (s.tryMove shard now t).map (renumbered · c) := by
  unfold tryMove
  rw [show (s.renumbered c).step? t = s.step? t from rfl]
  split
  next =>
    split
    next => split <;> rfl
    next => rfl
  next => rfl

theorem walk_renumbered :
    ((s.renumbered c).walk scene t).1 = (s.walk scene t).1.renumbered c ∧
      told ((s.renumbered c).walk scene t).2 = told (s.walk scene t).2 := by
  rw [walk_eq, walk_eq, approached_renumbered, hints_renumbered, tryMove_renumbered]
  cases (s.approached scene t).tryMove scene.shard scene.now t with
  | none => exact ⟨rfl, rfl⟩
  | some s' =>
    refine ⟨rfl, ?_⟩
    simp only [told, Option.map_some, List.filterMap_append]
    rfl

theorem requestMove_renumbered :
    ((s.renumbered c).requestMove scene t).1 = (s.requestMove scene t).1.renumbered c ∧
      told ((s.renumbered c).requestMove scene t).2 = told (s.requestMove scene t).2 := by
  unfold requestMove
  rw [show (s.renumbered c).trigger? scene t = s.trigger? scene t from rfl]
  cases s.trigger? scene t with
  | some teleport => exact ⟨rfl, rfl⟩
  | none => exact walk_renumbered scene s c t

theorem told_configure (width : Int32) (username : Option String) :
    told (s.configure scene width username).2 =
      [.ghostZoneInfo (GhostZone.clampWidth width) scene.shard.effective, .playerInfo 0,
        .deadZones scene.shard.deadZones] := by
  unfold configure
  dsimp only
  split <;> rfl

/-- A message does the same to a player with another id, even if another id is assigned next. -/
theorem handle_renumbered (nextId : Int32) (m : ClientMessage) :
    ((s.renumbered c).handle { scene with nextId } m).1.unnumbered =
        (s.handle scene m).1.unnumbered ∧
      told ((s.renumbered c).handle { scene with nextId } m).2 = told (s.handle scene m).2 := by
  cases m with
  | moveRequest x y =>
    obtain ⟨hsession, htold⟩ := requestMove_renumbered { scene with nextId } s c ⟨x, y⟩
    exact ⟨(congrArg unnumbered hsession).trans (unnumbered_renumbered _ c), htold⟩
  | clientConfig width username =>
    exact ⟨rfl, (told_configure { scene with nextId } (s.renumbered c) width username).trans
      (told_configure scene s width username).symm⟩
  | provisionalConnection => exact ⟨rfl, rfl⟩
  | moveState moving =>
    show ((s.renumbered c).setMoving moving).1.unnumbered = (s.setMoving moving).1.unnumbered ∧
      told ((s.renumbered c).setMoving moving).2 = told (s.setMoving moving).2
    unfold setMoving
    rw [show (s.renumbered c).moving = s.moving from rfl]
    split <;> exact ⟨rfl, rfl⟩

end Renumbered

end Session

/-- Whether an event is the business of another connection.  That others connect has to stay, for
connections are numbered in the order in which they come. -/
def Event.IsForeign (id : ConnectionId) : Event → Prop
  | .message id' _ => id' ≠ id
  | .remove id' => id' ≠ id
  | .close id' => id' ≠ id
  | .collect id' => id' ≠ id
  | _ => False

namespace World

open ServerMessage

/-! ### Worlds that look alike -/

/-- Worlds that differ only in what the others have done. -/
structure Alike (id : ConnectionId) (w w' : World) : Prop where
  shard : w'.shard = w.shard
  book : w'.book = w.book
  now : w'.now = w.now
  nextConnection : w'.nextConnection = w.nextConnection
  session : (w'.sessions.get? id).map Session.unnumbered =
    (w.sessions.get? id).map Session.unnumbered

namespace Alike

variable {id : ConnectionId} {w w' : World}

theorem scene_eq (h : Alike id w w') : w'.scene = { w.scene with nextId := w'.lobby.nextId } := by
  simp only [scene, h.shard, h.book, h.now]

/-- Both worlds have a session for the connection, or neither has one. -/
theorem session_cases (h : Alike id w w') :
    (w.sessions.get? id = none ∧ w'.sessions.get? id = none) ∨
      ∃ s c, w.sessions.get? id = some s ∧ w'.sessions.get? id = some (s.renumbered c) := by
  have hsession := h.session
  cases hs : w.sessions.get? id with
  | none =>
    rw [hs, Option.map_none, Option.map_eq_none_iff] at hsession
    exact .inl ⟨rfl, hsession⟩
  | some s =>
    rw [hs, Option.map_some, Option.map_eq_some_iff] at hsession
    obtain ⟨s', hs', heq⟩ := hsession
    exact .inr ⟨s, s'.clientId, rfl, by rw [hs', ← Session.eq_renumbered heq]⟩

/-- What happens in both worlds leaves them alike. -/
theorem step (h : Alike id w w') (e : Event) : Alike id (w.step e) (w'.step e) := by
  obtain ⟨hshard, -, hbook, hnow, hnext⟩ := surroundings_step w e
  obtain ⟨hshard', -, hbook', hnow', hnext'⟩ := surroundings_step w' e
  refine ⟨?_, ?_, ?_, ?_, ?_⟩
  · rw [hshard, hshard', h.shard]
  · rw [hbook, hbook', h.book]
  · rw [hnow, hnow', h.now]
  · rw [hnext, hnext', h.nextConnection]
  · rw [get?_sessions_step, get?_sessions_step]
    cases e with
    | connect =>
      rw [h.nextConnection]
      dsimp only
      split
      next => rfl
      next => exact h.session
    | message id' m =>
      dsimp only
      split
      next =>
        rcases h.session_cases with ⟨hs, hs'⟩ | ⟨s, c, hs, hs'⟩
        · rw [hs, hs']
          rfl
        · -- The session handles the message under another id, and with another id to be assigned.
          rw [hs, hs', h.scene_eq]
          exact congrArg some (Session.handle_renumbered w.scene s c w'.lobby.nextId m).1
      next => exact h.session
    | close id' =>
      dsimp only
      split
      next => rfl
      next => exact h.session
    | _ => exact h.session

/-- What another connection does to one of the worlds leaves them alike. -/
theorem step_left (h : Alike id w w') {e : Event} (he : e.IsForeign id) :
    Alike id (w.step e) w' := by
  obtain ⟨hshard, -, hbook, hnow, hnext⟩ := surroundings_step w e
  have hsession := get?_sessions_step w e id
  cases e with
  | message id' m =>
    replace hsession := hsession.trans (if_neg (Ne.symm he))
    exact ⟨by rw [hshard, h.shard], by rw [hbook, h.book], by rw [hnow, h.now],
      by rw [hnext, h.nextConnection], by rw [hsession, h.session]⟩
  | close id' =>
    replace hsession := hsession.trans (if_neg (Ne.symm he))
    exact ⟨by rw [hshard, h.shard], by rw [hbook, h.book], by rw [hnow, h.now],
      by rw [hnext, h.nextConnection], by rw [hsession, h.session]⟩
  | remove id' => exact ⟨h.shard, h.book, h.now, h.nextConnection, h.session⟩
  | collect id' => exact ⟨h.shard, h.book, h.now, h.nextConnection, h.session⟩
  | _ => exact he.elim

/-- An event tells a player the same of the player in both worlds. -/
theorem own_queuedBy (h : Alike id w w') (hw : w.Sound) (hw' : w'.Sound) (e : Event) :
    own (w'.queuedBy e id) = own (w.queuedBy e id) := by
  by_cases hm : ∃ m, e = .message id m
  · obtain ⟨m, rfl⟩ := hm
    rcases h.session_cases with ⟨hs, hs'⟩ | ⟨s, c, hs, hs'⟩
    · rw [queuedBy_message_of_none hs, queuedBy_message_of_none hs']
    · rw [own, own, withoutSnapshots_queuedBy_message hw hs,
        withoutSnapshots_queuedBy_message hw' hs', h.scene_eq]
      exact (Session.handle_renumbered w.scene s c w'.lobby.nextId m).2
  · -- Whatever else happens tells the player nothing but snapshots.
    have hne : ∀ m, e ≠ .message id m := fun m heq => hm ⟨m, heq⟩
    rw [own_eq_nil (withoutSnapshots_queuedBy hw hne),
      own_eq_nil (withoutSnapshots_queuedBy hw' hne)]

end Alike

theorem own_queuedBy_of_isForeign {w : World} (hw : w.Sound) {id : ConnectionId} {e : Event}
    (he : e.IsForeign id) : own (w.queuedBy e id) = [] := by
  refine own_eq_nil (withoutSnapshots_queuedBy hw ?_)
  rintro m rfl
  exact he rfl

/-- Leaving out of a run what other connections do keeps the worlds alike, and what the player is
told of the player. -/
theorem alike_run_filter (shard : Shard) (book : AddressBook) (grace now : Nat)
    {id : ConnectionId} {keep : Event → Bool} (hkeep : ∀ e, keep e = false → e.IsForeign id)
    (es : List Event) :
    let w₀ := fresh shard book grace now
    Alike id (w₀.run es) (w₀.run (es.filter keep)) ∧
      own (w₀.transcript id (es.filter keep)) = own (w₀.transcript id es) := by
  intro w₀
  refine run_induction (w := w₀) (motive := fun es w => Alike id w (w₀.run (es.filter keep)) ∧
    own (w₀.transcript id (es.filter keep)) = own (w₀.transcript id es))
    ⟨⟨rfl, rfl, rfl, rfl, rfl⟩, rfl⟩ (fun es e ih => ?_) es
  obtain ⟨halike, hown⟩ := ih
  have hw : (w₀.run es).Sound := sound_run shard book grace now es
  have hw' : (w₀.run (es.filter keep)).Sound := sound_run shard book grace now _
  rw [List.filter_append, transcript_concat w₀ id es, own_append]
  cases he : keep e with
  | true =>
    rw [List.filter_cons_of_pos he, List.filter_nil, run_concat, transcript_concat, own_append,
      hown, halike.own_queuedBy hw hw']
    exact ⟨halike.step e, rfl⟩
  | false =>
    rw [List.filter_cons_of_neg (by simp [he]), List.filter_nil, List.append_nil, hown,
      own_queuedBy_of_isForeign hw (hkeep e he), List.append_nil]
    exact ⟨halike.step_left (hkeep e he), rfl⟩

/-- When what others do is left out of a run, a session is but for its id as before, and its player
is told the same but for that id and the snapshots.  As a run may end anywhere, this is so after
each message. -/
theorem isolated_of_run (shard : Shard) (book : AddressBook) (grace now : Nat) (es : List Event)
    (id : ConnectionId) (keep : Event → Bool) :
    let w₀ := fresh shard book grace now
    (∀ e, keep e = false → e.IsForeign id) →
      ((w₀.run es).sessions.get? id).map Session.unnumbered =
        ((w₀.run (es.filter keep)).sessions.get? id).map Session.unnumbered ∧
      own (w₀.transcript id es) = own (w₀.transcript id (es.filter keep)) := by
  intro w₀ hkeep
  obtain ⟨halike, hown⟩ := alike_run_filter shard book grace now hkeep es
  exact ⟨halike.session.symm, hown.symm⟩

/-- Without the messages of the second player the first has another id and misses the second one's
snapshots, but walks as before. -/
theorem isolated_of_run_crowd :
    let es : List Event := [.connect, .connect, .message 1 (.clientConfig 3 (some "b")),
      .message 0 (.clientConfig 3 (some "a")), .message 1 (.moveRequest 8 5),
      .message 0 (.moveRequest 7 5), .message 1 (.moveState true), .message 0 (.moveRequest 9 5)]
    let keep : Event → Bool
      | .message id _ => id = 0
      | _ => true
    let w := quietCrossing.run es
    let w' := quietCrossing.run (es.filter keep)
    (∀ e, keep e = false → e.IsForeign 0) ∧
      ((w.sessions.get? 0).map Session.clientId, (w'.sessions.get? 0).map Session.clientId) =
        (some 2, some 1) ∧
      (w.sessions.get? 0).map Session.unnumbered = (w'.sessions.get? 0).map Session.unnumbered ∧
      (quietCrossing.transcript 0 es).length = 10 ∧
      (quietCrossing.transcript 0 (es.filter keep)).length = 8 ∧
      own (quietCrossing.transcript 0 es) = [.ghostZoneInfo 3 crossing.effective, .playerInfo 0,
        .deadZones [⟨4, 5⟩], .ghostZoneEnter "east" "127.0.0.1" 9102, .positionUpdate ⟨7, 5⟩,
        .positionUpdate ⟨8, 5⟩] := by
  intro es keep w w'
  have hkeep : ∀ e, keep e = false → e.IsForeign 0 := by
    rintro (_ | ⟨id, m⟩ | _ | _ | _ | _ | _) h
    all_goals first | cases h | exact of_decide_eq_false h
  obtain ⟨hsession, hown⟩ :=
    isolated_of_run crossing (.seeded .host crossing.realm) 250 0 es 0 keep hkeep
  exact ⟨hkeep, by decide +kernel, hsession, by decide +kernel, by decide +kernel,
    hown.trans (by decide +kernel)⟩

end World

end TileRealm
