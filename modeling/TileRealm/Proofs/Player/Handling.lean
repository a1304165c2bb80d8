import TileRealm.Player.Session
import TileRealm.Proofs.Grid.Step

/-!
# Handling a message

What handling one message can do to a session and which actions it takes (`Session.Handling`), and
what it means that a wish to be on a tile sets off a teleport (`Session.trigger?_eq_some_iff`) or
is granted (`Session.exists_of_granted?`).  Everything else that is said of sessions is read off
these.
-/

namespace TileRealm

namespace Shard

/-- A player can be on a tile if it is playable and can be stood on. -/
def Standable (shard : Shard) (t : Tile) : Prop :=
  shard.isInside t = true ∧ shard.terrain.walkable t = true

instance (shard : Shard) (t : Tile) : Decidable (shard.Standable t) :=
  inferInstanceAs (Decidable (_ ∧ _))

theorem walkable_of_traversable {terrain : Terrain} {a b : Tile}
    (h : terrain.traversable a b = true) : terrain.walkable b = true := by
  simp only [Terrain.traversable, Bool.and_eq_true] at h
  exact h.2

end Shard

namespace Session

variable {scene : Scene} {s s' : Session} {t : Tile}

/-! ### Arrivals -/

theorem arrives_iff : s.arrives t = true ↔ s.isFirstMove = true ∨ 1 < s.pos.distance t := by
  simp [arrives]

theorem arrives_eq_false_iff :
    s.arrives t = false ↔ s.isFirstMove = false ∧ s.pos.distance t ≤ 1 := by
  simp [arrives]

@[simp] theorem pos_noteArrival (s : Session) (now : Nat) (t : Tile) :
    (s.noteArrival now t).pos = s.pos := by
  unfold noteArrival
  split <;> rfl

@[simp] theorem lastMove_noteArrival (s : Session) (now : Nat) (t : Tile) :
    (s.noteArrival now t).lastMove = s.lastMove := by
  unfold noteArrival
  split <;> rfl

@[simp] theorem chunk_noteArrival (s : Session) (now : Nat) (t : Tile) :
    (s.noteArrival now t).chunk = s.chunk := by
  unfold noteArrival
  split <;> rfl

@[simp] theorem ghosts_noteArrival (s : Session) (now : Nat) (t : Tile) :
    (s.noteArrival now t).ghosts = s.ghosts := by
  unfold noteArrival
  split <;> rfl

@[simp] theorem ghostWidth_noteArrival (s : Session) (now : Nat) (t : Tile) :
    (s.noteArrival now t).ghostWidth = s.ghostWidth := by
  unfold noteArrival
  split <;> rfl

@[simp] theorem view_noteArrival (s : Session) (now : Nat) (t : Tile) :
    (s.noteArrival now t).view = s.view := by
  unfold noteArrival
  split <;> rfl

theorem safeSpot_noteArrival (s : Session) (now : Nat) (t : Tile) :
    (s.noteArrival now t).safeSpot = if s.arrives t then some t else s.safeSpot := by
  unfold noteArrival
  split <;> rfl

theorem lastArrival_noteArrival (s : Session) (now : Nat) (t : Tile) :
    (s.noteArrival now t).lastArrival = if s.arrives t then some now else s.lastArrival := by
  unfold noteArrival
  split <;> rfl

/-! ### Wishes to be on a tile -/

/-- The session after a wish was looked at, but before it is granted or refused. -/
def approached (scene : Scene) (s : Session) (t : Tile) : Session :=
  ((s.noteArrival scene.now t).refreshGhosts scene t).1

/-- The hints about neighbours that a wish leads to. -/
def hints (scene : Scene) (s : Session) (t : Tile) : List ServerMessage :=
  ((s.noteArrival scene.now t).refreshGhosts scene t).2

/-- The session after a wish that is granted. -/
def granted? (scene : Scene) (s : Session) (t : Tile) : Option Session :=
  match s.trigger? scene t with
  | some _ => none
  | none => (s.approached scene t).tryMove scene.shard scene.now t

@[simp] theorem pos_approached (scene : Scene) (s : Session) (t : Tile) :
    (s.approached scene t).pos = s.pos := pos_noteArrival ..

@[simp] theorem lastMove_approached (scene : Scene) (s : Session) (t : Tile) :
    (s.approached scene t).lastMove = s.lastMove := lastMove_noteArrival ..

@[simp] theorem chunk_approached (scene : Scene) (s : Session) (t : Tile) :
    (s.approached scene t).chunk = s.chunk := chunk_noteArrival ..

@[simp] theorem view_approached (scene : Scene) (s : Session) (t : Tile) :
    (s.approached scene t).view = s.view := view_noteArrival ..

@[simp] theorem isFirstMove_approached (scene : Scene) (s : Session) (t : Tile) :
    (s.approached scene t).isFirstMove = s.isFirstMove := by
  rw [isFirstMove, lastMove_approached, isFirstMove]

theorem safeSpot_approached (scene : Scene) (s : Session) (t : Tile) :
    (s.approached scene t).safeSpot = if s.arrives t then some t else s.safeSpot :=
  safeSpot_noteArrival ..

theorem lastArrival_approached (scene : Scene) (s : Session) (t : Tile) :
    (s.approached scene t).lastArrival = if s.arrives t then some scene.now else s.lastArrival :=
  lastArrival_noteArrival ..

/-- A wish sets off a teleport when it is not an arrival, the last arrival is long enough ago and
the tile is not the safe spot. -/
theorem trigger?_eq_some_iff {teleport : Teleport} :
    s.trigger? scene t = some teleport ↔
      s.arrives t = false ∧ s.graceOver scene.now = true ∧ s.safeSpot ≠ some t ∧
        scene.shard.teleport? t = some teleport := by
  unfold trigger?
  split
  next h =>
    simp only [Bool.and_eq_true, Bool.not_eq_true', decide_eq_true_eq] at h
    exact ⟨fun ht => ⟨h.1.1, h.1.2, h.2, ht⟩, fun ht => ht.2.2.2⟩
  next h =>
    simp only [Bool.and_eq_true, Bool.not_eq_true', decide_eq_true_eq, not_and] at h
    constructor
    · intro ht
      cases ht
    · rintro ⟨ha, hg, hs, -⟩
      exact absurd hs (h ⟨ha, hg⟩)

theorem graceOver_iff {now : Nat} :
    s.graceOver now = true ↔ ∀ a, s.lastArrival = some a → a + teleportGrace ≤ now := by
  unfold graceOver
  cases s.lastArrival with
  | none => simp
  | some a => simp

theorem exists_of_tryMove {shard : Shard} {now : Nat} (h : s.tryMove shard now t = some s') :
    ∃ b, s' = s.moveTo shard now b ∧ shard.Standable b ∧
      (s.isFirstMove = true ∧ b = t ∨
        s.isFirstMove = false ∧ b = s.pos.stepToward t ∧ s.pos.distance b = 1) := by
  unfold tryMove at h
  split at h
  next =>
    split at h
    next a b hstep =>
      split at h
      next hb =>
        rw [Bool.and_eq_true] at hb
        refine ⟨b, (Option.some.inj h).symm, ⟨hb.1, Shard.walkable_of_traversable hb.2⟩, ?_⟩
        unfold step? at hstep
        split at hstep
        next hf =>
          cases hstep
          exact .inl ⟨hf, rfl⟩
        next hf =>
          dsimp only at hstep
          split at hstep
          next => cases hstep
          next hne =>
            cases hstep
            rw [Tile.stepToward_eq_self_iff] at hne
            exact .inr ⟨by simpa using hf, rfl, Tile.distance_stepToward hne⟩
      next => cases h
    next => cases h
  next => cases h

/-- A granted wish takes the player to a tile that can be stood on: to the wished one at first,
later one step toward it. -/
theorem exists_of_granted? (h : s.granted? scene t = some s') :
    ∃ b, s' = (s.approached scene t).moveTo scene.shard scene.now b ∧ scene.shard.Standable b ∧
      (s.isFirstMove = true ∧ b = t ∨
        s.isFirstMove = false ∧ b = s.pos.stepToward t ∧ s.pos.distance b = 1) := by
  unfold granted? at h
  split at h
  next => cases h
  next => simpa only [isFirstMove_approached, pos_approached] using exists_of_tryMove h

/-! ### A wish -/

variable {x y : Coord}

theorem granted?_of_trigger? (ht : s.trigger? scene t = none) :
    s.granted? scene t = (s.approached scene t).tryMove scene.shard scene.now t := by
  rw [granted?, ht]

/-- A wish that sets off no teleport, by the session before it is granted or refused. -/
theorem walk_eq (scene : Scene) (s : Session) (t : Tile) :
    s.walk scene t =
      match (s.approached scene t).tryMove scene.shard scene.now t with
      | some s' => (s', (s.hints scene t).map .send ++
          [.publish s'.view, .broadcast, .send (.positionUpdate s'.pos)])
      | none => (s.approached scene t, (s.hints scene t).map .send ++
          [.send (.positionUpdate (s.approached scene t).pos)]) := rfl

theorem handle_of_trigger? {teleport : Teleport} (h : s.trigger? scene ⟨x, y⟩ = some teleport) :
    s.handle scene (.moveRequest x y) =
      (s, [.send (handoffMessage scene.book teleport), .dismissLater]) := by
  rw [handle, requestMove, h]

theorem handle_of_granted? (hg : s.granted? scene ⟨x, y⟩ = some s') :
    s.handle scene (.moveRequest x y) = (s', (s.hints scene ⟨x, y⟩).map .send ++
      [.publish s'.view, .broadcast, .send (.positionUpdate s'.pos)]) := by
  cases ht : s.trigger? scene ⟨x, y⟩ with
  | some teleport =>
    rw [granted?, ht] at hg
    cases hg
  | none =>
    rw [handle, requestMove, ht]
    dsimp only
    rw [walk_eq, ← granted?_of_trigger? ht, hg]

theorem handle_of_refused (ht : s.trigger? scene ⟨x, y⟩ = none)
    (hg : s.granted? scene ⟨x, y⟩ = none) :
    s.handle scene (.moveRequest x y) = (s.approached scene ⟨x, y⟩,
      (s.hints scene ⟨x, y⟩).map .send ++ [.send (.positionUpdate s.pos)]) := by
  rw [handle, requestMove, ht]
  dsimp only
  rw [walk_eq, ← granted?_of_trigger? ht, hg, pos_approached]

/-! ### All messages -/

/-- What handling a message comes to: the message, the session after it and the actions. -/
inductive Handling (scene : Scene) (s : Session) :
    ClientMessage → Session → List Action → Prop
  | configured (width : Int32) (username : Option String) :
    Handling scene s (.clientConfig width username) (s.configured scene.nextId width username)
      ((if s.clientId = 0 then [Action.takeId] else []) ++
        [.publish (s.configured scene.nextId width username).view,
          .send (.ghostZoneInfo (s.configured scene.nextId width username).ghostWidth
            scene.shard.effective),
          .send (.playerInfo (s.configured scene.nextId width username).clientId),
          .send (.deadZones scene.shard.deadZones)])
  | provisional : Handling scene s .provisionalConnection { s with provisional := true } []
  | sameMoving : Handling scene s (.moveState s.moving) s []
  | otherMoving (moving : Bool) (h : s.moving ≠ moving) :
    Handling scene s (.moveState moving) { s with moving }
      [.publish { s with moving }.view, .broadcast]
  | handedOff (x y : Coord) (teleport : Teleport) (h : s.trigger? scene ⟨x, y⟩ = some teleport) :
    Handling scene s (.moveRequest x y) s
      [.send (handoffMessage scene.book teleport), .dismissLater]
  | granted (x y : Coord) (s' : Session) (h : s.granted? scene ⟨x, y⟩ = some s') :
    Handling scene s (.moveRequest x y) s'
      ((s.hints scene ⟨x, y⟩).map .send ++
        [.publish s'.view, .broadcast, .send (.positionUpdate s'.pos)])
  | refused (x y : Coord) (ht : s.trigger? scene ⟨x, y⟩ = none)
    (hg : s.granted? scene ⟨x, y⟩ = none) :
    Handling scene s (.moveRequest x y) (s.approached scene ⟨x, y⟩)
      ((s.hints scene ⟨x, y⟩).map .send ++ [.send (.positionUpdate s.pos)])

theorem handling (scene : Scene) (s : Session) (m : ClientMessage) :
    Handling scene s m (s.handle scene m).1 (s.handle scene m).2 := by
  cases m with
  | moveRequest x y =>
    cases ht : s.trigger? scene ⟨x, y⟩ with
    | some teleport =>
      rw [handle_of_trigger? ht]
      exact .handedOff x y teleport ht
    | none =>
      cases hg : s.granted? scene ⟨x, y⟩ with
      | some s' =>
        rw [handle_of_granted? hg]
        exact .granted x y s' hg
      | none =>
        rw [handle_of_refused ht hg]
        exact .refused x y ht hg
  | clientConfig width username => exact .configured width username
  | provisionalConnection => exact .provisional
  | moveState moving =>
    unfold handle setMoving
    dsimp only
    split
    next h => rw [← h]; exact .sameMoving
    next h => exact .otherMoving moving h

/-! ### What the player is sent -/

theorem eq_of_mem_hints {n : ServerMessage} (h : n ∈ s.hints scene t) :
    ∃ region e, n = enterMessage region e ∨ n = leaveMessage region e := by
  rcases List.mem_append.1 h with h | h
  · obtain ⟨⟨region, e⟩, -, rfl⟩ := List.mem_map.1 h
    exact ⟨region, e, .inl rfl⟩
  · obtain ⟨⟨region, e⟩, -, rfl⟩ := List.mem_map.1 h
    exact ⟨region, e, .inr rfl⟩

/-- What a message to the player says of the message that it answers and of the new session. -/
def Answer (scene : Scene) (s : Session) (m : ClientMessage) (s' : Session) :
    ServerMessage → Prop
  | .positionUpdate p => p = s'.pos
  | .handoff .. => ∃ x y teleport, m = .moveRequest x y ∧ s.trigger? scene ⟨x, y⟩ = some teleport
  | .playersSnapshot .. => False
  | _ => True

theorem answer_of_mem_hints {n : ServerMessage} {m : ClientMessage} (h : n ∈ s.hints scene t) :
    Answer scene s m s' n := by
  obtain ⟨region, e, rfl | rfl⟩ := eq_of_mem_hints h <;> trivial

theorem Handling.answer {m : ClientMessage} {as : List Action} {n : ServerMessage}
    (h : Handling scene s m s' as) (hn : .send n ∈ as) : Answer scene s m s' n := by
  cases h with
  | configured width username =>
    split at hn <;>
      simp only [List.nil_append, List.cons_append, List.mem_cons, List.not_mem_nil, or_false,
        reduceCtorEq, false_or, Action.send.injEq] at hn <;>
      rcases hn with rfl | rfl | rfl <;> trivial
  | provisional => cases hn
  | sameMoving => cases hn
  | otherMoving moving h => simp at hn
  | handedOff x y teleport h =>
    have hn' : n = handoffMessage scene.book teleport := by simpa using hn
    rw [hn', handoffMessage]
    split <;> exact ⟨x, y, teleport, rfl, h⟩
  | granted x y s' h =>
    have hn' : n ∈ s.hints scene ⟨x, y⟩ ∨ n = .positionUpdate s'.pos := by simpa using hn
    rcases hn' with hn' | rfl
    · exact answer_of_mem_hints hn'
    · exact rfl
  | refused x y ht hg =>
    have hn' : n ∈ s.hints scene ⟨x, y⟩ ∨ n = .positionUpdate s.pos := by simpa using hn
    rcases hn' with hn' | rfl
    · exact answer_of_mem_hints hn'
    · exact (pos_approached scene s ⟨x, y⟩).symm

end Session

end TileRealm
