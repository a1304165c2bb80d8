import Mathlib.Data.List.Induction
import TileRealm.Player.World
import TileRealm.Proofs.Table

/-!
# Runs

A run is what happens to a world, event after event, from before the first connection on.  What an
event does to the sessions is said once, by `World.get?_sessions_step`; an induction over a run is
`World.run_induction`, and for a property of single sessions `World.session_induction`.
-/

namespace TileRealm

/-- What can happen to a world.  Events of different connections come in any order. -/
inductive Event where
  /-- Someone connects. -/
  | connect
  /-- A connection sends a message. -/
  | message (id : ConnectionId) (m : ClientMessage)
  /-- Time passes. -/
  | wait (ms : Nat)
  /-- The directory reports. -/
  | report (reports : List AddressReport) (now : Int)
  /-- A registration ends early. -/
  | remove (id : ConnectionId)
  /-- A connection is over. -/
  | close (id : ConnectionId)
  /-- A connection takes what is queued for it. -/
  | collect (id : ConnectionId)
deriving DecidableEq

namespace World

/-- A world before the first connection. -/
def fresh (shard : Shard) (book : AddressBook) (grace now : Nat) : World :=
  { shard, book, grace, now }

/-- The world after an event. -/
def step (w : World) : Event → World
  | .connect => w.connect.1
  | .message id m => w.dispatch id m
  | .wait ms => w.advance ms
  | .report reports now => w.report reports now
  | .remove id => w.remove id
  | .close id => w.close id
  | .collect id => { w with lobby := w.lobby.drain id }

/-- The world after a run. -/
def run (w : World) (es : List Event) : World := es.foldl step w

/-- What is collected along a run. -/
def along {α : Type} (f : World → Event → List α) (w : World) : List Event → List α
  | [] => []
  | e :: es => f w e ++ along f (w.step e) es

@[simp] theorem run_nil (w : World) : w.run [] = w := rfl

@[simp] theorem run_cons (w : World) (e : Event) (es : List Event) :
    w.run (e :: es) = (w.step e).run es := rfl

theorem run_append (w : World) (es fs : List Event) : w.run (es ++ fs) = (w.run es).run fs :=
  List.foldl_append

theorem run_concat (w : World) (es : List Event) (e : Event) :
    w.run (es ++ [e]) = (w.run es).step e :=
  run_append w es [e]

theorem along_append {α : Type} (f : World → Event → List α) (w : World) (es fs : List Event) :
    w.along f (es ++ fs) = w.along f es ++ (w.run es).along f fs := by
  induction es generalizing w with
  | nil => rfl
  | cons e es ih => rw [List.cons_append, along, along, run_cons, ih, List.append_assoc]

theorem along_concat {α : Type} (f : World → Event → List α) (w : World) (es : List Event)
    (e : Event) : w.along f (es ++ [e]) = w.along f es ++ f (w.run es) e := by
  rw [along_append, along, along, List.append_nil]

/-- What holds at first and is kept by every further event holds of every run. -/
theorem run_induction {w : World} {motive : List Event → World → Prop} (nil : motive [] w)
    (concat : ∀ es e, motive es (w.run es) → motive (es ++ [e]) ((w.run es).step e))
    (es : List Event) : motive es (w.run es) := by
  induction es using List.reverseRecOn with
  | nil => exact nil
  | append_singleton es e ih =>
    rw [run_concat]
    exact concat es e ih

/-! ### What an event changes -/

/-- Take actions, one after the other. -/
def performAll (id : ConnectionId) (w : World) (as : List Action) : World :=
  as.foldl (perform id) w

@[simp] theorem performAll_cons (id : ConnectionId) (w : World) (a : Action) (as : List Action) :
    performAll id w (a :: as) = performAll id (perform id w a) as := rfl

theorem performAll_append (id : ConnectionId) (w : World) (as bs : List Action) :
    performAll id w (as ++ bs) = performAll id (performAll id w as) bs :=
  List.foldl_append

/-- An action works on the lobby and on the timers only. -/
theorem exists_perform_eq (id : ConnectionId) (w : World) (a : Action) :
    ∃ lobby timers, perform id w a = { w with lobby, timers } := by
  cases a <;> exact ⟨_, _, rfl⟩

theorem exists_performAll_eq (id : ConnectionId) (w : World) (as : List Action) :
    ∃ lobby timers, performAll id w as = { w with lobby, timers } := by
  induction as generalizing w with
  | nil => exact ⟨_, _, rfl⟩
  | cons a as ih =>
    obtain ⟨lobby, timers, h⟩ := exists_perform_eq id w a
    obtain ⟨lobby', timers', h'⟩ := ih (perform id w a)
    exact ⟨lobby', timers', by rw [performAll_cons, h', h]⟩

theorem timers_performAll {id : ConnectionId} {as : List Action} (has : .dismissLater ∉ as)
    (w : World) : (performAll id w as).timers = w.timers := by
  induction as generalizing w with
  | nil => rfl
  | cons a as ih =>
    rw [List.mem_cons, not_or] at has
    rw [performAll_cons, ih has.2]
    cases a with
    | dismissLater => exact absurd rfl has.1
    | _ => rfl

theorem expire_eq (w : World) :
    w.expire = { w with
      lobby := (w.timers.filter fun t => t.due ≤ w.now).foldl (fun l t => l.leave t.connection)
        w.lobby
      timers := w.timers.filter fun t => !decide (t.due ≤ w.now) } := by
  simp only [expire, List.partition_eq_filter_filter]
  rfl

/-- What holds of the lobby and is kept by the end of a registration holds after those whose time
has come have ended. -/
theorem lobby_expire_induction {motive : Lobby → Prop} {w : World} (lobby : motive w.lobby)
    (leave : ∀ l id, motive l → motive (l.leave id)) : motive w.expire.lobby := by
  rw [expire_eq]
  dsimp only
  generalize w.timers.filter _ = ts
  generalize w.lobby = l at lobby
  induction ts generalizing l with
  | nil => exact lobby
  | cons t ts ih => exact ih _ (leave l t.connection lobby)

/-- Nothing ends before its time has come. -/
theorem expire_eq_self {w : World} (h : ∀ t ∈ w.timers, w.now < t.due) : w.expire = w := by
  have hdue : (w.timers.filter fun t => decide (t.due ≤ w.now)) = [] :=
    List.filter_eq_nil_iff.2 fun t ht => by simpa using h t ht
  have hlater : (w.timers.filter fun t => !decide (t.due ≤ w.now)) = w.timers :=
    List.filter_eq_self.2 fun t ht => by simpa using h t ht
  rw [expire_eq, hdue, hlater]
  rfl

/-- Without a new timer no registration ends. -/
theorem expire_performAll {id : ConnectionId} {w : World} {as : List Action}
    (hw : ∀ t ∈ w.timers, w.now < t.due) (has : .dismissLater ∉ as) :
    (performAll id w as).expire = performAll id w as := by
  have htimers : (performAll id w as).timers = w.timers := timers_performAll has w
  obtain ⟨lobby, timers, heq⟩ := exists_performAll_eq id w as
  refine expire_eq_self fun t ht => ?_
  rw [htimers] at ht
  rw [heq]
  exact hw t ht

/-- A world with the session of a connection in place of the one before. -/
def withSession (w : World) (id : ConnectionId) (s : Session) : World :=
  { w with sessions := w.sessions.insert id s }

theorem dispatch_of_none {w : World} {id : ConnectionId} (h : w.sessions.get? id = none)
    (m : ClientMessage) : w.dispatch id m = w := by
  simp [dispatch, h]

theorem dispatch_of_some {w : World} {id : ConnectionId} {s : Session}
    (h : w.sessions.get? id = some s) (m : ClientMessage) :
    w.dispatch id m =
      (performAll id (w.withSession id (s.handle w.scene m).1) (s.handle w.scene m).2).expire := by
  simp only [dispatch, h]
  rfl

/-- A message changes the session of its connection, the lobby and the timers. -/
theorem exists_dispatch_eq {w : World} {id : ConnectionId} {s : Session}
    (h : w.sessions.get? id = some s) (m : ClientMessage) :
    ∃ lobby timers, w.dispatch id m =
      { w.withSession id (s.handle w.scene m).1 with lobby, timers } := by
  obtain ⟨lobby, timers, hp⟩ := exists_performAll_eq id
    (w.withSession id (s.handle w.scene m).1) (s.handle w.scene m).2
  rw [dispatch_of_some h, hp, expire_eq]
  exact ⟨_, _, rfl⟩

theorem sessions_close (w : World) (id : ConnectionId) :
    (w.close id).sessions = w.sessions.erase id := by
  simp only [close]
  split <;> rfl

/-- Only a report changes the address book, only waiting takes time, and only new connections are
numbered; the shard and the grace stay. -/
theorem surroundings_step (w : World) (e : Event) :
    (w.step e).shard = w.shard ∧ (w.step e).grace = w.grace ∧
    ((w.step e).book =
      match e with
      | .report reports now => w.book.apply reports now
      | _ => w.book) ∧
    ((w.step e).now =
      match e with
      | .wait ms => w.now + ms
      | _ => w.now) ∧
    (w.step e).nextConnection =
      match e with
      | .connect => w.nextConnection + 1
      | _ => w.nextConnection := by
  cases e with
  | message id m =>
    cases hs : w.sessions.get? id with
    | none =>
      rw [step, dispatch_of_none hs]
      exact ⟨rfl, rfl, rfl, rfl, rfl⟩
    | some s =>
      obtain ⟨lobby, timers, hd⟩ := exists_dispatch_eq hs m
      rw [step, hd]
      exact ⟨rfl, rfl, rfl, rfl, rfl⟩
  | wait ms =>
    rw [step, advance, expire_eq]
    exact ⟨rfl, rfl, rfl, rfl, rfl⟩
  | close id =>
    simp only [step, close]
    split <;> exact ⟨rfl, rfl, rfl, rfl, rfl⟩
  | _ => exact ⟨rfl, rfl, rfl, rfl, rfl⟩

/-- No event changes the shard or the grace, and none sets back the clock or the numbering of
connections. -/
theorem step_frame (w : World) (e : Event) :
    (w.step e).shard = w.shard ∧ (w.step e).grace = w.grace ∧ w.now ≤ (w.step e).now ∧
      w.nextConnection ≤ (w.step e).nextConnection := by
  obtain ⟨hshard, hgrace, -, hnow, hnext⟩ := surroundings_step w e
  refine ⟨hshard, hgrace, hnow ▸ ?_, hnext ▸ ?_⟩
  · cases e with
    | wait ms => exact Nat.le_add_right ..
    | _ => exact Nat.le_refl _
  · cases e with
    | connect => exact Nat.le_succ _
    | _ => exact Nat.le_refl _

@[simp] theorem shard_run (w : World) (es : List Event) : (w.run es).shard = w.shard := by
  induction es generalizing w with
  | nil => rfl
  | cons e es ih => rw [run_cons, ih, (step_frame w e).1]

@[simp] theorem grace_run (w : World) (es : List Event) : (w.run es).grace = w.grace := by
  induction es generalizing w with
  | nil => rfl
  | cons e es ih => rw [run_cons, ih, (step_frame w e).2.1]

theorem nextConnection_le_run (w : World) (es : List Event) :
    w.nextConnection ≤ (w.run es).nextConnection := by
  induction es generalizing w with
  | nil => exact Nat.le_refl _
  | cons e es ih => exact Nat.le_trans (step_frame w e).2.2.2 (ih _)

theorem nextConnection_run {w : World} {es : List Event} (hes : .connect ∉ es) :
    (w.run es).nextConnection = w.nextConnection := by
  induction es generalizing w with
  | nil => rfl
  | cons e es ih =>
    rw [List.mem_cons, not_or] at hes
    rw [run_cons, ih hes.2, (surroundings_step w e).2.2.2.2]
    cases e with
    | connect => exact absurd rfl hes.1
    | _ => rfl

/-- The session of a connection after an event. -/
theorem get?_sessions_step (w : World) (e : Event) (id : ConnectionId) :
    (w.step e).sessions.get? id =
      match e with
      | .connect => if id = w.nextConnection then some {} else w.sessions.get? id
      | .message id' m =>
        if id = id' then (w.sessions.get? id).map fun s => (s.handle w.scene m).1
        else w.sessions.get? id
      | .close id' => if id = id' then none else w.sessions.get? id
      | _ => w.sessions.get? id := by
  cases e with
  | connect => exact Table.get?_insert ..
  | message id' m =>
    cases hs : w.sessions.get? id' with
    | none =>
      rw [step, dispatch_of_none hs]
      dsimp only
      split
      next hid => rw [hid, hs]; rfl
      next => rfl
    | some s =>
      obtain ⟨lobby, timers, hd⟩ := exists_dispatch_eq hs m
      rw [step, hd]
      refine (Table.get?_insert ..).trans ?_
      dsimp only
      split
      next hid => rw [hid, hs]; rfl
      next => rfl
  | wait ms => rw [step, advance, expire_eq]
  | close id' => rw [step, sessions_close, Table.get?_erase]
  | _ => rfl

/-- A session that is there after an event is new, or was there before and has handled the
message, or is as it was. -/
theorem sessions_step {w : World} {e : Event} {id : ConnectionId} {s' : Session}
    (h : (w.step e).sessions.get? id = some s') :
    (e = .connect ∧ id = w.nextConnection ∧ s' = {}) ∨
      (∃ m s, e = .message id m ∧ w.sessions.get? id = some s ∧
        s' = (s.handle w.scene m).1) ∨
      ((∀ m, e ≠ .message id m) ∧ w.sessions.get? id = some s') := by
  rw [get?_sessions_step] at h
  cases e with
  | connect =>
    dsimp only at h
    split at h
    next hid => exact .inl ⟨rfl, hid, (Option.some.inj h).symm⟩
    next => exact .inr (.inr ⟨fun m => Event.noConfusion, h⟩)
  | message id' m =>
    dsimp only at h
    split at h
    next hid =>
      subst hid
      obtain ⟨s, hs, rfl⟩ := Option.map_eq_some_iff.1 h
      exact .inr (.inl ⟨m, s, rfl, hs, rfl⟩)
    next hid =>
      refine .inr (.inr ⟨fun m' hm => ?_, h⟩)
      cases hm
      exact hid rfl
  | close id' =>
    dsimp only at h
    split at h
    next => cases h
    next => exact .inr (.inr ⟨fun m => Event.noConfusion, h⟩)
  | _ => exact .inr (.inr ⟨fun m => Event.noConfusion, h⟩)

theorem sessions_step_message {w : World} {id : ConnectionId} {s : Session}
    (h : w.sessions.get? id = some s) (m : ClientMessage) :
    (w.step (.message id m)).sessions.get? id = some (s.handle w.scene m).1 :=
  (get?_sessions_step ..).trans ((if_pos rfl).trans (congrArg (Option.map _) h))

/-- What a new session has and handling a message keeps, every session of a run has. -/
theorem session_induction {shard : Shard} {motive : Session → Prop} (new : motive {})
    (handle : ∀ scene s m, scene.shard = shard → motive s → motive (s.handle scene m).1)
    {book : AddressBook} {grace now : Nat} {es : List Event} {id : ConnectionId} {s : Session}
    (h : ((fresh shard book grace now).run es).sessions.get? id = some s) : motive s := by
  revert h s
  refine run_induction (motive := fun _ w => ∀ {s}, w.sessions.get? id = some s → motive s) ?_
    (fun es e ih s' hs' => ?_) es
  · intro s hs
    cases hs
  · rcases sessions_step hs' with ⟨-, -, rfl⟩ | ⟨m, s, -, hs, rfl⟩ | ⟨-, hs⟩
    · exact new
    · exact handle _ s m (shard_run (fresh shard book grace now) es) (ih hs)
    · exact ih hs

/-! ### A small shard -/

/-- Ten by ten tiles with a wall, a gate to another region and a neighbour in the east. -/
def crossing : Shard where
  name := "crossing"
  configured := ⟨0, 9, 0, 9⟩
  terrain :=
    (({ width := 10, height := 10 : Terrain }.withTileKind { id := "wall", walkable := false }).withTile
      ⟨4, 5⟩ "wall").withTeleport ⟨6, 5⟩ ⟨"cave", ⟨101, 102⟩⟩
  realm := ⟨[⟨"crossing", ⟨0, 9, 0, 9⟩, none, {}⟩, ⟨"east", ⟨10, 19, 0, 9⟩, some 9102, {}⟩]⟩

/-- The crossing before the first connection. -/
def quietCrossing : World := fresh crossing (.seeded .host crossing.realm) 250 0

end World

end TileRealm
