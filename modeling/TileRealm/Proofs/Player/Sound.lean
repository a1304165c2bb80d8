import TileRealm.Proofs.Player.Handling
import TileRealm.Proofs.Player.Lobby
import TileRealm.Proofs.Player.Run

/-!
# Sound worlds

What holds of every world that a run reaches (`World.Sound`, `World.sound_run`): each connection
that ever came has an open line, what a registered connection shows is the view of its session,
and no timer is due.
-/

namespace TileRealm

namespace Action

/-- The view that a connection shows after an action. -/
def shown (v : View) : Action → View
  | .publish v' => v'
  | _ => v

theorem foldl_shown_map_send (v : View) (ms : List ServerMessage) :
    (ms.map Action.send).foldl shown v = v := by
  induction ms with
  | nil => rfl
  | cons m ms ih => exact ih

end Action

namespace Session

/-- After the actions of a message the connection shows the view of the new session. -/
theorem Handling.foldl_shown {scene : Scene} {s s' : Session} {m : ClientMessage}
    {as : List Action} (h : Handling scene s m s' as) : as.foldl Action.shown s.view = s'.view := by
  cases h with
  | configured width username =>
    rw [List.foldl_append]
    rfl
  | provisional => rfl
  | sameMoving => rfl
  | otherMoving moving h => rfl
  | handedOff x y teleport h => rfl
  | granted x y s' h =>
    rw [List.foldl_append]
    rfl
  | refused x y ht hg =>
    rw [List.foldl_append, Action.foldl_shown_map_send]
    exact (view_approached scene s ⟨x, y⟩).symm

end Session

namespace World

/-! ### Lines -/

/-- Actions change nothing about lines but what is queued. -/
theorem map_lines_perform {α : Type} {f : Line → α}
    (hf : ∀ line ms, f { line with queued := ms } = f line) (id : ConnectionId) (w : World)
    (a : Action) (id' : ConnectionId) :
    ((perform id w a).lobby.lines.get? id').map f = (w.lobby.lines.get? id').map f := by
  cases a with
  | send m => exact Lobby.map_lines_send hf ..
  | broadcast => exact Lobby.map_lines_broadcast hf ..
  | _ => rfl

theorem map_lines_performAll {α : Type} {f : Line → α}
    (hf : ∀ line ms, f { line with queued := ms } = f line) (id : ConnectionId) (w : World)
    (as : List Action) (id' : ConnectionId) :
    ((performAll id w as).lobby.lines.get? id').map f = (w.lobby.lines.get? id').map f := by
  induction as generalizing w with
  | nil => rfl
  | cons a as ih => rw [performAll_cons, ih, map_lines_perform hf]

@[simp] theorem hungUp?_perform (id : ConnectionId) (w : World) (a : Action) (id' : ConnectionId) :
    (perform id w a).lobby.hungUp? id' = w.lobby.hungUp? id' :=
  map_lines_perform (fun _ _ => rfl) ..

@[simp] theorem hungUp?_performAll (id : ConnectionId) (w : World) (as : List Action)
    (id' : ConnectionId) : (performAll id w as).lobby.hungUp? id' = w.lobby.hungUp? id' :=
  map_lines_performAll (fun _ _ => rfl) ..

@[simp] theorem hungUp?_expire (w : World) (id' : ConnectionId) :
    w.expire.lobby.hungUp? id' = w.lobby.hungUp? id' :=
  lobby_expire_induction (motive := fun l => l.hungUp? id' = w.lobby.hungUp? id') rfl
    fun _ _ h => (Lobby.hungUp?_leave ..).trans h

theorem queued_expire (w : World) (id' : ConnectionId) :
    w.expire.lobby.queued id' = w.lobby.queued id' :=
  lobby_expire_induction (motive := fun l => l.queued id' = w.lobby.queued id') rfl
    fun _ _ h => (Lobby.queued_leave ..).trans h

/-! ### Views -/

theorem get?_views_perform_of_ne {id id' : ConnectionId} (h : id' ≠ id) (w : World) (a : Action) :
    (perform id w a).lobby.views.get? id' = w.lobby.views.get? id' := by
  cases a with
  | publish v => exact (Lobby.get?_views_publish ..).trans (if_neg h)
  | broadcast => rw [perform, Lobby.views_broadcast]
  | _ => rfl

theorem get?_views_performAll_of_ne {id id' : ConnectionId} (h : id' ≠ id) (w : World)
    (as : List Action) : (performAll id w as).lobby.views.get? id' = w.lobby.views.get? id' := by
  induction as generalizing w with
  | nil => rfl
  | cons a as ih => rw [performAll_cons, ih, get?_views_perform_of_ne h]

/-- Actions change what their connection shows, not whether it is registered. -/
theorem get?_views_performAll (id : ConnectionId) (w : World) (as : List Action) :
    (performAll id w as).lobby.views.get? id =
      (w.lobby.views.get? id).map fun v => as.foldl Action.shown v := by
  induction as generalizing w with
  | nil => exact Option.map_id'.symm
  | cons a as ih =>
    rw [performAll_cons, ih]
    cases a with
    | publish v =>
      rw [perform, Lobby.get?_views_publish, if_pos rfl, Option.map_map]
      rfl
    | broadcast => rw [perform, Lobby.views_broadcast]; rfl
    | _ => rfl

theorem get?_views_of_expire {w : World} {id : ConnectionId} {v : View}
    (h : w.expire.lobby.views.get? id = some v) : w.lobby.views.get? id = some v := by
  revert h
  refine lobby_expire_induction (motive := fun l => l.views.get? id = some v → _) (fun h => h)
    fun l id' ih hl => ?_
  rw [Lobby.get?_views_leave] at hl
  split at hl
  next => cases hl
  next => exact ih hl

theorem views_close (w : World) (id : ConnectionId) :
    (w.close id).lobby.views = (w.lobby.leave id).views := by
  simp only [close]
  split
  · exact Lobby.views_broadcast _
  · rfl

/-! ### Soundness -/

/-- What holds of every world that a run reaches. -/
structure Sound (w : World) : Prop where
  /-- Connections are numbered in the order in which they come. -/
  sessions_lt : ∀ {id s}, w.sessions.get? id = some s → id < w.nextConnection
  /-- Each connection that came has a line, and its messages are taken. -/
  lines : ∀ id, w.lobby.hungUp? id = if id < w.nextConnection then some false else none
  /-- A registered connection shows the view of its session. -/
  views : ∀ {id v}, w.lobby.views.get? id = some v →
    ∃ s, w.sessions.get? id = some s ∧ v = s.view
  /-- No timer is due. -/
  timers : ∀ t ∈ w.timers, w.now < t.due

namespace Sound

variable {w : World}

theorem hungUp? (hw : w.Sound) {id : ConnectionId} {s : Session}
    (h : w.sessions.get? id = some s) : w.lobby.hungUp? id = some false := by
  rw [hw.lines, if_pos (hw.sessions_lt h)]

theorem view_eq (hw : w.Sound) {id : ConnectionId} {s : Session} {v : View}
    (hs : w.sessions.get? id = some s) (hv : w.lobby.views.get? id = some v) : v = s.view := by
  obtain ⟨s', hs', rfl⟩ := hw.views hv
  rw [hs, Option.some.injEq] at hs'
  rw [hs']

theorem queued_nextConnection (hw : w.Sound) : w.lobby.queued w.nextConnection = [] := by
  have h := hw.lines w.nextConnection
  rw [if_neg (Nat.lt_irrefl _), Lobby.hungUp?, Option.map_eq_none_iff] at h
  rw [Lobby.queued, h]

end Sound

theorem sound_fresh (shard : Shard) (book : AddressBook) (grace now : Nat) :
    (fresh shard book grace now).Sound where
  sessions_lt h := nomatch h
  lines _ := rfl
  views h := nomatch h
  timers _ ht := nomatch ht

theorem timers_expire (w : World) : ∀ t ∈ w.expire.timers, w.expire.now < t.due := by
  rw [expire_eq]
  intro t ht
  have := (List.mem_filter.1 ht).2
  simpa using this

theorem sound_connect {w : World} (hw : w.Sound) : (w.step .connect).Sound where
  sessions_lt {id s} h := by
    replace h : (w.sessions.insert w.nextConnection {}).get? id = some s := h
    show id < w.nextConnection + 1
    rw [Table.get?_insert] at h
    split at h
    next hid => exact hid ▸ Nat.lt_succ_self _
    next => exact Nat.lt_succ_of_lt (hw.sessions_lt h)
  lines id := by
    show (w.lobby.join w.nextConnection outboundQueue).hungUp? id =
      if id < w.nextConnection + 1 then some false else none
    rw [Lobby.hungUp?_join, hw.lines]
    by_cases h : id = w.nextConnection
    · rw [if_pos h, if_pos (h ▸ Nat.lt_succ_self _)]
    · have hiff : id < w.nextConnection + 1 ↔ id < w.nextConnection :=
        ⟨fun hlt => Nat.lt_of_le_of_ne (Nat.le_of_lt_succ hlt) h, Nat.lt_succ_of_lt⟩
      simp only [if_neg h, hiff]
  views {id v} h := by
    replace h : (w.lobby.views.insert w.nextConnection {}).get? id = some v := h
    show ∃ s, (w.sessions.insert w.nextConnection {}).get? id = some s ∧ v = s.view
    rw [Table.get?_insert] at h ⊢
    split at h
    next hid => exact ⟨{}, by rw [if_pos hid], (Option.some.inj h).symm⟩
    next hid =>
      rw [if_neg hid]
      exact hw.views h
  timers := hw.timers

theorem sound_message {w : World} (hw : w.Sound) (id : ConnectionId) (m : ClientMessage) :
    (w.step (.message id m)).Sound := by
  cases hs : w.sessions.get? id with
  | none => rwa [step, dispatch_of_none hs]
  | some s =>
    have hp := s.handling w.scene m
    generalize hs' : (s.handle w.scene m).1 = s' at hp
    generalize has : (s.handle w.scene m).2 = as at hp
    obtain ⟨lobby, timers, hd⟩ := exists_dispatch_eq hs m
    rw [hs'] at hd
    have hn : (w.dispatch id m).nextConnection = w.nextConnection := by rw [hd]; rfl
    have hss : (w.dispatch id m).sessions = w.sessions.insert id s' := by rw [hd]; rfl
    rw [step]
    refine ⟨fun {id' r} h => ?_, fun id' => ?_, fun {id' v} h => ?_, ?_⟩
    · rw [hss, Table.get?_insert] at h
      rw [hn]
      split at h
      next hid => exact hid ▸ hw.sessions_lt hs
      next => exact hw.sessions_lt h
    · rw [hn, dispatch_of_some hs, hungUp?_expire, hungUp?_performAll]
      exact hw.lines id'
    · rw [dispatch_of_some hs, has] at h
      replace h := get?_views_of_expire h
      rw [hss, Table.get?_insert]
      by_cases hid : id' = id
      · subst hid
        rw [get?_views_performAll] at h
        obtain ⟨u, hu, rfl⟩ := Option.map_eq_some_iff.1 h
        have huv : u = s.view := hw.view_eq hs hu
        exact ⟨s', if_pos rfl, by rw [huv]; exact hp.foldl_shown⟩
      · rw [get?_views_performAll_of_ne hid] at h
        rw [if_neg hid]
        exact hw.views h
    · rw [dispatch_of_some hs]
      exact timers_expire _

theorem sound_close {w : World} (hw : w.Sound) (id : ConnectionId) :
    (w.step (.close id)).Sound := by
  have hn : (w.close id).nextConnection = w.nextConnection := by
    simp only [close]
    split <;> rfl
  have ht : (w.close id).timers = w.timers ∧ (w.close id).now = w.now := by
    simp only [close]
    split <;> exact ⟨rfl, rfl⟩
  have hl : ∀ id', (w.close id).lobby.hungUp? id' = w.lobby.hungUp? id' := fun id' => by
    simp only [close]
    split
    · exact (Lobby.hungUp?_broadcast ..).trans (Lobby.hungUp?_leave ..)
    · exact Lobby.hungUp?_leave ..
  rw [step]
  refine ⟨fun {id' r} h => ?_, fun id' => ?_, fun {id' v} h => ?_, ?_⟩
  · rw [sessions_close, Table.get?_erase] at h
    rw [hn]
    split at h
    next => cases h
    next => exact hw.sessions_lt h
  · rw [hl, hn]
    exact hw.lines id'
  · rw [views_close, Lobby.get?_views_leave] at h
    rw [sessions_close, Table.get?_erase]
    split at h
    next => cases h
    next hid =>
      rw [if_neg hid]
      exact hw.views h
  · rw [ht.1, ht.2]
    exact hw.timers

theorem sound_step {w : World} (hw : w.Sound) (e : Event) : (w.step e).Sound := by
  cases e with
  | connect => exact sound_connect hw
  | message id m => exact sound_message hw id m
  | wait ms =>
    rw [step, advance]
    refine ⟨fun {id' r} h => ?_, fun id' => ?_, fun {id' v} h => ?_, timers_expire _⟩
    · rw [expire_eq] at h ⊢
      exact hw.sessions_lt h
    · rw [hungUp?_expire, expire_eq]
      exact hw.lines id'
    · rw [expire_eq]
      exact hw.views (get?_views_of_expire (w := { w with now := w.now + ms }) h)
  | report reports now => exact ⟨hw.sessions_lt, hw.lines, hw.views, hw.timers⟩
  | remove id =>
    refine ⟨hw.sessions_lt, fun id' => ?_, fun {id' v} h => ?_, hw.timers⟩
    · exact (Lobby.hungUp?_leave ..).trans (hw.lines id')
    · replace h : (w.lobby.leave id).views.get? id' = some v := h
      rw [Lobby.get?_views_leave] at h
      split at h
      next => cases h
      next => exact hw.views h
  | close id => exact sound_close hw id
  | collect id =>
    refine ⟨hw.sessions_lt, fun id' => ?_, hw.views, hw.timers⟩
    exact (Lobby.hungUp?_drain ..).trans (hw.lines id')

theorem Sound.run {w : World} (hw : w.Sound) (es : List Event) : (w.run es).Sound := by
  induction es generalizing w with
  | nil => exact hw
  | cons e es ih => exact ih (sound_step hw e)

theorem sound_run (shard : Shard) (book : AddressBook) (grace now : Nat) (es : List Event) :
    ((fresh shard book grace now).run es).Sound :=
  run_induction (motive := fun _ w => w.Sound) (sound_fresh shard book grace now)
    (fun _ e ih => sound_step ih e) es

end World

end TileRealm
