import Mathlib.Algebra.Group.Nat.Defs
import TileRealm.Proofs.Player.Handling
import TileRealm.Proofs.Player.Lobby
import TileRealm.Proofs.Player.Run

/-!
# Ids

Ids are handed out in the order of the numbers from 1 on, each to a session that is configured and
has none.  As long as they have not all been handed out, the sessions of a run that have an id have
different ones (`World.Numbered`, `World.numbered_run`).
-/

namespace TileRealm

/-- The id that is handed out after `n` others. -/
def idAfter (n : Nat) : Int32 := Int32.ofNat (n + 1)

theorem idAfter_add (m n : Nat) : idAfter (m + n) = idAfter m + Int32.ofNat n := by
  rw [idAfter, idAfter, ← Int32.ofNat_add, Nat.add_right_comm]

theorem idAfter_inj {m n : Nat} (hm : m < 2 ^ 32) (hn : n < 2 ^ 32)
    (h : idAfter m = idAfter n) : m = n := by
  have hbits : BitVec.ofNat 32 (m + 1) = BitVec.ofNat 32 (n + 1) := congrArg Int32.toBitVec h
  have hmod := congrArg BitVec.toNat hbits
  rw [BitVec.toNat_ofNat, BitVec.toNat_ofNat] at hmod
  omega

/-- The numbers come back to 0 after all the others. -/
theorem idAfter_eq_zero_iff {n : Nat} : idAfter n = 0 ↔ 2 ^ 32 ∣ n + 1 := by
  have hbits : idAfter n = 0 ↔ BitVec.ofNat 32 (n + 1) = BitVec.ofNat 32 0 :=
    Int32.toBitVec_inj.symm
  rw [hbits, ← BitVec.toNat_inj, BitVec.toNat_ofNat, BitVec.toNat_ofNat, Nat.zero_mod,
    Nat.dvd_iff_mod_eq_zero]

theorem idAfter_ne_zero {n : Nat} (h : n + 1 < 2 ^ 32) : idAfter n ≠ 0 := by
  rw [Ne, idAfter_eq_zero_iff]
  exact Nat.not_dvd_of_pos_of_lt (Nat.succ_pos n) h

namespace Session

/-- Whether a message has an id assigned to the session. -/
def takesId (s : Session) : ClientMessage → Bool
  | .clientConfig .. => s.clientId = 0
  | _ => false

theorem Handling.clientId {scene : Scene} {s s' : Session} {m : ClientMessage}
    {as : List Action} (h : Handling scene s m s' as) :
    s'.clientId = if s.takesId m then scene.nextId else s.clientId := by
  cases h with
  | configured width username =>
    simp only [takesId, decide_eq_true_eq]
    rfl
  | granted x y s' h =>
    obtain ⟨b, rfl, -, -⟩ := exists_of_granted? h
    exact congrArg View.clientId (view_approached scene s ⟨x, y⟩)
  | refused x y ht hg => exact congrArg View.clientId (view_approached scene s ⟨x, y⟩)
  | _ => rfl

theorem Handling.count_takeId {scene : Scene} {s s' : Session} {m : ClientMessage}
    {as : List Action} (h : Handling scene s m s' as) :
    as.count .takeId = if s.takesId m then 1 else 0 := by
  have hsend : ∀ ms : List ServerMessage, (ms.map Action.send).count .takeId = 0 := fun ms =>
    List.count_eq_zero_of_not_mem (by simp)
  cases h with
  | configured width username =>
    simp only [takesId, decide_eq_true_eq]
    split <;> rfl
  | granted x y s' h => rw [List.count_append, hsend]; rfl
  | refused x y ht hg => rw [List.count_append, hsend]; rfl
  | _ => rfl

end Session

namespace Lobby

theorem nextId_leave (l : Lobby) (id : ConnectionId) : (l.leave id).nextId = l.nextId := by
  unfold leave
  split <;> rfl

theorem nextId_broadcast (l : Lobby) : l.broadcast.1.nextId = l.nextId := by
  rw [broadcast, offerAll_fst]
  generalize hshown : l.views.toList = es
  clear hshown
  generalize l.views = shown
  induction es generalizing l with
  | nil => rfl
  | cons e es ih =>
    rw [List.foldl_cons, ih, offer]
    split <;> rfl

end Lobby

namespace World

theorem nextId_performAll (id : ConnectionId) (w : World) (as : List Action) :
    (performAll id w as).lobby.nextId = w.lobby.nextId + Int32.ofNat (as.count .takeId) := by
  induction as generalizing w with
  | nil => exact (Int32.add_zero _).symm
  | cons a as ih =>
    rw [performAll_cons, ih]
    cases a with
    | takeId =>
      rw [List.count_cons_self, Nat.add_comm, Int32.ofNat_add, ← Int32.add_assoc]
      rfl
    | broadcast =>
      rw [List.count_cons_of_ne Action.noConfusion, perform, Lobby.nextId_broadcast]
    | _ => rw [List.count_cons_of_ne Action.noConfusion]; rfl

theorem nextId_expire (w : World) : w.expire.lobby.nextId = w.lobby.nextId :=
  lobby_expire_induction (motive := fun l => l.nextId = w.lobby.nextId) rfl
    fun _ _ h => (Lobby.nextId_leave ..).trans h

/-! ### What is handed out -/

/-- The ids that an event hands out. -/
def idsBy (w : World) : Event → List Int32
  | .message id m =>
    if (w.sessions.get? id).any fun s => s.takesId m then [w.lobby.nextId] else []
  | _ => []

/-- The ids that are handed out in a run, in their order. -/
def ids (w : World) (es : List Event) : List Int32 := w.along idsBy es

theorem ids_concat (w : World) (es : List Event) (e : Event) :
    w.ids (es ++ [e]) = w.ids es ++ (w.run es).idsBy e :=
  along_concat ..

theorem idsBy_message {w : World} {id : ConnectionId} {s : Session}
    (hs : w.sessions.get? id = some s) (m : ClientMessage) :
    w.idsBy (.message id m) = if s.takesId m then [w.lobby.nextId] else [] := by
  rw [idsBy, hs]
  rfl

theorem idsBy_eq (w : World) (e : Event) : w.idsBy e = [] ∨ w.idsBy e = [w.lobby.nextId] := by
  cases e with
  | message id m =>
    rw [idsBy]
    split
    · exact .inr rfl
    · exact .inl rfl
  | _ => exact .inl rfl

theorem nextId_step (w : World) (e : Event) :
    (w.step e).lobby.nextId = w.lobby.nextId + Int32.ofNat (w.idsBy e).length := by
  cases e with
  | message id m =>
    cases hs : w.sessions.get? id with
    | none =>
      rw [step, dispatch_of_none hs, idsBy, hs]
      exact (Int32.add_zero _).symm
    | some s =>
      rw [step, dispatch_of_some hs, nextId_expire, nextId_performAll,
        (s.handling w.scene m).count_takeId, idsBy_message hs]
      split <;> rfl
  | wait ms =>
    refine (nextId_expire { w with now := w.now + ms }).trans ?_
    exact (Int32.add_zero _).symm
  | remove id => exact (Lobby.nextId_leave ..).trans (Int32.add_zero _).symm
  | close id =>
    refine Eq.trans ?_ (Int32.add_zero _).symm
    simp only [step, close]
    split
    · exact (Lobby.nextId_broadcast _).trans (Lobby.nextId_leave ..)
    · exact Lobby.nextId_leave ..
  | _ => exact (Int32.add_zero _).symm

/-- The session of a connection is new, or has the id that it had, or has the one that was handed
out. -/
theorem clientId_step {w : World} {e : Event} {id : ConnectionId} {s' : Session}
    (h : (w.step e).sessions.get? id = some s') :
    s'.clientId = 0 ∨ (∃ s, w.sessions.get? id = some s ∧ s'.clientId = s.clientId) ∨
      (∃ m, e = .message id m) ∧ w.idsBy e = [w.lobby.nextId] ∧ s'.clientId = w.lobby.nextId := by
  rcases sessions_step h with ⟨-, -, rfl⟩ | ⟨m, s, rfl, hs, rfl⟩ | ⟨-, hs⟩
  · exact .inl rfl
  · have hid := (s.handling w.scene m).clientId
    rw [idsBy_message hs]
    split at hid
    next ht => exact .inr (.inr ⟨⟨m, rfl⟩, if_pos ht, hid⟩)
    next => exact .inr (.inl ⟨s, hs, hid⟩)
  · exact .inr (.inl ⟨s', hs, rfl⟩)

/-! ### Runs -/

/-- What holds of a world in which ids have been handed out. -/
structure Numbered (ids : List Int32) (w : World) : Prop where
  /-- They were handed out in the order of the numbers. -/
  ids_eq : ids = (List.range ids.length).map idAfter
  nextId : w.lobby.nextId = idAfter ids.length
  /-- The id of a session was handed out. -/
  mem : ∀ {id s}, w.sessions.get? id = some s → s.clientId = 0 ∨ s.clientId ∈ ids
  /-- It was handed out to no other session. -/
  eq_of_clientId_eq : ids.length < 2 ^ 32 → ∀ {id id' s s'}, w.sessions.get? id = some s →
    w.sessions.get? id' = some s' → s.clientId = s'.clientId → s.clientId ≠ 0 → id = id'

theorem numbered_fresh (shard : Shard) (book : AddressBook) (grace now : Nat) :
    Numbered [] (fresh shard book grace now) where
  ids_eq := rfl
  nextId := rfl
  mem h := nomatch h
  eq_of_clientId_eq _ {_ _ _ _} h := nomatch h

namespace Numbered

variable {ids : List Int32} {w : World}

/-- The id that is handed out next was not handed out before. -/
theorem nextId_not_mem (h : Numbered ids w) (hlt : ids.length < 2 ^ 32) :
    w.lobby.nextId ∉ ids := by
  rw [h.nextId, h.ids_eq, List.length_map, List.length_range]
  intro hm
  obtain ⟨n, hn, heq⟩ := List.mem_map.1 hm
  have hn' := List.mem_range.1 hn
  exact Nat.ne_of_lt hn' (idAfter_inj (Nat.lt_trans hn' hlt) hlt heq)

theorem step (h : Numbered ids w) (e : Event) : Numbered (ids ++ w.idsBy e) (w.step e) where
  ids_eq := by
    rcases idsBy_eq w e with hid | hid
    · rw [hid, List.append_nil]
      exact h.ids_eq
    · rw [hid, List.length_append, List.length_singleton, List.range_succ, List.map_append,
        ← h.ids_eq, h.nextId]
      rfl
  nextId := by rw [nextId_step, h.nextId, List.length_append, idAfter_add]
  mem {id s'} hs' := by
    rw [List.mem_append]
    rcases clientId_step hs' with hid | ⟨s, hs, hid⟩ | ⟨-, hby, hid⟩
    · exact .inl hid
    · rw [hid]
      exact (h.mem hs).imp_right .inl
    · rw [hid, hby]
      exact .inr (.inr (List.mem_singleton_self _))
  eq_of_clientId_eq hlt {id₁ id₂ s₁ s₂} hs₁ hs₂ heq hne := by
    have hlt' : ids.length < 2 ^ 32 := by
      rw [List.length_append] at hlt
      exact Nat.lt_of_le_of_lt (Nat.le_add_right ..) hlt
    -- An id that is handed out now is not that of a session from before.
    have hnew : ∀ {id s c}, w.sessions.get? id = some s → c = s.clientId → c ≠ 0 →
        c ≠ w.lobby.nextId := by
      rintro id s c hs rfl hc hnext
      exact h.nextId_not_mem hlt' (hnext ▸ (h.mem hs).resolve_left hc)
    rcases clientId_step hs₁ with hid₁ | ⟨r₁, hr₁, hid₁⟩ | ⟨⟨m₁, he₁⟩, -, hid₁⟩
    · exact absurd hid₁ hne
    · rcases clientId_step hs₂ with hid₂ | ⟨r₂, hr₂, hid₂⟩ | ⟨-, -, hid₂⟩
      · exact absurd (heq.trans hid₂) hne
      · exact h.eq_of_clientId_eq hlt' hr₁ hr₂ (by rw [← hid₁, heq, hid₂]) (hid₁ ▸ hne)
      · exact absurd (heq.trans hid₂) (hnew hr₁ hid₁ hne)
    · -- Both ids were handed out now only if the event is a message of both connections.
      rcases clientId_step hs₂ with hid₂ | ⟨r₂, hr₂, hid₂⟩ | ⟨⟨m₂, he₂⟩, -, -⟩
      · exact absurd (heq.trans hid₂) hne
      · exact absurd hid₁ (hnew hr₂ (heq.trans hid₂) hne)
      · cases he₁.symm.trans he₂
        rfl

end Numbered

theorem numbered_run (shard : Shard) (book : AddressBook) (grace now : Nat) (es : List Event) :
    Numbered ((fresh shard book grace now).ids es) ((fresh shard book grace now).run es) :=
  run_induction (motive := fun es w => Numbered ((fresh shard book grace now).ids es) w)
    (numbered_fresh shard book grace now)
    (fun es e ih => by rw [ids_concat]; exact ih.step e) es

end World

end TileRealm
