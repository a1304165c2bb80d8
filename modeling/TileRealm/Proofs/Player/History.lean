import TileRealm.Proofs.Player.Sound

/-!
# The history of a connection

The moves and the arrivals of a connection in a run (`World.moves`, `World.arrivals`), and what of
them its session remembers: whether there was a move (`World.isFirstMove_iff_moves`), and enough of
the arrivals to tell whether the last one is long ago (`World.graceOver_iff_arrivals`).
-/

namespace TileRealm

namespace World

/-- The tile to which a wish of a connection takes its player, if it is granted. -/
def moveBy (w : World) (id : ConnectionId) : Event → List Tile
  | .message id' (.moveRequest x y) =>
    if id' = id then
      (((w.sessions.get? id).bind fun s => s.granted? w.scene ⟨x, y⟩).map Session.pos).toList
    else []
  | _ => []

/-- The tiles to which the granted wishes of a connection took its player in a run. -/
def moves (w : World) (id : ConnectionId) (es : List Event) : List Tile :=
  w.along (fun w e => w.moveBy id e) es

/-- The time of a connection's wish to be on a tile, if it was the wish for a first move or one
for a tile more than a step away. -/
def arrivalBy (w : World) (id : ConnectionId) : Event → List Nat
  | .message id' (.moveRequest x y) =>
    if id' = id ∧ (w.sessions.get? id).any fun s => s.isFirstMove || 1 < s.pos.distance ⟨x, y⟩ then
      [w.now]
    else []
  | _ => []

/-- The times of a connection's arrivals in a run. -/
def arrivals (w : World) (id : ConnectionId) (es : List Event) : List Nat :=
  w.along (fun w e => w.arrivalBy id e) es

/-! ### Inductions along the history of a connection -/

section History

variable {shard : Shard} {book : AddressBook} {grace now : Nat} {es : List Event}
  {id : ConnectionId} {s : Session}

/-- Whether something is collected of a connection's own messages only. -/
def Owned {α : Type} (id : ConnectionId) (f : World → Event → List α) : Prop :=
  ∀ w e, w.Sound → (w.sessions.get? id = none ∨ ∀ m, e ≠ .message id m) → f w e = []

theorem along_eq_nil {α : Type} {f : World → Event → List α} (hf : Owned id f)
    (h : ((fresh shard book grace now).run es).nextConnection ≤ id) :
    (fresh shard book grace now).along f es = [] := by
  revert h
  refine run_induction (motive := fun es w => w.nextConnection ≤ id →
    (fresh shard book grace now).along f es = []) (fun _ => rfl) (fun es e ih hle => ?_) es
  have hs := sound_run shard book grace now es
  have hle' := Nat.le_trans (step_frame _ e).2.2.2 hle
  have hnone : ((fresh shard book grace now).run es).sessions.get? id = none := by
    cases hg : ((fresh shard book grace now).run es).sessions.get? id with
    | none => rfl
    | some s => exact absurd (hs.sessions_lt hg) (Nat.not_lt.2 hle')
  rw [along_concat, ih hle', hf _ e hs (.inl hnone)]
  rfl

/-- What holds of a new session without a history, and is kept by every message of its connection,
holds of every session of a run with the history of its connection. -/
theorem history_induction {α : Type} {f : World → Event → List α} (hf : Owned id f)
    {motive : List α → Session → Prop} (new : motive [] {})
    (message : ∀ es s m, ((fresh shard book grace now).run es).sessions.get? id = some s →
      motive ((fresh shard book grace now).along f es) s →
      motive ((fresh shard book grace now).along f es ++
          f ((fresh shard book grace now).run es) (.message id m))
        (s.handle ((fresh shard book grace now).run es).scene m).1)
    (h : ((fresh shard book grace now).run es).sessions.get? id = some s) :
    motive ((fresh shard book grace now).along f es) s := by
  revert h s
  refine run_induction (motive := fun es w => ∀ {s}, w.sessions.get? id = some s →
    motive ((fresh shard book grace now).along f es) s) ?_ (fun es e ih s' hs' => ?_) es
  · intro s hs
    cases hs
  · have hw := sound_run shard book grace now es
    rw [along_concat]
    rcases sessions_step hs' with ⟨rfl, hid, rfl⟩ | ⟨m, s, rfl, hs, rfl⟩ | ⟨hne, hs⟩
    · have hc := hf _ .connect hw (.inr fun m => Event.noConfusion)
      rw [along_eq_nil hf (Nat.le_of_eq hid.symm), hc]
      exact new
    · exact message es s m hs (ih hs)
    · rw [hf _ e hw (.inr hne), List.append_nil]
      exact ih hs

/-! ### Moves -/

theorem owned_moveBy : Owned id fun w e => w.moveBy id e := by
  intro w e _ h
  cases e with
  | message id' m =>
    cases m with
    | moveRequest x y =>
      simp only [moveBy]
      split
      next hid =>
        subst hid
        rcases h with h | h
        · rw [h]
          rfl
        · exact absurd rfl (h _)
      next => rfl
    | _ => rfl
  | _ => rfl

theorem moveBy_moveRequest {w : World} (hs : w.sessions.get? id = some s) (x y : Coord) :
    w.moveBy id (.message id (.moveRequest x y)) =
      ((s.granted? w.scene ⟨x, y⟩).map Session.pos).toList := by
  rw [moveBy, if_pos rfl, hs]
  rfl

theorem moves_append (w : World) (es fs : List Event) :
    w.moves id (es ++ fs) = w.moves id es ++ (w.run es).moves id fs :=
  along_append ..

/-- A session awaits its first move as long as no wish was granted. -/
theorem isFirstMove_iff_moves
    (h : ((fresh shard book grace now).run es).sessions.get? id = some s) :
    s.isFirstMove = true ↔ (fresh shard book grace now).moves id es = [] := by
  refine history_induction owned_moveBy
    (motive := fun l s => s.isFirstMove = true ↔ l = []) (by simp [Session.isFirstMove])
    (fun es s m hs ih => ?_) h
  generalize (fresh shard book grace now).along (fun w e => w.moveBy id e) es = l at ih ⊢
  generalize (fresh shard book grace now).run es = w at hs ⊢
  have hp := s.handling w.scene m
  generalize (s.handle w.scene m).1 = s' at hp ⊢
  generalize (s.handle w.scene m).2 = as at hp
  cases hp with
  | handedOff x y teleport ht =>
    rw [moveBy_moveRequest hs, Session.granted?, ht]
    simpa using ih
  | granted x y s' hg =>
    rw [moveBy_moveRequest hs, hg]
    obtain ⟨b, rfl, -, -⟩ := Session.exists_of_granted? hg
    simp [Session.moveTo, Session.isFirstMove]
  | refused x y ht hg =>
    rw [moveBy_moveRequest hs, hg, Session.isFirstMove_approached]
    simpa using ih
  | _ =>
    show _ ↔ l ++ [] = []
    rw [List.append_nil]
    exact ih

theorem isFirstMove_eq_false_iff_moves
    (h : ((fresh shard book grace now).run es).sessions.get? id = some s) :
    s.isFirstMove = false ↔ (fresh shard book grace now).moves id es ≠ [] := by
  rw [ne_eq, ← isFirstMove_iff_moves h, Bool.not_eq_true]

/-! ### Arrivals -/

theorem owned_arrivalBy : Owned id fun w e => w.arrivalBy id e := by
  intro w e _ h
  cases e with
  | message id' m =>
    cases m with
    | moveRequest x y =>
      simp only [arrivalBy]
      split
      next hid =>
        obtain ⟨rfl, hany⟩ := hid
        rcases h with h | h
        · rw [h] at hany
          cases hany
        · exact absurd rfl (h _)
      next => rfl
    | _ => rfl
  | _ => rfl

theorem arrivalBy_moveRequest {w : World} (hs : w.sessions.get? id = some s) (x y : Coord) :
    w.arrivalBy id (.message id (.moveRequest x y)) =
      if s.arrives ⟨x, y⟩ then [w.now] else [] := by
  simp [arrivalBy, hs, Session.arrives]

theorem le_now_of_mem_arrivals (shard : Shard) (book : AddressBook) (grace now : Nat)
    (es : List Event) (id : ConnectionId) :
    ∀ a ∈ (fresh shard book grace now).arrivals id es,
      a ≤ ((fresh shard book grace now).run es).now := by
  refine run_induction (motive := fun es w =>
    ∀ a ∈ (fresh shard book grace now).arrivals id es, a ≤ w.now) (by simp [arrivals, along])
    (fun es e ih a ha => ?_) es
  rw [arrivals, along_concat, List.mem_append] at ha
  have hle := (step_frame ((fresh shard book grace now).run es) e).2.2.1
  rcases ha with ha | ha
  · exact Nat.le_trans (ih a ha) hle
  · dsimp only [arrivalBy] at ha
    split at ha
    next =>
      split at ha
      next => exact List.mem_singleton.1 ha ▸ hle
      next => cases ha
    next => cases ha

/-- A session remembers the last arrival of its connection. -/
theorem lastArrival_arrivals
    (h : ((fresh shard book grace now).run es).sessions.get? id = some s) :
    (∀ b, s.lastArrival = some b → b ∈ (fresh shard book grace now).arrivals id es) ∧
      ∀ a ∈ (fresh shard book grace now).arrivals id es, ∃ b, s.lastArrival = some b ∧ a ≤ b := by
  refine history_induction owned_arrivalBy
    (motive := fun l s => (∀ b, s.lastArrival = some b → b ∈ l) ∧
      ∀ a ∈ l, ∃ b, s.lastArrival = some b ∧ a ≤ b) (by simp) (fun es s m hs ih => ?_) h
  have hnow := le_now_of_mem_arrivals shard book grace now es id
  rw [arrivals] at hnow
  generalize (fresh shard book grace now).along (fun w e => w.arrivalBy id e) es = l at ih hnow ⊢
  generalize (fresh shard book grace now).run es = w at hs hnow ⊢
  have hp := s.handling w.scene m
  generalize (s.handle w.scene m).1 = s' at hp ⊢
  generalize (s.handle w.scene m).2 = as at hp
  -- Whether a wish is granted or refused, its session has noted the arrival that it may be.
  have hwish : ∀ x y, s'.lastArrival = (s.approached w.scene ⟨x, y⟩).lastArrival →
      (∀ b, s'.lastArrival = some b → b ∈ l ++ w.arrivalBy id (.message id (.moveRequest x y))) ∧
        ∀ a ∈ l ++ w.arrivalBy id (.message id (.moveRequest x y)),
          ∃ b, s'.lastArrival = some b ∧ a ≤ b := by
    intro x y hs'
    rw [arrivalBy_moveRequest hs, hs', Session.lastArrival_approached]
    cases s.arrives ⟨x, y⟩ with
    | false => simpa using ih
    | true =>
      refine ⟨fun b hb => ?_, fun a ha => ⟨w.now, rfl, ?_⟩⟩
      · cases hb
        exact List.mem_append_right l (List.mem_singleton.2 rfl)
      · rcases List.mem_append.1 ha with ha | ha
        · exact hnow a ha
        · exact Nat.le_of_eq (List.mem_singleton.1 ha)
  cases hp with
  | handedOff x y teleport ht =>
    rw [arrivalBy_moveRequest hs, (Session.trigger?_eq_some_iff.1 ht).1]
    simpa using ih
  | granted x y s' hg =>
    obtain ⟨b, rfl, -, -⟩ := Session.exists_of_granted? hg
    exact hwish x y rfl
  | refused x y ht hg => exact hwish x y rfl
  | _ =>
    have hnil : ∀ a : Nat, a ∈ l ++ [] ↔ a ∈ l := fun a => by rw [List.append_nil]
    exact ⟨fun b hb => (hnil b).2 (ih.1 b hb), fun a ha => ih.2 a ((hnil a).1 ha)⟩

/-- A session lets teleports work again when every arrival of its connection is long ago. -/
theorem graceOver_iff_arrivals
    (h : ((fresh shard book grace now).run es).sessions.get? id = some s) (t : Nat) :
    s.graceOver t = true ↔
      ∀ a ∈ (fresh shard book grace now).arrivals id es, a + teleportGrace ≤ t := by
  obtain ⟨hmem, hle⟩ := lastArrival_arrivals h
  rw [Session.graceOver_iff]
  constructor
  · intro hg a ha
    obtain ⟨b, hb, hab⟩ := hle a ha
    have := hg b hb
    omega
  · exact fun hg b hb => hg b (hmem b hb)

end History

end World

end TileRealm
