import TileRealm.Proofs.Service.Reader
import TileRealm.Service.Host

/-!
# Hosts and readers

A host that takes in bytes of a connection does what a reader of these bytes does, who takes note of
the end of the registration at once (`Host.exists_run_receive`).
-/

namespace TileRealm

open TileRealm.Frame

namespace Host

/-! ### Sending -/

theorem world_foldl_flushLine (h : Host) (ids : List ConnectionId) :
    (ids.foldl flushLine h).world = h.world.run (ids.map .collect) := by
  induction ids generalizing h with
  | nil => rfl
  | cons id ids ih => exact ih _

/-- What is queued for each connection is collected. -/
theorem world_flush (h : Host) :
    h.flush.world = h.world.run (h.world.lobby.lines.keys.map .collect) :=
  world_foldl_flushLine ..

theorem pending_flush (h : Host) : h.flush.pending = h.pending := by
  unfold flush
  generalize h.world.lobby.lines.keys = ids
  induction ids generalizing h with
  | nil => rfl
  | cons id ids ih => exact ih _

/-- Turns in which everything that is queued is collected. -/
def collecting (ids : List ConnectionId) : List Turn := ids.map fun id => .meanwhile (.collect id)

end Host

namespace Reader

theorem run_collecting (id : ConnectionId) (r : Reader) (ids : List ConnectionId) :
    r.run id (Host.collecting ids) = { r with world := r.world.run (ids.map .collect) } := by
  induction ids generalizing r with
  | nil => rfl
  | cons i ids ih => exact ih _

end Reader

namespace Host

/-- Turns of a reader besides which messages are collected and nothing else happens. -/
def Collecting (ts : List Turn) : Prop := ∀ e, .meanwhile e ∈ ts → ∃ id, e = .collect id

theorem collecting_append {ts us : List Turn} (ht : Collecting ts) (hu : Collecting us) :
    Collecting (ts ++ us) := by
  intro e he
  rcases List.mem_append.1 he with he | he
  · exact ht e he
  · exact hu e he

theorem collecting_cons {t : Turn} {ts : List Turn} (ht : ∀ e, t ≠ .meanwhile e)
    (h : Collecting ts) : Collecting (t :: ts) := by
  intro e he
  rcases List.mem_cons.1 he with rfl | he
  · exact absurd rfl (ht e)
  · exact h e he

theorem collecting_collecting (ids : List ConnectionId) : Collecting (collecting ids) := by
  intro e he
  obtain ⟨id, -, h⟩ := List.mem_map.1 he
  exact ⟨id, (Turn.meanwhile.inj h).symm⟩

/-- What a reader has done who handles frames as a host does, with the bytes that are left. -/
inductive Follows (id : ConnectionId) (left : Bytes) (r : Reader) : Host × Option ReadStop → Prop where
  | on {h : Host} (hr : r = ⟨h.world, left, .reading⟩) : Follows id left r (h, none)
  | stopped {h : Host} {stop : ReadStop} {input : Bytes} {why : Stop}
      (hr : r = ⟨h.world.remove id, input, .leaving why⟩) (hend : Reader.isEnded r.phase = false) :
      Follows id left r (h, some stop)

/-- A frame is handled, and all that is queued then is sent. -/
theorem run_read_collecting {id : ConnectionId} {h : Host} {b rest : Bytes} {f : Frame} {w : World}
    (hnext : next b = .frame f rest)
    (hroute : h.world.route id f.header.kindByte f.payload = (w, none)) :
    (Reader.mk h.world b .reading).run id (.read :: collecting w.lobby.lines.keys) =
      ⟨(flush { h with world := w }).world, rest, .reading⟩ := by
  have hread : (Reader.mk h.world b .reading).turn id .read = ⟨w, rest, .reading⟩ := by
    simp only [Reader.turn, Reader.readNext, hnext, hroute, if_true]
  rw [Reader.run_cons, hread, Reader.run_collecting, world_flush]

/-- The frames of a stream are handled as a reader handles them who reads the stream. -/
theorem exists_run_routeAll (id : ConnectionId) (h : Host) (b : Bytes) :
    ∃ ts, Collecting ts ∧ Follows id (whole b).2
      ((Reader.mk h.world b .reading).run id ts) (routeAll id h (whole b).1) := by
  induction b using Frame.whole.induct generalizing h with
  | case1 b f rest hnext hlt _ _ _ ih =>
    rw [whole_of_frame hnext, routeAll]
    split
    next w e hroute =>
      have hread : (Reader.mk h.world b .reading).turn id .read =
          ⟨w.remove id, rest, .leaving (.malformed e)⟩ := by
        simp only [Reader.turn, Reader.readNext, hnext, hroute, if_true]
        rfl
      exact ⟨[.read], by simp [Collecting], .stopped hread (congrArg _ (congrArg _ hread))⟩
    next w hroute =>
      have hround := run_read_collecting hnext hroute
      have hcollecting : Collecting (.read :: collecting w.lobby.lines.keys) :=
        collecting_cons (fun _ => Turn.noConfusion) (collecting_collecting _)
      dsimp only
      split
      next =>
        have hstop : (Reader.mk h.world b .reading).run id
            (.read :: collecting w.lobby.lines.keys ++ [.dismissal]) =
              ⟨(flush { h with world := w }).world.remove id, rest, .leaving .dismissed⟩ := by
          rw [Reader.run_concat, hround]
          rfl
        exact ⟨_, collecting_append hcollecting (by simp [Collecting]),
          .stopped hstop (congrArg _ (congrArg _ hstop))⟩
      next =>
        obtain ⟨ts, hts, hfollows⟩ := ih (flush { h with world := w })
        refine ⟨_, collecting_append hcollecting hts, ?_⟩
        rw [Reader.run_append, hround]
        exact hfollows
  | case2 b hno =>
    rw [whole_of_not_frame hno]
    exact ⟨[], by simp [Collecting], .on rfl⟩

/-- A connection that ends has its registration ended, the others are told, everything that is queued
is sent, and the line is given up. -/
theorem world_closeAll (h : Host) (id : ConnectionId) :
    let w := (h.world.remove id).close id
    let w' := w.run (w.lobby.lines.keys.map .collect)
    (h.closeAll [id]).world = { w' with lobby := w'.lobby.discard id } := by
  intro w w'
  have hflush := world_flush { h with world := w, pending := h.pending.erase id }
  change (flush { h with world := w, pending := h.pending.erase id }).world = w' at hflush
  rw [← hflush]
  rfl

section Receive

variable {h h₁ : Host} {id : ConnectionId} {before bytes : Bytes}

theorem receive_of_none (hp : h.pending.get? id = some before)
    (hr : routeAll id h (whole (before ++ bytes)).1 = (h₁, none)) :
    h.receive id bytes =
      { h₁ with pending := h₁.pending.insert id (whole (before ++ bytes)).2 } := by
  simp only [receive, hp, hr]

theorem receive_of_some (hp : h.pending.get? id = some before) {stop : ReadStop}
    (hr : routeAll id h (whole (before ++ bytes)).1 = (h₁, some stop)) :
    h.receive id bytes = h₁.closeAll [id] := by
  simp only [receive, hp, hr]

end Receive

/-- Taking in bytes is reading them, along with those that no frame was made of yet, while what is
queued is collected: the connection is read on with the bytes that are left, or it is gone and its
line is given up. -/
theorem exists_run_receive {h : Host} {id : ConnectionId} {before : Bytes}
    (hp : h.pending.get? id = some before) (bytes : Bytes) :
    let h' := h.receive id bytes
    ∃ ts, Collecting ts ∧
      let r := (Reader.mk h.world (before ++ bytes) .reading).run id ts
      (r.phase = .reading ∧ h'.world = r.world ∧ h'.pending.get? id = some r.input) ∨
        ∃ why, r.phase = .gone why ∧ Reader.isEnded r.phase = false ∧
          h'.world = { r.world with lobby := r.world.lobby.discard id } ∧
          h'.pending.get? id = none := by
  intro h'
  obtain ⟨ts, hts, hfollows⟩ := exists_run_routeAll id h (before ++ bytes)
  generalize hrouted : routeAll id h (whole (before ++ bytes)).1 = routed at hfollows
  cases hfollows with
  | on hr =>
    refine ⟨ts, hts, .inl ?_⟩
    rw [hr, show h' = _ from receive_of_none hp hrouted]
    exact ⟨rfl, rfl, Table.get?_insert_self ..⟩
  | @stopped h₁ stop input why hr hend =>
    let w := (h₁.world.remove id).close id
    refine ⟨ts ++ (.farewell :: collecting w.lobby.lines.keys), ?_, .inr ⟨why, ?_⟩⟩
    · exact collecting_append hts
        (collecting_cons (fun _ => Turn.noConfusion) (collecting_collecting _))
    · have hfarewell : (Reader.mk (h₁.world.remove id) input (.leaving why)).run id
          (.farewell :: collecting w.lobby.lines.keys) =
            ⟨w.run (w.lobby.lines.keys.map .collect), input, .gone why⟩ := by
        rw [Reader.run_cons]
        exact Reader.run_collecting ..
      have hend' : Reader.isEnded (.gone why) = false := by
        rw [hr] at hend
        cases why with
        | ended how => cases hend
        | _ => rfl
      rw [Reader.run_append, hr, hfarewell, show h' = _ from receive_of_some hp hrouted]
      refine ⟨rfl, hend', world_closeAll h₁ id, ?_⟩
      have hpending : (h₁.closeAll [id]).pending = h₁.pending.erase id := pending_flush _
      rw [hpending, Table.get?_erase, if_pos rfl]

end Host

end TileRealm
