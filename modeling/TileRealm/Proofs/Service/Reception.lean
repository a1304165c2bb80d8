import TileRealm.Proofs.Service.Reader

/-!
# Receptions

A region while connections come, are read and end at the same time, and shutdown is called.  The
acceptor takes in connections until it sees a call.  Each connection hears of the calls that are made
after it was accepted, and of no other; it is registered some time after it was accepted, and takes
the turns of a reader.  These moves come in any order.

What a move can do is said once, by `Reception.moved`.  Along every run those are registered who are
read and were not told that their registration has ended (`Reception.Registers.run`), and who has
heard of which calls tells when it was accepted (`Reception.recorded_run`).
-/

namespace TileRealm

/-- A connection that was accepted. -/
structure Visit where
  /-- How often shutdown had been called when it was accepted. -/
  heard : Nat
  /-- All bytes that the connection has yet to send, or has sent and nobody has looked at. -/
  input : Bytes
  phase : Phase := .reading

/-- A world with connections that come and go side by side. -/
structure Reception where
  world : World
  /-- How often shutdown was called since the acceptor began. -/
  calls : Nat := 0
  /-- Whether connections are accepted. -/
  accepting : Bool := true
  /-- The connections that are not registered yet, in the order in which they were accepted. -/
  accepted : List Visit := []
  visits : Table ConnectionId Visit := ∅

/-- What can happen next. -/
inductive Move where
  /-- A connection is accepted. -/
  | accept (input : Bytes)
  /-- Shutdown is called. -/
  | call
  /-- The acceptor sees a call. -/
  | stop
  /-- A connection that was accepted is registered. -/
  | register (k : Nat)
  /-- A connection takes a turn. -/
  | turn (id : ConnectionId) (t : Turn)
  /-- Time passes. -/
  | wait (ms : Nat)
  /-- The directory reports. -/
  | report (reports : List AddressReport) (now : Int)
  /-- What is queued for a connection is sent. -/
  | collect (id : ConnectionId)
deriving DecidableEq

namespace Move

/-- What a move has happen that has nothing to do with a single connection's reading. -/
def event? : Move → Option Event
  | .wait ms => some (.wait ms)
  | .report reports now => some (.report reports now)
  | .collect id => some (.collect id)
  | _ => none

end Move

namespace Reception

/-- Whether there is something to learn in a turn. -/
def admits (r : Reception) (id : ConnectionId) (v : Visit) : Turn → Bool
  | .read => true
  | .dismissal => r.world.lobby.isDismissed id
  | .shutdown => v.heard < r.calls
  | .farewell => true
  | .meanwhile _ => false

/-- The reader of a connection. -/
def readerOf (r : Reception) (v : Visit) : Reader := ⟨r.world, v.input, v.phase⟩

/-- The reception after a connection was read. -/
def after (r : Reception) (id : ConnectionId) (v : Visit) (reader : Reader) : Reception :=
  { r with
    world := reader.world
    visits := r.visits.insert id { v with input := reader.input, phase := reader.phase } }

/-- The reception after a move, if it can be made. -/
def step (r : Reception) : Move → Option Reception
  | .accept input =>
    if r.accepting then some { r with accepted := r.accepted ++ [{ heard := r.calls, input }] }
    else none
  | .call => some { r with calls := r.calls + 1 }
  | .stop => if r.accepting && 0 < r.calls then some { r with accepting := false } else none
  | .register k =>
    match r.accepted[k]? with
    | some v =>
      let (w, id) := r.world.connect
      some { r with
        world := w, accepted := r.accepted.eraseIdx k, visits := r.visits.insert id v }
    | none => none
  | .turn id t =>
    match r.visits.get? id with
    | some v => if r.admits id v t then some (r.after id v ((r.readerOf v).turn id t)) else none
    | none => none
  | m => m.event?.map fun e => { r with world := r.world.step e }

/-- The reception after some moves, if they can be made in this order. -/
def run (r : Reception) (ms : List Move) : Option Reception := ms.foldlM step r

/-- A reception before the first connection. -/
def opening (w : World) : Reception := { world := w }

@[simp] theorem run_nil (r : Reception) : r.run [] = some r := rfl

theorem run_cons (r : Reception) (m : Move) (ms : List Move) :
    r.run (m :: ms) = (r.step m).bind fun r' => r'.run ms := rfl

theorem run_append (r : Reception) (ms ns : List Move) :
    r.run (ms ++ ns) = (r.run ms).bind fun r' => r'.run ns :=
  List.foldlM_append

theorem run_concat_eq_some_iff {r r' : Reception} {ms : List Move} {m : Move} :
    r.run (ms ++ [m]) = some r' ↔ ∃ r₁, r.run ms = some r₁ ∧ r₁.step m = some r' := by
  rw [run_append, Option.bind_eq_some_iff]
  simp only [run_cons, run_nil, Option.bind_fun_some]

/-! ### Moves -/

/-- What a move makes of a reception. -/
inductive Moved (r : Reception) : Move → Reception → Prop where
  | accept {input : Bytes} (h : r.accepting = true) :
      Moved r (.accept input) { r with accepted := r.accepted ++ [{ heard := r.calls, input }] }
  | call : Moved r .call { r with calls := r.calls + 1 }
  | stop (h : 0 < r.calls) : Moved r .stop { r with accepting := false }
  | register {k : Nat} {v : Visit} (h : r.accepted[k]? = some v) :
      Moved r (.register k) { r with
        world := r.world.step .connect
        accepted := r.accepted.eraseIdx k
        visits := r.visits.insert r.world.nextConnection v }
  | turn {id : ConnectionId} {v : Visit} {t : Turn} {reader : Reader}
      (hv : r.visits.get? id = some v) (hadmits : r.admits id v t = true)
      (ht : Reader.Taken id (r.readerOf v) t reader) : Moved r (.turn id t) (r.after id v reader)
  | meanwhile {m : Move} {e : Event} (h : m.event? = some e) :
      Moved r m { r with world := r.world.step e }

theorem moved {r r' : Reception} {m : Move} (h : r.step m = some r') : Moved r m r' := by
  cases m with
  | accept input =>
    rw [step] at h
    split at h
    next ha => exact Option.some.inj h ▸ .accept ha
    next => cases h
  | call => exact Option.some.inj h ▸ .call
  | stop =>
    rw [step] at h
    split at h
    next hs =>
      rw [Bool.and_eq_true, decide_eq_true_iff] at hs
      exact Option.some.inj h ▸ .stop hs.2
    next => cases h
  | register k =>
    rw [step] at h
    split at h
    next v hv => exact Option.some.inj h ▸ .register hv
    next => cases h
  | turn id t =>
    rw [step] at h
    split at h
    next v hv =>
      split at h
      next hadmits => exact Option.some.inj h ▸ .turn hv hadmits (Reader.taken ..)
      next => cases h
    next => cases h
  | wait ms => exact Option.some.inj h ▸ .meanwhile rfl
  | report reports now => exact Option.some.inj h ▸ .meanwhile rfl
  | collect id => exact Option.some.inj h ▸ .meanwhile rfl

end Reception

namespace World

/-- Where those are registered who are wanted and were not told of a removal, this stays so for who
is wanted on, and for who is wanted no more and is removed. -/
theorem isRegistered_run_iff {w : World} (hw : w.Sound) {id : ConnectionId}
    (hid : id < w.nextConnection) {es : List Event} {wanted wanted' : Prop}
    (h : w.lobby.isRegistered id = true ↔ wanted ∧ w.lobby.isDismissed id = false)
    (hwanted : (wanted' ↔ wanted) ∨ ¬wanted' ∧ id ∈ w.removals es) :
    (w.run es).lobby.isRegistered id = true ↔
      wanted' ∧ (w.run es).lobby.isDismissed id = false := by
  rw [isRegistered_run hw hid, Bool.eq_false_iff, ne_eq, isDismissed_run hw hid, h,
    Bool.eq_false_iff]
  tauto

end World

namespace Reader

/-- The world runs on without new connections, and whoever stops reading is removed. -/
def RunsOn (id : ConnectionId) (r r' : Reader) : Prop :=
  ∃ es, .connect ∉ es ∧ r'.world = r.world.run es ∧
    ((r'.phase = .reading ↔ r.phase = .reading) ∨
      r'.phase ≠ .reading ∧ id ∈ r.world.removals es)

theorem runsOn_stop (id : ConnectionId) (r : Reader) (input : Bytes) (why : Stop) :
    RunsOn id r (stop { r with input } id why) :=
  ⟨[.remove id], by simp, rfl, .inr ⟨Phase.noConfusion, List.mem_singleton_self _⟩⟩

theorem Taken.runsOn {id : ConnectionId} {r r' : Reader} {t : Turn} (h : Taken id r t r')
    (ht : ∀ e, t ≠ .meanwhile e) : RunsOn id r r' := by
  cases h with
  | @frame f rest hr hnext hf =>
    refine ⟨asked id f, ?_, rfl, .inl Iff.rfl⟩
    rw [asked]
    cases f.request? <;> simp
  | fault hr hnext hf => exact runsOn_stop ..
  | closed hr hnext => exact runsOn_stop ..
  | cut hr hnext => exact runsOn_stop ..
  | dismissal hr => exact runsOn_stop ..
  | shutdown hr => exact runsOn_stop ..
  | farewell hr => exact ⟨[.close id], by simp, rfl, .inl (by simp [hr])⟩
  | meanwhile e => exact absurd rfl (ht e)
  | idle hr hl ht => exact ⟨[], List.not_mem_nil, rfl, .inl Iff.rfl⟩

end Reader

namespace Reception

/-! ### Who is registered -/

/-- A connection is read. -/
def IsRead (r : Reception) (id : ConnectionId) : Prop :=
  ∃ v, r.visits.get? id = some v ∧ v.phase = .reading

/-- Those are registered who are read and were not told that their registration has ended. -/
structure Registers (r : Reception) : Prop where
  sound : r.world.Sound
  accepted : ∀ v ∈ r.accepted, v.phase = .reading
  visits_lt : ∀ {id v}, r.visits.get? id = some v → id < r.world.nextConnection
  isRegistered_iff : ∀ id, r.world.lobby.isRegistered id = true ↔
    r.IsRead id ∧ r.world.lobby.isDismissed id = false

theorem registers_opening {w : World} (hw : w.Sound)
    (hnone : ∀ id, w.lobby.isRegistered id = false) : (opening w).Registers where
  sound := hw
  accepted v hv := nomatch hv
  visits_lt h := nomatch h
  isRegistered_iff id := by
    refine ⟨fun h => ?_, ?_⟩
    · exact absurd h (Bool.eq_false_iff.1 (hnone id))
    · rintro ⟨⟨v, hv, -⟩, -⟩
      cases hv

/-- Events without new connections keep the registrations in order, if whoever stops reading is
removed. -/
theorem Registers.after_run {r : Reception} (h : r.Registers) {es : List Event}
    (hes : .connect ∉ es) {visits : Table ConnectionId Visit}
    (hvisits : ∀ {id v}, visits.get? id = some v → ∃ v', r.visits.get? id = some v')
    (hread : ∀ id, (IsRead { r with visits } id ↔ r.IsRead id) ∨
      ¬IsRead { r with visits } id ∧ id ∈ r.world.removals es) :
    Registers { r with world := r.world.run es, visits } where
  sound := h.sound.run es
  accepted := h.accepted
  visits_lt hv := by
    obtain ⟨v', hv'⟩ := hvisits hv
    exact (World.nextConnection_run hes).symm ▸ h.visits_lt hv'
  isRegistered_iff id := by
    by_cases hid : id < r.world.nextConnection
    · exact World.isRegistered_run_iff h.sound hid (h.isRegistered_iff id) (hread id)
    · refine ⟨fun hreg => ?_, ?_⟩
      · have hlt := World.lt_nextConnection (h.sound.run es) hreg
        rw [World.nextConnection_run hes] at hlt
        exact absurd hlt hid
      · rintro ⟨⟨v, hv, -⟩, -⟩
        obtain ⟨v', hv'⟩ := hvisits hv
        exact absurd (h.visits_lt hv') hid

/-- Whoever is registered new is read, and was told nothing. -/
theorem Registers.after_register {r : Reception} (h : r.Registers) {k : Nat} {v : Visit}
    (hk : r.accepted[k]? = some v) :
    Registers { r with
      world := r.world.step .connect
      accepted := r.accepted.eraseIdx k
      visits := r.visits.insert r.world.nextConnection v } where
  sound := World.sound_step h.sound .connect
  accepted u hu := h.accepted u (List.mem_of_mem_eraseIdx hu)
  visits_lt {id u} hu := by
    rw [Table.get?_insert] at hu
    show id < r.world.nextConnection + 1
    split at hu
    next hid => exact hid ▸ Nat.lt_succ_self _
    next => exact Nat.lt_succ_of_lt (h.visits_lt hu)
  isRegistered_iff id := by
    have htold : ((r.world.step .connect).lobby.isDismissed id = false ↔
        r.world.lobby.isDismissed id = false) := by
      rw [Bool.eq_false_iff, ne_eq, World.isDismissed_step h.sound, Bool.eq_false_iff]
      simp [World.removedBy]
    rw [htold, World.isRegistered_step h.sound, h.isRegistered_iff]
    simp only [IsRead, Table.get?_insert]
    by_cases hid : id = r.world.nextConnection
    · have hnone : r.world.lobby.isDismissed id = false := by
        have := h.sound.lines id
        rw [if_neg (hid ▸ Nat.lt_irrefl _), Lobby.hungUp?, Option.map_eq_none_iff] at this
        rw [Lobby.isDismissed, this]
        rfl
      have hv := h.accepted v (List.mem_of_getElem? hk)
      simp [hid, hid ▸ hnone, hv, World.removedBy]
    · simp [hid, World.removedBy]

theorem Registers.moved {r r' : Reception} {m : Move} (h : r.Registers) (hm : Moved r m r') :
    r'.Registers := by
  cases hm with
  | accept ha =>
    refine ⟨h.sound, fun v hv => ?_, h.visits_lt, h.isRegistered_iff⟩
    rcases List.mem_append.1 hv with hv | hv
    · exact h.accepted v hv
    · rw [List.mem_singleton.1 hv]
  | call => exact ⟨h.sound, h.accepted, h.visits_lt, h.isRegistered_iff⟩
  | stop hs => exact ⟨h.sound, h.accepted, h.visits_lt, h.isRegistered_iff⟩
  | register hk => exact h.after_register hk
  | @turn id v t reader hv hadmits ht =>
    have hno : ∀ e, t ≠ .meanwhile e := by
      rintro e rfl
      cases hadmits
    obtain ⟨es, hes, hworld, hphase⟩ := ht.runsOn hno
    replace hphase : (reader.phase = .reading ↔ v.phase = .reading) ∨
        reader.phase ≠ .reading ∧ id ∈ r.world.removals es := hphase
    rw [after, hworld]
    refine h.after_run hes (fun {id' u} hu => ?_) fun id' => ?_
    · rw [Table.get?_insert] at hu
      split at hu
      next hid => exact ⟨v, hid ▸ hv⟩
      next => exact ⟨u, hu⟩
    · simp only [IsRead, Table.get?_insert]
      by_cases hid : id' = id
      · simpa [hid, hv] using hphase
      · simp [hid]
  | @meanwhile m e he =>
    have hes : .connect ∉ [e] := by
      rintro hmem
      cases List.mem_singleton.1 hmem
      cases m <;> cases he
    exact h.after_run hes (fun hv => ⟨_, hv⟩) fun _ => .inl Iff.rfl

theorem Registers.run {r r' : Reception} {ms : List Move} (h : r.Registers)
    (hrun : r.run ms = some r') : r'.Registers := by
  induction ms generalizing r with
  | nil => exact Option.some.inj hrun ▸ h
  | cons m ms ih =>
    rw [run_cons, Option.bind_eq_some_iff] at hrun
    obtain ⟨r₁, hm, hrun⟩ := hrun
    exact ih (h.moved (Reception.moved hm)) hrun

/-! ### Who hears of which calls -/

/-- A connection is accepted in some of the moves, after so many calls, and the acceptor stops later
if it has stopped. -/
def AcceptedIn (ms : List Move) (accepting : Bool) (heard : Nat) : Prop :=
  ∃ ms₁ input ms₂, ms = ms₁ ++ .accept input :: ms₂ ∧ heard = ms₁.count .call ∧
    (accepting = false → .stop ∈ ms₂)

theorem AcceptedIn.concat {ms : List Move} {a a' : Bool} {heard : Nat} {m : Move}
    (h : AcceptedIn ms a heard) (ha : a' = false → a = false ∨ m = .stop) :
    AcceptedIn (ms ++ [m]) a' heard := by
  obtain ⟨ms₁, input, ms₂, rfl, hheard, hstop⟩ := h
  refine ⟨ms₁, input, ms₂ ++ [m], by simp, hheard, fun ha' => ?_⟩
  rcases ha ha' with ha | rfl
  · exact List.mem_append_left _ (hstop ha)
  · exact List.mem_append_right _ (List.mem_singleton_self _)

/-- What a reception tells of the moves that led to it. -/
structure Recorded (ms : List Move) (r : Reception) : Prop where
  calls : r.calls = ms.count .call
  called : r.accepting = false → 0 < r.calls
  accepted : ∀ v ∈ r.accepted, AcceptedIn ms r.accepting v.heard
  visits : ∀ {id v}, r.visits.get? id = some v → AcceptedIn ms r.accepting v.heard

theorem Recorded.moved {r r' : Reception} {ms : List Move} {m : Move} (h : Recorded ms r)
    (hm : Moved r m r') : Recorded (ms ++ [m]) r' := by
  have hcount : m ≠ .call → r.calls = (ms ++ [m]).count .call := fun hne => by
    rw [List.count_append, ← h.calls, List.count_singleton, if_neg (by simpa using hne)]
    rfl
  have hkept : ∀ {heard}, AcceptedIn ms r.accepting heard →
      AcceptedIn (ms ++ [m]) r.accepting heard := fun ha => ha.concat .inl
  cases hm with
  | @accept input ha =>
    refine ⟨hcount Move.noConfusion, h.called, fun v hv => ?_, fun hv => hkept (h.visits hv)⟩
    rcases List.mem_append.1 hv with hv | hv
    · exact hkept (h.accepted v hv)
    · rw [List.mem_singleton.1 hv]
      exact ⟨ms, input, [], rfl, h.calls, fun hno => absurd (hno.symm.trans ha) Bool.noConfusion⟩
  | call =>
    refine ⟨?_, fun _ => Nat.succ_pos _, fun v hv => hkept (h.accepted v hv),
      fun hv => hkept (h.visits hv)⟩
    show r.calls + 1 = _
    rw [List.count_append, ← h.calls]
    rfl
  | stop hs =>
    exact ⟨hcount Move.noConfusion, fun _ => hs,
      fun v hv => (h.accepted v hv).concat fun _ => .inr rfl,
      fun hv => (h.visits hv).concat fun _ => .inr rfl⟩
  | register hk =>
    refine ⟨hcount Move.noConfusion, h.called,
      fun v hv => hkept (h.accepted v (List.mem_of_mem_eraseIdx hv)), fun {id u} hu => hkept ?_⟩
    rw [Table.get?_insert] at hu
    split at hu
    next => exact Option.some.inj hu ▸ h.accepted _ (List.mem_of_getElem? hk)
    next => exact h.visits hu
  | turn hv hadmits ht =>
    refine ⟨hcount Move.noConfusion, h.called, fun v hv => hkept (h.accepted v hv),
      fun {id u} hu => hkept ?_⟩
    rw [after, Table.get?_insert] at hu
    split at hu
    next =>
      have hv := h.visits hv
      rwa [← Option.some.inj hu]
    next => exact h.visits hu
  | meanwhile he =>
    refine ⟨hcount ?_, h.called, fun v hv => hkept (h.accepted v hv), fun hv => hkept (h.visits hv)⟩
    rintro rfl
    cases he

theorem recorded_run {w : World} {ms : List Move} {r : Reception}
    (hrun : (opening w).run ms = some r) : Recorded ms r := by
  induction ms using List.reverseRecOn generalizing r with
  | nil =>
    cases hrun
    exact ⟨rfl, nofun, fun v hv => (nomatch hv), fun hv => nomatch hv⟩
  | append_singleton ms m ih =>
    obtain ⟨r₁, hrun, hm⟩ := run_concat_eq_some_iff.1 hrun
    exact (ih hrun).moved (Reception.moved hm)

/-- Nobody hears of calls that were not made. -/
theorem Recorded.heard_le {ms : List Move} {r : Reception} (h : Recorded ms r) {id : ConnectionId}
    {v : Visit} (hv : r.visits.get? id = some v) : v.heard ≤ r.calls := by
  obtain ⟨ms₁, input, ms₂, rfl, hcount, -⟩ := h.visits hv
  rw [hcount, h.calls, List.count_append]
  exact Nat.le_add_right ..

/-- Whoever has no call left to hear, though the acceptor has stopped, came between the last call and
the stop. -/
theorem Recorded.exists_of_visits {ms : List Move} {r : Reception} (h : Recorded ms r)
    (hstopped : r.accepting = false) {id : ConnectionId} {v : Visit}
    (hv : r.visits.get? id = some v) (hheard : r.calls ≤ v.heard) :
    ∃ ms₁ input ms₂, ms = ms₁ ++ .accept input :: ms₂ ∧
      .call ∈ ms₁ ∧ .call ∉ ms₂ ∧ .stop ∈ ms₂ := by
  obtain ⟨ms₁, input, ms₂, rfl, hcount, hstop⟩ := h.visits hv
  have hcalls := h.calls
  have hpos := h.called hstopped
  rw [List.count_append, List.count_cons_of_ne Move.noConfusion] at hcalls
  have hnone : ms₂.count .call = 0 := by omega
  have hsome : 0 < ms₁.count .call := by omega
  exact ⟨ms₁, input, ms₂, rfl, List.count_pos_iff.1 hsome, List.count_eq_zero.1 hnone,
    hstop hstopped⟩

end Reception

end TileRealm
