import TileRealm.Proofs.Service.Host
import TileRealm.Proofs.Service.Reception

/-!
# Shutdown

What is left when the acceptor has seen a call of shutdown and every connection has heard of the
calls that there are for it to hear (`Reception.Settled`).  Whoever is still registered then came
between the last call and the stop (`Reception.registered_of_settled`): a call that the acceptor has
not seen yet keeps nobody out (`Reception.registered_after_call`).  After a call everything can come
to rest (`Reception.exists_settled`).  A host accepts and shuts down in moves of a reception that
follow each other at once (`Reception.Hosts.accept`, `Reception.Hosts.shutdown`), and then nobody is
left (`Reception.Hosts.isRegistered_shutdown`).
-/

namespace TileRealm

namespace Reception

/-- The acceptor has stopped, and nobody who is read has a call left to hear. -/
structure Settled (r : Reception) : Prop where
  stopped : r.accepting = false
  accepted : ∀ v ∈ r.accepted, r.calls ≤ v.heard
  visits : ∀ id v, r.visits.get? id = some v → v.phase = .reading → r.calls ≤ v.heard

instance (r : Reception) : Decidable r.Settled :=
  decidable_of_iff
    (r.accepting = false ∧ (∀ v ∈ r.accepted, r.calls ≤ v.heard) ∧
      ∀ e ∈ r.visits.toList, e.2.phase = .reading → r.calls ≤ e.2.heard)
    ⟨fun ⟨hs, ha, hv⟩ => ⟨hs, ha, fun _ _ h => hv _ (Table.mem_toList_iff.2 h)⟩,
      fun h => ⟨h.stopped, h.accepted, fun _ he => h.visits _ _ (Table.mem_toList_iff.1 he)⟩⟩

theorem settled_of_accepted_eq_nil {r : Reception} (hstopped : r.accepting = false)
    (haccepted : r.accepted = [])
    (hvisits : ∀ id v, r.visits.get? id = some v → v.phase = .reading → r.calls ≤ v.heard) :
    r.Settled where
  stopped := hstopped
  accepted v hv := by
    rw [haccepted] at hv
    cases hv
  visits := hvisits

/-! ### Calls -/

/-- Who came before a call is not among those who have no call left to hear, if nobody came after
it. -/
theorem Recorded.lt_calls {ms ms₁ ms₂ : List Move} {r : Reception} (h : Recorded ms r)
    (hstopped : r.accepting = false) (hms : ms = ms₁ ++ .call :: ms₂)
    (hno : ∀ input, .accept input ∉ ms₂) {id : ConnectionId} {v : Visit}
    (hv : r.visits.get? id = some v) : v.heard < r.calls := by
  by_contra hle
  obtain ⟨ns₁, input, ns₂, hns, -, hcall, -⟩ := h.exists_of_visits hstopped hv (Nat.le_of_not_lt hle)
  rw [hms] at hns
  obtain ⟨as, -, htail⟩ | ⟨as, -, htail⟩ := List.append_eq_append_iff.1 hns
  · -- The connection came after the call.
    have hmem : .accept input ∈ .call :: ms₂ := htail ▸ List.mem_append_right _ List.mem_cons_self
    exact hno input ((List.mem_cons.1 hmem).resolve_left Move.noConfusion)
  · -- The call came after the connection.
    have hmem : .call ∈ .accept input :: ns₂ := htail ▸ List.mem_append_right _ List.mem_cons_self
    exact hcall ((List.mem_cons.1 hmem).resolve_left Move.noConfusion)

theorem registers_run {shard : Shard} {book : AddressBook} {grace now : Nat} {ms : List Move}
    {r : Reception} (hrun : (opening (.fresh shard book grace now)).run ms = some r) :
    r.Registers :=
  (registers_opening (World.sound_fresh ..) fun _ => rfl).run hrun

/-- Nobody who came before the last call is registered in the end. -/
theorem isRegistered_eq_false_of_settled {shard : Shard} {book : AddressBook} {grace now : Nat}
    {ms ms₁ ms₂ : List Move} {r : Reception}
    (hrun : (opening (.fresh shard book grace now)).run ms = some r) (hsettled : r.Settled)
    (hms : ms = ms₁ ++ .call :: ms₂) (hno : ∀ input, .accept input ∉ ms₂) (id : ConnectionId) :
    r.world.lobby.isRegistered id = false := by
  refine Bool.eq_false_iff.2 fun hreg => ?_
  obtain ⟨⟨v, hv, hread⟩, -⟩ := ((registers_run hrun).isRegistered_iff id).1 hreg
  have hlt := (recorded_run hrun).lt_calls hsettled.stopped hms hno hv
  exact absurd (hsettled.visits id v hv hread) (Nat.not_le.2 hlt)

/-! ### Coming to rest -/

/-- Connections take the same turn, one after the other, and nothing else happens to them. -/
theorem run_turns {t : Turn} {p p' : Phase} {f : World → ConnectionId → World}
    (ht : t = .shutdown ∨ t = .farewell)
    (hturn : ∀ id w input, (Reader.mk w input p).turn id t = ⟨f w id, input, p'⟩)
    {ids : List ConnectionId} (hids : ids.Nodup) {r : Reception}
    (hv : ∀ id ∈ ids, ∃ v, r.visits.get? id = some v ∧ v.phase = p ∧ v.heard < r.calls) :
    ∃ visits, r.run (ids.map fun id => .turn id t) =
        some { r with world := ids.foldl f r.world, visits } ∧
      ∀ id, visits.get? id =
        if id ∈ ids then (r.visits.get? id).map fun v => { v with phase := p' }
        else r.visits.get? id := by
  induction ids generalizing r with
  | nil => exact ⟨r.visits, rfl, fun id => rfl⟩
  | cons a ids ih =>
    obtain ⟨ha, hids⟩ := List.nodup_cons.1 hids
    obtain ⟨⟨heard, input, q⟩, hget, rfl, hheard⟩ := hv a List.mem_cons_self
    have hadmits : r.admits a ⟨heard, input, q⟩ t = true := by
      rcases ht with rfl | rfl
      · exact decide_eq_true hheard
      · rfl
    have hstep : r.step (.turn a t) = some { r with
        world := f r.world a, visits := r.visits.insert a ⟨heard, input, p'⟩ } := by
      simp only [step, hget, hadmits, if_true, readerOf, hturn, after]
    obtain ⟨visits, hrun, hvisits⟩ := ih hids (r := { r with
        world := f r.world a, visits := r.visits.insert a ⟨heard, input, p'⟩ }) fun id hid => by
      rw [Table.get?_insert_of_ne (ne_of_mem_of_not_mem hid ha)]
      exact hv id (List.mem_cons_of_mem _ hid)
    refine ⟨visits, ?_, fun id => ?_⟩
    · rw [List.map_cons, run_cons, hstep]
      exact hrun
    · rw [hvisits, Table.get?_insert]
      by_cases hid : id = a
      · simp [hid, ha, hget]
      · simp [hid]

/-- All who were accepted are registered. -/
theorem exists_run_register (r : Reception) : ∃ ms r', r.run ms = some r' ∧
    (∀ m ∈ ms, ∃ k, m = .register k) ∧ r'.accepted = [] ∧ r'.calls = r.calls ∧
    r'.accepting = r.accepting := by
  obtain ⟨world, calls, accepting, accepted, visits⟩ := r
  induction accepted generalizing world visits with
  | nil => exact ⟨[], _, rfl, by simp, rfl, rfl, rfl⟩
  | cons v vs ih =>
    obtain ⟨ms, r', hrun, hms, hr'⟩ := ih (world.step .connect)
      (visits.insert world.nextConnection v)
    exact ⟨.register 0 :: ms, r', hrun,
      List.forall_mem_cons.2 ⟨⟨0, rfl⟩, hms⟩, hr'⟩

/-- Everyone can be registered and hear of all calls that there are for them to hear, without a new
connection and without another call. -/
theorem exists_run_hear (r : Reception) : ∃ ms r', r.run ms = some r' ∧
    (∀ m ∈ ms, (∃ k, m = .register k) ∨ ∃ id, m = .turn id .shutdown) ∧
    r'.accepted = [] ∧ r'.calls = r.calls ∧ r'.accepting = r.accepting ∧
    ∀ id v, r'.visits.get? id = some v → v.phase = .reading → r'.calls ≤ v.heard := by
  obtain ⟨ms₁, r₁, hrun₁, hms₁, haccepted, hcalls, haccepting⟩ := exists_run_register r
  let behind : ConnectionId × Visit → Bool :=
    fun e => e.2.phase = .reading && e.2.heard < r₁.calls
  let ids := (r₁.visits.toList.filter behind).map Prod.fst
  have hids : ids.Nodup := (Table.nodup_keys r₁.visits).sublist (List.filter_sublist.map _)
  have hmem : ∀ id, id ∈ ids ↔
      ∃ v, r₁.visits.get? id = some v ∧ v.phase = .reading ∧ v.heard < r₁.calls := by
    simp [ids, behind, Table.mem_toList_iff]
  obtain ⟨visits, hrun₂, hvisits⟩ := run_turns (t := .shutdown) (p := .reading)
    (f := World.remove) (.inl rfl) (fun _ _ _ => rfl) hids fun id hid => (hmem id).1 hid
  refine ⟨ms₁ ++ ids.map fun id => .turn id .shutdown,
    { r₁ with world := ids.foldl World.remove r₁.world, visits }, ?_, ?_, haccepted, hcalls,
    haccepting, fun id v hv hread => ?_⟩
  · rw [run_append, hrun₁, Option.bind_some, hrun₂]
  · intro m hm
    rcases List.mem_append.1 hm with hm | hm
    · exact .inl (hms₁ m hm)
    · obtain ⟨id, -, rfl⟩ := List.mem_map.1 hm
      exact .inr ⟨id, rfl⟩
  · rw [show visits.get? id = _ from hvisits id] at hv
    split at hv
    next hid =>
      obtain ⟨u, -, rfl⟩ := Option.map_eq_some_iff.1 hv
      cases hread
    next hid =>
      by_contra hlt
      exact hid ((hmem id).2 ⟨v, hv, hread, Nat.lt_of_not_le hlt⟩)

/-- A connection is registered right after it was accepted. -/
theorem run_accept_register {r : Reception} (haccepting : r.accepting = true)
    (haccepted : r.accepted = []) (input : Bytes) :
    r.run [.accept input, .register 0] = some { r with
      world := r.world.step .connect
      visits := r.visits.insert r.world.nextConnection { heard := r.calls, input } } := by
  obtain ⟨world, calls, accepting, accepted, visits⟩ := r
  cases haccepting
  cases haccepted
  rfl

/-- After a call everything can come to rest. -/
theorem exists_settled {r : Reception} (hcalls : 0 < r.calls) : ∃ ms r', r.run ms = some r' ∧
    (∀ input, .accept input ∉ ms) ∧ r'.Settled := by
  obtain ⟨ms, r₁, hrun, hms, haccepted, hcalls₁, haccepting, hheard⟩ := exists_run_hear r
  have hno : ∀ input, .accept input ∉ ms := fun input hmem => by
    obtain ⟨k, hk⟩ | ⟨id, hid⟩ := hms _ hmem
    · cases hk
    · cases hid
  cases ha : r.accepting with
  | false =>
    exact ⟨ms, r₁, hrun, hno,
      settled_of_accepted_eq_nil (haccepting.trans ha) haccepted hheard⟩
  | true =>
    refine ⟨ms ++ [.stop], { r₁ with accepting := false }, ?_, by simpa using hno,
      settled_of_accepted_eq_nil rfl haccepted hheard⟩
    refine run_concat_eq_some_iff.2 ⟨r₁, hrun, ?_⟩
    simp [step, haccepting, ha, hcalls₁, hcalls]

/-- As long as the acceptor has not seen a call, someone can come who hears of none, and stays
registered when everything has come to rest. -/
theorem exists_settled_of_accepting {r : Reception} (h : r.Registers) (hcalls : 0 < r.calls)
    (haccepting : r.accepting = true) : ∃ ms r', r.run ms = some r' ∧ .call ∉ ms ∧ r'.Settled ∧
      ∃ id, r'.world.lobby.isRegistered id = true := by
  obtain ⟨ms, r₁, hrun, hms, haccepted, hcalls₁, haccepting₁, hheard⟩ := exists_run_hear r
  have hno : .call ∉ ms := fun hmem => by
    obtain ⟨k, hk⟩ | ⟨id, hid⟩ := hms _ hmem
    · cases hk
    · cases hid
  let id := r₁.world.nextConnection
  let r₂ : Reception := { r₁ with
    world := r₁.world.step .connect
    accepting := false
    visits := r₁.visits.insert id { heard := r₁.calls, input := [] } }
  refine ⟨ms ++ [.accept [], .register 0] ++ [.stop], r₂, ?_, by simpa using hno,
    settled_of_accepted_eq_nil rfl haccepted fun id' v hv hread => ?_, id,
    World.isRegistered_step_connect (h.run hrun).sound⟩
  · rw [run_append, run_append, hrun, Option.bind_some,
      run_accept_register (haccepting₁.trans haccepting) haccepted, Option.bind_some]
    simp [run_cons, step, haccepting₁, haccepting, hcalls₁, hcalls, r₂, id]
  · rw [Table.get?_insert] at hv
    split at hv
    next => exact Option.some.inj hv ▸ Nat.le_refl _
    next => exact hheard id' v hv hread

/-! ### Hosts -/

/-- A host that does one thing after the other. -/
structure Hosts (r : Reception) (h : Host) : Prop where
  world : h.world = r.world
  listening : h.listening = r.accepting
  accepted : r.accepted = []
  pending : ∀ id, h.pending.contains id = true ↔ r.IsRead id

theorem hosts_opening (w : World) : Hosts (opening w) { world := w } where
  world := rfl
  listening := rfl
  accepted := rfl
  pending id := by
    refine ⟨nofun, ?_⟩
    rintro ⟨v, hv, -⟩
    cases hv

/-- A host registers a connection as soon as it accepts it. -/
theorem Hosts.accept {r : Reception} {h : Host} (hr : r.Hosts h) (hl : h.listening = true)
    (input : Bytes) : ∃ r', r.run [.accept input, .register 0] = some r' ∧ Hosts r' h.accept.1 := by
  refine ⟨_, run_accept_register (hr.listening ▸ hl) hr.accepted input, ?_⟩
  rw [Host.accept, if_pos hl]
  refine ⟨?_, hr.listening, hr.accepted, fun id => ?_⟩
  · show h.world.connect.1 = r.world.connect.1
    rw [hr.world]
  · have hid := hr.pending id
    show (h.pending.insert h.world.nextConnection []).contains id = true ↔ _
    rw [Table.contains] at hid ⊢
    rw [hr.world, Table.get?_insert]
    simp only [IsRead, Table.get?_insert]
    by_cases hnew : id = r.world.nextConnection
    · simp [hnew]
    · simp only [if_neg hnew, hid, IsRead]

theorem run_collect (r : Reception) (ids : List ConnectionId) :
    r.run (ids.map .collect) = some { r with world := r.world.run (ids.map .collect) } := by
  induction ids generalizing r with
  | nil => rfl
  | cons id ids ih => exact ih _

/-- Connections hear of a call, one after the other, and then they say farewell. -/
theorem exists_run_leave {ids : List ConnectionId} (hids : ids.Nodup) {r : Reception}
    (hv : ∀ id ∈ ids, ∃ v, r.visits.get? id = some v ∧ v.phase = .reading ∧ v.heard < r.calls) :
    ∃ visits, r.run (ids.map (.turn · .shutdown) ++ ids.map (.turn · .farewell)) =
        some { r with world := ids.foldl World.close (ids.foldl World.remove r.world), visits } ∧
      ∀ id v, visits.get? id = some v → v.phase = .reading → id ∉ ids ∧ r.IsRead id := by
  obtain ⟨visits₁, hrun₁, hvisits₁⟩ := run_turns (t := .shutdown) (p := .reading)
    (f := World.remove) (.inl rfl) (fun _ _ _ => rfl) hids hv
  let r₁ : Reception := { r with world := ids.foldl World.remove r.world, visits := visits₁ }
  obtain ⟨visits₂, hrun₂, hvisits₂⟩ := run_turns (t := .farewell) (p := .leaving .shutDown)
    (f := World.close) (.inr rfl) (fun _ _ _ => rfl) hids (r := r₁) fun id hid => by
      obtain ⟨v, hget, -, hheard⟩ := hv id hid
      refine ⟨{ v with phase := .leaving .shutDown }, ?_, rfl, hheard⟩
      rw [show r₁.visits.get? id = _ from hvisits₁ id, if_pos hid, hget]
      rfl
  refine ⟨visits₂, ?_, fun id v hget hread => ?_⟩
  · rw [run_append, hrun₁, Option.bind_some, hrun₂]
  · rw [hvisits₂] at hget
    split at hget
    next hid =>
      obtain ⟨u, -, rfl⟩ := Option.map_eq_some_iff.1 hget
      cases hread
    next hid =>
      rw [show r₁.visits.get? id = _ from hvisits₁ id, if_neg hid] at hget
      exact ⟨hid, v, hget, hread⟩

/-- A host that shuts down calls shutdown and stops at once, everyone hears of it at once, and then
everyone says farewell; what is queued is sent, and the lines are given up. -/
theorem Hosts.shutdown {r : Reception} {h : Host} (hr : r.Hosts h) (hl : h.listening = true)
    (hheard : ∀ {id v}, r.visits.get? id = some v → v.heard ≤ r.calls) :
    ∃ ms r', r.run (.call :: ms) = some r' ∧ (∀ input, .accept input ∉ ms) ∧ r'.Settled ∧
      h.shutdown.world =
        { r'.world with lobby := h.live.foldl Lobby.discard r'.world.lobby } := by
  have haccepting : r.accepting = true := hr.listening ▸ hl
  have hlive : ∀ id, id ∈ h.live ↔ r.IsRead id := fun id =>
    Table.contains_eq_true_iff.symm.trans (hr.pending id)
  let r₁ : Reception := { r with calls := r.calls + 1, accepting := false }
  have hrun₁ : ∀ ms, r.run (.call :: .stop :: ms) = r₁.run ms := fun ms => by
    simp [run_cons, step, haccepting, r₁]
  obtain ⟨visits, hrun₂, hvisits⟩ := exists_run_leave (Table.nodup_keys h.pending) (r := r₁)
    fun id hid => by
      obtain ⟨v, hv, hread⟩ := (hlive id).1 hid
      exact ⟨v, hv, hread, Nat.lt_succ_of_le (hheard hv)⟩
  let w := h.live.foldl World.close (h.live.foldl World.remove r.world)
  let sending : List Move := w.lobby.lines.keys.map .collect
  refine ⟨.stop :: (h.live.map (.turn · .shutdown) ++ h.live.map (.turn · .farewell) ++ sending),
    { r₁ with world := w.run (w.lobby.lines.keys.map .collect), visits }, ?_, ?_,
    settled_of_accepted_eq_nil rfl hr.accepted fun id v hv hread => ?_, ?_⟩
  · rw [hrun₁, run_append]
    exact (congrArg (Option.bind · _) hrun₂).trans (run_collect _ _)
  · simp [sending]
  · obtain ⟨hid, hread⟩ := hvisits id v hv hread
    exact absurd ((hlive id).2 hread) hid
  · have hflush := Host.world_flush { h with
      world := w, pending := h.live.foldl Table.erase h.pending }
    show (Host.closeAll h h.live).world = _
    rw [Host.closeAll, hr.world]
    dsimp only at hflush ⊢
    rw [hflush]

/-- A host that has shut down has nobody registered. -/
theorem Hosts.isRegistered_shutdown {shard : Shard} {book : AddressBook} {grace now : Nat}
    {ms : List Move} {r : Reception} {h : Host}
    (hrun : (opening (.fresh shard book grace now)).run ms = some r) (hr : r.Hosts h)
    (hl : h.listening = true) (id : ConnectionId) :
    h.shutdown.world.lobby.isRegistered id = false := by
  obtain ⟨ms', r', hrun', hno, hsettled, hworld⟩ := hr.shutdown hl
    fun hv => (recorded_run hrun).heard_le hv
  have hrun₂ : (opening (.fresh shard book grace now)).run (ms ++ .call :: ms') = some r' := by
    rw [run_append, hrun, Option.bind_some, hrun']
  have hviews : ∀ l : Lobby, (h.live.foldl Lobby.discard l).isRegistered id = l.isRegistered id := by
    induction h.live with
    | nil => exact fun l => rfl
    | cons a ids ih => exact fun l => ih _
  rw [hworld, hviews]
  exact isRegistered_eq_false_of_settled hrun₂ hsettled rfl hno id

/-! ### Who is left -/

/-- When the acceptor has stopped and nobody has a call left to hear, those are registered who are
still read and were not told that their registration has ended.  All of them came between the last
call and the stop; so if nobody came after a call, nobody is registered. -/
theorem registered_of_settled {shard : Shard} {book : AddressBook} {grace now : Nat}
    {ms : List Move} {r : Reception}
    (hrun : (opening (.fresh shard book grace now)).run ms = some r) (hsettled : r.Settled) :
    (∀ id, r.world.lobby.isRegistered id = true ↔
      r.IsRead id ∧ r.world.lobby.isDismissed id = false) ∧
    (∀ id, r.IsRead id → ∃ ms₁ input ms₂, ms = ms₁ ++ .accept input :: ms₂ ∧
      .call ∈ ms₁ ∧ .call ∉ ms₂ ∧ .stop ∈ ms₂) ∧
    ∀ ms₁ ms₂, ms = ms₁ ++ .call :: ms₂ → (∀ input, .accept input ∉ ms₂) →
      ∀ id, r.world.lobby.isRegistered id = false := by
  refine ⟨(registers_run hrun).isRegistered_iff, fun id hid => ?_, fun ms₁ ms₂ hms hno =>
    isRegistered_eq_false_of_settled hrun hsettled hms hno⟩
  obtain ⟨v, hv, hread⟩ := hid
  exact (recorded_run hrun).exists_of_visits hsettled.stopped hv (hsettled.visits id v hv hread)

/-- A connection hears of the call, and one that comes after it does not. -/
theorem registered_of_settled_pair :
    let ms : List Move := [.accept [], .register 0, .call, .accept [], .register 0,
      .turn 0 .shutdown, .stop, .turn 0 .farewell]
    ∃ r, (opening World.quietCrossing).run ms = some r ∧ r.Settled ∧
      r.world.lobby.isRegistered 0 = false ∧ r.world.lobby.isRegistered 1 = true ∧
      ∃ ms₁ input ms₂, ms = ms₁ ++ .accept input :: ms₂ ∧
        .call ∈ ms₁ ∧ .call ∉ ms₂ ∧ .stop ∈ ms₂ := by
  intro ms
  have hfacts : ((opening World.quietCrossing).run ms).map (fun r => (decide r.Settled,
      r.world.lobby.isRegistered 0, r.world.lobby.isRegistered 1)) = some (true, false, true) := by
    decide +kernel
  obtain ⟨r, hrun, hfacts⟩ := Option.map_eq_some_iff.1 hfacts
  simp only [Prod.mk.injEq, decide_eq_true_iff] at hfacts
  obtain ⟨hsettled, hgone, hstays⟩ := hfacts
  obtain ⟨hregistered, hcame, -⟩ := registered_of_settled hrun hsettled
  exact ⟨r, hrun, hsettled, hgone, hstays, hcame 1 ((hregistered 1).1 hstays).1⟩

/-- A connection that comes after shutdown was called and before the acceptor has seen it hears of no
call: when everything has come to rest it is registered, and its player is assigned an id. -/
theorem registered_after_call :
    let input := Transcript.request [.clientConfig 1 (some "a")]
    ∃ r, (opening World.quietCrossing).run
        [.call, .accept input, .register 0, .stop, .turn 0 .read] = some r ∧ r.Settled ∧
      r.world.lobby.isRegistered 0 = true ∧
      (r.world.sessions.get? 0).map Session.clientId = some 1 := by
  intro input
  have hfacts : ((opening World.quietCrossing).run
      [.call, .accept input, .register 0, .stop, .turn 0 .read]).map (fun r => (decide r.Settled,
        r.world.lobby.isRegistered 0, (r.world.sessions.get? 0).map Session.clientId)) =
      some (true, true, some 1) := by
    decide +kernel
  obtain ⟨r, hrun, hfacts⟩ := Option.map_eq_some_iff.1 hfacts
  simp only [Prod.mk.injEq, decide_eq_true_iff] at hfacts
  obtain ⟨hsettled, hregistered, hassigned⟩ := hfacts
  exact ⟨r, hrun, hsettled, hregistered, hassigned⟩

end Reception

end TileRealm
