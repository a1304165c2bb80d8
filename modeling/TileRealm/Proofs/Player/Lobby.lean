import TileRealm.Player.Lobby
import TileRealm.Proofs.Table

/-!
# What the lobby queues

What each operation of the lobby does to the views and to the lines.  A message sent to a
connection is added to its line and to no other (`Lobby.get?_lines_send`); a broadcast adds the
snapshot of all views to the line of each registered connection that has room, and nothing else
(`Lobby.queued_broadcast`).
-/

namespace TileRealm

namespace Line

/-- Whether a message offered to the line is queued. -/
def hasRoom (l : Line) : Bool := !l.hungUp && l.queued.length < l.capacity

theorem offer_of_hasRoom {l : Line} (h : l.hasRoom = true) (m : ServerMessage) :
    l.offer m = some { l with queued := l.queued ++ [m] } := by
  simp only [hasRoom, Bool.and_eq_true, Bool.not_eq_true', decide_eq_true_eq] at h
  rw [offer, if_neg]
  simp [h.1, h.2]

theorem offer_of_not_hasRoom {l : Line} (h : l.hasRoom = false) (m : ServerMessage) :
    l.offer m = none := by
  simp only [hasRoom, Bool.and_eq_false_iff, Bool.not_eq_false', decide_eq_false_iff_not] at h
  rw [offer, if_pos]
  rcases h with h | h
  · simp [h]
  · simp only [ge_iff_le, Bool.or_eq_true, decide_eq_true_eq]
    omega

theorem push_of_open {l : Line} (h : l.hungUp = false) (m : ServerMessage) :
    l.push m = { l with queued := l.queued ++ [m] } := by
  simp [push, h]

/-- What a line has queued after an offer, taken or not. -/
theorem queued_getD_offer (l : Line) (m : ServerMessage) :
    ((l.offer m).getD l).queued = l.queued ++ if l.hasRoom then [m] else [] := by
  cases hr : l.hasRoom with
  | true => rw [offer_of_hasRoom hr]; rfl
  | false =>
    rw [offer_of_not_hasRoom hr]
    exact (List.append_nil _).symm

end Line

namespace Lobby

/-! ### Views -/

@[simp] theorem views_send (l : Lobby) (id : ConnectionId) (m : ServerMessage) :
    (l.send id m).views = l.views := rfl

theorem views_offer (l : Lobby) (id : ConnectionId) (m : ServerMessage) :
    (l.offer id m).1.views = l.views := by
  unfold offer
  split <;> rfl

theorem get?_views_publish (l : Lobby) (id id' : ConnectionId) (v : View) :
    (l.publish id v).views.get? id' =
      if id' = id then (l.views.get? id).map fun _ => v else l.views.get? id' :=
  Table.get?_modify ..

theorem get?_views_leave (l : Lobby) (id id' : ConnectionId) :
    (l.leave id).views.get? id' = if id' = id then none else l.views.get? id' := by
  unfold leave
  split
  next => exact Table.get?_erase ..
  next h =>
    simp only [isRegistered, Table.contains, Bool.not_eq_true, Option.isSome_eq_false_iff,
      Option.isNone_iff_eq_none] at h
    split
    next hid => rw [hid, h]
    next => rfl

/-! ### Lines -/

theorem get?_lines_send (l : Lobby) (id id' : ConnectionId) (m : ServerMessage) :
    (l.send id m).lines.get? id' =
      if id' = id then (l.lines.get? id).map (·.push m) else l.lines.get? id' :=
  Table.get?_modify ..

theorem get?_lines_leave_of_ne {id id' : ConnectionId} (h : id' ≠ id) (l : Lobby) :
    (l.leave id).lines.get? id' = l.lines.get? id' := by
  unfold leave
  split
  next => rw [Table.get?_modify, if_neg h]
  next => rfl

/-- The end of a registration leaves a mark on the connection's line and nothing else. -/
theorem get?_lines_leave (l : Lobby) (id id' : ConnectionId) :
    ∃ mark : Line → Bool, (l.leave id).lines.get? id' =
      (l.lines.get? id').map fun line => { line with dismissed := mark line } := by
  unfold leave
  split
  next =>
    by_cases h : id' = id
    · exact ⟨fun _ => true, by rw [Table.get?_modify, if_pos h, h]⟩
    · exact ⟨Line.dismissed, by rw [Table.get?_modify, if_neg h]; exact Option.map_id'.symm⟩
  next => exact ⟨Line.dismissed, Option.map_id'.symm⟩

theorem get?_lines_offer (l : Lobby) (id id' : ConnectionId) (m : ServerMessage) :
    (l.offer id m).1.lines.get? id' =
      if id' = id then (l.lines.get? id).map fun line => (line.offer m).getD line
      else l.lines.get? id' := by
  unfold offer
  cases hl : l.lines.get? id with
  | none =>
    by_cases h : id' = id
    · simp [h, hl]
    · simp [h]
  | some line =>
    cases ho : line.offer m with
    | none =>
      by_cases h : id' = id
      · simp [h, hl, ho]
      · simp [h, ho]
    | some line' =>
      simp only [Option.bind_some, ho, Table.get?_insert]
      by_cases h : id' = id
      · simp [h, ho]
      · simp [h]

/-! ### Broadcasts -/

/-- A broadcast without the count of the connections that had room. -/
theorem offerAll_fst (l : Lobby) (shown : Table ConnectionId View) :
    (l.offerAll shown).1 =
      shown.toList.foldl (fun l e => (l.offer e.1 (snapshotFor shown e.2)).1) l := by
  unfold offerAll
  generalize shown.toList = es
  generalize 0 = n
  induction es generalizing l n with
  | nil => rfl
  | cons e es ih => exact ih _ _

theorem views_offerAll (l : Lobby) (shown : Table ConnectionId View) :
    (l.offerAll shown).1.views = l.views := by
  rw [offerAll_fst]
  generalize shown.toList = es
  induction es generalizing l with
  | nil => rfl
  | cons e es ih => rw [List.foldl_cons, ih, views_offer]

@[simp] theorem views_broadcast (l : Lobby) : l.broadcast.1.views = l.views := views_offerAll ..

theorem get?_lines_foldl_offer (f : View → ServerMessage) {es : List (ConnectionId × View)}
    (hes : (es.map Prod.fst).Nodup) (l : Lobby) (id : ConnectionId) :
    (es.foldl (fun l e => (l.offer e.1 (f e.2)).1) l).lines.get? id =
      match Table.find id es with
      | some v => (l.lines.get? id).map fun line => (line.offer (f v)).getD line
      | none => l.lines.get? id := by
  induction es generalizing l with
  | nil => rfl
  | cons e es ih =>
    rw [List.map_cons, List.nodup_cons] at hes
    rw [List.foldl_cons, ih hes.2, get?_lines_offer, Table.find]
    by_cases h : id = e.1
    · rw [if_pos h, if_pos h, h, Table.find_eq_none hes.1]
    · rw [if_neg h, if_neg h]

theorem get?_lines_offerAll (l : Lobby) (shown : Table ConnectionId View) (id : ConnectionId) :
    (l.offerAll shown).1.lines.get? id =
      match shown.get? id with
      | some v => (l.lines.get? id).map fun line => (line.offer (snapshotFor shown v)).getD line
      | none => l.lines.get? id := by
  rw [offerAll_fst]
  exact get?_lines_foldl_offer (snapshotFor shown) (Table.nodup_keys shown) l id

theorem get?_lines_broadcast (l : Lobby) (id : ConnectionId) :
    l.broadcast.1.lines.get? id =
      match l.views.get? id with
      | some v => (l.lines.get? id).map fun line => (line.offer (snapshotFor l.views v)).getD line
      | none => l.lines.get? id :=
  get?_lines_offerAll ..

/-! ### Queues -/

theorem queued_eq_of_get? {l l' : Lobby} {id : ConnectionId}
    (h : l'.lines.get? id = l.lines.get? id) : l'.queued id = l.queued id := by
  simp only [queued, h]

theorem queued_send_of_ne {id id' : ConnectionId} (h : id' ≠ id) (l : Lobby) (m : ServerMessage) :
    (l.send id m).queued id' = l.queued id' :=
  queued_eq_of_get? (by rw [get?_lines_send, if_neg h])

theorem queued_send {l : Lobby} {id : ConnectionId} {line : Line}
    (h : l.lines.get? id = some line) (ho : line.hungUp = false) (m : ServerMessage) :
    (l.send id m).queued id = l.queued id ++ [m] := by
  simp only [queued, get?_lines_send, if_true, h, Option.map_some, Line.push_of_open ho]

theorem queued_leave (l : Lobby) (id id' : ConnectionId) :
    (l.leave id).queued id' = l.queued id' := by
  obtain ⟨mark, h⟩ := l.get?_lines_leave id id'
  simp only [queued, h]
  cases l.lines.get? id' <;> rfl

theorem queued_drain (l : Lobby) (id id' : ConnectionId) :
    (l.drain id).queued id' = if id' = id then [] else l.queued id' := by
  by_cases h : id' = id
  · simp only [queued, drain, Table.get?_modify, if_pos h]
    cases l.lines.get? id <;> rfl
  · rw [if_neg h]
    exact queued_eq_of_get? (by rw [drain, Table.get?_modify, if_neg h])

/-- What a broadcast adds to the line of a connection. -/
def offered (l : Lobby) (id : ConnectionId) : List ServerMessage :=
  match l.views.get? id with
  | some v => if (l.lines.get? id).any Line.hasRoom then [snapshotFor l.views v] else []
  | none => []

theorem queued_broadcast (l : Lobby) (id : ConnectionId) :
    l.broadcast.1.queued id = l.queued id ++ l.offered id := by
  simp only [queued, offered, get?_lines_broadcast]
  cases l.views.get? id with
  | none => simp
  | some v =>
    cases l.lines.get? id with
    | none => simp
    | some line => exact line.queued_getD_offer _

/-- A line with room takes an offered message over. -/
theorem queued_offer (l : Lobby) (id id' : ConnectionId) (m : ServerMessage) :
    (l.offer id m).1.queued id' =
      l.queued id' ++ if id' = id ∧ (l.lines.get? id).any Line.hasRoom then [m] else [] := by
  by_cases hid : id' = id
  · subst hid
    simp only [queued, get?_lines_offer, if_true, true_and]
    cases l.lines.get? id' with
    | none => simp
    | some line => exact line.queued_getD_offer _
  · rw [if_neg fun h => hid h.1, List.append_nil]
    exact queued_eq_of_get? (by rw [get?_lines_offer, if_neg hid])

theorem mem_offered {l : Lobby} {id : ConnectionId} {m : ServerMessage} (h : m ∈ l.offered id) :
    ∃ v, l.views.get? id = some v ∧ m = snapshotFor l.views v := by
  unfold offered at h
  split at h
  next v hv =>
    split at h
    · exact ⟨v, hv, List.mem_singleton.1 h⟩
    · cases h
  next => cases h

/-! ### Open lines -/

/-- Whether nobody takes messages from the line of a connection, if it has a line. -/
def hungUp? (l : Lobby) (id : ConnectionId) : Option Bool := (l.lines.get? id).map Line.hungUp

theorem exists_line_of_hungUp? {l : Lobby} {id : ConnectionId} {b : Bool}
    (h : l.hungUp? id = some b) : ∃ line, l.lines.get? id = some line ∧ line.hungUp = b :=
  Option.map_eq_some_iff.1 h

theorem hungUp?_join (l : Lobby) (id id' : ConnectionId) (capacity : Nat) :
    (l.join id capacity).hungUp? id' = if id' = id then some false else l.hungUp? id' := by
  simp only [hungUp?, join, Table.get?_insert]
  split <;> rfl

@[simp] theorem hungUp?_publish (l : Lobby) (id id' : ConnectionId) (v : View) :
    (l.publish id v).hungUp? id' = l.hungUp? id' := rfl

@[simp] theorem hungUp?_takeId (l : Lobby) (id : ConnectionId) :
    l.takeId.hungUp? id = l.hungUp? id := rfl

@[simp] theorem hungUp?_leave (l : Lobby) (id id' : ConnectionId) :
    (l.leave id).hungUp? id' = l.hungUp? id' := by
  obtain ⟨mark, h⟩ := l.get?_lines_leave id id'
  rw [hungUp?, h, hungUp?, Option.map_map]
  rfl

/-- Queued messages change nothing else about lines. -/
theorem map_lines_send {α : Type} {f : Line → α} (hf : ∀ line ms, f { line with queued := ms } = f line)
    (l : Lobby) (id id' : ConnectionId) (m : ServerMessage) :
    ((l.send id m).lines.get? id').map f = (l.lines.get? id').map f := by
  rw [get?_lines_send]
  split
  next h =>
    rw [h, Option.map_map]
    refine Option.map_congr fun line _ => ?_
    simp only [Function.comp, Line.push]
    split
    · rfl
    · exact hf ..
  next => rfl

theorem map_lines_drain {α : Type} {f : Line → α}
    (hf : ∀ line ms, f { line with queued := ms } = f line) (l : Lobby) (id id' : ConnectionId) :
    ((l.drain id).lines.get? id').map f = (l.lines.get? id').map f := by
  rw [drain, Table.get?_modify]
  split
  next h =>
    rw [h, Option.map_map]
    exact Option.map_congr fun line _ => hf ..
  next => rfl

theorem map_lines_broadcast {α : Type} {f : Line → α}
    (hf : ∀ line ms, f { line with queued := ms } = f line) (l : Lobby) (id : ConnectionId) :
    (l.broadcast.1.lines.get? id).map f = (l.lines.get? id).map f := by
  rw [get?_lines_broadcast]
  split
  next v hv =>
    rw [Option.map_map]
    refine Option.map_congr fun line _ => ?_
    cases hr : line.hasRoom with
    | true =>
      rw [Function.comp, Line.offer_of_hasRoom hr]
      exact hf ..
    | false => rw [Function.comp, Line.offer_of_not_hasRoom hr, Option.getD_none]
  next => rfl

/-- A lobby without the messages that are queued: who is registered, what they show, which id is
assigned next, and which lines there are. -/
def withoutQueues (l : Lobby) : Lobby :=
  { l with lines := l.lines.mapValues fun line => { line with queued := [] } }

@[simp] theorem withoutQueues_send (l : Lobby) (id : ConnectionId) (m : ServerMessage) :
    (l.send id m).withoutQueues = l.withoutQueues := by
  have hlines : (l.send id m).lines.mapValues (fun line => { line with queued := [] }) =
      l.lines.mapValues fun line => { line with queued := [] } := by
    refine Table.ext_get? fun id' => ?_
    rw [Table.get?_mapValues, Table.get?_mapValues]
    exact map_lines_send (fun _ _ => rfl) ..
  simp only [withoutQueues, hlines]
  rfl

@[simp] theorem hungUp?_send (l : Lobby) (id id' : ConnectionId) (m : ServerMessage) :
    (l.send id m).hungUp? id' = l.hungUp? id' :=
  map_lines_send (fun _ _ => rfl) ..

@[simp] theorem hungUp?_drain (l : Lobby) (id id' : ConnectionId) :
    (l.drain id).hungUp? id' = l.hungUp? id' :=
  map_lines_drain (fun _ _ => rfl) ..

@[simp] theorem hungUp?_broadcast (l : Lobby) (id : ConnectionId) :
    l.broadcast.1.hungUp? id = l.hungUp? id :=
  map_lines_broadcast (fun _ _ => rfl) ..

/-- A line that is not hung up takes a message over. -/
theorem queued_send_eq (l : Lobby) (id id' : ConnectionId) (m : ServerMessage) :
    (l.send id m).queued id' =
      l.queued id' ++ if id' = id ∧ l.hungUp? id = some false then [m] else [] := by
  by_cases hid : id' = id
  · subst hid
    by_cases hopen : l.hungUp? id' = some false
    · obtain ⟨line, hl, ho⟩ := exists_line_of_hungUp? hopen
      rw [if_pos ⟨rfl, hopen⟩, queued_send hl ho m]
    · rw [if_neg fun h => hopen h.2, List.append_nil, queued, get?_lines_send, if_pos rfl, queued]
      cases hl : l.lines.get? id' with
      | none => rfl
      | some line =>
        have ho : line.hungUp = true := by
          rw [hungUp?, hl] at hopen
          simpa using hopen
        rw [Option.map_some, Line.push, if_pos ho]
  · rw [if_neg fun h => hid h.1, List.append_nil]
    exact queued_send_of_ne hid l m

/-! ### Rosters -/

/-- Whether players are listed in the order of their ids. -/
def InOrder (ps : List Player) : Prop := ps.Pairwise fun p q => p.id ≤ q.id

theorem perm_insertById (p : Player) (ps : List Player) : (insertById p ps).Perm (p :: ps) := by
  induction ps with
  | nil => exact .refl _
  | cons q ps ih =>
    rw [insertById]
    split
    next => exact .refl _
    next => exact (ih.cons q).trans (.swap p q ps)

theorem inOrder_insertById (p : Player) {ps : List Player} (h : InOrder ps) :
    InOrder (insertById p ps) := by
  induction ps with
  | nil => exact List.pairwise_singleton ..
  | cons q ps ih =>
    obtain ⟨hq, hps⟩ := List.pairwise_cons.1 h
    rw [insertById]
    split
    next hle =>
      refine List.pairwise_cons.2 ⟨fun r hr => ?_, h⟩
      rcases List.mem_cons.1 hr with rfl | hr
      · exact hle
      · exact Int32.le_trans hle (hq r hr)
    next hlt =>
      refine List.pairwise_cons.2 ⟨fun r hr => ?_, ih hps⟩
      rcases List.mem_cons.1 ((perm_insertById p ps).mem_iff.1 hr) with rfl | hr
      · exact Int32.le_of_lt (Int32.not_le.1 hlt)
      · exact hq r hr

/-- A roster lists each view with an id once. -/
theorem perm_roster (vs : List View) :
    (roster vs).Perm ((vs.filter fun v => v.clientId ≠ 0).map listed) := by
  rw [roster]
  generalize (vs.filter fun v => v.clientId ≠ 0).map listed = ps
  induction ps with
  | nil => exact .refl _
  | cons p ps ih => exact (perm_insertById p _).trans (ih.cons p)

theorem inOrder_roster (vs : List View) : InOrder (roster vs) := by
  rw [roster]
  generalize (vs.filter fun v => v.clientId ≠ 0).map listed = ps
  induction ps with
  | nil => exact .nil
  | cons p ps ih => exact inOrder_insertById p ih

theorem mem_roster_iff {p : Player} {vs : List View} :
    p ∈ roster vs ↔ ∃ v ∈ vs, v.clientId ≠ 0 ∧ p = listed v := by
  rw [(perm_roster vs).mem_iff, List.mem_map]
  simp only [List.mem_filter, decide_eq_true_eq, and_assoc, eq_comm (b := p)]

/-- The players that a snapshot lists are shown by connections. -/
theorem exists_view_of_mem_roster {shown : Table ConnectionId View} {p : Player}
    (h : p ∈ roster (shown.toList.map Prod.snd)) :
    ∃ id v, shown.get? id = some v ∧ v.clientId ≠ 0 ∧ p = listed v := by
  obtain ⟨v, hv, hi, e⟩ := mem_roster_iff.1 h
  obtain ⟨⟨id, w⟩, hm, rfl⟩ := List.mem_map.1 hv
  exact ⟨id, w, Table.mem_toList_iff.1 hm, hi, e⟩

end Lobby

end TileRealm
