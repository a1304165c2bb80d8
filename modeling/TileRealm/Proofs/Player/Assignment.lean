import TileRealm.Proofs.Player.History
import TileRealm.Proofs.Player.Ids

/-!
# The assignment of ids

A session has no id until it is first configured and keeps the one that it is assigned then; no
other session is ever assigned it, also when its session is gone (`World.Belongs`).  As long as the
ids are positive they ascend in the order in which they are assigned (`World.assignments_of_run`).
-/

namespace TileRealm

theorem toInt_idAfter {n : Nat} (h : n + 1 < 2 ^ 31) : (idAfter n).toInt = n + 1 := by
  rw [idAfter, Int32.toInt_ofNat_of_lt h]
  rfl

theorem one_le_idAfter {n : Nat} (h : n + 1 < 2 ^ 31) : 1 ≤ idAfter n := by
  rw [Int32.le_iff_toInt_le, toInt_idAfter h, Int32.toInt_one]
  omega

theorem idAfter_lt_idAfter {m n : Nat} (hmn : m < n) (h : n + 1 < 2 ^ 31) :
    idAfter m < idAfter n := by
  rw [Int32.lt_iff_toInt_lt, toInt_idAfter h, toInt_idAfter (by omega)]
  omega

theorem Session.clientId_eq_zero_of_takesId (s : Session) {m : ClientMessage}
    (h : s.takesId m = true) : s.clientId = 0 := by
  cases m with
  | clientConfig width username => simpa [takesId] using h
  | _ => cases h

namespace World

/-! ### Positive ids -/

namespace Numbered

variable {ids : List Int32} {w : World}

theorem one_le (h : Numbered ids w) (hlt : ids.length < 2 ^ 31) : ∀ c ∈ ids, 1 ≤ c := by
  rw [h.ids_eq]
  intro c hc
  obtain ⟨n, hn, rfl⟩ := List.mem_map.1 hc
  have := List.mem_range.1 hn
  exact one_le_idAfter (by omega)

theorem ascending (h : Numbered ids w) (hlt : ids.length < 2 ^ 31) : ids.Pairwise (· < ·) := by
  rw [h.ids_eq, List.pairwise_map]
  refine List.pairwise_lt_range.imp_of_mem fun _ hn hmn => idAfter_lt_idAfter hmn ?_
  have := List.mem_range.1 hn
  omega

end Numbered

/-! ### Configurations -/

/-- The configuration of a session by a message of its connection. -/
def configBy (w : World) (id : ConnectionId) : Event → List (Int32 × Option String)
  | .message id' (.clientConfig width username) =>
    if id' = id ∧ w.sessions.contains id then [(width, username)] else []
  | _ => []

/-- The configurations of the session of a connection in a run. -/
def configs (w : World) (id : ConnectionId) (es : List Event) : List (Int32 × Option String) :=
  w.along (fun w e => w.configBy id e) es

theorem configs_concat (w : World) (id : ConnectionId) (es : List Event) (e : Event) :
    w.configs id (es ++ [e]) = w.configs id es ++ (w.run es).configBy id e :=
  along_concat ..

theorem owned_configBy {id : ConnectionId} : Owned id fun w e => w.configBy id e := by
  intro w e _ h
  cases e with
  | message id' m =>
    cases m with
    | clientConfig width username =>
      simp only [configBy]
      split
      next hid =>
        obtain ⟨rfl, hin⟩ := hid
        rcases h with h | h
        · rw [Table.contains, h] at hin
          cases hin
        · exact absurd rfl (h _)
      next => rfl
    | _ => rfl
  | _ => rfl

theorem configBy_clientConfig {w : World} {id : ConnectionId} {s : Session}
    (hs : w.sessions.get? id = some s) (width : Int32) (username : Option String) :
    w.configBy id (.message id (.clientConfig width username)) = [(width, username)] := by
  rw [configBy, if_pos ⟨rfl, Table.contains_iff_exists.2 ⟨s, hs⟩⟩]

/-- As long as the ids are positive, the sessions that have none are those that were never
configured. -/
theorem clientId_eq_zero_iff_configs {shard : Shard} {book : AddressBook} {grace now : Nat}
    {es : List Event} (hlt : ((fresh shard book grace now).ids es).length < 2 ^ 31)
    {id : ConnectionId} {s : Session}
    (h : ((fresh shard book grace now).run es).sessions.get? id = some s) :
    s.clientId = 0 ↔ (fresh shard book grace now).configs id es = [] := by
  revert hlt h s
  refine run_induction (motive := fun es w =>
    ((fresh shard book grace now).ids es).length < 2 ^ 31 → ∀ {s},
      w.sessions.get? id = some s →
        (s.clientId = 0 ↔ (fresh shard book grace now).configs id es = []))
    (fun _ {_} hs => by cases hs) (fun es e ih hlt s' hs' => ?_) es
  rw [ids_concat, List.length_append] at hlt
  replace ih := @ih (by omega)
  rw [configs_concat]
  rcases sessions_step hs' with ⟨rfl, hid, rfl⟩ | ⟨m, s, rfl, hs, rfl⟩ | ⟨hne, hs⟩
  · rw [configs, along_eq_nil owned_configBy (Nat.le_of_eq hid.symm)]
    exact ⟨fun _ => rfl, fun _ => rfl⟩
  · rw [(s.handling _ m).clientId]
    cases m with
    | clientConfig width username =>
      rw [configBy_clientConfig hs]
      -- A session without an id takes the next one, and that is not 0 yet.
      refine iff_of_false ?_ (by simp)
      split
      next ht =>
        rw [idsBy_message hs, if_pos ht, List.length_singleton] at hlt
        rw [scene, (numbered_run shard book grace now es).nextId]
        exact idAfter_ne_zero (by omega)
      next ht => simpa [Session.takesId] using ht
    | _ =>
      show _ ↔ _ ++ [] = []
      rw [List.append_nil]
      exact ih hs
  · have hno := owned_configBy _ e (sound_run shard book grace now es) (.inr hne)
    dsimp only at hno
    rw [hno, List.append_nil]
    exact ih hs

/-! ### Owners -/

/-- Whether an id is that of the session of one connection, if it is that of any. -/
def Belongs (w : World) (c : Int32) (id : ConnectionId) : Prop :=
  ∀ id' s', w.sessions.get? id' = some s' → (s'.clientId = c ↔ id' = id)

/-- An id that was assigned stays with its session and is not assigned again. -/
theorem belongs_step {ids : List Int32} {w : World} (hn : Numbered ids w)
    (hlt : ids.length < 2 ^ 32) {c : Int32} (hc : c ∈ ids) (h0 : c ≠ 0) {id : ConnectionId}
    (hid : id < w.nextConnection) (h : w.Belongs c id) (e : Event) : (w.step e).Belongs c id := by
  intro id' s' hs'
  rcases sessions_step hs' with ⟨-, rfl, rfl⟩ | ⟨m, s, rfl, hs, rfl⟩ | ⟨-, hs⟩
  · exact iff_of_false (fun h => h0 h.symm) (Nat.ne_of_gt hid)
  · rw [(s.handling w.scene m).clientId]
    split
    next ht =>
      have hs0 := s.clientId_eq_zero_of_takesId ht
      have hnext : w.lobby.nextId ≠ c := fun heq => hn.nextId_not_mem hlt (heq.symm ▸ hc)
      exact iff_of_false hnext fun heq => h0 (((h _ _ hs).2 heq).symm.trans hs0)
    next => exact h _ _ hs
  · exact h _ _ hs

/-- The id of a session belongs to it, whatever happens afterwards. -/
theorem belongs_run {shard : Shard} {book : AddressBook} {grace now : Nat} {es₁ : List Event}
    {id : ConnectionId} {s : Session}
    (hs : ((fresh shard book grace now).run es₁).sessions.get? id = some s) (h0 : s.clientId ≠ 0)
    {es₂ : List Event} (hlt : ((fresh shard book grace now).ids (es₁ ++ es₂)).length < 2 ^ 32) :
    ((fresh shard book grace now).run (es₁ ++ es₂)).Belongs s.clientId id := by
  induction es₂ using List.reverseRecOn with
  | nil =>
    rw [List.append_nil] at hlt ⊢
    intro id' s' hs'
    refine ⟨fun heq => ?_, ?_⟩
    · exact (numbered_run shard book grace now es₁).eq_of_clientId_eq hlt hs' hs heq (heq ▸ h0)
    · rintro rfl
      rw [Option.some.inj (hs'.symm.trans hs)]
  | append_singleton es e ih =>
    rw [← List.append_assoc] at hlt ⊢
    rw [ids_concat, List.length_append] at hlt
    rw [run_concat]
    have hmem := ((numbered_run shard book grace now es₁).mem hs).resolve_left h0
    have hid := (sound_run shard book grace now es₁).sessions_lt hs
    refine belongs_step (numbered_run ..) (by omega) ?_ h0 ?_ (ih (by omega)) e
    · rw [ids, along_append]
      exact List.mem_append_left _ hmem
    · rw [run_append]
      exact Nat.lt_of_lt_of_le hid (nextConnection_le_run ..)

/-- An id is assigned to the session that a message configures and that has none. -/
theorem exists_of_mem_idsBy {w : World} {e : Event} {c : Int32} (h : c ∈ w.idsBy e) :
    ∃ id m s s', e = .message id m ∧ w.sessions.get? id = some s ∧ s.clientId = 0 ∧
      (w.step e).sessions.get? id = some s' ∧ s'.clientId = c := by
  cases e with
  | message id m =>
    cases hs : w.sessions.get? id with
    | none => simp [idsBy, hs] at h
    | some s =>
      rw [idsBy_message hs] at h
      split at h
      next ht =>
        refine ⟨id, m, s, _, rfl, hs, s.clientId_eq_zero_of_takesId ht,
          sessions_step_message hs m, ?_⟩
        rw [(s.handling w.scene m).clientId, if_pos ht, List.mem_singleton.1 h]
        rfl
      next => cases h
  | _ => cases h

/-- As long as the ids that are assigned in a run are positive, they are at least 1 and strictly
ascending, and each is assigned to the session that is configured.  A session has none exactly until
it is first configured, and then one of these; it keeps its id, and no other session has that id,
then or ever after. -/
theorem assignments_of_run (shard : Shard) (book : AddressBook) (grace now : Nat)
    (es : List Event) :
    let w₀ := fresh shard book grace now
    (w₀.ids es).length ≤ 2 ^ 31 - 1 →
      (∀ c ∈ w₀.ids es, 1 ≤ c) ∧ (w₀.ids es).Pairwise (· < ·) ∧
      (∀ es₁ e es₂, es = es₁ ++ e :: es₂ → ∀ c ∈ (w₀.run es₁).idsBy e,
        ∃ id m s s', e = .message id m ∧ (w₀.run es₁).sessions.get? id = some s ∧
          s.clientId = 0 ∧ (w₀.run (es₁ ++ [e])).sessions.get? id = some s' ∧
          s'.clientId = c) ∧
      (∀ id s, (w₀.run es).sessions.get? id = some s →
        (s.clientId = 0 ↔ w₀.configs id es = []) ∧
          (s.clientId ≠ 0 → s.clientId ∈ w₀.ids es)) ∧
      ∀ es₁ es₂, es = es₁ ++ es₂ → ∀ id s, (w₀.run es₁).sessions.get? id = some s →
        s.clientId ≠ 0 → ∀ id' s', (w₀.run es).sessions.get? id' = some s' →
          (s'.clientId = s.clientId ↔ id' = id) := by
  intro w₀ hle
  have hlt : (w₀.ids es).length < 2 ^ 31 := by omega
  have hn : Numbered (w₀.ids es) (w₀.run es) := numbered_run shard book grace now es
  refine ⟨hn.one_le hlt, hn.ascending hlt, ?_, fun id s hs =>
    ⟨clientId_eq_zero_iff_configs hlt hs, (hn.mem hs).resolve_left⟩, ?_⟩
  · rintro es₁ e es₂ - c hc
    rw [run_concat]
    exact exists_of_mem_idsBy hc
  · rintro es₁ es₂ rfl id s hs h0
    exact belongs_run hs h0 (Nat.lt_trans hlt (by decide))

/-- Two players are configured, the one who came later first and twice.  That one leaves, and
whoever comes next has no id at first and is then assigned another one. -/
theorem assignments_of_run_reconnect :
    let es₁ : List Event := [.connect, .connect, .message 1 (.clientConfig 1 none),
      .message 0 (.clientConfig 2 none), .message 1 (.clientConfig 3 none)]
    let es₂ : List Event := [.close 1, .connect, .message 2 (.clientConfig 1 none)]
    let w₁ := quietCrossing.run es₁
    let w := quietCrossing.run (es₁ ++ es₂)
    quietCrossing.ids (es₁ ++ es₂) = [1, 2, 3] ∧ (∀ c ∈ ([1, 2, 3] : List Int32), 1 ≤ c) ∧
      ([1, 2, 3] : List Int32).Pairwise (· < ·) ∧
      ∃ s₁ s, w₁.sessions.get? 1 = some s₁ ∧ s₁.clientId = 1 ∧ w.sessions.get? 1 = none ∧
        w.sessions.get? 2 = some s ∧ quietCrossing.configs 2 (es₁ ++ es₂) = [(1, none)] ∧
        s.clientId ∈ ([1, 2, 3] : List Int32) ∧ s.clientId ≠ s₁.clientId := by
  intro es₁ es₂ w₁ w
  have hids : quietCrossing.ids (es₁ ++ es₂) = [1, 2, 3] := by decide +kernel
  have hs₁ : (w₁.sessions.get? 1).map Session.clientId = some 1 := by decide +kernel
  have hgone : w.sessions.get? 1 = none := by decide +kernel
  have hs : (w.sessions.get? 2).isSome = true := by decide +kernel
  have hconfigs : quietCrossing.configs 2 (es₁ ++ es₂) = [(1, none)] := by decide +kernel
  obtain ⟨s₁, hs₁, hone⟩ := Option.map_eq_some_iff.1 hs₁
  obtain ⟨s, hs⟩ := Option.isSome_iff_exists.1 hs
  obtain ⟨hpositive, hascending, -, hsessions, hkept⟩ :=
    assignments_of_run crossing (.seeded .host crossing.realm) 250 0 (es₁ ++ es₂)
      (Nat.le_trans (Nat.le_of_eq (congrArg List.length hids)) (by decide))
  obtain ⟨hzero, hmem⟩ := hsessions 2 s hs
  have hconfigured : s.clientId ≠ 0 := fun h0 => by
    have hnil : quietCrossing.configs 2 (es₁ ++ es₂) = [] := hzero.1 h0
    rw [hconfigs] at hnil
    cases hnil
  have hother : s.clientId ≠ s₁.clientId := fun heq =>
    absurd ((hkept es₁ es₂ rfl 1 s₁ hs₁ (hone ▸ by decide) 2 s hs).1 heq) (by decide)
  exact ⟨hids, hids ▸ hpositive, hids ▸ hascending, s₁, s, hs₁, hone, hgone, hs, hconfigs,
    hids ▸ hmem hconfigured, hother⟩

end World

end TileRealm
