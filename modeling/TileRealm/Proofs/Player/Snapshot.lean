import TileRealm.Proofs.Player.Announcement
import TileRealm.Proofs.Player.Ids

/-!
# Snapshots

The players whom a snapshot lists are those who have an id and are registered, as they are when it is
queued, in the order of their ids (`World.snapshots_of_run`).
-/

namespace TileRealm

namespace World

open ServerMessage

/-! ### The players who are listed -/

/-- The players whom a snapshot has to list: those who have an id and are registered, as they are. -/
def players (w : World) : List Player :=
  (w.sessions.toList.filter fun e => w.lobby.isRegistered e.1 && e.2.clientId ≠ 0).map fun e =>
    ⟨e.2.clientId, e.2.pos, e.2.moving, e.2.username⟩

/-- What is shown is what the sessions of the registered connections show. -/
theorem perm_views {w : World} (hw : w.Sound) :
    w.lobby.views.toList.Perm
      ((w.sessions.toList.filter fun e => w.lobby.isRegistered e.1).map fun e => (e.1, e.2.view)) := by
  refine Table.perm_toList ?_ fun id v => ?_
  · rw [List.map_map]
    exact (Table.nodup_keys w.sessions).sublist (List.filter_sublist.map _)
  · simp only [List.mem_map, List.mem_filter, Prod.mk.injEq]
    constructor
    · intro hv
      obtain ⟨s, hs, rfl⟩ := hw.views hv
      exact ⟨(id, s), ⟨Table.mem_toList_iff.2 hs, Option.isSome_iff_exists.2 ⟨_, hv⟩⟩, rfl, rfl⟩
    · rintro ⟨⟨_, s⟩, ⟨hs, hreg⟩, rfl, rfl⟩
      obtain ⟨v, hv⟩ := Option.isSome_iff_exists.1 hreg
      rw [hv, hw.view_eq (Table.mem_toList_iff.1 hs) hv]

theorem perm_players {w : World} (hw : w.Sound) :
    (Lobby.roster (w.lobby.views.toList.map Prod.snd)).Perm w.players := by
  refine (Lobby.perm_roster _).trans ?_
  rw [List.filter_map, List.map_map]
  refine (((perm_views hw).filter _).map _).trans (.of_eq ?_)
  rw [List.filter_map, List.map_map, List.filter_filter, players]
  refine congrArg (List.map _) (List.filter_congr fun e _ => ?_)
  exact Bool.and_comm ..

/-- As long as the ids have not all been handed out, the players are listed by strictly ascending
ids. -/
theorem strict_of_perm_players {ids : List Int32} {w : World} (h : Numbered ids w)
    (hlt : ids.length < 2 ^ 32) {ps : List Player} (hperm : ps.Perm w.players)
    (hle : Lobby.InOrder ps) : ps.Pairwise fun p q => p.id < q.id := by
  have hne : w.players.Pairwise fun p q => p.id ≠ q.id := by
    refine List.pairwise_map.2 (List.Pairwise.imp_of_mem ?_
      ((List.pairwise_map.1 (Table.nodup_keys w.sessions)).filter _))
    rintro ⟨id, s⟩ ⟨id', s'⟩ hs hs' hid heq
    obtain ⟨hs, hkeep⟩ := List.mem_filter.1 hs
    refine hid (h.eq_of_clientId_eq hlt (Table.mem_toList_iff.1 hs)
      (Table.mem_toList_iff.1 (List.mem_filter.1 hs').1) heq ?_)
    simpa using (Bool.and_eq_true_iff.1 hkeep).2
  have hne' : ps.Pairwise fun p q => p.id ≠ q.id := (hperm.pairwise_iff Ne.symm).2 hne
  exact (hle.and hne').imp fun ⟨hle, hne⟩ => Int32.lt_of_le_of_ne hle hne

/-- When everyone is told, those who are registered afterwards and have room are told once who the
players are then. -/
theorem exists_told {w : World} (hw : w.Sound) {e : Event} (ha : w.announces e = true) :
    ∃ players : List Player, players.Perm (w.step e).players ∧
      ∀ id, (w.step e).lobby.isRegistered id = true → w.hasRoom e id = true →
        ∃ s, (w.step e).sessions.get? id = some s ∧
          snapshots (w.queuedBy e id) = [.playersSnapshot s.clientId players] := by
  have hw' := sound_step hw e
  refine ⟨_, perm_players hw', fun id hreg hroom => ?_⟩
  obtain ⟨v, hv⟩ := Option.isSome_iff_exists.1 hreg
  obtain ⟨s, hs, rfl⟩ := hw'.views hv
  refine ⟨s, hs, ?_⟩
  rw [snapshots_queuedBy hw ha, hroom, if_pos rfl, hv]
  rfl

theorem mem_players_iff {w : World} {p : Player} : p ∈ w.players ↔
    ∃ id s, w.lobby.isRegistered id = true ∧ s.clientId ≠ 0 ∧ w.sessions.get? id = some s ∧
      p = ⟨s.clientId, s.pos, s.moving, s.username⟩ := by
  simp only [players, List.mem_map, List.mem_filter, Prod.exists, Table.mem_toList_iff,
    Bool.and_eq_true, decide_eq_true_eq]
  constructor
  · rintro ⟨id, s, ⟨hs, hreg, h0⟩, rfl⟩
    exact ⟨id, s, hreg, h0, hs, rfl⟩
  · rintro ⟨id, s, hreg, h0, hs, rfl⟩
    exact ⟨id, s, ⟨hs, hreg, h0⟩, rfl⟩

/-- Between events every registered connection shows what its session is like.  A granted move, a
change of a player's walking and the end of a player who had an id queue one snapshot for each
connection that is registered afterwards and has room: with its own id, and with every player once
who has an id and is registered, as the players are then, by strictly ascending ids while there are
ids left.  Nothing else queues a snapshot. -/
theorem snapshots_of_run (shard : Shard) (book : AddressBook) (grace now : Nat) (es : List Event)
    (e : Event) :
    let w₀ := fresh shard book grace now
    let w := w₀.run es
    let w' := w.step e
    (∀ id v, w.lobby.views.get? id = some v →
      ∃ s, w.sessions.get? id = some s ∧ v = ⟨s.clientId, s.username, s.pos, s.moving⟩) ∧
    (w.announces e = false → ∀ id, snapshots (w.queuedBy e id) = []) ∧
    (w.announces e = true → ∃ players : List Player, players.Perm w'.players ∧
      ((w₀.ids (es ++ [e])).length < 2 ^ 32 → players.Pairwise fun p q => p.id < q.id) ∧
      ∀ id,
        (w'.lobby.isRegistered id = true → w.hasRoom e id = true →
          ∃ s, w'.sessions.get? id = some s ∧
            snapshots (w.queuedBy e id) = [.playersSnapshot s.clientId players]) ∧
        (w'.lobby.isRegistered id = false ∨ w.hasRoom e id = false →
          snapshots (w.queuedBy e id) = [])) := by
  intro w₀ w w'
  have hw : w.Sound := sound_run shard book grace now es
  have hw' : w'.Sound := sound_step hw e
  refine ⟨fun id v hv => hw.views hv, fun ha id => snapshots_queuedBy_of_not_announces hw ha id,
    fun ha => ⟨Lobby.roster (w'.lobby.views.toList.map Prod.snd), perm_players hw', fun hlt => ?_,
      fun id => ⟨fun hreg hroom => ?_, fun hno => ?_⟩⟩⟩
  · have hnumbered := numbered_run shard book grace now (es ++ [e])
    rw [run_concat] at hnumbered
    exact strict_of_perm_players hnumbered hlt (perm_players hw') (Lobby.inOrder_roster _)
  · obtain ⟨v, hv⟩ := Option.isSome_iff_exists.1 hreg
    obtain ⟨s, hs, rfl⟩ := hw'.views hv
    refine ⟨s, hs, ?_⟩
    rw [snapshots_queuedBy hw ha, hroom, if_pos rfl, hv]
    rfl
  · rw [snapshots_queuedBy hw ha]
    rcases hno with hreg | hroom
    · have hnone : w'.lobby.views.get? id = none :=
        Option.isNone_iff_eq_none.1 (Option.isSome_eq_false_iff.1 hreg)
      rw [hnone]
      exact ite_self _
    · rw [hroom]
      rfl

/-- Two players are in the region, a third connection has left it.  A move of the one is told to the
other with both of them in the order of their ids, and not to the third; that a player who stands
still stands still is told to nobody. -/
theorem snapshots_of_run_pair :
    let es : List Event := [.connect, .connect, .connect, .message 1 (.clientConfig 1 (some "b")),
      .message 0 (.clientConfig 1 (some "a")), .message 1 (.moveRequest 3 3), .remove 2]
    let e : Event := .message 0 (.moveRequest 8 5)
    let w := quietCrossing.run es
    let w' := w.step e
    w.lobby.views.get? 1 = some ⟨1, "b", ⟨3, 3⟩, false⟩ ∧
      (∃ s, w.sessions.get? 1 = some s ∧
        (⟨1, "b", ⟨3, 3⟩, false⟩ : View) = ⟨s.clientId, s.username, s.pos, s.moving⟩) ∧
      w.announces (.message 0 (.moveState false)) = false ∧
      snapshots (w.queuedBy (.message 0 (.moveState false)) 1) = [] ∧
      w.announces e = true ∧ quietCrossing.ids (es ++ [e]) = [1, 2] ∧
      w'.lobby.isRegistered 1 = true ∧ w.hasRoom e 1 = true ∧ w'.lobby.isRegistered 2 = false ∧
      ∃ players : List Player,
        players.Perm [⟨2, ⟨8, 5⟩, false, "a"⟩, ⟨1, ⟨3, 3⟩, false, "b"⟩] ∧
        (players.Pairwise fun p q => p.id < q.id) ∧
        (∃ s, w'.sessions.get? 1 = some s ∧
          snapshots (w.queuedBy e 1) = [.playersSnapshot s.clientId players]) ∧
        snapshots (w.queuedBy e 2) = [] := by
  intro es e w w'
  have hview : w.lobby.views.get? 1 = some ⟨1, "b", ⟨3, 3⟩, false⟩ := by decide +kernel
  have hstill : w.announces (.message 0 (.moveState false)) = false := by decide +kernel
  have hmove : w.announces e = true := by decide +kernel
  have hids : quietCrossing.ids (es ++ [e]) = [1, 2] := by decide +kernel
  have hreg : w'.lobby.isRegistered 1 = true := by decide +kernel
  have hroom : w.hasRoom e 1 = true := by decide +kernel
  have hleft : w'.lobby.isRegistered 2 = false := by decide +kernel
  have hplayers : w'.players = [⟨2, ⟨8, 5⟩, false, "a"⟩, ⟨1, ⟨3, 3⟩, false, "b"⟩] := by
    decide +kernel
  have hof := snapshots_of_run crossing (.seeded .host crossing.realm) 250 0 es
  obtain ⟨hviews, -, htold⟩ := hof e
  obtain ⟨players, hperm, hstrict, hlines⟩ := htold hmove
  exact ⟨hview, hviews 1 _ hview, hstill, (hof _).2.1 hstill 1, hmove, hids, hreg, hroom, hleft,
    players, hplayers ▸ hperm,
    hstrict (lt_of_eq_of_lt (congrArg List.length hids) (by decide)),
    (hlines 1).1 hreg hroom, (hlines 2).2 (.inl hleft)⟩

end World

end TileRealm
