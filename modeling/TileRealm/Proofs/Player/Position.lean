import TileRealm.Proofs.Player.Announcement
import TileRealm.Proofs.Player.History

/-!
# Where players are

Before its first move a session is at the origin; from then on it is on a tile that can be stood
on, and each further move takes it exactly one tile on.  Everyone is shown such positions only
(`World.positions_of_run`).
-/

namespace TileRealm

namespace Session

/-- A session is where it may be. -/
def Settled (shard : Shard) (s : Session) : Prop :=
  s.isFirstMove = true ∧ s.pos = .origin ∨ s.isFirstMove = false ∧ shard.Standable s.pos

theorem settled_handle {scene : Scene} {s : Session} (h : s.Settled scene.shard)
    (m : ClientMessage) : (s.handle scene m).1.Settled scene.shard := by
  have hp := s.handling scene m
  generalize (s.handle scene m).1 = s' at hp ⊢
  generalize (s.handle scene m).2 = as at hp
  cases hp with
  | granted x y s' hg =>
    obtain ⟨b, rfl, hb, -⟩ := exists_of_granted? hg
    exact .inr ⟨rfl, hb⟩
  | refused x y ht hg =>
    rw [Settled, isFirstMove_approached, pos_approached]
    exact h
  | _ => exact h

theorem pos_of_granted? {scene : Scene} {s s' : Session} {t : Tile}
    (h : s.granted? scene t = some s') (hf : s.isFirstMove = false) :
    s.pos.distance s'.pos = 1 := by
  obtain ⟨b, rfl, -, ⟨hf', -⟩ | ⟨-, -, hb⟩⟩ := exists_of_granted? h
  · rw [hf] at hf'
    cases hf'
  · exact hb

end Session

namespace World

section Runs

variable {shard : Shard} {book : AddressBook} {grace now : Nat} {es : List Event}
  {id : ConnectionId} {s s' : Session}

theorem settled_of_run (h : ((fresh shard book grace now).run es).sessions.get? id = some s) :
    s.Settled shard := by
  refine session_induction (.inl ⟨rfl, rfl⟩) (fun scene s m hs ih => ?_) h
  rw [← hs] at ih ⊢
  exact Session.settled_handle ih m

theorem standable_of_moves (h : ((fresh shard book grace now).run es).sessions.get? id = some s)
    (hm : (fresh shard book grace now).moves id es ≠ []) : shard.Standable s.pos := by
  rcases settled_of_run h with ⟨hf, -⟩ | ⟨-, hp⟩
  · exact absurd ((isFirstMove_iff_moves h).1 hf) hm
  · exact hp

/-- A shown position can be stood on, or it is the one before the first move. -/
theorem standable_or_origin
    (h : ((fresh shard book grace now).run es).sessions.get? id = some s) :
    shard.Standable s.pos ∨
      s.pos = .origin ∧ (fresh shard book grace now).moves id es = [] := by
  rcases settled_of_run h with ⟨hf, hp⟩ | ⟨-, hp⟩
  · exact .inr ⟨hp, (isFirstMove_iff_moves h).1 hf⟩
  · exact .inl hp

/-- A granted wish takes a session that has moved before one tile on; nothing else moves it. -/
theorem pos_step {w : World} {e : Event} (hw : w.Sound) (hs : w.sessions.get? id = some s)
    (hf : s.isFirstMove = false) (hs' : (w.step e).sessions.get? id = some s') :
    (∀ t ∈ w.moveBy id e, s'.pos = t ∧ s.pos.distance t = 1) ∧
      (w.moveBy id e = [] → s'.pos = s.pos) := by
  have hstay : w.moveBy id e = [] → s'.pos = s.pos →
      (∀ t ∈ w.moveBy id e, s'.pos = t ∧ s.pos.distance t = 1) ∧
        (w.moveBy id e = [] → s'.pos = s.pos) := by
    intro hm hp
    rw [hm]
    exact ⟨by simp, fun _ => hp⟩
  rcases sessions_step hs' with ⟨-, hid, -⟩ | ⟨m, r, rfl, hr, hs'⟩ | ⟨hne, hr⟩
  · exact absurd (hid ▸ hw.sessions_lt hs) (Nat.lt_irrefl _)
  · obtain rfl : s = r := Option.some.inj (hs.symm.trans hr)
    have hp := s.handling w.scene m
    rw [← hs'] at hp
    generalize (s.handle w.scene m).2 = as at hp
    cases hp with
    | handedOff x y teleport ht =>
      exact hstay (by rw [moveBy_moveRequest hs, Session.granted?, ht]; rfl) rfl
    | granted x y s' hg =>
      rw [moveBy_moveRequest hs, hg]
      refine ⟨fun t ht => ?_, fun h => absurd h (List.cons_ne_nil _ _)⟩
      rw [Option.map_some, Option.toList_some, List.mem_singleton] at ht
      subst ht
      exact ⟨rfl, Session.pos_of_granted? hg hf⟩
    | refused x y ht hg =>
      exact hstay (by rw [moveBy_moveRequest hs, hg]; rfl) (Session.pos_approached ..)
    | _ => exact hstay rfl rfl
  · obtain rfl : s = s' := Option.some.inj (hs.symm.trans hr)
    exact hstay (owned_moveBy w e hw (.inr hne)) rfl

/-- Once a wish of a connection was granted, its player is on a tile that can be stood on for ever,
and each further granted wish takes it exactly one tile on.  Everyone is shown such tiles only, or
the origin for a session without a granted wish. -/
theorem positions_of_run (shard : Shard) (book : AddressBook) (grace now : Nat)
    (es : List Event) (id : ConnectionId) :
    let w₀ := fresh shard book grace now
    let w := w₀.run es
    (∀ fs s, w₀.moves id es ≠ [] → (w.run fs).sessions.get? id = some s →
      shard.Standable s.pos) ∧
    (∀ e s s', w₀.moves id es ≠ [] → w.sessions.get? id = some s →
      (w.step e).sessions.get? id = some s' →
        (∀ t ∈ w.moveBy id e, s'.pos = t ∧ s.pos.distance t = 1) ∧
          (w.moveBy id e = [] → s'.pos = s.pos)) ∧
    (∀ e p, .positionUpdate p ∈ w.queuedBy e id →
      shard.Standable p ∨ p = .origin ∧ w₀.moves id (es ++ [e]) = []) ∧
    (∀ e myId players p, .playersSnapshot myId players ∈ w.queuedBy e id → p ∈ players →
      ∃ id' s, (w.step e).sessions.get? id' = some s ∧ p = Lobby.listed s.view ∧
        (shard.Standable p.pos ∨ p.pos = .origin ∧ w₀.moves id' (es ++ [e]) = [])) := by
  intro w₀ w
  have hw : w.Sound := sound_run shard book grace now es
  have hstep : ∀ e, w.step e = w₀.run (es ++ [e]) := fun e => (run_concat w₀ es e).symm
  refine ⟨fun fs s hm hs => ?_, fun e s s' hm hs hs' => ?_, fun e p hp => ?_,
    fun e myId players p hq hp => ?_⟩
  · rw [show w.run fs = w₀.run (es ++ fs) from (run_append w₀ es fs).symm] at hs
    refine standable_of_moves hs ?_
    rw [moves_append]
    exact List.append_ne_nil_of_left_ne_nil hm _
  · exact pos_step hw hs ((isFirstMove_eq_false_iff_moves hs).2 hm) hs'
  · rcases mem_queuedBy hw hp with ⟨m, s, rfl, hs, hsend⟩ | ⟨shown, u, hu, -⟩
    · have hnew := sessions_step_message hs m
      have hpos : p = (s.handle w.scene m).1.pos := (s.handling w.scene m).answer hsend
      rw [hstep] at hnew
      rw [hpos]
      exact standable_or_origin hnew
    · cases hu
  · rcases mem_queuedBy hw hq with ⟨m, s, rfl, hs, hsend⟩ | ⟨shown, u, hu, hviews⟩
    · exact ((s.handling w.scene m).answer hsend).elim
    · cases hu
      obtain ⟨id', v, hv, -, rfl⟩ := Lobby.exists_view_of_mem_roster hp
      obtain ⟨s, hs, rfl⟩ := hviews id' v hv
      refine ⟨id', s, hs, rfl, ?_⟩
      rw [hstep] at hs
      exact standable_or_origin hs

end Runs

/-- A player at the crossing jumps, and comes one tile on. -/
theorem positions_of_run_jump :
    let es : List Event := [.connect, .message 0 (.clientConfig 1 none),
      .message 0 (.moveRequest 5 5)]
    let e : Event := .message 0 (.moveRequest 7 8)
    let w := quietCrossing.run es
    quietCrossing.moves 0 es = [⟨5, 5⟩] ∧ w.moveBy 0 e = [⟨6, 5⟩] ∧
      (∃ s s', w.sessions.get? 0 = some s ∧ (w.step e).sessions.get? 0 = some s' ∧
        crossing.Standable s'.pos ∧ s'.pos = ⟨6, 5⟩ ∧ s.pos.distance ⟨6, 5⟩ = 1) ∧
      .positionUpdate ⟨6, 5⟩ ∈ w.queuedBy e 0 ∧
      (crossing.Standable ⟨6, 5⟩ ∨
        (⟨6, 5⟩ : Tile) = .origin ∧ quietCrossing.moves 0 (es ++ [e]) = []) ∧
      .playersSnapshot 1 [⟨1, ⟨6, 5⟩, false, ""⟩] ∈ w.queuedBy e 0 ∧
      ∃ id, crossing.Standable ⟨6, 5⟩ ∨
        (⟨6, 5⟩ : Tile) = .origin ∧ quietCrossing.moves id (es ++ [e]) = [] := by
  intro es e w
  obtain ⟨hstand, hstep, hupdate, hroster⟩ :=
    positions_of_run crossing (.seeded .host crossing.realm) 250 0 es 0
  have hm : quietCrossing.moves 0 es = [⟨5, 5⟩] := by decide +kernel
  have hb : w.moveBy 0 e = [⟨6, 5⟩] := by decide +kernel
  have hne : quietCrossing.moves 0 es ≠ [] := by simp [hm]
  have hmem : ⟨6, 5⟩ ∈ w.moveBy 0 e := by simp [hb]
  have hs : (w.sessions.get? 0).isSome = true := by decide +kernel
  have hs' : ((w.step e).sessions.get? 0).isSome = true := by decide +kernel
  obtain ⟨s, hs⟩ := Option.isSome_iff_exists.1 hs
  obtain ⟨s', hs'⟩ := Option.isSome_iff_exists.1 hs'
  obtain ⟨hpos, hdist⟩ := (hstep e s s' hne hs hs').1 _ hmem
  have hafter : (w.run [e]).sessions.get? 0 = some s' := by
    rw [run_cons, run_nil]
    exact hs'
  have hu : .positionUpdate ⟨6, 5⟩ ∈ w.queuedBy e 0 := by decide +kernel
  have hq : .playersSnapshot 1 [⟨1, ⟨6, 5⟩, false, ""⟩] ∈ w.queuedBy e 0 := by decide +kernel
  obtain ⟨id, r, -, -, hshown⟩ := hroster e 1 _ _ hq (List.mem_singleton.2 rfl)
  exact ⟨hm, hb, ⟨s, s', hs, hs', hstand [e] s' hne hafter, hpos, hdist⟩, hu, hupdate e _ hu, hq,
    id, hshown⟩

end World

end TileRealm
