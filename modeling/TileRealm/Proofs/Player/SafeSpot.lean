import TileRealm.Proofs.Player.Handoff

/-!
# Safe spots

The safe spot is noted before a wish is granted or refused, so it can be a tile that the player
never came to.  But it is never one to which the player could step next (`Session.Clear`), and so
it keeps no teleport from working that is exactly one step away (`World.teleports_of_run`).
-/

namespace TileRealm

namespace Session

/-- After the first move the safe spot is not a step away. -/
def Clear (s : Session) : Prop :=
  s.isFirstMove = false → ∀ t, s.safeSpot = some t → t = s.pos ∨ 2 ≤ s.pos.distance t

theorem clear_handle {s : Session} (h : s.Clear) (scene : Scene) (m : ClientMessage) :
    (s.handle scene m).1.Clear := by
  have hp := s.handling scene m
  generalize (s.handle scene m).1 = s' at hp ⊢
  generalize (s.handle scene m).2 = as at hp
  cases hp with
  | granted x y s' hg =>
    obtain ⟨b, rfl, -, -⟩ := exists_of_granted? hg
    intro _ t ht
    -- A move keeps the safe spot only where it leads.
    dsimp only [moveTo] at ht ⊢
    split at ht
    next hb =>
      rw [hb, Option.some.injEq] at ht
      exact .inl ht.symm
    next => cases ht
  | refused x y ht hg =>
    intro hf t hspot
    rw [isFirstMove_approached] at hf
    rw [safeSpot_approached] at hspot
    rw [pos_approached]
    split at hspot
    next ha =>
      -- A refused arrival leaves the wished tile behind, which is not a step away.
      rw [Option.some.injEq] at hspot
      subst hspot
      rcases arrives_iff.1 ha with hf' | hd
      · rw [hf] at hf'
        cases hf'
      · exact .inr hd
    next => exact h hf t hspot
  | _ => exact h

theorem Clear.safeSpot_cases {s : Session} (h : s.Clear) (hf : s.isFirstMove = false) :
    s.safeSpot = none ∨ s.safeSpot = some s.pos ∨
      ∃ t, s.safeSpot = some t ∧ 2 ≤ s.pos.distance t := by
  cases hspot : s.safeSpot with
  | none => exact .inl rfl
  | some t =>
    rcases h hf t hspot with rfl | hd
    · exact .inr (.inl rfl)
    · exact .inr (.inr ⟨t, rfl, hd⟩)

/-- Once the grace is over a teleport one step away is set off. -/
theorem Clear.trigger? {s : Session} (h : s.Clear) (hf : s.isFirstMove = false) {scene : Scene}
    {t : Tile} {teleport : Teleport} (hd : s.pos.distance t = 1)
    (ht : scene.shard.teleport? t = some teleport) (hg : s.graceOver scene.now = true) :
    s.trigger? scene t = some teleport := by
  refine trigger?_eq_some_iff.2 ⟨arrives_eq_false_iff.2 ⟨hf, Nat.le_of_eq hd⟩, hg, ?_, ht⟩
  intro hspot
  rcases h hf t hspot with rfl | h2
  · rw [Tile.distance_self] at hd
    cases hd
  · omega

end Session

namespace World

/-- The safe spot of a player who has moved is absent, where the player is, or at least two tiles
away.  So every teleport one step away works as soon as the grace after the last arrival is over. -/
theorem teleports_of_run (shard : Shard) (book : AddressBook) (grace now : Nat)
    (es : List Event) (id : ConnectionId) (s : Session) :
    let w₀ := fresh shard book grace now
    let w := w₀.run es
    w.sessions.get? id = some s → w₀.moves id es ≠ [] →
      (s.safeSpot = none ∨ s.safeSpot = some s.pos ∨
        ∃ t, s.safeSpot = some t ∧ 2 ≤ s.pos.distance t) ∧
      ∀ x y teleport, s.pos.distance ⟨x, y⟩ = 1 → shard.teleport? ⟨x, y⟩ = some teleport →
        (∀ a ∈ w₀.arrivals id es, a + teleportGrace ≤ w.now) →
          ∃ host port, w.queuedBy (.message id (.moveRequest x y)) id =
            [.handoff teleport.region host port teleport.target] := by
  intro w₀ w hs hm
  have hw : w.Sound := sound_run shard book grace now es
  have hshard : w.shard = shard := shard_run w₀ es
  have hclear : s.Clear := session_induction (motive := Session.Clear) (fun _ _ ht => nomatch ht)
    (fun scene s m _ ih => Session.clear_handle ih scene m) hs
  have hf : s.isFirstMove = false := (isFirstMove_eq_false_iff_moves hs).2 hm
  refine ⟨hclear.safeSpot_cases hf, fun x y teleport hd ht ha => ?_⟩
  have hg : s.graceOver w.now = true := (graceOver_iff_arrivals hs w.now).2 ha
  have htrigger : s.trigger? w.scene ⟨x, y⟩ = some teleport :=
    hclear.trigger? hf hd (by rw [show w.scene.shard = shard from hshard, ht]) hg
  obtain ⟨host, port, hmsg⟩ := Session.exists_handoffMessage_eq w.book teleport
  refine ⟨host, port, ?_⟩
  rw [queuedBy_of_trigger? hw hs htrigger, if_pos rfl, hmsg]

/-- A player next to the gate is refused a tile outside the crossing: that tile is the safe spot
from then on, and the gate works after the grace. -/
theorem teleports_of_run_outside :
    let es : List Event := [.connect, .message 0 (.moveRequest 6 6), .wait 1,
      .message 0 (.moveRequest 20 6), .wait 1500]
    let w := quietCrossing.run es
    ∃ s, w.sessions.get? 0 = some s ∧ s.safeSpot = some ⟨20, 6⟩ ∧
      quietCrossing.moves 0 es ≠ [] ∧
      (s.safeSpot = none ∨ s.safeSpot = some s.pos ∨
        ∃ t, s.safeSpot = some t ∧ 2 ≤ s.pos.distance t) ∧
      s.pos.distance ⟨6, 5⟩ = 1 ∧ crossing.teleport? ⟨6, 5⟩ = some ⟨"cave", ⟨101, 102⟩⟩ ∧
      quietCrossing.arrivals 0 es = [0, 1] ∧
      (∀ a ∈ quietCrossing.arrivals 0 es, a + teleportGrace ≤ w.now) ∧
      ∃ host port, w.queuedBy (.message 0 (.moveRequest 6 5)) 0 =
        [.handoff "cave" host port ⟨101, 102⟩] := by
  intro es w
  have hspot : (w.sessions.get? 0).map (fun s => (s.pos, s.safeSpot)) =
      some (⟨6, 6⟩, some ⟨20, 6⟩) := by decide +kernel
  have ha : quietCrossing.arrivals 0 es = [0, 1] := by decide +kernel
  have hm : quietCrossing.moves 0 es ≠ [] := by decide +kernel
  have ht : crossing.teleport? ⟨6, 5⟩ = some ⟨"cave", ⟨101, 102⟩⟩ := by decide +kernel
  have hgrace : ∀ a ∈ quietCrossing.arrivals 0 es, a + teleportGrace ≤ w.now := by
    decide +kernel
  obtain ⟨s, hs, hs'⟩ := Option.map_eq_some_iff.1 hspot
  obtain ⟨hpos, hspot⟩ := Prod.mk.inj hs'
  have hd : s.pos.distance ⟨6, 5⟩ = 1 := by
    rw [hpos]
    decide
  obtain ⟨hclear, hworks⟩ :=
    teleports_of_run crossing (.seeded .host crossing.realm) 250 0 es 0 s hs hm
  exact ⟨s, hs, hspot, hm, hclear, hd, ht, ha, hgrace, hworks 6 5 _ hd ht hgrace⟩

end World

end TileRealm
