import TileRealm.Proofs.Player.Run
import TileRealm.Proofs.Wire.Stream
import TileRealm.Service.Host

/-!
# Frames that are routed

A frame of a kind that clients send is handled as the one message that its payload leads to, and if
the payload is at fault nothing happens but the error (`World.fst_route_of_error`).  Frames of all
other kinds are passed over (`World.route_dispatches`).
-/

namespace TileRealm

namespace World

open ClientMessage

variable {w : World} {id : ConnectionId} {k : Kind} {m : ClientMessage} {payload : Bytes}

theorem route_of_leads (h : m.Leads payload) :
    w.route id m.kind.toByte payload = (w.dispatch id m, none) := by
  simp only [route, Kind.ofByte?_toByte, decode_eq_ok_iff.2 ⟨rfl, h⟩]

theorem exists_route_eq_error (w : World) (id : ConnectionId) (h : IsFaulty k payload) :
    ∃ e, w.route id k.toByte payload = (w, some e) := by
  have hk := mem_foreignKinds_of_isFaulty h
  cases hdecode : decode k payload with
  | ok m =>
    obtain ⟨rfl, hlead⟩ := decode_eq_ok_iff.1 hdecode
    exact absurd h hlead.not_isFaulty
  | error e =>
    let f : Frame := ⟨⟨protocolVersion, k.toByte, payload.length⟩, payload⟩
    have hfault : f.fault? = some e := Frame.fault?_eq_some_iff.2 ⟨k, hk, rfl, hdecode⟩
    have hroute := Frame.route_eq f w id
    rw [hfault] at hroute
    exact ⟨e, hroute⟩

theorem route_of_not_mem {kindByte : UInt8} (h : kindByte ∉ [(0 : UInt8), 3, 10, 11]) :
    w.route id kindByte payload = (w, none) := by
  let f : Frame := ⟨⟨protocolVersion, kindByte, payload.length⟩, payload⟩
  obtain ⟨hrequest, hfault⟩ := Frame.request?_eq_none_of_kindByte (f := f) h
  have hroute := Frame.route_eq f w id
  rw [hfault, hrequest] at hroute
  exact hroute

theorem exists_kind_of_mem {kindByte : UInt8} (h : kindByte ∈ [(0 : UInt8), 3, 10, 11]) :
    ∃ k ∈ ServerMessage.foreignKinds, kindByte = k.toByte := by
  simp only [List.mem_cons, List.not_mem_nil, or_false] at h
  rcases h with rfl | rfl | rfl | rfl
  · exact ⟨.moveRequest, by decide, rfl⟩
  · exact ⟨.clientConfig, by decide, rfl⟩
  · exact ⟨.provisionalConnection, by decide, rfl⟩
  · exact ⟨.moveState, by decide, rfl⟩

/-- The payload of a frame of a kind that clients send is at fault or leads to a message. -/
theorem isFaulty_or_exists_leads {kindByte : UInt8} (h : kindByte ∈ [(0 : UInt8), 3, 10, 11])
    (payload : Bytes) :
    (∃ k, kindByte = k.toByte ∧ IsFaulty k payload) ∨
      ∃ m : ClientMessage, kindByte = m.kind.toByte ∧ m.Leads payload := by
  obtain ⟨k, hk, rfl⟩ := exists_kind_of_mem h
  by_cases hfaulty : IsFaulty k payload
  · exact .inl ⟨k, rfl, hfaulty⟩
  · obtain ⟨m, rfl, hlead⟩ := exists_leads_of_not_isFaulty hk hfaulty
    exact .inr ⟨m, rfl, hlead⟩

theorem exists_route_error_iff {kindByte : UInt8} :
    (∃ e, (w.route id kindByte payload).2 = some e) ↔
      ∃ k, kindByte = k.toByte ∧ IsFaulty k payload := by
  constructor
  · rintro ⟨e, he⟩
    by_cases hmem : kindByte ∈ [(0 : UInt8), 3, 10, 11]
    · rcases isFaulty_or_exists_leads hmem payload with hfaulty | ⟨m, rfl, hlead⟩
      · exact hfaulty
      · rw [route_of_leads hlead] at he
        cases he
    · rw [route_of_not_mem hmem] at he
      cases he
  · rintro ⟨k, rfl, hfaulty⟩
    obtain ⟨e, he⟩ := exists_route_eq_error w id hfaulty
    exact ⟨e, congrArg Prod.snd he⟩

/-- An error leaves the world as it is. -/
theorem fst_route_of_error {kindByte : UInt8} {e : CodecError}
    (h : (w.route id kindByte payload).2 = some e) : (w.route id kindByte payload).1 = w := by
  obtain ⟨k, rfl, hfaulty⟩ := exists_route_error_iff.1 ⟨e, h⟩
  obtain ⟨e', he'⟩ := exists_route_eq_error w id hfaulty
  rw [he']

/-- A frame is an error just when its payload is at fault: when it has too few bytes for a tile, a
mark or a width, or something behind the width that does not begin with a name.  A world that gets such
a frame is left as it is, and a host besides, which reads no further; so is a world that gets a frame of
a kind that clients do not send.  On all other frames the world handles the one message that the payload
leads to, whatever follows. -/
theorem route_dispatches (w : World) (id : ConnectionId) (kindByte : UInt8) (payload : Bytes) :
    ((∃ e, (w.route id kindByte payload).2 = some e) ↔
      ∃ k, kindByte = k.toByte ∧ IsFaulty k payload) ∧
    (∀ e, (w.route id kindByte payload).2 = some e → (w.route id kindByte payload).1 = w) ∧
    (∀ (h : Host) (f : Frame) (fs : List Frame) (e : CodecError),
      (h.world.route id f.header.kindByte f.payload).2 = some e →
        h.routeAll id (f :: fs) = (h, some (.malformed e))) ∧
    (kindByte ∉ [(0 : UInt8), 3, 10, 11] → w.route id kindByte payload = (w, none)) ∧
    (kindByte ∈ [(0 : UInt8), 3, 10, 11] →
      (¬ ∃ k, kindByte = k.toByte ∧ IsFaulty k payload) →
        ∃ m : ClientMessage, (kindByte = m.kind.toByte ∧ m.Leads payload) ∧
          (∀ m' : ClientMessage, kindByte = m'.kind.toByte → m'.Leads payload → m' = m) ∧
          w.route id kindByte payload = (w.dispatch id m, none)) := by
  refine ⟨exists_route_error_iff, fun e => fst_route_of_error, fun h f fs e he => ?_,
    route_of_not_mem, fun hmem hsound => ?_⟩
  · have hroute : h.world.route id f.header.kindByte f.payload = (h.world, some e) :=
      Prod.ext (fst_route_of_error he) he
    rw [Host.routeAll, hroute]
  · obtain ⟨m, rfl, hlead⟩ := (isFaulty_or_exists_leads hmem payload).resolve_left hsound
    refine ⟨m, ⟨rfl, hlead⟩, fun m' hkind hlead' => ?_, route_of_leads hlead⟩
    have hsame : some m'.kind = some m.kind :=
      (Kind.ofByte?_eq_some_iff.2 hkind).symm.trans (Kind.ofByte?_toByte m.kind)
    exact hlead.eq_of_kind_eq hlead' (Option.some.inj hsame)

/-- A width and a name of one letter in two bytes, with a byte behind it, is a configuration.  With the
second of the two bytes missing it is an error, which leaves the world and the host as they are, and
under a kind that the region sends it is nothing. -/
theorem route_dispatches_named :
    let h : Host := (Host.accept { world := quietCrossing }).1
    let payload : Bytes := [0, 0, 0, 2, 0, 0, 0, 2, 195]
    (∃ k, Kind.clientConfig.toByte = k.toByte ∧ IsFaulty k payload) ∧
      (h.world.route 0 3 payload).1 = h.world ∧
      (h.routeAll 0 [⟨⟨1, 3, 9⟩, payload⟩, ⟨⟨1, 10, 0⟩, []⟩] =
        (h, some (.malformed (.truncated 8 2)))) ∧
      h.world.route 0 7 payload = (h.world, none) ∧
      h.world.route 0 3 (payload ++ [145, 9]) =
        (h.world.dispatch 0 (.clientConfig 2 (some "Ñ")), none) := by
  intro h payload
  have herror : (h.world.route 0 3 payload).2 = some (.truncated 8 2) := by rfl
  obtain ⟨hfaulty, hworld, hhost, -, -⟩ := route_dispatches h.world 0 3 payload
  obtain ⟨-, -, -, hpassed, -⟩ := route_dispatches h.world 0 7 payload
  obtain ⟨-, -, -, -, hok⟩ := route_dispatches h.world 0 3 (payload ++ [145, 9])
  have hlead : (clientConfig 2 (some "Ñ")).Leads (payload ++ [145, 9]) :=
    leads_clientConfig_some_iff.2 ⟨by decide, [9], by decide⟩
  have hsound : ¬ ∃ k, (3 : UInt8) = k.toByte ∧ IsFaulty k (payload ++ [145, 9]) := by
    rintro ⟨k, hk, hfaulty⟩
    obtain rfl : k = .clientConfig := by
      revert hk
      cases k <;> decide
    exact hlead.not_isFaulty hfaulty
  obtain ⟨m, -, hunique, hroute⟩ := hok (by decide) hsound
  rw [← hunique _ rfl hlead] at hroute
  exact ⟨hfaulty.1 ⟨_, herror⟩, hworld _ herror, hhost h ⟨⟨1, 3, 9⟩, payload⟩ _ _ herror,
    hpassed (by decide), hroute⟩

end World

end TileRealm
