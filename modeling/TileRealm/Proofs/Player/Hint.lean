import TileRealm.Proofs.Address.Usable
import TileRealm.Proofs.Player.Ghosts

/-!
# The addresses that players are told

What a player is told of other regions comes from the address book or from what the player was told
before.  A book that falls back on usable endpoints resolves to no other ones, and no report makes
it fall back on others; so every session keeps usable endpoints only, and no address is told to
which a client cannot connect (`World.addresses_of_run`).
-/

namespace TileRealm

namespace ServerMessage

/-- Whether a client can connect to a host and a port as they are told. -/
def IsAddress (host : String) (port : Int32) : Prop :=
  host ≠ "" ∧ 1 ≤ port.toInt ∧ port.toInt ≤ 65535

/-- Whether all addresses in a message can be used.  Only a handoff may come without one. -/
def TellsUsable : ServerMessage → Prop
  | ghostZoneEnter _ host port => IsAddress host port
  | ghostZoneLeave _ host port => IsAddress host port
  | handoff _ host port _ => IsAddress host port ∨ host = "" ∧ port = 0
  | _ => True

end ServerMessage

theorem Endpoint.IsUsable.isAddress {e : Endpoint} (h : e.IsUsable) :
    ServerMessage.IsAddress e.host (Int32.ofNat e.port.toNat) := by
  have hlt : e.port.toNat < 65536 := e.port.toNat_lt
  have hne : e.port.toNat ≠ 0 := fun hzero => h.port_ne (UInt16.toNat_inj.1 hzero)
  refine ⟨h.host_ne, ?_⟩
  rw [Int32.toInt_ofNat_of_lt (by omega)]
  omega

namespace Session

variable {scene : Scene} {s s' : Session} {t : Tile}

/-- Every neighbour that the player was told of was told with an endpoint that can be used. -/
def ToldUsable (s : Session) : Prop := ∀ region e, s.ghosts.get? region = some e → e.IsUsable

theorem tellsUsable_handoffMessage {book : AddressBook} (hb : book.HasUsableFallbacks)
    (teleport : Teleport) : (handoffMessage book teleport).TellsUsable := by
  unfold handoffMessage
  split
  next e he => exact .inl (AddressBook.isUsable_of_resolve hb he).isAddress
  next => exact .inr ⟨rfl, rfl⟩

theorem toldUsable_approached (hb : scene.book.HasUsableFallbacks) (hs : s.ToldUsable) (t : Tile) :
    (s.approached scene t).ToldUsable := by
  intro region e h
  obtain ⟨c, -, -, he⟩ := get?_ghosts_approached_iff.1 h
  rcases Option.or_eq_some_iff.1 he with hold | ⟨-, hnew⟩
  · exact hs region e hold
  · exact AddressBook.isUsable_of_resolve hb hnew

theorem tellsUsable_of_mem_hints (hb : scene.book.HasUsableFallbacks) (hs : s.ToldUsable)
    {n : ServerMessage} (h : n ∈ s.hints scene t) : n.TellsUsable := by
  rw [hints_eq] at h
  rcases List.mem_append.1 h with h | h
  · obtain ⟨⟨region, e⟩, he, rfl⟩ := List.mem_map.1 h
    exact (toldUsable_approached hb hs t region e (mem_entered_iff.1 he).2).isAddress
  · obtain ⟨⟨region, e⟩, he, rfl⟩ := List.mem_map.1 h
    exact (hs region e (mem_left_iff.1 he).1).isAddress

theorem Handling.toldUsable {m : ClientMessage} {as : List Action} (h : Handling scene s m s' as)
    (hb : scene.book.HasUsableFallbacks) (hs : s.ToldUsable) : s'.ToldUsable := by
  cases h with
  | granted x y s' hg =>
    obtain ⟨b, rfl, -, -⟩ := exists_of_granted? hg
    exact toldUsable_approached hb hs ⟨x, y⟩
  | refused x y => exact toldUsable_approached hb hs ⟨x, y⟩
  | _ => exact hs

theorem Handling.tellsUsable {m : ClientMessage} {as : List Action} {n : ServerMessage}
    (h : Handling scene s m s' as) (hb : scene.book.HasUsableFallbacks) (hs : s.ToldUsable)
    (hn : .send n ∈ as) : n.TellsUsable := by
  cases h with
  | configured width username =>
    split at hn <;>
      simp only [List.nil_append, List.cons_append, List.mem_cons, List.not_mem_nil, or_false,
        reduceCtorEq, false_or, Action.send.injEq] at hn <;>
      rcases hn with rfl | rfl | rfl <;> trivial
  | provisional => cases hn
  | sameMoving => cases hn
  | otherMoving moving h => simp at hn
  | handedOff x y teleport h =>
    have hn' : n = handoffMessage scene.book teleport := by simpa using hn
    rw [hn']
    exact tellsUsable_handoffMessage hb teleport
  | granted x y s' h =>
    have hn' : n ∈ s.hints scene ⟨x, y⟩ ∨ n = .positionUpdate s'.pos := by simpa using hn
    rcases hn' with hn' | rfl
    · exact tellsUsable_of_mem_hints hb hs hn'
    · trivial
  | refused x y ht hg =>
    have hn' : n ∈ s.hints scene ⟨x, y⟩ ∨ n = .positionUpdate s.pos := by simpa using hn
    rcases hn' with hn' | rfl
    · exact tellsUsable_of_mem_hints hb hs hn'
    · trivial

end Session

namespace World

open ServerMessage

/-- A world in which no address can be told that cannot be used: those of the book and those that
were told before are usable. -/
structure KnowsUsable (w : World) : Prop where
  book : w.book.HasUsableFallbacks
  sessions : ∀ id s, w.sessions.get? id = some s → s.ToldUsable

theorem KnowsUsable.step {w : World} (h : w.KnowsUsable) (e : Event) : (w.step e).KnowsUsable where
  book := by
    -- A report changes the entries of the book only.
    have hfallbacks : (w.step e).book.fallbacks = w.book.fallbacks := by
      rw [(surroundings_step w e).2.2.1]
      cases e <;> rfl
    intro k e' he'
    exact h.book k e' (hfallbacks ▸ he')
  sessions := by
    intro id s' hs'
    rcases sessions_step hs' with ⟨-, -, rfl⟩ | ⟨m, s, -, hs, rfl⟩ | ⟨-, hs⟩
    · intro region e he
      cases he
    · exact (s.handling w.scene m).toldUsable h.book (h.sessions id s hs)
    · exact h.sessions id s' hs

theorem knowsUsable_run (shard : Shard) {book : AddressBook} (hb : book.HasUsableFallbacks)
    (grace now : Nat) (es : List Event) : ((fresh shard book grace now).run es).KnowsUsable := by
  refine run_induction (motive := fun _ w => w.KnowsUsable) ⟨hb, fun id s hs => ?_⟩
    (fun _ e h => h.step e) es
  cases hs

theorem tellsUsable_of_mem_queuedBy {w : World} (hw : w.Sound) (h : w.KnowsUsable) {e : Event}
    {id : ConnectionId} {m : ServerMessage} (hm : m ∈ w.queuedBy e id) : m.TellsUsable := by
  rcases mem_queuedBy hw hm with ⟨c, s, -, hs, hsend⟩ | ⟨shown, u, rfl, -⟩
  · exact (s.handling w.scene c).tellsUsable h.book (h.sessions id s hs) hsend
  · trivial

theorem tellsUsable_of_mem_transcript (shard : Shard) {book : AddressBook}
    (hb : book.HasUsableFallbacks) (grace now : Nat) (es : List Event) (id : ConnectionId) :
    ∀ m ∈ (fresh shard book grace now).transcript id es, m.TellsUsable := by
  induction es using List.reverseRecOn with
  | nil =>
    intro m hm
    cases hm
  | append_singleton es e ih =>
    intro m hm
    rw [transcript_concat] at hm
    rcases List.mem_append.1 hm with hm | hm
    · exact ih m hm
    · exact tellsUsable_of_mem_queuedBy (sound_run shard book grace now es)
        (knowsUsable_run shard hb grace now es) hm

/-- Whatever the realm, the settings and the directory say of addresses, a player is told only of
neighbours with a host and a port, and is handed over with both or, openly, with neither. -/
theorem addresses_of_run (shard : Shard) (settings : Settings) (own : Region) (realm : Realm)
    (grace now : Nat) (es : List Event) (id : ConnectionId) :
    let sent := (fresh shard (settings.addressBook own realm) grace now).transcript id es
    (∀ region host port, .ghostZoneEnter region host port ∈ sent →
      host ≠ "" ∧ 1 ≤ port.toInt ∧ port.toInt ≤ 65535) ∧
    (∀ region host port, .ghostZoneLeave region host port ∈ sent →
      host ≠ "" ∧ 1 ≤ port.toInt ∧ port.toInt ≤ 65535) ∧
    ∀ region host port target, .handoff region host port target ∈ sent →
      host ≠ "" ∧ 1 ≤ port.toInt ∧ port.toInt ≤ 65535 ∨ host = "" ∧ port = 0 := by
  intro sent
  have hsent : ∀ m ∈ sent, m.TellsUsable :=
    tellsUsable_of_mem_transcript shard (settings.hasUsableFallbacks_addressBook own realm) grace
      now es id
  exact ⟨fun _ _ _ h => hsent _ h, fun _ _ _ h => hsent _ h, fun _ _ _ _ h => hsent _ h⟩

/-- A neighbour whose address is a setting is told and taken back with it, though the directory
reports port 0 in between.  A handoff comes first without an address, and then with the reported
one. -/
theorem addresses_of_run_crossing :
    let settings : Settings := ⟨"crossing", none, none, none, none,
      [(.east, "ws://u@[fe80::1]:09300/x")], defaultMapFolder, "realm.json", defaultDirectoryUrl,
      false, .cluster, .v4 0 0 0 0 defaultPort⟩
    let own : Region := ⟨"crossing", ⟨0, 9, 0, 9⟩, none, { east := some "east" }⟩
    let realm : Realm := ⟨[own, ⟨"east", ⟨10, 19, 0, 9⟩, none, {}⟩]⟩
    let es : List Event := [.connect, .message 0 (.moveRequest 8 5),
      .report [⟨"east", "10.0.0.7:0", "", true⟩] 0, .message 0 (.moveRequest 5 5), .wait 1500,
      .message 0 (.moveRequest 6 5), .report [⟨"cave", "tcp://cave.local:7/x", "", true⟩] 1500,
      .message 0 (.moveRequest 6 5)]
    let sent := (fresh crossing (settings.addressBook own realm) 250 0).transcript 0 es
    .ghostZoneEnter "east" "fe80::1" 9300 ∈ sent ∧ .ghostZoneLeave "east" "fe80::1" 9300 ∈ sent ∧
      .handoff "cave" "" 0 ⟨101, 102⟩ ∈ sent ∧ .handoff "cave" "cave.local" 7 ⟨101, 102⟩ ∈ sent ∧
      ("fe80::1" ≠ "" ∧ 1 ≤ (9300 : Int32).toInt ∧ (9300 : Int32).toInt ≤ 65535) ∧
      ("cave.local" ≠ "" ∧ 1 ≤ (7 : Int32).toInt ∧ (7 : Int32).toInt ≤ 65535 ∨
        "cave.local" = "" ∧ (7 : Int32) = 0) := by
  intro settings own realm es sent
  have henter : .ghostZoneEnter "east" "fe80::1" 9300 ∈ sent := by decide +kernel
  have hleave : .ghostZoneLeave "east" "fe80::1" 9300 ∈ sent := by decide +kernel
  have hopen : .handoff "cave" "" 0 ⟨101, 102⟩ ∈ sent := by decide +kernel
  have hknown : .handoff "cave" "cave.local" 7 ⟨101, 102⟩ ∈ sent := by decide +kernel
  obtain ⟨henters, -, hhandoffs⟩ := addresses_of_run crossing settings own realm 250 0 es 0
  exact ⟨henter, hleave, hopen, hknown, henters _ _ _ henter, hhandoffs _ _ _ _ hknown⟩

end World

end TileRealm
