import TileRealm.Proofs.Address.Book
import TileRealm.Proofs.Address.Endpoint
import TileRealm.Realm.Document

/-!
# The regions of the realm in a fresh address book

A book that knows nothing but the ports of the realm resolves a name to the port of the last region
with its key (`AddressBook.resolve_seeded`), while the realm takes the first region with its name, of
which blanks at the ends are a part.  The two agree unless regions share a key
(`AddressBook.resolve_seeded_of_get?`), and may disagree if they do
(`AddressBook.resolve_seeded_of_shared_key`).
-/

namespace TileRealm

/-- The endpoint on the same host that the region's port gives, if it is a port. -/
def Region.hostEndpoint? (r : Region) : Option Endpoint :=
  r.tcpPort.bind fun port =>
    if 1 ≤ port.toInt ∧ port.toInt ≤ 65535 then
      some ⟨"127.0.0.1", UInt16.ofNat port.toInt.toNat⟩
    else none

namespace AddressBook

/-! ### Addresses on the host -/

theorem isPlain_hostName : Endpoint.IsPlain "127.0.0.1".toList where
  ne_nil := by decide
  trimmed := by decide
  slash_not_mem := by decide
  at_not_mem := by decide
  bracket_not_mem := by decide

theorem toList_address (n : Nat) :
    ("127.0.0.1:" ++ Numeral.ofNat n).toList =
      "127.0.0.1".toList ++ ':' :: Nat.toDigits 10 n := by
  have hdigits : (Numeral.ofNat n).toList = Nat.toDigits 10 n := String.toList_ofList
  rw [String.toList_append, hdigits]
  rfl

/-- The address that is written down for a region is read back if the port is one. -/
theorem parse_hostAddress (r : Region) :
    (r.tcpPort.bind hostAddress).bind Endpoint.parse = r.hostEndpoint? := by
  unfold Region.hostEndpoint?
  cases r.tcpPort with
  | none => rfl
  | some port =>
    rw [Option.bind_some, Option.bind_some]
    unfold hostAddress
    by_cases hpos : 0 < port
    · rw [if_pos hpos, Option.bind_some]
      rw [Int32.lt_iff_toInt_lt, Int32.toInt_zero] at hpos
      obtain ⟨n, hn⟩ := Int.eq_ofNat_of_zero_le (Int.le_of_lt hpos)
      rw [hn] at hpos ⊢
      have hofInt : Numeral.ofInt n = Numeral.ofNat n := rfl
      rw [hofInt, Endpoint.parse, toList_address,
        Endpoint.parseChars_append_toDigits isPlain_hostName, String.ofList_toList,
        Int.toNat_natCast]
      have hport : 1 ≤ (n : Int) ∧ (n : Int) ≤ 65535 ↔ 1 ≤ n ∧ n ≤ 65535 := by omega
      simp only [hport]
    · rw [if_neg hpos, if_neg]
      · rfl
      · rw [Int32.lt_iff_toInt_lt, Int32.toInt_zero] at hpos
        omega

/-! ### Names -/

theorem key_eq_of_isNamed {r : Region} {name : String} (h : r.isNamed name = true) :
    key r.name = key name := by
  have hfold : Text.fold r.name = Text.fold name := Text.sameName_iff.1 h
  unfold key
  rw [Text.fold_trim, Text.fold_trim, hfold]

/-- Of the regions with the key of a name, the last one counts. -/
theorem resolve_seeded (p : Preference) (w : Realm) (name : String) :
    (seeded p w).resolve name =
      ((w.regions.filter fun r => key r.name = key name).getLast?).bind Region.hostEndpoint? := by
  have hfallback : (seeded p w).fallbacks.get? (key name) = none := Table.get?_empty _
  unfold resolve
  rw [hfallback, Option.or_none, get?, entries_seeded]
  cases (w.regions.filter fun r => key r.name = key name).getLast? with
  | none => rfl
  | some r =>
    rw [Option.map_some, Option.bind_some, Option.bind_some, ← parse_hostAddress]
    unfold AddressEntry.resolve
    cases (seeded p w).preference with
    | host => simp
    | cluster => simp

/-- The name of a region of the realm resolves to the port of the last region with the same key.  So
it resolves to the port of the region itself if no other one has the key, or if all those that have
it give the same endpoint. -/
theorem resolve_seeded_of_get? (p : Preference) (w : Realm) {name : String} {r : Region}
    (h : w.get? name = some r) :
    (∃ last, (w.regions.filter fun s => key s.name = key name).getLast? = some last ∧
        (seeded p w).resolve name = last.hostEndpoint?) ∧
      ((∀ s ∈ w.regions, key s.name = key name → s.hostEndpoint? = r.hostEndpoint?) →
        (seeded p w).resolve name = r.hostEndpoint?) := by
  have hfound : (w.regions.find? fun s => s.isNamed name) = some r := h
  have hr : r ∈ w.regions.filter fun s => key s.name = key name := by
    rw [List.mem_filter, decide_eq_true_eq]
    have hnamed := List.find?_some (p := fun s : Region => s.isNamed name) hfound
    exact ⟨List.mem_of_find?_eq_some hfound, key_eq_of_isNamed hnamed⟩
  obtain ⟨last, hlast⟩ : ∃ last,
      (w.regions.filter fun s => key s.name = key name).getLast? = some last :=
    Option.isSome_iff_exists.1 (List.getLast?_isSome.2 (List.ne_nil_of_mem hr))
  have hresolve : (seeded p w).resolve name = last.hostEndpoint? := by
    rw [resolve_seeded, hlast, Option.bind_some]
  refine ⟨⟨last, hlast, hresolve⟩, fun hsame => ?_⟩
  obtain ⟨hmem, hkey⟩ := List.mem_filter.1 (List.mem_of_getLast? hlast)
  rw [hresolve]
  exact hsame last hmem (of_decide_eq_true hkey)

/-- A name in another case resolves to the port of its region, and to nothing if that is no port. -/
theorem resolve_seeded_of_get?_pair :
    let w : Realm := ⟨[{ name := "Alpha ", bounds := ⟨0, 9, 0, 9⟩, tcpPort := some 9101 },
      { name := "beta", bounds := ⟨10, 19, 0, 9⟩, tcpPort := some 65536 }]⟩
    (seeded .host w).resolve "ALPHA " = some ⟨"127.0.0.1", 9101⟩ ∧
      (seeded .host w).resolve "Beta" = none := by
  intro w
  have halpha : w.get? "ALPHA " =
      some { name := "Alpha ", bounds := ⟨0, 9, 0, 9⟩, tcpPort := some 9101 } := by
    decide +kernel
  have hbeta : w.get? "Beta" =
      some { name := "beta", bounds := ⟨10, 19, 0, 9⟩, tcpPort := some 65536 } := by
    decide +kernel
  exact ⟨(resolve_seeded_of_get? .host w halpha).2 (by decide +kernel),
    (resolve_seeded_of_get? .host w hbeta).2 (by decide +kernel)⟩

/-- In this document the regions `a` and ` a`, which are two to the realm, share a key. -/
def sharedKeyDocument : String :=
  "\x7b\"regions\":[" ++
    "\x7b\"name\":\"a\",\"minX\":0,\"maxX\":9,\"minY\":0,\"maxY\":9,\"tcpPort\":9101\x7d," ++
    "\x7b\"name\":\" a\",\"minX\":10,\"maxX\":19,\"minY\":0,\"maxY\":9,\"tcpPort\":9102\x7d" ++
    "]\x7d"

theorem resolve_seeded_of_shared_key :
    ¬ ∀ (text : String) (w : Realm) (p : Preference) (name : String) (r : Region),
      Realm.parse text = .ok w → w.get? name = some r →
        (seeded p w).resolve name = r.hostEndpoint? := by
  intro hagree
  have hparse : Realm.parse sharedKeyDocument = .ok ⟨[
      { name := "a", bounds := ⟨0, 9, 0, 9⟩, tcpPort := some 9101 },
      { name := " a", bounds := ⟨10, 19, 0, 9⟩, tcpPort := some 9102 }]⟩ := by
    decide +kernel
  have hresolve := hagree _ _ .cluster "a" _ hparse rfl
  revert hresolve
  decide +kernel

end AddressBook

end TileRealm
