import TileRealm.Proofs.Table
import TileRealm.Proofs.Text
import TileRealm.Settings

/-!
# Addresses that can be used

An endpoint that was read from a text has a host and a port (`Endpoint.isUsable_of_parse`).  A book
whose fallbacks have them resolves no region to an endpoint without, whatever was reported
(`AddressBook.isUsable_of_resolve`), and the book with which a process starts is such a book
(`Settings.hasUsableFallbacks_addressBook`).
-/

namespace TileRealm

namespace Endpoint

/-- An endpoint to which a client can connect: there is a host, and the port is not the one that
stands for none. -/
structure IsUsable (e : Endpoint) : Prop where
  host_ne : e.host ≠ ""
  port_ne : e.port ≠ 0

theorem isUsable_of_parseChars {cs : List Char} {e : Endpoint} (h : parseChars cs = some e) :
    e.IsUsable := by
  unfold parseChars at h
  simp only [Option.bind_eq_bind, Option.bind_eq_some_iff] at h
  obtain ⟨⟨host, port⟩, -, n, hn, h⟩ := h
  split at h
  next => cases h
  next hne =>
    cases h
    simp only [Bool.or_eq_true, List.isEmpty_iff, beq_iff_eq, not_or] at hne
    obtain ⟨hhost, hzero⟩ := hne
    constructor
    · intro hempty
      exact hhost (String.ofList_injective hempty)
    · have hle : n ≤ 65535 := by
        cases hread : Numeral.readNat 65535 (Text.trimChars port) with
        | ok m =>
          rw [hread] at hn
          cases hn
          exact Numeral.le_of_readNat hread
        | error =>
          rw [hread] at hn
          cases hn
      intro hport
      have hback : (UInt16.ofNat n).toNat = n := UInt16.toNat_ofNat_of_lt (Nat.lt_succ_of_le hle)
      exact hzero (hback.symm.trans (congrArg UInt16.toNat hport))

theorem isUsable_of_parse {s : String} {e : Endpoint} (h : parse s = some e) : e.IsUsable :=
  isUsable_of_parseChars h

end Endpoint

namespace AddressEntry

theorem isUsable_of_resolve {entry : AddressEntry} {p : Preference} {e : Endpoint}
    (h : entry.resolve p = some e) : e.IsUsable := by
  have hread : ∀ {address : Option String}, address.bind Endpoint.parse = some e → e.IsUsable := by
    intro address ha
    obtain ⟨text, -, htext⟩ := Option.bind_eq_some_iff.1 ha
    exact Endpoint.isUsable_of_parse htext
  unfold resolve at h
  cases p with
  | host =>
    rcases Option.or_eq_some_iff.1 h with h | ⟨-, h⟩
    · exact hread h
    · exact hread h
  | cluster =>
    rcases Option.or_eq_some_iff.1 h with h | ⟨-, h⟩
    · exact hread h
    · exact hread h

end AddressEntry

namespace AddressBook

/-- A book that falls back on usable endpoints only. -/
def HasUsableFallbacks (b : AddressBook) : Prop :=
  ∀ k e, b.fallbacks.get? k = some e → e.IsUsable

/-- What was reported is read before it is told, so only the fallbacks matter. -/
theorem isUsable_of_resolve {b : AddressBook} (hb : b.HasUsableFallbacks) {region : String}
    {e : Endpoint} (h : b.resolve region = some e) : e.IsUsable := by
  unfold resolve at h
  rcases Option.or_eq_some_iff.1 h with h | ⟨-, h⟩
  · obtain ⟨entry, -, hentry⟩ := Option.bind_eq_some_iff.1 h
    exact AddressEntry.isUsable_of_resolve hentry
  · exact hb _ _ h

theorem hasUsableFallbacks_withFallback {b : AddressBook} (hb : b.HasUsableFallbacks)
    (region : String) {e : Endpoint} (he : e.IsUsable) :
    (b.withFallback region e).HasUsableFallbacks := by
  intro k e' h
  change (b.fallbacks.insert (key region) e).get? k = some e' at h
  rw [Table.get?_insert] at h
  split at h
  next =>
    cases h
    exact he
  next => exact hb k e' h

theorem hasUsableFallbacks_foldl {fs : List (String × Endpoint)} (hfs : ∀ f ∈ fs, f.2.IsUsable)
    {b : AddressBook} (hb : b.HasUsableFallbacks) :
    (fs.foldl (fun b f => b.withFallback f.1 f.2) b).HasUsableFallbacks := by
  induction fs generalizing b with
  | nil => exact hb
  | cons f fs ih =>
    obtain ⟨hf, hfs⟩ := List.forall_mem_cons.1 hfs
    exact ih hfs (hasUsableFallbacks_withFallback hb f.1 hf)

end AddressBook

namespace Settings

theorem isUsable_of_mem_neighborFallbacks {s : Settings} {r : Region} {name : String} {e : Endpoint}
    (h : (name, e) ∈ s.neighborFallbacks r) : e.IsUsable := by
  obtain ⟨⟨d, address⟩, -, h⟩ := List.mem_filterMap.1 h
  simp only [Option.bind_eq_bind, Option.bind_eq_some_iff] at h
  obtain ⟨neighbor, -, e', he', h⟩ := h
  cases h
  exact Endpoint.isUsable_of_parse he'

theorem hasUsableFallbacks_addressBook (s : Settings) (r : Region) (w : Realm) :
    (s.addressBook r w).HasUsableFallbacks := by
  refine AddressBook.hasUsableFallbacks_foldl
    (fun f hf => isUsable_of_mem_neighborFallbacks hf) fun k e h => ?_
  -- A book that only knows the ports of the realm has no fallbacks.
  cases h

end Settings

end TileRealm
