import Mathlib.Data.List.Induction
import TileRealm.Address.Book
import TileRealm.Proofs.Table

/-!
# What an address book learns from reports

A report is about an entry by its key, or by its key behind the directory's prefix
(`AddressBook.isAbout`).  Of each address, an entry that is there holds what was last reported of it
and is not blank (`AddressBook.get?_recordAll`).

So the entry of a region of the realm is all that is known of the region, by whichever of the two
names it was reported (`AddressBook.last_reported_of_seeded`).  A region that could be resolved can
be resolved after a batch of reports unless the last addresses that it reports cannot be read
(`AddressBook.resolve_apply_isSome_iff`), which is a way to lose an address that was good
(`AddressBook.resolve_lost_by_report`).
-/

namespace TileRealm

/-- A report and the time at which it was taken in. -/
abbrev TimedReport := AddressReport × Int

namespace AddressEntry

/-! ### Entries -/

/-- The entry after reports, one after the other. -/
def updateAll (e : AddressEntry) (ds : List TimedReport) : AddressEntry :=
  ds.foldl (fun e d => e.update d.1 d.2) e

/-- The last address that reports give and that is not blank, or else the one from before. -/
def lastKnown (address : AddressReport → String) (rs : List AddressReport)
    (before : Option String) : Option String :=
  (rs.filterMap fun r => Text.nonBlank? (address r)).getLast?.or before

theorem lastKnown_concat (address : AddressReport → String) (rs : List AddressReport)
    (r : AddressReport) (before : Option String) :
    lastKnown address (rs ++ [r]) before =
      (Text.nonBlank? (address r)).or (lastKnown address rs before) := by
  have hlast : ([r].filterMap fun r => Text.nonBlank? (address r)).getLast? =
      Text.nonBlank? (address r) := by
    cases h : Text.nonBlank? (address r) <;> simp [h]
  rw [lastKnown, List.filterMap_append, List.getLast?_append, Option.or_assoc, hlast, lastKnown]

/-- It takes a report of an address that cannot be read to lose one that can. -/
theorem isSome_bind_lastKnown {address : AddressReport → String} {rs : List AddressReport}
    {before : Option String}
    (hrs : ∀ r ∈ rs, ∀ a, Text.nonBlank? (address r) = some a → (Endpoint.parse a).isSome = true)
    (hbefore : (before.bind Endpoint.parse).isSome = true) :
    ((lastKnown address rs before).bind Endpoint.parse).isSome = true := by
  unfold lastKnown
  cases hlast : (rs.filterMap fun r => Text.nonBlank? (address r)).getLast? with
  | none => rwa [Option.none_or]
  | some a =>
    obtain ⟨r, hr, ha⟩ := List.mem_filterMap.1 (List.mem_of_getLast? hlast)
    rw [Option.some_or, Option.bind_some]
    exact hrs r hr a ha

/-- Which address is preferred does not matter for whether there is one. -/
theorem isSome_resolve_iff (e : AddressEntry) (p : Preference) :
    (e.resolve p).isSome = true ↔
      (e.clusterAddress.bind Endpoint.parse).isSome = true ∨
        (e.localAddress.bind Endpoint.parse).isSome = true := by
  unfold resolve
  cases p with
  | host => simp [Option.isSome_or, or_comm]
  | cluster => simp [Option.isSome_or]

/-- After reports, an entry holds what was last reported. -/
theorem updateAll_eq (e : AddressEntry) (ds : List TimedReport) :
    e.updateAll ds =
      { clusterAddress := lastKnown (·.clusterAddress) (ds.map Prod.fst) e.clusterAddress
        localAddress := lastKnown (·.localAddress) (ds.map Prod.fst) e.localAddress
        online := (ds.getLast?.map fun d => d.1.online).getD e.online
        lastChecked := (ds.getLast?.map Prod.snd).or e.lastChecked } := by
  induction ds using List.reverseRecOn with
  | nil => rfl
  | append_singleton ds d ih =>
    have hstep : e.updateAll (ds ++ [d]) = (e.updateAll ds).update d.1 d.2 := by
      simp [updateAll]
    rw [hstep, ih, List.map_append, List.map_singleton, lastKnown_concat, lastKnown_concat,
      List.getLast?_concat]
    rfl

end AddressEntry

namespace AddressBook

/-! ### The key of a report -/

theorem withoutPrefix?_eq_some_iff {k bare : String} :
    withoutPrefix? k = some bare ↔ k = servicePrefix ++ bare := by
  unfold withoutPrefix?
  constructor
  · intro h
    split at h
    next hpre =>
      obtain ⟨tail, htail⟩ := List.isPrefixOf_iff_prefix.1 hpre
      rw [← htail, List.drop_left, Option.some.injEq] at h
      rw [← String.toList_inj, String.toList_append, ← h, String.toList_ofList, htail]
    next => cases h
  · rintro rfl
    rw [String.toList_append, if_pos (List.isPrefixOf_iff_prefix.2 (List.prefix_append ..)),
      List.drop_left, String.ofList_toList]

/-- Whether a report by this name is about the entry with a key that is known: by the key itself, or
by the key behind the directory's prefix unless that has an entry of its own. -/
def isAbout (entries : Table String AddressEntry) (k : String) (r : AddressReport) : Bool :=
  key r.name = k || (key r.name = servicePrefix ++ k && !entries.contains (servicePrefix ++ k))

section Known

variable {entries : Table String AddressEntry} {k : String}

theorem reportedKey_eq_iff (hk : entries.contains k = true) (r : AddressReport) :
    reportedKey entries r.name = k ↔ isAbout entries k r = true := by
  simp only [isAbout, Bool.or_eq_true, Bool.and_eq_true, decide_eq_true_eq, Bool.not_eq_true']
  unfold reportedKey
  by_cases hown : entries.contains (key r.name) = true
  · -- The name has an entry of its own.
    rw [if_pos hown]
    constructor
    · exact .inl
    · rintro (h | ⟨h, hno⟩)
      · exact h
      · rw [← h, hown] at hno
        cases hno
  · have hne : key r.name ≠ k := fun h => hown (h ▸ hk)
    rw [if_neg hown]
    cases hbare : withoutPrefix? (key r.name) with
    | none =>
      have hno : key r.name ≠ servicePrefix ++ k := fun h => by
        rw [withoutPrefix?_eq_some_iff.2 h] at hbare
        cases hbare
      simp [hne, hno]
    | some bare =>
      have hname := withoutPrefix?_eq_some_iff.1 hbare
      have hiff : key r.name = servicePrefix ++ k ↔ bare = k := by
        rw [hname, String.append_right_inj]
      have hpre : bare = k → entries.contains (servicePrefix ++ k) = false := by
        rintro rfl
        rw [← hname]
        exact Bool.not_eq_true _ ▸ hown
      dsimp only
      split
      next => simpa [hne, hiff] using hpre
      next hno =>
        have hbk : bare ≠ k := fun h => hno (h ▸ hk)
        simp [hne, hiff, hbk]

/-- Nothing is recorded under a key that is known without the prefix, and not with it. -/
theorem reportedKey_ne (hk : entries.contains k = true)
    (hpre : entries.contains (servicePrefix ++ k) = false) (name : String) :
    reportedKey entries name ≠ servicePrefix ++ k := by
  unfold reportedKey
  intro h
  dsimp only at h
  split at h
  next hown =>
    rw [h, hpre] at hown
    cases hown
  next =>
    split at h
    next bare hbare =>
      split at h
      next hin =>
        rw [h, hpre] at hin
        cases hin
      next hno =>
        have hname := withoutPrefix?_eq_some_iff.1 hbare
        rw [h, String.append_right_inj] at hname
        exact hno (hname ▸ hk)
    next hbare =>
      rw [withoutPrefix?_eq_some_iff.2 h] at hbare
      cases hbare

/-! ### Reports one after the other -/

theorem get?_record (now : Int) (entries : Table String AddressEntry) (r : AddressReport)
    (k : String) : (record now entries r).get? k =
      if k = reportedKey entries r.name then some (((entries.get? k).getD {}).update r now)
      else entries.get? k := by
  unfold record
  rw [Table.get?_insert]
  by_cases h : k = reportedKey entries r.name
  · simp [h]
  · simp [h]

theorem get?_record_of_get? {e : AddressEntry} (he : entries.get? k = some e) (now : Int)
    (r : AddressReport) : (record now entries r).get? k =
      some (if isAbout entries k r then e.update r now else e) := by
  have hk : entries.contains k = true := Table.contains_iff_exists.2 ⟨e, he⟩
  rw [get?_record, he]
  by_cases h : isAbout entries k r = true
  · rw [if_pos ((reportedKey_eq_iff hk r).2 h).symm, if_pos h, Option.getD_some]
  · rw [if_neg fun heq => h ((reportedKey_eq_iff hk r).1 heq.symm), if_neg h]

/-- Whether a key that is known has an entry with the prefix, too, stays as it is. -/
theorem contains_record (hk : entries.contains k = true) (now : Int) (r : AddressReport) :
    (record now entries r).contains (servicePrefix ++ k) =
      entries.contains (servicePrefix ++ k) := by
  cases hpre : entries.contains (servicePrefix ++ k) with
  | true =>
    obtain ⟨e, he⟩ := Table.contains_iff_exists.1 hpre
    rw [Table.contains_iff_exists, get?_record_of_get? he]
    exact ⟨_, rfl⟩
  | false =>
    have hne := reportedKey_ne hk hpre r.name
    rw [Table.contains, get?_record, if_neg hne.symm]
    exact hpre

/-- The entries after reports, one after the other. -/
def recordAll (entries : Table String AddressEntry) (ds : List TimedReport) :
    Table String AddressEntry :=
  ds.foldl (fun t d => record d.2 t d.1) entries

/-- An entry that is there is kept up to date by the reports about it, and by no others. -/
theorem get?_recordAll {e : AddressEntry} (he : entries.get? k = some e) (ds : List TimedReport) :
    (recordAll entries ds).get? k =
        some (e.updateAll (ds.filter fun d => isAbout entries k d.1)) ∧
      (recordAll entries ds).contains (servicePrefix ++ k) =
        entries.contains (servicePrefix ++ k) := by
  induction ds generalizing entries e with
  | nil => exact ⟨he, rfl⟩
  | cons d ds ih =>
    have hk : entries.contains k = true := Table.contains_iff_exists.2 ⟨e, he⟩
    have hpre := contains_record hk d.2 d.1
    obtain ⟨hget, hcontains⟩ := ih (get?_record_of_get? he d.2 d.1)
    -- Which reports are about the entry does not change on the way.
    have hsame : isAbout (record d.2 entries d.1) k = isAbout entries k := by
      unfold isAbout
      rw [hpre]
    refine ⟨?_, hcontains.trans hpre⟩
    rw [hsame] at hget
    refine hget.trans (congrArg some ?_)
    by_cases h : isAbout entries k d.1 = true
    · rw [if_pos h, List.filter_cons, if_pos h, AddressEntry.updateAll, AddressEntry.updateAll,
        List.foldl_cons]
    · rw [if_neg h, List.filter_cons, if_neg h]

end Known

/-! ### Batches of reports -/

theorem entries_apply (b : AddressBook) (reports : List AddressReport) (now : Int) :
    (b.apply reports now).entries = recordAll b.entries (reports.map (·, now)) := by
  unfold apply recordAll
  rw [List.foldl_map]

/-- Reports that are taken in together, and when. -/
abbrev Batch := List AddressReport × Int

/-- The reports of batches, each with the time of its batch. -/
def timed (batches : List Batch) : List TimedReport := batches.flatMap fun x => x.1.map (·, x.2)

/-- The book after batches, one after the other. -/
def applyAll (b : AddressBook) (batches : List Batch) : AddressBook :=
  batches.foldl (fun b x => b.apply x.1 x.2) b

theorem entries_applyAll (b : AddressBook) (batches : List Batch) :
    (b.applyAll batches).entries = recordAll b.entries (timed batches) := by
  induction batches generalizing b with
  | nil => rfl
  | cons x batches ih =>
    have hstep : b.applyAll (x :: batches) = (b.apply x.1 x.2).applyAll batches := rfl
    rw [hstep, ih, entries_apply]
    unfold timed recordAll
    rw [List.flatMap_cons, List.foldl_append]

/-! ### Resolving after a batch -/

theorem isSome_resolve_iff (b : AddressBook) (region : String) :
    (b.resolve region).isSome = true ↔
      b.fallbacks.contains (key region) = true ∨
        ∃ e, b.get? region = some e ∧ (e.resolve b.preference).isSome = true := by
  unfold resolve Table.contains
  rw [Option.isSome_or, Bool.or_eq_true, or_comm]
  cases b.get? region with
  | none => simp
  | some e => simp

/-- Those of the reports that are about a region. -/
def reportsAbout (b : AddressBook) (region : String) (reports : List AddressReport) :
    List AddressReport :=
  reports.filter (isAbout b.entries (key region))

theorem get?_apply {b : AddressBook} {region : String} {e : AddressEntry}
    (he : b.get? region = some e) (reports : List AddressReport) (now : Int) :
    (b.apply reports now).get? region =
      some (e.updateAll ((b.reportsAbout region reports).map (·, now))) := by
  obtain ⟨hget, -⟩ := get?_recordAll he (reports.map (·, now))
  rw [get?, entries_apply, hget]
  simp only [reportsAbout, List.filter_map, Function.comp_def]

theorem isSome_resolve_apply_iff {b : AddressBook} {region : String} {e : AddressEntry}
    (he : b.get? region = some e) (reports : List AddressReport) (now : Int) :
    ((b.apply reports now).resolve region).isSome = true ↔
      b.fallbacks.contains (key region) = true ∨
        ((AddressEntry.lastKnown (·.clusterAddress) (b.reportsAbout region reports)
            e.clusterAddress).bind Endpoint.parse).isSome = true ∨
          ((AddressEntry.lastKnown (·.localAddress) (b.reportsAbout region reports)
            e.localAddress).bind Endpoint.parse).isSome = true := by
  have hfst : ((b.reportsAbout region reports).map (·, now)).map Prod.fst =
      b.reportsAbout region reports := by
    simp [Function.comp_def]
  rw [isSome_resolve_iff, get?_apply he]
  simp only [Option.some.injEq, exists_eq_left', AddressEntry.isSome_resolve_iff,
    AddressEntry.updateAll_eq]
  rw [hfst]
  exact Iff.rfl

/-- Either address of a region that could be resolved may be overwritten by a batch.  The region can
still be resolved if it has a fallback, or else if one of the two addresses that it then has can be
read; it suffices that all addresses reported of it that are not blank can be read. -/
theorem resolve_apply_isSome_iff (b : AddressBook) (reports : List AddressReport) (now : Int)
    (region : String) (h : (b.resolve region).isSome = true) :
    let about := b.reportsAbout region reports
    (((b.apply reports now).resolve region).isSome = true ↔
        b.fallbacks.contains (key region) = true ∨ ∃ e, b.get? region = some e ∧
          (((AddressEntry.lastKnown (·.clusterAddress) about e.clusterAddress).bind
              Endpoint.parse).isSome = true ∨
            ((AddressEntry.lastKnown (·.localAddress) about e.localAddress).bind
              Endpoint.parse).isSome = true)) ∧
      ((∀ r ∈ about, ∀ a, Text.nonBlank? r.clusterAddress = some a ∨
          Text.nonBlank? r.localAddress = some a → (Endpoint.parse a).isSome = true) →
        ((b.apply reports now).resolve region).isSome = true) := by
  intro about
  rcases (isSome_resolve_iff b region).1 h with hfallback | ⟨e, he, hresolve⟩
  · have hafter : ((b.apply reports now).resolve region).isSome = true :=
      (isSome_resolve_iff _ region).2 (.inl hfallback)
    exact ⟨iff_of_true hafter (.inl hfallback), fun _ => hafter⟩
  · rw [isSome_resolve_apply_iff he]
    refine ⟨?_, fun hread => .inr ?_⟩
    · simp only [he, Option.some.injEq, exists_eq_left']
      exact Iff.rfl
    · rcases (e.isSome_resolve_iff _).1 hresolve with hcluster | hhost
      · left
        apply AddressEntry.isSome_bind_lastKnown _ hcluster
        intro r hr a ha
        exact hread r hr a (.inl ha)
      · right
        apply AddressEntry.isSome_bind_lastKnown _ hhost
        intro r hr a ha
        exact hread r hr a (.inr ha)

/-- The address in the cluster that is reported under the other name means nothing, but the one on
the host is left. -/
theorem resolve_apply_isSome_iff_host_left :
    let b := seeded .cluster ⟨[{ name := "a", bounds := ⟨0, 9, 0, 9⟩, tcpPort := some 9101 }]⟩
    let reports : List AddressReport := [⟨" World-A", "unknown", " ", true⟩]
    (b.resolve "a").isSome = true ∧ ((b.apply reports 7).resolve "a").isSome = true := by
  intro b reports
  have hbefore : (b.resolve "a").isSome = true := by decide +kernel
  have hentry : b.get? "a" = some { localAddress := some "127.0.0.1:9101", online := true } := by
    decide +kernel
  have hafter := (resolve_apply_isSome_iff b reports 7 "a" hbefore).1.2
    (.inr ⟨_, hentry, .inr (by decide +kernel)⟩)
  exact ⟨hbefore, hafter⟩

/-- A report whose addresses mean nothing overwrites the address that the realm gives. -/
theorem resolve_lost_by_report :
    ¬ ∀ (b : AddressBook) (reports : List AddressReport) (now : Int) (region : String),
      (b.resolve region).isSome = true → ((b.apply reports now).resolve region).isSome = true := by
  intro hkept
  have := hkept (seeded .cluster ⟨[{ name := "a", bounds := ⟨0, 9, 0, 9⟩, tcpPort := some 9101 }]⟩)
    [⟨"a", "", "unknown", true⟩] 0 "a" (by decide +kernel)
  revert this
  decide +kernel

/-! ### The regions of a realm -/

/-- A book that knows the ports of the realm has one entry for all regions that share a key: that
of the last one. -/
theorem entries_seeded (p : Preference) (w : Realm) (k : String) :
    (seeded p w).entries.get? k =
      ((w.regions.filter fun r => key r.name = k).getLast?).map fun r =>
        { localAddress := r.tcpPort.bind hostAddress, online := true } := by
  unfold seeded
  simp only [Table.get?_ofList, List.filter_map, List.getLast?_map, Option.map_map,
    Function.comp_def]

theorem contains_seeded_iff {p : Preference} {w : Realm} {k : String} :
    (seeded p w).entries.contains k = true ↔ ∃ r ∈ w.regions, key r.name = k := by
  rw [Table.contains, entries_seeded, Option.isSome_map, List.getLast?_isSome]
  simp

/-- Under one name or the other, the reports about a region of the realm end up in its entry, and
no entry is made for it behind the directory's prefix: the entry holds the last address of each
kind that was reported and is not blank, and whatever the last report said otherwise. -/
theorem last_reported_of_seeded (p : Preference) (w : Realm) (fallbacks : Table String Endpoint)
    {x : Region} (hx : x ∈ w.regions)
    (halias : ∀ r ∈ w.regions, key r.name ≠ servicePrefix ++ key x.name)
    (batches : List Batch) :
    let before : AddressBook := { seeded p w with fallbacks := fallbacks }
    let after := before.applyAll batches
    let about := (timed batches).filter fun d =>
      key d.1.name = key x.name ∨ key d.1.name = servicePrefix ++ key x.name
    after.entries.contains (servicePrefix ++ key x.name) = false ∧
      ∃ e₀ e, before.get? x.name = some e₀ ∧ after.get? x.name = some e ∧
        e.clusterAddress =
          AddressEntry.lastKnown (·.clusterAddress) (about.map Prod.fst) e₀.clusterAddress ∧
        e.localAddress =
          AddressEntry.lastKnown (·.localAddress) (about.map Prod.fst) e₀.localAddress ∧
        e.online = (about.getLast?.map fun d => d.1.online).getD e₀.online ∧
        e.lastChecked = (about.getLast?.map Prod.snd).or e₀.lastChecked := by
  intro before after about
  have hpre : before.entries.contains (servicePrefix ++ key x.name) = false := by
    rw [← Bool.not_eq_true]
    intro h
    obtain ⟨r, hr, hkey⟩ := (contains_seeded_iff (p := p)).1 h
    exact halias r hr hkey
  obtain ⟨e₀, he₀⟩ := Table.contains_iff_exists.1
    ((contains_seeded_iff (p := p)).2 ⟨x, hx, rfl⟩)
  obtain ⟨hget, hcontains⟩ := get?_recordAll he₀ (timed batches)
  have habout : ((timed batches).filter fun d => isAbout before.entries (key x.name) d.1) =
      about := by
    apply List.filter_congr
    intro d _
    unfold isAbout
    simp [hpre]
  rw [show (seeded p w).entries = before.entries from rfl, habout, ← entries_applyAll] at hget
  rw [show (seeded p w).entries = before.entries from rfl, ← entries_applyAll] at hcontains
  refine ⟨hcontains.trans hpre, e₀, _, he₀, hget, ?_⟩
  rw [AddressEntry.updateAll_eq]
  exact ⟨rfl, rfl, rfl, rfl⟩

/-- Of the regions `A` and `world-world-a`, each is reported under both of its names, in any case,
between reports of others. -/
theorem last_reported_of_seeded_nested :
    let w : Realm := ⟨[{ name := "A", bounds := ⟨0, 9, 0, 9⟩, tcpPort := some 9101 },
      { name := "world-world-a", bounds := ⟨10, 19, 0, 9⟩ }]⟩
    let batches : List Batch :=
      [([⟨"WORLD-a", " c:1 ", "", false⟩, ⟨"b", "b:1", "", true⟩], 5),
        ([⟨"World-World-World-A", "w:1", "w:2", true⟩, ⟨" a\t", " ", "l:2", true⟩], 9)]
    let after := (seeded .host w).applyAll batches
    after.entries.contains "world-a" = false ∧
      ∃ e, after.get? "A" = some e ∧ e.clusterAddress = some "c:1" ∧
        e.localAddress = some "l:2" ∧ e.online = true ∧ e.lastChecked = some 9 := by
  intro w batches after
  obtain ⟨hno, e₀, e, he₀, he, hcluster, hlocal, honline, hchecked⟩ :=
    last_reported_of_seeded .host w ∅
      (x := { name := "A", bounds := ⟨0, 9, 0, 9⟩, tcpPort := some 9101 })
      (by decide) (by decide +kernel) batches
  have hseeded : (seeded .host w).get? "A" =
      some { localAddress := some "127.0.0.1:9101", online := true } := by
    decide +kernel
  obtain rfl := Option.some.inj (he₀.symm.trans hseeded)
  exact ⟨hno, e, he, hcluster.trans (by decide +kernel), hlocal.trans (by decide +kernel),
    honline.trans (by decide +kernel), hchecked.trans (by decide +kernel)⟩

end AddressBook

end TileRealm
