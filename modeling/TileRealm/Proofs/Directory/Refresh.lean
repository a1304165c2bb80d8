import Mathlib.Logic.ExistsUnique
import TileRealm.Directory.Client
import TileRealm.Proofs.Address.Book
import TileRealm.Proofs.Json.Record

/-!
# Refreshes

A refresh takes in the reports of an answer as a whole or not at all.  What an attempt gets is said by
`RefreshAttempt.Gets`, without a word on how an answer is handled; whatever comes back, attempts leave a
book as if just the lists that they got had been applied, one after the other
(`DirectoryClient.batches_of_refreshes`).
-/

namespace TileRealm

/-- An attempt to refresh: what came back, if anything did, and the time then. -/
structure RefreshAttempt where
  now : Int
  response : Option HttpResponse

namespace RefreshAttempt

/-- An attempt gets reports if a success comes back and its body is a list of which every entry is a
report. -/
def Gets (a : RefreshAttempt) (reports : List RegionReport) : Prop :=
  ∃ response text items, a.response = some response ∧
    (200 ≤ response.status ∧ response.status < 300) ∧ response.body = Text.utf8 text ∧
    Json.parse text = some (.array items) ∧
    List.Forall₂ (fun v r => RegionReport.ofJson? v = some r) items reports

/-- The addresses of the reports that an attempt got. -/
def batch (a : RefreshAttempt) (reports : List RegionReport) : AddressBook.Batch :=
  (reports.map RegionReport.addresses, a.now)

theorem Gets.unique {a : RefreshAttempt} {rs rs' : List RegionReport} (h : a.Gets rs)
    (h' : a.Gets rs') : rs = rs' := by
  obtain ⟨response, text, items, hresponse, -, hbody, hparse, hread⟩ := h
  obtain ⟨response', text', items', hresponse', -, hbody', hparse', hread'⟩ := h'
  cases hresponse.symm.trans hresponse'
  cases Text.utf8_injective (hbody.symm.trans hbody')
  cases hparse.symm.trans hparse'
  rw [← Json.mapM_eq_some_iff] at hread hread'
  exact Option.some.inj (hread.symm.trans hread')

theorem not_gets_of_no_answer {a : RefreshAttempt} (h : a.response = none)
    (reports : List RegionReport) : ¬ a.Gets reports := by
  rintro ⟨response, text, items, hresponse, -⟩
  cases h.symm.trans hresponse

theorem not_gets_of_no_success {a : RefreshAttempt} {response : HttpResponse}
    (h : a.response = some response) (hs : ¬(200 ≤ response.status ∧ response.status < 300))
    (reports : List RegionReport) : ¬ a.Gets reports := by
  rintro ⟨response', text, items, hresponse, hs', -⟩
  cases h.symm.trans hresponse
  exact hs hs'

/-- One bad entry spoils the list, however many good ones stand around it. -/
theorem not_gets_of_bad_entry {a : RefreshAttempt} {response : HttpResponse} {text : String}
    {before after : List Json} {bad : Json} (hresponse : a.response = some response)
    (hbody : response.body = Text.utf8 text)
    (hparse : Json.parse text = some (.array (before ++ bad :: after)))
    (hbad : RegionReport.ofJson? bad = none) (reports : List RegionReport) :
    ¬ a.Gets reports := by
  rintro ⟨response', text', items, hresponse', -, hbody', hparse', hread⟩
  cases hresponse.symm.trans hresponse'
  cases Text.utf8_injective (hbody.symm.trans hbody')
  cases hparse.symm.trans hparse'
  have hrest := List.forall₂_drop before.length hread
  rw [List.drop_left] at hrest
  generalize reports.drop before.length = rest at hrest
  cases hrest with
  | cons hgood _ =>
    rw [hbad] at hgood
    cases hgood

end RefreshAttempt

namespace DirectoryClient

open RefreshAttempt

variable {c : DirectoryClient} {a : RefreshAttempt} {reports : List RegionReport}

/-! ### One attempt -/

theorem bind_parseList_eq_some_iff {body : Bytes} :
    (Text.ofUtf8? body).bind RegionReport.parseList = some reports ↔
      ∃ text items, body = Text.utf8 text ∧ Json.parse text = some (.array items) ∧
        List.Forall₂ (fun v r => RegionReport.ofJson? v = some r) items reports := by
  simp only [Option.bind_eq_some_iff, Text.ofUtf8?_eq_some_iff, RegionReport.parseList,
    Json.list?_eq_some_iff]
  constructor
  · rintro ⟨text, hbody, v, hparse, items, rfl, hread⟩
    exact ⟨text, items, hbody, hparse, hread⟩
  · rintro ⟨text, items, hbody, hparse, hread⟩
    exact ⟨text, hbody, _, hparse, items, rfl, hread⟩

theorem receiveRegions_eq_ok_iff :
    c.receiveRegions a.response = .ok reports ↔ c.disabled = false ∧ a.Gets reports := by
  unfold receiveRegions receive Gets
  cases hc : c.disabled with
  | true => simp
  | false =>
    cases a.response with
    | none => simp
    | some response =>
      have hstatus : HttpStatus.isSuccess response.status = true ↔
          200 ≤ response.status ∧ response.status < 300 := by
        simp [HttpStatus.isSuccess]
      have hbody : (Text.ofUtf8? response.body).bind RegionReport.parseList = some reports ↔ _ :=
        bind_parseList_eq_some_iff
      simp only [Bool.false_eq_true, if_false, true_and]
      constructor
      · intro h
        split at h
        next hs =>
          split at h
          next rs hrs =>
            cases h
            obtain ⟨text, items, hitems⟩ := hbody.1 hrs
            exact ⟨response, text, items, rfl, hstatus.1 hs, hitems⟩
          next => cases h
        next => cases h
      · rintro ⟨_, text, items, ⟨⟩, hs, hitems⟩
        rw [if_pos (hstatus.2 hs), hbody.2 ⟨text, items, hitems⟩]

/-- An attempt that gets reports has all of them applied. -/
theorem refresh_of_gets (hc : c.disabled = false) (h : a.Gets reports) (b : AddressBook) :
    c.refresh a.now a.response b =
      (b.apply (reports.map RegionReport.addresses) a.now, .ok reports.length) := by
  rw [refresh, receiveRegions_eq_ok_iff.2 ⟨hc, h⟩]

/-- An attempt that gets none leaves the book as it is. -/
theorem exists_refresh_eq_error (h : c.disabled = true ∨ ∀ reports, ¬ a.Gets reports)
    (b : AddressBook) : ∃ e, c.refresh a.now a.response b = (b, .error e) := by
  cases hr : c.receiveRegions a.response with
  | ok reports =>
    obtain ⟨hc, hgets⟩ := receiveRegions_eq_ok_iff.1 hr
    rcases h with h | h
    · rw [hc] at h
      cases h
    · exact absurd hgets (h reports)
  | error e => exact ⟨e, by rw [refresh, hr]⟩

/-! ### Many attempts -/

/-- The book after attempts, one after the other. -/
def refreshAll (c : DirectoryClient) (b : AddressBook) (as : List RefreshAttempt) : AddressBook :=
  as.foldl (fun b a => (c.refresh a.now a.response b).1) b

/-- What attempts bring, in their order: those that get reports all of them, and the others
nothing. -/
inductive Brings (c : DirectoryClient) : List RefreshAttempt → List AddressBook.Batch → Prop
  | nil : Brings c [] []
  | got {a reports as bs} (hc : c.disabled = false) (ha : a.Gets reports) (h : Brings c as bs) :
    Brings c (a :: as) (a.batch reports :: bs)
  | missed {a as bs} (ha : c.disabled = true ∨ ∀ reports, ¬ a.Gets reports) (h : Brings c as bs) :
    Brings c (a :: as) bs

theorem exists_brings (c : DirectoryClient) (as : List RefreshAttempt) : ∃ bs, c.Brings as bs := by
  induction as with
  | nil => exact ⟨[], .nil⟩
  | cons a as ih =>
    obtain ⟨bs, h⟩ := ih
    by_cases hgets : c.disabled = false ∧ ∃ reports, a.Gets reports
    · obtain ⟨hc, reports, ha⟩ := hgets
      exact ⟨_, .got hc ha h⟩
    · refine ⟨bs, .missed ?_ h⟩
      rw [not_and_or, Bool.not_eq_false, not_exists] at hgets
      exact hgets

theorem Brings.unique {as : List RefreshAttempt} {bs bs' : List AddressBook.Batch}
    (h : c.Brings as bs) (h' : c.Brings as bs') : bs' = bs := by
  induction h generalizing bs' with
  | nil => cases h'; rfl
  | got hc ha _ ih =>
    cases h' with
    | got _ ha' h' => rw [ha.unique ha', ih h']
    | missed ha' h' =>
      rcases ha' with ha' | ha'
      · rw [hc] at ha'
        cases ha'
      · exact absurd ha (ha' _)
  | missed ha _ ih =>
    cases h' with
    | got hc ha' h' =>
      rcases ha with ha | ha
      · rw [hc] at ha
        cases ha
      · exact absurd ha' (ha _)
    | missed _ h' => exact ih h'

theorem brings_nil_of_disabled (hc : c.disabled = true) (as : List RefreshAttempt) :
    c.Brings as [] := by
  induction as with
  | nil => exact .nil
  | cons a as ih => exact .missed (.inl hc) ih

/-- Attempts leave the book as if what they bring had been applied. -/
theorem Brings.refreshAll_eq {as : List RefreshAttempt} {bs : List AddressBook.Batch}
    (h : c.Brings as bs) (b : AddressBook) : c.refreshAll b as = b.applyAll bs := by
  induction h generalizing b with
  | nil => rfl
  | got hc ha _ ih =>
    refine Eq.trans ?_ (ih _)
    rw [refreshAll, List.foldl_cons, refresh_of_gets hc ha]
    rfl
  | missed ha _ ih =>
    refine Eq.trans ?_ (ih _)
    obtain ⟨e, he⟩ := exists_refresh_eq_error ha b
    rw [refreshAll, List.foldl_cons, he]
    rfl

/-! ### All or nothing -/

/-- Attempts to refresh leave the book as if exactly the lists of those that got one had been applied, in
order and each at its time, whatever the others came to.  An attempt that gets no list leaves the book
as it is: one without an answer or without a success, one with a body that is no list, and one with a
list of which a single entry is bad.  So do all attempts of a client that is not to ask. -/
theorem batches_of_refreshes (c : DirectoryClient) (b : AddressBook) (as : List RefreshAttempt) :
    (∃! bs, c.Brings as bs) ∧
      (∀ bs, c.Brings as bs → c.refreshAll b as = b.applyAll bs) ∧
      (∀ a : RefreshAttempt, (∀ reports, ¬ a.Gets reports) → ∀ b',
        (c.refresh a.now a.response b').1 = b') ∧
      (∀ (a : RefreshAttempt) response text before bad after, a.response = some response →
        response.body = Text.utf8 text →
        Json.parse text = some (.array (before ++ bad :: after)) →
        RegionReport.ofJson? bad = none → ∀ b', (c.refresh a.now a.response b').1 = b') ∧
      (c.disabled = true → c.refreshAll b as = b) := by
  have hmissed : ∀ {a : RefreshAttempt}, (∀ reports, ¬ a.Gets reports) → ∀ b',
      (c.refresh a.now a.response b').1 = b' := by
    intro a ha b'
    obtain ⟨e, he⟩ := exists_refresh_eq_error (.inr ha) b'
    rw [he]
  obtain ⟨bs, hbs⟩ := exists_brings c as
  refine ⟨⟨bs, hbs, fun _ h => hbs.unique h⟩, fun _ h => h.refreshAll_eq b, fun a => hmissed,
    fun a response text before bad after hresponse hbody hparse hbad =>
      hmissed (not_gets_of_bad_entry hresponse hbody hparse hbad), fun hc => ?_⟩
  rw [(brings_nil_of_disabled hc as).refreshAll_eq]
  rfl

/-- A list of one report. -/
def eastList : String :=
  "[\x7b\"name\":\"world-east\",\"online\":true,\"clusterTcp\":\"east:9102\"\x7d]"

/-- A list whose first entry is a report and whose second is none. -/
def spoiltList : String :=
  "[\x7b\"name\":\"east\",\"clusterTcp\":\"lost:1\"\x7d,\x7b\"name\":7\x7d]"

theorem parse_spoiltList :
    Json.parse spoiltList = some (.array ([.object [(some "name", .string (some "east")),
      (some "clusterTcp", .string (some "lost:1"))]] ++
        .object [(some "name", .number (some 7))] :: [])) := rfl

theorem bind_parseList_eastList :
    (Text.ofUtf8? (Text.utf8 eastList)).bind RegionReport.parseList =
      some [{ name := "world-east", online := true, clusterTcp := "east:9102" }] := by
  rw [Text.ofUtf8?_utf8]
  decide +kernel

/-- Of a spoilt list, no answer, a failure with a good list and a success with the same list only the
last one counts, and it does not for a client that is not to ask. -/
theorem batches_of_refreshes_mixed :
    let c : DirectoryClient := ⟨"http://directory", false⟩
    let b : AddressBook := .seeded .cluster ⟨[⟨"east", ⟨10, 19, 0, 9⟩, some 9102, {}⟩]⟩
    let spoilt : RefreshAttempt := ⟨1, some ⟨200, Text.utf8 spoiltList⟩⟩
    let as : List RefreshAttempt := [spoilt, ⟨2, none⟩, ⟨3, some ⟨503, Text.utf8 eastList⟩⟩,
      ⟨4, some ⟨299, Text.utf8 eastList⟩⟩]
    c.refreshAll b as = b.applyAll [([⟨"world-east", "east:9102", "", true⟩], 4)] ∧
      (c.refresh 1 spoilt.response b).1 = b ∧
      ({ c with disabled := true }).refreshAll b as = b := by
  intro c b spoilt as
  obtain ⟨-, hall, -, hspoilt, -⟩ := batches_of_refreshes c b as
  obtain ⟨-, -, -, -, hdisabled⟩ := batches_of_refreshes { c with disabled := true } b as
  obtain ⟨text, items, hread⟩ := bind_parseList_eq_some_iff.1 bind_parseList_eastList
  have hbrings : c.Brings as [_] :=
    .missed (.inr (not_gets_of_bad_entry rfl rfl parse_spoiltList rfl)) <|
    .missed (.inr (not_gets_of_no_answer rfl)) <|
    .missed (.inr (not_gets_of_no_success rfl (by decide))) <|
    .got rfl ⟨_, text, items, rfl, by decide, hread⟩ .nil
  exact ⟨hall _ hbrings, hspoilt spoilt _ _ _ _ _ rfl rfl parse_spoiltList rfl b, hdisabled rfl⟩

end DirectoryClient

end TileRealm
