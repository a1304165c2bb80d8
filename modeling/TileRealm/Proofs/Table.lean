import Mathlib.Data.Finset.Card
import Mathlib.Data.List.Induction
import Mathlib.Data.List.Nodup
import TileRealm.Table

/-!
# Look-ups in tables

What `Table.insertAll`, `Table.ofList` and repeated `Table.erase` answer, and how a table answers
for the pairs that it lists.
-/

namespace TileRealm

namespace Table

/-! ### Listed pairs -/

section Listed

variable {κ α : Type} [DecidableEq κ]

theorem find_eq_none {k : κ} {l : List (κ × α)} (h : k ∉ l.map Prod.fst) : find k l = none := by
  induction l with
  | nil => rfl
  | cons e l ih =>
    simp only [List.map_cons, List.mem_cons, not_or] at h
    rw [find, if_neg h.1]
    exact ih h.2

end Listed

/-! ### Tables -/

section Lookups

variable {κ α : Type} [Ord κ] [DecidableEq κ]

theorem contains_iff_exists {t : Table κ α} {k : κ} :
    t.contains k = true ↔ ∃ v, t.get? k = some v := Option.isSome_iff_exists

variable [Std.TransOrd κ]

omit [DecidableEq κ] in
theorem nodup_keys (t : Table κ α) : (t.toList.map Prod.fst).Nodup :=
  List.pairwise_map.2 (t.sorted.imp ne_of_lt)

/-- Pairs with different keys are those of a table, in some order, if the table answers by them. -/
theorem perm_toList {t : Table κ α} {es : List (κ × α)} (hes : (es.map Prod.fst).Nodup)
    (h : ∀ k v, t.get? k = some v ↔ (k, v) ∈ es) : t.toList.Perm es :=
  (List.perm_ext_iff_of_nodup (.of_map _ (nodup_keys t)) (.of_map _ hes)).2 fun ⟨k, v⟩ =>
    mem_toList_iff.trans (h k v)

omit [Std.TransOrd κ] [DecidableEq κ] in
/-- The first pair with a property comes before every other one that has it. -/
theorem lt_of_find?_toList {t : Table κ α} {p : κ × α → Bool} {e e' : κ × α}
    (h : t.toList.find? p = some e) (he' : e' ∈ t.toList) (hp : p e' = true) :
    e' = e ∨ compare e.1 e'.1 = .lt := by
  obtain ⟨-, before, after, heq, hbefore⟩ := List.find?_eq_some_iff_append.1 h
  have hsorted : t.toList.Pairwise fun a b => compare a.1 b.1 = .lt := t.sorted
  rw [heq] at he' hsorted
  rcases List.mem_append.1 he' with hfront | hrest
  · have hno := hbefore e' hfront
    rw [hp] at hno
    cases hno
  · rcases List.mem_cons.1 hrest with rfl | hback
    · exact .inl rfl
    · have hlt := (List.pairwise_append.1 hsorted).2.1
      exact .inr (List.rel_of_pairwise_cons hlt hback)

variable [Std.LawfulEqOrd κ]

theorem get?_insert_of_ne {t : Table κ α} {k k' : κ} (h : k' ≠ k) (v : α) :
    (t.insert k v).get? k' = t.get? k' := by
  rw [get?_insert, if_neg h]

/-- Inserting what is there already changes nothing. -/
theorem insert_eq_self {t : Table κ α} {k : κ} {v : α} (h : t.get? k = some v) :
    t.insert k v = t := by
  refine ext_get? fun k' => ?_
  rw [get?_insert]
  split
  next hk => rw [hk, h]
  next => rfl

theorem get?_insertAll_of_not_mem {es : List (κ × α)} {k : κ} (h : k ∉ es.map Prod.fst)
    (t : Table κ α) : (t.insertAll es).get? k = t.get? k := by
  unfold insertAll
  induction es generalizing t with
  | nil => rfl
  | cons e es ih =>
    simp only [List.map_cons, List.mem_cons, not_or] at h
    rw [List.foldl_cons, ih h.2, get?_insert_of_ne h.1]

theorem get?_insertAll_of_mem {es : List (κ × α)} (hes : (es.map Prod.fst).Nodup) {k : κ} {v : α}
    (h : (k, v) ∈ es) (t : Table κ α) : (t.insertAll es).get? k = some v := by
  induction es generalizing t with
  | nil => cases h
  | cons e es ih =>
    rw [List.map_cons, List.nodup_cons] at hes
    rcases List.mem_cons.1 h with rfl | h
    · exact (get?_insertAll_of_not_mem hes.1 _).trans (get?_insert_self t k v)
    · exact ih hes.2 h _

omit [DecidableEq κ] in
theorem ofList_concat (es : List (κ × α)) (e : κ × α) :
    ofList (es ++ [e]) = (ofList es).insert e.1 e.2 := by
  simp [ofList, insertAll]

/-- Of the pairs with one key, the last one counts. -/
theorem get?_ofList (es : List (κ × α)) (k : κ) :
    (ofList es).get? k = ((es.filter fun e => e.1 = k).getLast?).map Prod.snd := by
  induction es using List.reverseRecOn with
  | nil => rfl
  | append_singleton es e ih =>
    rw [ofList_concat, get?_insert, ih, List.filter_append]
    by_cases h : e.1 = k
    · simp [h]
    · simp [h, Ne.symm h]

theorem mem_keys_ofList_iff {es : List (κ × α)} {k : κ} :
    k ∈ (ofList es).keys ↔ k ∈ es.map Prod.fst := by
  rw [← contains_eq_true_iff, contains, get?_ofList, Option.isSome_map, List.getLast?_isSome, ne_eq,
    List.filter_eq_nil_iff]
  simp

/-- There are as many entries as different keys. -/
theorem size_ofList (es : List (κ × α)) :
    (ofList es).size = (es.map Prod.fst).toFinset.card := by
  have hkeys : (ofList es).keys.toFinset = (es.map Prod.fst).toFinset := by
    ext k
    rw [List.mem_toFinset, List.mem_toFinset, mem_keys_ofList_iff]
  have hnodup : (ofList es).keys.Nodup := nodup_keys (ofList es)
  rw [← hkeys, List.toFinset_card_of_nodup hnodup, keys, List.length_map]
  rfl

/-- A table made of pairs with different keys lists exactly these pairs. -/
theorem get?_ofList_eq_some_iff {es : List (κ × α)} (hes : (es.map Prod.fst).Nodup) {k : κ}
    {v : α} : (ofList es).get? k = some v ↔ (k, v) ∈ es := by
  constructor
  · intro h
    by_cases hk : k ∈ es.map Prod.fst
    · obtain ⟨⟨a, w⟩, hm, rfl⟩ := List.mem_map.1 hk
      rw [ofList, get?_insertAll_of_mem hes hm, Option.some.injEq] at h
      rwa [← h]
    · rw [ofList, get?_insertAll_of_not_mem hk] at h
      cases h
  · exact fun h => get?_insertAll_of_mem hes h ∅

omit [DecidableEq κ] in
theorem isEmpty_insert (t : Table κ α) (k : κ) (v : α) : (t.insert k v).isEmpty = false := by
  change (place k v t.entries).isEmpty = false
  cases t.entries with
  | nil => rfl
  | cons e l =>
    simp only [place]
    split <;> rfl

omit [DecidableEq κ] in
theorem isEmpty_ofList (es : List (κ × α)) : (ofList es).isEmpty = es.isEmpty := by
  induction es using List.reverseRecOn with
  | nil => rfl
  | append_singleton es e _ =>
    rw [ofList_concat, isEmpty_insert]
    simp

omit [Std.TransOrd κ] [Std.LawfulEqOrd κ] in
theorem get?_foldl_erase (ks : List κ) (t : Table κ α) (k : κ) :
    (ks.foldl erase t).get? k = if k ∈ ks then none else t.get? k := by
  induction ks generalizing t with
  | nil => rfl
  | cons a ks ih =>
    rw [List.foldl_cons, ih, get?_erase]
    by_cases h : k = a
    · simp [h]
    · simp [h]

end Lookups

end Table

end TileRealm
