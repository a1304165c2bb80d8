/-!
# Ordered tables

A table holds at most one value for each key and lists its keys in increasing order.  Two tables
with the same look-ups are equal (`Table.ext_get?`), so a table is determined by what it answers.
-/

namespace TileRealm

/-- Finite maps, listed in increasing order of their keys. -/
structure Table (κ : Type) (α : Type) [Ord κ] where
  /-- The pairs of the table, smallest key first. -/
  entries : List (κ × α)
  sorted : entries.Pairwise fun a b => compare a.1 b.1 = .lt
deriving DecidableEq

namespace Table

/-- A smaller key is another key. -/
theorem ne_of_lt {κ : Type} [Ord κ] [Std.TransOrd κ] {a b : κ} (h : compare a b = .lt) :
    a ≠ b := by
  rintro rfl
  have := Std.ReflOrd.compare_self (a := a)
  rw [h] at this
  cases this

/-! ### Listed pairs -/

section Listed

variable {κ α : Type}

/-- The value listed under a key. -/
def find [DecidableEq κ] (k : κ) : List (κ × α) → Option α
  | [] => none
  | e :: rest => if k = e.1 then some e.2 else find k rest

/-- Put a pair in its place: in front of the first larger key, or over an equal one. -/
def place [Ord κ] (k : κ) (v : α) : List (κ × α) → List (κ × α)
  | [] => [(k, v)]
  | e :: rest =>
    match compare k e.1 with
    | .lt => (k, v) :: e :: rest
    | .eq => (k, v) :: rest
    | .gt => e :: place k v rest

theorem mem_place [Ord κ] {k : κ} {v : α} {l : List (κ × α)} {e : κ × α} (h : e ∈ place k v l) :
    e = (k, v) ∨ e ∈ l := by
  induction l with
  | nil => simpa [place] using h
  | cons a l ih =>
    simp only [place] at h
    split at h
    · simpa using h
    · rcases List.mem_cons.1 h with h | h
      · exact .inl h
      · exact .inr (List.mem_cons_of_mem _ h)
    · rcases List.mem_cons.1 h with h | h
      · exact .inr (h ▸ List.mem_cons_self)
      · exact (ih h).imp_right (List.mem_cons_of_mem _)

variable [Ord κ] [Std.TransOrd κ] [Std.LawfulEqOrd κ]

theorem sorted_place (k : κ) (v : α) {l : List (κ × α)}
    (h : l.Pairwise fun a b => compare a.1 b.1 = .lt) :
    (place k v l).Pairwise fun a b => compare a.1 b.1 = .lt := by
  induction l with
  | nil => simp [place]
  | cons a l ih =>
    obtain ⟨ha, hl⟩ := List.pairwise_cons.1 h
    simp only [place]
    split
    next hlt =>
      refine List.pairwise_cons.2 ⟨fun b hb => ?_, h⟩
      rcases List.mem_cons.1 hb with rfl | hb
      · exact hlt
      · exact Std.TransCmp.lt_trans hlt (ha b hb)
    next heq =>
      have hka : k = a.1 := Std.LawfulEqCmp.compare_eq_iff_eq.1 heq
      subst hka
      exact List.pairwise_cons.2 ⟨ha, hl⟩
    next hgt =>
      refine List.pairwise_cons.2 ⟨fun b hb => ?_, ih hl⟩
      rcases mem_place hb with rfl | hb
      · exact Std.OrientedCmp.gt_iff_lt.1 hgt
      · exact ha b hb

variable [DecidableEq κ]

omit [Std.TransOrd κ] in
theorem find_place (k k' : κ) (v : α) (l : List (κ × α)) :
    find k' (place k v l) = if k' = k then some v else find k' l := by
  induction l with
  | nil => rfl
  | cons a l ih =>
    simp only [place]
    split
    next => rfl
    next heq =>
      have hka : k = a.1 := Std.LawfulEqCmp.compare_eq_iff_eq.1 heq
      subst hka
      simp only [find]
      split <;> rfl
    next hgt =>
      have hne : ¬a.1 = k := fun h => by
        have := Std.LawfulEqOrd.compare_eq_iff_eq.2 h.symm
        rw [hgt] at this
        cases this
      simp only [find, ih]
      by_cases h : k' = a.1
      · simp [h, hne]
      · simp [h]

omit [Std.LawfulEqOrd κ] in
theorem find_eq_none_of_lt {k : κ} {l : List (κ × α)} (h : ∀ e ∈ l, compare k e.1 = .lt) :
    find k l = none := by
  induction l with
  | nil => rfl
  | cons a l ih =>
    rw [find, if_neg (ne_of_lt (h a List.mem_cons_self))]
    exact ih fun e he => h e (List.mem_cons_of_mem _ he)

end Listed

/-! ### Tables -/

section Operations

variable {κ α β : Type} [Ord κ]

/-- The table without entries. -/
def empty : Table κ α := ⟨[], .nil⟩

instance : EmptyCollection (Table κ α) := ⟨empty⟩

instance : Inhabited (Table κ α) := ⟨∅⟩

/-- The pairs in increasing order of their keys. -/
def toList (t : Table κ α) : List (κ × α) := t.entries

/-- The keys in increasing order. -/
def keys (t : Table κ α) : List κ := t.entries.map Prod.fst

/-- The number of keys. -/
def size (t : Table κ α) : Nat := t.entries.length

/-- Whether no key has a value. -/
def isEmpty (t : Table κ α) : Bool := t.entries.isEmpty

/-- Rework every value; the keys stay. -/
def mapValues (f : α → β) (t : Table κ α) : Table κ β :=
  ⟨t.entries.map fun e => (e.1, f e.2), List.pairwise_map.2 t.sorted⟩

variable [DecidableEq κ]

/-- The value of a key, if it has one. -/
def get? (t : Table κ α) (k : κ) : Option α := find k t.entries

/-- Whether a key has a value. -/
def contains (t : Table κ α) (k : κ) : Bool := (t.get? k).isSome

/-- Drop a key. -/
def erase (t : Table κ α) (k : κ) : Table κ α :=
  ⟨t.entries.filter fun e => e.1 ≠ k, t.sorted.filter _⟩

variable [Std.TransOrd κ] [Std.LawfulEqOrd κ]

omit [DecidableEq κ] in
/-- Give a key a value, in place of the one it may have had. -/
def insert (t : Table κ α) (k : κ) (v : α) : Table κ α :=
  ⟨place k v t.entries, sorted_place k v t.sorted⟩

/-- Rework the value of a key that has one. -/
def modify (t : Table κ α) (k : κ) (f : α → α) : Table κ α :=
  match t.get? k with
  | some v => t.insert k (f v)
  | none => t

omit [DecidableEq κ] in
/-- Insert pairs one after the other, so that the last one of a key counts. -/
def insertAll (t : Table κ α) (es : List (κ × α)) : Table κ α :=
  es.foldl (fun t e => t.insert e.1 e.2) t

omit [DecidableEq κ] in
/-- The table of a list of pairs, in which the last one of a key counts. -/
def ofList (es : List (κ × α)) : Table κ α := insertAll ∅ es

end Operations

/-! ### Look-ups -/

section Lookups

variable {κ α β : Type} [Ord κ] [DecidableEq κ]

@[simp] theorem get?_empty (k : κ) : (∅ : Table κ α).get? k = none := rfl

theorem get?_erase (t : Table κ α) (k k' : κ) :
    (t.erase k).get? k' = if k' = k then none else t.get? k' := by
  simp only [get?, erase]
  induction t.entries with
  | nil => simp [find]
  | cons a l ih =>
    by_cases h : a.1 = k
    · rw [List.filter_cons_of_neg (by simpa using h), ih, ← h]
      simp only [find]
      split <;> simp_all
    · rw [List.filter_cons_of_pos (by simpa using h)]
      simp only [find, ih]
      split <;> simp_all

theorem get?_mapValues (f : α → β) (t : Table κ α) (k : κ) :
    (t.mapValues f).get? k = (t.get? k).map f := by
  simp only [get?, mapValues]
  induction t.entries with
  | nil => rfl
  | cons a l ih => simp only [List.map_cons, find, ih]; split <;> rfl

variable [Std.TransOrd κ] [Std.LawfulEqOrd κ]

theorem get?_insert (t : Table κ α) (k k' : κ) (v : α) :
    (t.insert k v).get? k' = if k' = k then some v else t.get? k' :=
  find_place k k' v t.entries

@[simp] theorem get?_insert_self (t : Table κ α) (k : κ) (v : α) :
    (t.insert k v).get? k = some v := by
  rw [get?_insert, if_pos rfl]

theorem get?_modify (t : Table κ α) (k k' : κ) (f : α → α) :
    (t.modify k f).get? k' = if k' = k then (t.get? k).map f else t.get? k' := by
  unfold modify
  split
  next v hv => rw [get?_insert, hv]; rfl
  next hv =>
    by_cases h : k' = k
    · simp [h, hv]
    · simp [h]

omit [Std.LawfulEqOrd κ] in
theorem mem_toList_iff {t : Table κ α} {k : κ} {v : α} :
    (k, v) ∈ t.toList ↔ t.get? k = some v := by
  obtain ⟨l, hl⟩ := t
  simp only [toList, get?]
  induction l with
  | nil => simp [find]
  | cons a l ih =>
    obtain ⟨a, w⟩ := a
    obtain ⟨ha, hl'⟩ := List.pairwise_cons.1 hl
    simp only [find, List.mem_cons, Prod.mk.injEq]
    by_cases h : k = a
    · subst h
      have hno : (k, v) ∉ l := fun hm => ne_of_lt (ha _ hm) rfl
      simp [hno, eq_comm]
    · simp [h, ih hl']

omit [Std.LawfulEqOrd κ] in
theorem contains_eq_true_iff {t : Table κ α} {k : κ} : t.contains k = true ↔ k ∈ t.keys := by
  simp only [contains, Option.isSome_iff_exists, ← mem_toList_iff, keys, toList, List.mem_map]
  constructor
  · rintro ⟨v, h⟩; exact ⟨(k, v), h, rfl⟩
  · rintro ⟨e, h, rfl⟩; exact ⟨e.2, h⟩

/-- A table is determined by its look-ups. -/
theorem ext_get? {s t : Table κ α} (h : ∀ k, s.get? k = t.get? k) : s = t := by
  obtain ⟨l, hl⟩ := s
  obtain ⟨m, hm⟩ := t
  simp only [get?] at h
  suffices l = m by subst this; rfl
  induction l generalizing m with
  | nil =>
    cases m with
    | nil => rfl
    | cons b m => have := h b.1; simp [find] at this
  | cons a l ih =>
    cases m with
    | nil => have := h a.1; simp [find] at this
    | cons b m =>
      obtain ⟨a, v⟩ := a
      obtain ⟨b, w⟩ := b
      obtain ⟨ha, hl'⟩ := List.pairwise_cons.1 hl
      obtain ⟨hb, hm'⟩ := List.pairwise_cons.1 hm
      have hab : a = b := by
        have h1 := h a
        have h2 := h b
        simp only [find, if_true] at h1 h2
        cases hc : compare a b with
        | eq => exact Std.LawfulEqCmp.compare_eq_iff_eq.1 hc
        | lt =>
          rw [if_neg (ne_of_lt hc), find_eq_none_of_lt fun x hx => Std.TransCmp.lt_trans hc (hb x hx)] at h1
          cases h1
        | gt =>
          have hc' := Std.OrientedCmp.gt_iff_lt.1 hc
          rw [if_neg (ne_of_lt hc'), find_eq_none_of_lt fun x hx => Std.TransCmp.lt_trans hc' (ha x hx)] at h2
          cases h2
      subst hab
      have hval : v = w := by simpa [find] using h a
      subst hval
      congr 1
      refine ih hl' m hm' fun k => ?_
      have hk := h k
      simp only [find] at hk
      by_cases e : k = a
      · rw [e, find_eq_none_of_lt ha, find_eq_none_of_lt hb]
      · simpa [e] using hk

end Lookups

end Table

end TileRealm
