import Mathlib.Data.List.Forall2
import TileRealm.Json.Record

/-!
# Fields of records

A record that can be read gives each of its fields what stands there in the document: in an object
the member of that name, in an array the item in that place (`Json.eq_of_fields?`).
-/

namespace TileRealm

namespace Json

/-- What stands in a field of a record, which has names in an object and a place in an array. -/
def field? (names : List String) (place : Nat) : Json → Option Json
  | .object members => (members.find? fun m => m.1.any names.contains).map Prod.snd
  | .array items => items[place]?
  | _ => none

/-- The items of a list. -/
def items : Json → List Json
  | .array items => items
  | _ => []

theorem head?_valuesOf (names : List String) (members : List (Option String × Json)) :
    (valuesOf names members).head? =
      (members.find? fun m => m.1.any names.contains).map Prod.snd := by
  unfold valuesOf
  induction members with
  | nil => rfl
  | cons m members ih =>
    obtain ⟨key, v⟩ := m
    cases key with
    | none => exact ih
    | some name =>
      rw [List.filterMap_cons, List.find?_cons]
      dsimp only [Option.any_some]
      cases names.contains name with
      | true => rfl
      | false => exact ih

section Mapped

variable {α β : Type} {f : α → Option β}

theorem mapM_eq_some_iff {xs : List α} {ys : List β} :
    xs.mapM f = some ys ↔ List.Forall₂ (fun x y => f x = some y) xs ys := by
  constructor
  · intro h
    induction xs generalizing ys with
    | nil =>
      cases h
      exact .nil
    | cons x xs ih =>
      rw [List.mapM_cons] at h
      obtain ⟨y, hy, h⟩ := Option.bind_eq_some_iff.1 h
      obtain ⟨rest, hrest, h⟩ := Option.bind_eq_some_iff.1 h
      cases h
      exact .cons hy (ih hrest)
  · intro h
    induction h with
    | nil => rfl
    | cons hy _ ih =>
      rw [List.mapM_cons, hy, ih]
      rfl

end Mapped

/-- What is read in the fields is what stands there. -/
theorem eq_of_fields? {v : Json} {names : List (List String)} {vs : List (Option Json)}
    (h : v.fields? names = some vs) : vs = names.mapIdx fun place ns => v.field? ns place := by
  unfold fields? at h
  split at h
  next members =>
    split at h
    next =>
      have hread : List.Forall₂ (fun ns x => (object members).field? ns 0 = x) names vs := by
        refine (mapM_eq_some_iff.1 h).imp fun ns x hx => ?_
        rw [field?, ← head?_valuesOf]
        split at hx
        next hnone =>
          cases hx
          rw [hnone]
          rfl
        next hone =>
          cases hx
          rw [hone]
          rfl
        next => cases hx
      rw [← List.forall₂_map_left_iff, List.forall₂_eq_eq_eq] at hread
      rw [← hread]
      refine List.ext_getElem? fun place => ?_
      rw [List.getElem?_map, List.getElem?_mapIdx]
      rfl
    next => cases h
  next items =>
    split at h
    next hlen =>
      cases h
      refine List.ext_getElem (by simp; omega) fun place hplace hplace' => ?_
      rw [List.getElem_mapIdx, List.getElem_append]
      change _ = items[place]?
      split
      next hitem => rw [List.getElem_map, List.getElem?_eq_getElem]
      next hitem =>
        rw [List.getElem_replicate, List.getElem?_eq_none]
        simpa using hitem
    next => cases h
  next => cases h

theorem list?_eq_some_iff {α : Type} {item : Json → Option α} {v : Json} {xs : List α} :
    list? item v = some xs ↔
      ∃ items, v = .array items ∧ List.Forall₂ (fun v x => item v = some x) items xs := by
  constructor
  · intro h
    unfold list? at h
    split at h
    next items => exact ⟨items, rfl, mapM_eq_some_iff.1 h⟩
    next => cases h
  · rintro ⟨items, rfl, h⟩
    exact mapM_eq_some_iff.2 h

theorem forall₂_of_list? {α : Type} {item : Json → Option α} {v : Json} {xs : List α}
    (h : list? item v = some xs) : List.Forall₂ (fun v x => item v = some x) v.items xs := by
  obtain ⟨items, rfl, hread⟩ := list?_eq_some_iff.1 h
  exact hread

section Missing

variable {α : Type} (read : Json → Option α)

@[simp] theorem required_some (v : Json) : required read (some v) = read v := rfl

@[simp] theorem optional_some (missing : α) (v : Json) : optional read missing (some v) = read v := rfl

end Missing

end Json

end TileRealm
