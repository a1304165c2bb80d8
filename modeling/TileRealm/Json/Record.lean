import TileRealm.Json.Reader
import TileRealm.Grid.Coord

/-!
# Records in JSON

A record is an object, whose unknown members are passed over and whose known ones stand at most
once, or an array of its fields in their order, from which fields may be missing at the end.
-/

namespace TileRealm

namespace Json

/-- A truth value. -/
def bool? : Json → Option Bool
  | .bool b => some b
  | _ => none

/-- A text. -/
def text? : Json → Option String
  | .string s => s
  | _ => none

/-- A 32-bit signed number. -/
def int32? : Json → Option Int32
  | .number (some n) => Coord.ofInt? n
  | _ => none

/-- A 32-bit unsigned number. -/
def uint32? : Json → Option UInt32
  | .number (some (.ofNat n)) => if n < UInt32.size then some (UInt32.ofNat n) else none
  | _ => none

/-- A list of things of one kind. -/
def list? {α : Type} (item : Json → Option α) : Json → Option (List α)
  | .array items => items.mapM item
  | _ => none

/-- Null, or a thing. -/
def nullable? {α : Type} (item : Json → Option α) : Json → Option (Option α)
  | .null => some none
  | v => (item v).map some

/-- A text, in place of which null is the empty one. -/
def textOrNull? (v : Json) : Option String := (nullable? text? v).map (·.getD "")

/-- The values of the members with one of the given names, in their order. -/
def valuesOf (names : List String) (members : List (Option String × Json)) : List Json :=
  members.filterMap fun (name, v) =>
    match name with
    | some n => if names.contains n then some v else none
    | none => none

/-- The values of the fields of a record, each given by its names: `none` for a missing one. -/
def fields? (names : List (List String)) : Json → Option (List (Option Json))
  | .object members =>
    if members.all fun m => m.1.isSome then
      names.mapM fun ns =>
        match valuesOf ns members with
        | [] => some none
        | [v] => some (some v)
        | _ => none
    else none
  | .array items =>
    if items.length ≤ names.length then
      some (items.map some ++ List.replicate (names.length - items.length) none)
    else none
  | _ => none

/-- The value of a field that has to be there. -/
def required {α : Type} (read : Json → Option α) (v : Option Json) : Option α := v.bind read

/-- The value of a field that may be missing, and then has a value of its own. -/
def optional {α : Type} (read : Json → Option α) (missing : α) : Option Json → Option α
  | some v => read v
  | none => some missing

end Json

end TileRealm
