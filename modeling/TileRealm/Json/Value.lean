/-!
# JSON values

What a JSON document says, as far as a reader of typed records asks.  A string whose escapes name
half a surrogate pair has no text, and a number that is not written as an integer has no value;
both may stand where nothing is read.
-/

namespace TileRealm

/-- A JSON value. -/
inductive Json where
  | null
  | bool (b : Bool)
  /-- A number, by its value if it is written as an integer. -/
  | number (n : Option Int)
  /-- A string, by its text if it has one. -/
  | string (s : Option String)
  | array (items : List Json)
  /-- The members in the order in which they stand; names may be repeated. -/
  | object (members : List (Option String × Json))

end TileRealm
