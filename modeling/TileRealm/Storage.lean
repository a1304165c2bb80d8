import TileRealm.Text.Utf8

/-!
# Stored files

What the program finds under a path: nothing, a file or a folder.
-/

namespace TileRealm

/-- What a path leads to. -/
inductive StoredNode where
  | file (content : Bytes)
  | folder (entries : List (String × StoredNode))

/-- Why a file could not be read as text, or a folder not listed. -/
inductive ReadError where
  | notFound
  | isFolder
  | isFile
  /-- The content is no UTF-8. -/
  | notText
deriving DecidableEq, Repr

namespace StoredNode

/-- Whether a path leads to a file. -/
def isFile : Option StoredNode → Bool
  | some (file _) => true
  | _ => false

/-- The text of a file. -/
def readText : Option StoredNode → Except ReadError String
  | none => .error .notFound
  | some (folder _) => .error .isFolder
  | some (file content) =>
    match Text.ofUtf8? content with
    | some s => .ok s
    | none => .error .notText

/-- What a name leads to among the entries of a folder. -/
def child? (name : String) (entries : List (String × StoredNode)) : Option StoredNode :=
  (entries.find? fun e => e.1 == name).map Prod.snd

end StoredNode

/-- What every path leads to. -/
abbrev Storage := String → Option StoredNode

/-- The path of an entry of a folder. -/
def joinPath (folder name : String) : String :=
  if folder.isEmpty || folder.endsWith "/" then folder ++ name else folder ++ "/" ++ name

end TileRealm
