import TileRealm.Json.Value
import TileRealm.Text.Numeral

/-!
# Reading JSON

Strict JSON: no comments, no trailing commas, nothing behind the value, no raw control characters
in strings.  Nesting may be as deep as the document is long.
-/

namespace TileRealm

namespace Json

/-- A step that takes something from the front of a text or fails. -/
abbrev Scan (α : Type) := List Char → Option (α × List Char)

/-- Blanks between the tokens of a document. -/
def isBlank (c : Char) : Bool := c == ' ' || c == '\t' || c == '\n' || c == '\r'

/-- The text from its first token on. -/
def skipBlanks (cs : List Char) : List Char := cs.dropWhile isBlank

/-! ### Strings -/

/-- A piece of a string: a character, or a UTF-16 code unit given by its number. -/
inductive Piece where
  | char (c : Char)
  | unit (n : Nat)
deriving DecidableEq, Repr

/-- The number that a hexadecimal digit stands for. -/
def hexDigit? (c : Char) : Option Nat :=
  if c.isDigit then some (c.toNat - '0'.toNat)
  else if 'a' ≤ c ∧ c ≤ 'f' then some (c.toNat - 'a'.toNat + 10)
  else if 'A' ≤ c ∧ c ≤ 'F' then some (c.toNat - 'A'.toNat + 10)
  else none

/-- The number of four hexadecimal digits. -/
def hexUnit? (a b c d : Char) : Option Nat := do
  return ((← hexDigit? a) * 16 + (← hexDigit? b)) * 256 + ((← hexDigit? c) * 16 + (← hexDigit? d))

/-- The character that stands behind a backslash for another one. -/
def escaped? : Char → Option Char
  | '"' => some '"'
  | '\\' => some '\\'
  | '/' => some '/'
  | 'b' => some '\x08'
  | 'f' => some '\x0c'
  | 'n' => some '\n'
  | 'r' => some '\r'
  | 't' => some '\t'
  | _ => none

/-- The pieces of a string up to its closing quote. -/
def pieces : Scan (List Piece)
  | [] => none
  | '"' :: rest => some ([], rest)
  | '\\' :: 'u' :: a :: b :: c :: d :: rest => do
    let n ← hexUnit? a b c d
    let (ps, rest) ← pieces rest
    return (.unit n :: ps, rest)
  | '\\' :: c :: rest => do
    let e ← escaped? c
    let (ps, rest) ← pieces rest
    return (.char e :: ps, rest)
  | c :: rest =>
    if c.toNat < 0x20 || c == '\\' then none
    else do
      let (ps, rest) ← pieces rest
      return (.char c :: ps, rest)

/-- Whether a code unit begins a surrogate pair. -/
def isHighSurrogate (n : Nat) : Bool := 0xD800 ≤ n && n ≤ 0xDBFF

/-- Whether a code unit ends a surrogate pair. -/
def isLowSurrogate (n : Nat) : Bool := 0xDC00 ≤ n && n ≤ 0xDFFF

/-- The text of pieces, unless a surrogate stands without its partner. -/
def joinPieces : List Piece → Option (List Char)
  | [] => some []
  | .char c :: ps => (joinPieces ps).map (c :: ·)
  | .unit n :: ps =>
    if isHighSurrogate n then
      match ps with
      | .unit m :: ps =>
        if isLowSurrogate m then
          (joinPieces ps).map (Char.ofNat (0x10000 + (n - 0xD800) * 0x400 + (m - 0xDC00)) :: ·)
        else none
      | _ => none
    else if isLowSurrogate n then none
    else (joinPieces ps).map (Char.ofNat n :: ·)

/-- A string behind its opening quote. -/
def scanString : Scan (Option String) := fun cs => do
  let (ps, rest) ← pieces cs
  return ((joinPieces ps).map String.ofList, rest)

/-! ### Numbers -/

/-- One digit or more. -/
def scanDigits : Scan (List Char) := fun cs =>
  let ds := cs.takeWhile Char.isDigit
  if ds.isEmpty then none else some (ds, cs.dropWhile Char.isDigit)

/-- The part of a number behind a decimal point, if there is one; whether there was. -/
def scanFraction : Scan Bool
  | '.' :: cs => (scanDigits cs).map fun (_, rest) => (true, rest)
  | cs => some (false, cs)

/-- The sign of an exponent may be left out. -/
def dropSign : List Char → List Char
  | '+' :: cs => cs
  | '-' :: cs => cs
  | cs => cs

/-- The power of ten behind a number, if there is one; whether there was. -/
def scanExponent : Scan Bool
  | 'e' :: cs => (scanDigits (dropSign cs)).map fun (_, rest) => (true, rest)
  | 'E' :: cs => (scanDigits (dropSign cs)).map fun (_, rest) => (true, rest)
  | cs => some (false, cs)

/-- The number that digits are written for. -/
def digitsValue (ds : List Char) : Nat :=
  ds.foldl (fun n c => 10 * n + (c.toNat - '0'.toNat)) 0

/-- A number without its sign.  It is an integer if it has neither a fraction nor a power. -/
def scanUnsigned : Scan (Option Nat) := fun cs => do
  let (ds, rest) ← scanDigits cs
  if ds.head? = some '0' ∧ ds.length ≠ 1 then failure
  let (fraction, rest) ← scanFraction rest
  let (exponent, rest) ← scanExponent rest
  return (if fraction || exponent then none else some (digitsValue ds), rest)

/-- A number.  Minus zero is no integer. -/
def scanNumber : Scan (Option Int)
  | '-' :: cs => (scanUnsigned cs).map fun (n, rest) =>
    (n.bind fun n => if n = 0 then none else some (-(n : Int)), rest)
  | cs => (scanUnsigned cs).map fun (n, rest) => (n.map Int.ofNat, rest)

/-! ### Values -/

/-- The items of a list up to its closing character, behind the first item's beginning. -/
def scanItems {α : Type} (item : Scan α) (close : Char) : Nat → Scan (List α)
  | 0, _ => none
  | fuel + 1, cs => do
    let (a, rest) ← item (skipBlanks cs)
    match skipBlanks rest with
    | ',' :: rest =>
      let (as, rest) ← scanItems item close fuel rest
      return (a :: as, rest)
    | c :: rest => if c = close then return ([a], rest) else none
    | [] => none

/-- The items of a list that may be empty. -/
def scanList {α : Type} (item : Scan α) (close : Char) (fuel : Nat) : Scan (List α) := fun cs =>
  match skipBlanks cs with
  | c :: rest => if c = close then some ([], rest) else scanItems item close fuel (c :: rest)
  | [] => none

/-- A member of an object: its name, a colon and its value. -/
def scanMember (value : Scan Json) : Scan (Option String × Json)
  | '"' :: cs => do
    let (name, rest) ← scanString cs
    match skipBlanks rest with
    | ':' :: rest =>
      let (v, rest) ← value (skipBlanks rest)
      return ((name, v), rest)
    | _ => none
  | _ => none

/-- A value.  The fuel bounds its depth and the number of its items. -/
def scanValue : Nat → Scan Json
  | 0, _ => none
  | fuel + 1, cs =>
    match cs with
    | 'n' :: 'u' :: 'l' :: 'l' :: rest => some (.null, rest)
    | 't' :: 'r' :: 'u' :: 'e' :: rest => some (.bool true, rest)
    | 'f' :: 'a' :: 'l' :: 's' :: 'e' :: rest => some (.bool false, rest)
    | '"' :: rest => (scanString rest).map fun (s, rest) => (.string s, rest)
    | '[' :: rest => (scanList (scanValue fuel) ']' fuel rest).map fun (items, rest) =>
      (.array items, rest)
    | '\x7b' :: rest =>
      (scanList (scanMember (scanValue fuel)) '\x7d' fuel rest).map fun (members, rest) =>
        (.object members, rest)
    | cs => (scanNumber cs).map fun (n, rest) => (.number n, rest)

/-- The value of a document. -/
def parseChars (cs : List Char) : Option Json := do
  let (v, rest) ← scanValue (cs.length + 1) (skipBlanks cs)
  if (skipBlanks rest).isEmpty then return v else none

/-- The value of a document. -/
def parse (s : String) : Option Json := parseChars s.toList

end Json

end TileRealm
