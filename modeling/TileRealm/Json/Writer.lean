import TileRealm.Text.Numeral

/-!
# Writing JSON

Flat records are written without blanks, their members in order.  Strings escape quotes,
backslashes and control characters and nothing else.
-/

namespace TileRealm

namespace Json

/-- A value in a record. -/
inductive Scalar where
  | text (s : String)
  | number (n : Int)
  | flag (b : Bool)
deriving DecidableEq, Repr

/-- The lower-case hexadecimal digit of a number below 16. -/
def hexDigit (n : Nat) : Char := Nat.digitChar n

/-- A character inside a string. -/
def escape (c : Char) : List Char :=
  match c with
  | '"' => ['\\', '"']
  | '\\' => ['\\', '\\']
  | '\x08' => ['\\', 'b']
  | '\x0c' => ['\\', 'f']
  | '\n' => ['\\', 'n']
  | '\r' => ['\\', 'r']
  | '\t' => ['\\', 't']
  | c =>
    if c.toNat < 0x20 then
      ['\\', 'u', '0', '0', hexDigit (c.toNat / 16), hexDigit (c.toNat % 16)]
    else [c]

/-- A text in quotes. -/
def quote (s : String) : List Char := '"' :: s.toList.flatMap escape ++ ['"']

/-- A value in a record. -/
def Scalar.chars : Scalar → List Char
  | .text s => quote s
  | .number n => (Numeral.ofInt n).toList
  | .flag true => "true".toList
  | .flag false => "false".toList

/-- The parts with commas between them. -/
def commas : List (List Char) → List Char
  | [] => []
  | [part] => part
  | part :: parts => part ++ ',' :: commas parts

/-- A member of a record. -/
def memberChars (m : String × Scalar) : List Char := quote m.1 ++ ':' :: m.2.chars

/-- A record. -/
def objectChars (members : List (String × Scalar)) : List Char :=
  '\x7b' :: commas (members.map memberChars) ++ ['\x7d']

/-- A list of written values. -/
def arrayChars (items : List (List Char)) : List Char := '[' :: commas items ++ [']']

/-- The text of a record. -/
def writeObject (members : List (String × Scalar)) : String := String.ofList (objectChars members)

/-- The text of a list of records. -/
def writeArray (records : List (List (String × Scalar))) : String :=
  String.ofList (arrayChars (records.map objectChars))

end Json

end TileRealm
