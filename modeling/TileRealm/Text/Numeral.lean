/-!
# Decimal numerals

Reading a whole number within limits, with the reason when a text is none, and writing one.
The reason is that of the first character, from the left, that makes the text unreadable.
-/

namespace TileRealm

/-- Why a text is not a number within its limits. -/
inductive NumeralError where
  | empty
  | invalidDigit
  | tooLarge
  | tooSmall
deriving DecidableEq, Repr

/-- The reason in words. -/
def NumeralError.message : NumeralError → String
  | .empty => "cannot parse integer from empty string"
  | .invalidDigit => "invalid digit found in string"
  | .tooLarge => "number too large to fit in target type"
  | .tooSmall => "number too small to fit in target type"

namespace Numeral

/-- The number that a decimal digit stands for. -/
def digit? (c : Char) : Option Nat :=
  if c.isDigit then some (c.toNat - '0'.toNat) else none

/-- Go on reading digits after a number, up to a limit; `past` is the error beyond it. -/
def readDigits (limit : Nat) (past : NumeralError) (n : Nat) :
    List Char → Except NumeralError Nat
  | [] => .ok n
  | c :: cs =>
    match digit? c with
    | none => .error .invalidDigit
    | some d =>
      if 10 * n + d ≤ limit then readDigits limit past (10 * n + d) cs else .error past

/-- Read the digits of a number that must have at least one; a sign stood in front of them. -/
def readSigned (limit : Nat) (past : NumeralError) (cs : List Char) : Except NumeralError Nat :=
  if cs.isEmpty then .error .invalidDigit else readDigits limit past 0 cs

/-- Read a number from zero to a limit.  It may carry a plus sign. -/
def readNat (limit : Nat) : List Char → Except NumeralError Nat
  | [] => .error .empty
  | '+' :: cs => readSigned limit .tooLarge cs
  | cs => readDigits limit .tooLarge 0 cs

/-- Read a 32-bit signed number.  It may carry either sign. -/
def readInt32 : List Char → Except NumeralError Int32
  | [] => .error .empty
  | '-' :: cs => (readSigned 2147483648 .tooSmall cs).map fun n => Int32.ofInt (-n)
  | cs => (readNat 2147483647 cs).map fun n => Int32.ofInt n

/-- Write a natural number. -/
def ofNat (n : Nat) : String := String.ofList (Nat.toDigits 10 n)

/-- Write a whole number. -/
def ofInt : Int → String
  | .ofNat n => ofNat n
  | .negSucc n => "-" ++ ofNat (n + 1)

end Numeral

end TileRealm
