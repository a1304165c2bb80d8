import TileRealm.Text.Utf8
import TileRealm.Wire.Kind

/-!
# Payload fields

The fields that payloads are made of: 32-bit numbers, most significant byte first, single bytes,
and texts behind their length.  Each has a function that writes it and a `Reading` that takes it
from a `Cursor`.  A reading that fails leaves the cursor where it stopped.
-/

namespace TileRealm

/-- A place in a payload: how many bytes were read, and the bytes that follow. -/
structure Cursor where
  offset : Nat
  rest : Bytes
deriving DecidableEq, Repr

namespace Cursor

/-- The start of a payload. -/
def start (b : Bytes) : Cursor := ⟨0, b⟩

/-- How many bytes follow. -/
def remaining (c : Cursor) : Nat := c.rest.length

end Cursor

/-- A step that takes something from a payload or fails, and moves the cursor. -/
abbrev Reading (α : Type) := ExceptT CodecError (StateM Cursor) α

/-- The result of a reading at a cursor, and the cursor after it. -/
def Reading.at {α : Type} (r : Reading α) (c : Cursor) : Except CodecError α × Cursor := r.run c

namespace Payload

/-- The first `n` bytes and the others, if there are `n`. -/
def split? (n : Nat) (b : Bytes) : Option (Bytes × Bytes) :=
  let front := b.take n
  if front.length = n then some (front, b.drop n) else none

theorem split?_eq_some_iff {n : Nat} {b front rest : Bytes} :
    split? n b = some (front, rest) ↔ b = front ++ rest ∧ front.length = n := by
  simp only [split?]
  constructor
  · intro h
    split at h
    next hn =>
      simp only [Option.some.injEq, Prod.mk.injEq] at h
      obtain ⟨rfl, rfl⟩ := h
      exact ⟨(List.take_append_drop n b).symm, hn⟩
    next => cases h
  · rintro ⟨rfl, rfl⟩
    simp

theorem split?_eq_none_iff {n : Nat} {b : Bytes} : split? n b = none ↔ b.length < n := by
  simp only [split?, List.length_take]
  split
  next h => simp; omega
  next h => simp; omega

/-! ### Writing -/

/-- A 32-bit number, most significant byte first. -/
def int32 (n : Int32) : Bytes :=
  let w := n.toUInt32.toNat
  [(w / 16777216).toUInt8, (w / 65536).toUInt8, (w / 256).toUInt8, w.toUInt8]

/-- A single byte. -/
def byte (b : UInt8) : Bytes := [b]

/-- A truth value, as the byte 1 or 0. -/
def flag (b : Bool) : Bytes := [if b then 1 else 0]

/-- A count, as a 32-bit number. -/
def count (n : Nat) : Bytes := int32 (Int32.ofNat n)

/-- A text behind the number of its bytes. -/
def text (s : String) : Bytes := count s.utf8ByteSize ++ Text.utf8 s

/-! ### Reading -/

/-- The 32-bit number of four bytes, most significant first. -/
def toInt32 (b₃ b₂ b₁ b₀ : UInt8) : Int32 :=
  (UInt32.ofNat (b₃.toNat * 16777216 + b₂.toNat * 65536 + b₁.toNat * 256 + b₀.toNat)).toInt32

/-- Take bytes.  When too few follow, nothing is taken. -/
def readBytes (n : Nat) : Reading Bytes := do
  let c ← get
  match split? n c.rest with
  | some (front, rest) =>
    set { offset := c.offset + n, rest : Cursor }
    return front
  | none => throw (.truncated c.offset n)

/-- Take a 32-bit number. -/
def readInt32 : Reading Int32 := do
  match ← readBytes 4 with
  | [b₃, b₂, b₁, b₀] => return toInt32 b₃ b₂ b₁ b₀
  | _ => return 0

/-- Take a single byte. -/
def readByte : Reading UInt8 := do
  match ← readBytes 1 with
  | [b] => return b
  | _ => return 0

/-- Take a truth value: every byte but 0 is true. -/
def readFlag : Reading Bool := do
  let b ← readByte
  return b != 0

/-- Take a count, which may not be negative. -/
def readCount : Reading Nat := do
  let n ← readInt32
  if n.toInt < 0 then throw (.negativeLength n)
  return n.toInt.toNat

/-- Take a text: its length, then its bytes. -/
def readText : Reading String := do
  let n ← readCount
  let b ← readBytes n
  match Text.ofUtf8? b with
  | some s => return s
  | none => throw .invalidUtf8

/-- Take `n` things one after the other. -/
def readMany {α : Type} (r : Reading α) : Nat → Reading (List α)
  | 0 => return []
  | n + 1 => do
    let a ← r
    let as ← readMany r n
    return a :: as

/-- Whether any bytes follow. -/
def atEnd : Reading Bool := do
  let c ← get
  return c.rest.isEmpty

end Payload

end TileRealm
