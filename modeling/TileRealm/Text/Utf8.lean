/-!
# Texts as bytes

`Text.utf8` writes a text as UTF-8 and `Text.ofUtf8?` reads it back: it accepts exactly the byte
strings that some text is written as (`Text.ofUtf8?_eq_some_iff`).  `Text.truncate` cuts a text
that is too long for a number of bytes at a character boundary.
-/

namespace TileRealm

/-- A string of bytes. -/
abbrev Bytes := List UInt8

namespace Text

/-- The UTF-8 bytes of a text. -/
def utf8 (s : String) : Bytes := s.toByteArray.data.toList

/-- The text that bytes are the UTF-8 form of. -/
def ofUtf8? (b : Bytes) : Option String := String.fromUTF8? ⟨b.toArray⟩

@[simp] theorem length_utf8 (s : String) : (utf8 s).length = s.utf8ByteSize := rfl

theorem ofUtf8?_eq_some_iff {b : Bytes} {s : String} : ofUtf8? b = some s ↔ b = utf8 s := by
  unfold ofUtf8? utf8 String.fromUTF8?
  constructor
  · intro h
    split at h
    · injection h with h
      rw [← h]
      rfl
    · cases h
  · rintro rfl
    rw [dif_pos (show ByteArray.IsValidUTF8 ⟨s.toByteArray.data.toList.toArray⟩ from
      s.isValidUTF8)]
    rfl

@[simp] theorem ofUtf8?_utf8 (s : String) : ofUtf8? (utf8 s) = some s :=
  ofUtf8?_eq_some_iff.2 rfl

theorem utf8ByteSize_of_ofUtf8? {b : Bytes} {s : String} (h : ofUtf8? b = some s) :
    s.utf8ByteSize = b.length := by
  rw [ofUtf8?_eq_some_iff.1 h, length_utf8]

theorem utf8_injective {s t : String} (h : utf8 s = utf8 t) : s = t := by
  have := ofUtf8?_utf8 s
  rw [h, ofUtf8?_utf8] at this
  exact (Option.some.inj this).symm

/-! ### Cutting at a character boundary -/

/-- Whether a byte goes on with a character that began before it. -/
def isContinuation (b : UInt8) : Bool := 0x80 ≤ b && b < 0xC0

/-- Whether a character may end in front of the byte at an offset: at both ends of the text, and
where a character begins. -/
def isBoundary (b : Bytes) (offset : Nat) : Bool :=
  match b[offset]? with
  | some byte => offset == 0 || !isContinuation byte
  | none => offset == b.length

/-- The last boundary at or before an offset, searched backward from it. -/
def boundaryBefore (b : Bytes) : Nat → Nat
  | 0 => 0
  | offset + 1 =>
    if isBoundary b (offset + 1) then offset + 1 else boundaryBefore b offset

/-- The text itself if it has at most `limit` bytes, else its part up to the last character
boundary within them. -/
def truncate (limit : Nat) (s : String) : String :=
  if s.utf8ByteSize ≤ limit then s
  else
    let b := utf8 s
    (ofUtf8? (b.take (boundaryBefore b limit))).getD ""

theorem boundaryBefore_le (b : Bytes) (offset : Nat) : boundaryBefore b offset ≤ offset := by
  induction offset with
  | zero => exact Nat.le_refl 0
  | succ offset ih =>
    unfold boundaryBefore
    split
    · exact Nat.le_refl _
    · omega

theorem truncate_of_le {limit : Nat} {s : String} (h : s.utf8ByteSize ≤ limit) :
    truncate limit s = s := by
  unfold truncate
  exact if_pos h

theorem utf8ByteSize_truncate_le (limit : Nat) (s : String) :
    (truncate limit s).utf8ByteSize ≤ limit := by
  unfold truncate
  split
  next h => exact h
  next =>
    have hcut := boundaryBefore_le (utf8 s) limit
    cases ht : ofUtf8? ((utf8 s).take (boundaryBefore (utf8 s) limit)) with
    | none => simp [ht]
    | some t =>
      have hlen := utf8ByteSize_of_ofUtf8? ht
      rw [List.length_take] at hlen
      simp only [ht, Option.getD_some]
      omega

end Text

end TileRealm
