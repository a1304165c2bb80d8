import TileRealm.Proofs.Wire.Frame

/-!
# A frame in a buffer and in a stream

A buffer and a stream give up the same frame where the header has the size that is written for its
length (`Frame.decode_eq_ok_iff_gives`), and so for everything that is written.  A short length
behind the marker stands in five bytes, of which the buffer leaves two to the payload: there the two
disagree as soon as the buffer gives up a frame at all (`Frame.decode_eq_ok_iff_gives_iff`).
-/

namespace TileRealm

namespace Frame

open Header Payload

/-- A stream gives up a frame, for which its first `n` bytes are taken. -/
def Gives (b : Bytes) (f : Frame) (n : Nat) : Prop := n ≤ b.length ∧ next b = .frame f (b.drop n)

/-- Bytes that begin with no header give up no frame, neither in a buffer nor in a stream. -/
theorem none_of_not_standsIn {b : Bytes}
    (h : ∀ header head rest, StandsIn header head → b ≠ head ++ rest) :
    (∀ f n, decode b ≠ .ok (f, n)) ∧ ∀ f n, ¬ Gives b f n := by
  have hnone : decodeHeader b = .error .incompleteHeader ∧ ∀ f rest, next b ≠ .frame f rest := by
    match b with
    | [] | [_] | [_, _] => exact ⟨rfl, fun _ _ => Arrival.noConfusion⟩
    | version :: kindByte :: lengthByte :: rest =>
      by_cases hext : lengthByte = extendedMarker
      · subst hext
        match rest with
        | [] | [_] => exact ⟨rfl, fun _ _ => Arrival.noConfusion⟩
        | hi :: lo :: rest => exact absurd rfl (h _ _ rest (.extended version kindByte hi lo))
      · exact absurd rfl (h _ _ rest (.short version kindByte hext))
  refine ⟨fun f n hdecode => ?_, fun f n hgives => hnone.2 _ _ hgives.2⟩
  rw [decode, hnone.1] at hdecode
  cases hdecode

section Readers

variable {header : Header} {head rest : Bytes} {f : Frame} {n : Nat}

/-- A buffer gives up what stands behind a header of the size that is written. -/
theorem decode_eq_ok_iff_of_standsIn (h : header.StandsIn head) :
    decode (head ++ rest) = .ok (f, n) ↔
      ∃ payload behind, split? header.length ((head ++ rest).drop header.encodedLength) =
        some (payload, behind) ∧ f = ⟨header, payload⟩ ∧
          n = header.encodedLength + header.length := by
  have hheader := decodeHeader_append h rest
  cases hsplit : split? header.length ((head ++ rest).drop header.encodedLength) with
  | none =>
    rw [decode_eq_error_of_split? hheader hsplit]
    refine iff_of_false (fun heq => nomatch heq) ?_
    rintro ⟨payload, behind, hsome, -⟩
    cases hsome
  | some p =>
    rw [decode_of_split? hheader hsplit]
    constructor
    · intro heq
      cases heq
      exact ⟨p.1, p.2, rfl, rfl, rfl⟩
    · rintro ⟨payload, behind, hsome, rfl, rfl⟩
      cases hsome
      rfl

/-- A stream gives up what stands behind the header that was read. -/
theorem gives_iff_of_standsIn (h : header.StandsIn head) :
    Gives (head ++ rest) f n ↔
      ∃ payload behind, split? header.length rest = some (payload, behind) ∧
        f = ⟨header, payload⟩ ∧ n = head.length + header.length := by
  rw [Gives, next_append_of_standsIn h, nextPayload]
  constructor
  · rintro ⟨hn, hnext⟩
    split at hnext
    next payload behind hsplit =>
      injection hnext with hf hbehind
      obtain ⟨hrest, hlen⟩ := split?_eq_some_iff.1 hsplit
      refine ⟨payload, behind, hsplit, hf.symm, ?_⟩
      -- What the stream holds afterwards tells how many bytes were taken.
      have htaken := congrArg List.length hbehind
      rw [List.length_drop] at htaken
      rw [hrest] at htaken hn
      simp only [List.length_append] at htaken hn
      omega
    next => cases hnext
  · rintro ⟨payload, behind, hsplit, rfl, rfl⟩
    obtain ⟨rfl, hlen⟩ := split?_eq_some_iff.1 hsplit
    have hdrop : (head ++ (payload ++ behind)).drop (head.length + header.length) = behind := by
      rw [← List.append_assoc, ← hlen, ← List.length_append, List.drop_left]
    refine ⟨by simp only [List.length_append]; omega, ?_⟩
    rw [hsplit, hdrop]

/-- Where the header has the size that is written for its length, a buffer and a stream give up the
same frame. -/
theorem decode_eq_ok_iff_gives (h : header.StandsIn head)
    (hsize : head.length = header.encodedLength) :
    decode (head ++ rest) = .ok (f, n) ↔ Gives (head ++ rest) f n := by
  rw [decode_eq_ok_iff_of_standsIn h, gives_iff_of_standsIn h, ← hsize, List.drop_left]

/-- A header that is longer than what is written for its length has them disagree, unless the bytes
are too few even for the buffer. -/
theorem forall_decode_iff_gives_iff_of_lt (h : header.StandsIn head)
    (hsize : header.encodedLength < head.length) :
    (∀ f n, decode (head ++ rest) = .ok (f, n) ↔ Gives (head ++ rest) f n) ↔
      (head ++ rest).length < header.encodedLength + header.length := by
  have hdrop : ((head ++ rest).drop header.encodedLength).length =
      (head ++ rest).length - header.encodedLength := List.length_drop
  have hlength : (head ++ rest).length = head.length + rest.length := List.length_append
  constructor
  · intro hagree
    refine Nat.not_le.1 fun henough => ?_
    cases hsplit : split? header.length ((head ++ rest).drop header.encodedLength) with
    | none =>
      have hfew := split?_eq_none_iff.1 hsplit
      omega
    | some p =>
      have hdecode := (decode_eq_ok_iff_of_standsIn h).2 ⟨p.1, p.2, hsplit, rfl, rfl⟩
      obtain ⟨-, -, -, -, hn⟩ := (gives_iff_of_standsIn h).1 ((hagree _ _).1 hdecode)
      omega
  · intro hfew f n
    refine iff_of_false (fun hdecode => ?_) fun hgives => ?_
    · obtain ⟨payload, behind, hsplit, -, -⟩ := (decode_eq_ok_iff_of_standsIn h).1 hdecode
      obtain ⟨hdropped, hlen⟩ := split?_eq_some_iff.1 hsplit
      rw [hdropped, List.length_append] at hdrop
      omega
    · obtain ⟨-, -, -, -, hn⟩ := (gives_iff_of_standsIn h).1 hgives
      have := hgives.1
      omega

/-- A length in one byte has only one size, and a buffer and a stream agree on it. -/
theorem decode_eq_ok_iff_gives_of_short (version kindByte : UInt8) {lengthByte : UInt8}
    (h : lengthByte ≠ extendedMarker) :
    decode ([version, kindByte, lengthByte] ++ rest) = .ok (f, n) ↔
      Gives ([version, kindByte, lengthByte] ++ rest) f n := by
  have hlt : lengthByte.toNat < 255 := by
    have hbyte := UInt8.toNat_lt lengthByte
    have hne : lengthByte.toNat ≠ 255 := fun heq => h (UInt8.toNat_inj.1 heq)
    omega
  exact decode_eq_ok_iff_gives (.short version kindByte h) (encodedLength_of_lt hlt).symm

/-- A length behind the marker has them disagree if it would fit into one byte, unless the bytes are
too few even for the buffer. -/
theorem forall_decode_iff_gives_extended_iff (version kindByte hi lo : UInt8) :
    (∀ f n, decode ([version, kindByte, extendedMarker, hi, lo] ++ rest) = .ok (f, n) ↔
      Gives ([version, kindByte, extendedMarker, hi, lo] ++ rest) f n) ↔
    (extendedLength hi lo < 255 →
      ([version, kindByte, extendedMarker, hi, lo] ++ rest).length < 3 + extendedLength hi lo) := by
  have hstands := StandsIn.extended version kindByte hi lo
  by_cases hlt : extendedLength hi lo < 255
  · have hsize : encodedLength ⟨version, kindByte, extendedLength hi lo⟩ = 3 :=
      encodedLength_of_lt hlt
    have hshorter : encodedLength ⟨version, kindByte, extendedLength hi lo⟩ < 5 := by omega
    rw [forall_decode_iff_gives_iff_of_lt hstands hshorter, hsize]
    exact ⟨fun hfew _ => hfew, fun hfew => hfew hlt⟩
  · have hsize : encodedLength ⟨version, kindByte, extendedLength hi lo⟩ = 5 :=
      encodedLength_of_le (Nat.not_lt.1 hlt)
    exact iff_of_true (fun f n => decode_eq_ok_iff_gives hstands hsize.symm) fun hlt' =>
      absurd hlt' hlt

end Readers

/-- A buffer and a stream agree on all bytes but those that begin with a header whose length would
fit into one byte but stands in two, with enough bytes behind the first three. -/
theorem decode_eq_ok_iff_gives_iff (b : Bytes) :
    (∀ f n, decode b = .ok (f, n) ↔ Gives b f n) ↔
      ∀ version kindByte hi lo rest, b = version :: kindByte :: 255 :: hi :: lo :: rest →
        hi.toNat * 256 + lo.toNat < 255 → b.length < 3 + (hi.toNat * 256 + lo.toNat) := by
  by_cases hheader : ∃ header head rest, StandsIn header head ∧ b = head ++ rest
  · obtain ⟨header, head, rest, hstands, rfl⟩ := hheader
    cases hstands with
    | short version kindByte hne =>
      refine iff_of_true (fun f n => decode_eq_ok_iff_gives_of_short version kindByte hne)
        fun _ _ _ _ _ heq => ?_
      cases heq
      exact absurd rfl hne
    | extended version kindByte hi lo =>
      rw [forall_decode_iff_gives_extended_iff]
      constructor
      · intro hfew _ _ _ _ _ heq
        cases heq
        exact hfew
      · intro hfew
        exact hfew version kindByte hi lo rest rfl
  · have hno : ∀ header head rest, StandsIn header head → b ≠ head ++ rest :=
      fun header head rest hstands heq => hheader ⟨header, head, rest, hstands, heq⟩
    obtain ⟨hdecode, hgives⟩ := none_of_not_standsIn hno
    refine iff_of_true (fun f n => iff_of_false (hdecode f n) (hgives f n))
      fun version kindByte hi lo rest heq _ => ?_
    exact absurd heq (hno _ _ rest (.extended version kindByte hi lo))

/-- The stream takes the byte 7 for the payload, the buffer the byte before it. -/
theorem not_decode_eq_ok_iff_gives :
    let b : Bytes := [1, 0, 255, 0, 1, 7]
    decode b = .ok (⟨⟨1, 0, 1⟩, [0]⟩, 4) ∧ Gives b ⟨⟨1, 0, 1⟩, [7]⟩ 6 ∧
      ¬ ∀ f n, decode b = .ok (f, n) ↔ Gives b f n := by
  have hdecode : decode [1, 0, 255, 0, 1, 7] = .ok (⟨⟨1, 0, 1⟩, [0]⟩, 4) := rfl
  refine ⟨hdecode, ⟨by decide, by decide⟩, fun hagree => ?_⟩
  have hgives := (hagree _ _).1 hdecode
  exact absurd hgives.2 (by decide)

end Frame

end TileRealm
