import TileRealm.Proofs.Wire.Stream

/-!
# Frames one after the other

A parcel is what is put into a frame, and the frames of parcels, one after the other, are a stream.
A frame is read from its bytes whatever follows (`Parcel.next_bytes_append`), so a stream gives up
its parcels in order, but for those that fit into no frame and leave no bytes, and then whatever is
behind it (`Parcel.whole_stream_append`).
-/

namespace TileRealm

open TileRealm.Frame

/-- What is put into a frame. -/
structure Parcel where
  kind : Kind
  payload : Bytes
deriving DecidableEq, Repr

namespace Parcel

/-- A frame can announce the length of the payload. -/
def Fits (p : Parcel) : Prop := p.payload.length ≤ 65535

instance : DecidablePred Fits := fun p => inferInstanceAs (Decidable (p.payload.length ≤ 65535))

/-- The bytes of the frame, if the parcel fits into one. -/
def bytes (p : Parcel) : Bytes :=
  match Frame.encode p.kind p.payload with
  | .ok b => b
  | .error _ => []

/-- The frame that is read from the bytes. -/
def frame (p : Parcel) : Frame := ⟨writtenHeader p.kind p.payload, p.payload⟩

/-- The frames of parcels, one after the other. -/
def stream (ps : List Parcel) : Bytes := ps.flatMap bytes

@[simp] theorem stream_nil : stream [] = [] := rfl

@[simp] theorem stream_cons (p : Parcel) (ps : List Parcel) :
    stream (p :: ps) = p.bytes ++ stream ps := rfl

@[simp] theorem stream_append (ps qs : List Parcel) : stream (ps ++ qs) = stream ps ++ stream qs :=
  List.flatMap_append

section Bytes

variable {p : Parcel}

theorem encode_of_fits (h : p.Fits) : Frame.encode p.kind p.payload = .ok p.bytes := by
  obtain ⟨b, hb⟩ := (exists_encode_eq_ok_iff p.kind).2 h
  rw [bytes, hb]

theorem bytes_eq_nil (h : ¬ p.Fits) : p.bytes = [] := by
  rw [bytes, encode_eq_error p.kind (Nat.not_le.1 h)]

/-- The bytes of a frame are a header and the payload. -/
theorem exists_bytes_eq_append (h : p.Fits) :
    ∃ head, (writtenHeader p.kind p.payload).StandsIn head ∧ p.bytes = head ++ p.payload := by
  obtain ⟨head, hencode, hstands, -⟩ := exists_encode_eq_append p.kind h
  exact ⟨head, hstands, Except.ok.inj ((encode_of_fits h).symm.trans hencode)⟩

theorem headerLength_le_length_bytes (h : p.Fits) : headerLength ≤ p.bytes.length := by
  obtain ⟨head, hstands, hbytes⟩ := exists_bytes_eq_append h
  rw [hbytes, List.length_append]
  exact Nat.le_add_right_of_le hstands.headerLength_le

theorem next_bytes_append (h : p.Fits) (rest : Bytes) :
    next (p.bytes ++ rest) = .frame p.frame rest := by
  obtain ⟨head, hstands, hbytes⟩ := exists_bytes_eq_append h
  have hsplit : Payload.split? p.payload.length (p.payload ++ rest) = some (p.payload, rest) :=
    Payload.split?_eq_some_iff.2 ⟨rfl, rfl⟩
  rw [hbytes, List.append_assoc, next_append_of_standsIn hstands, nextPayload]
  rw [show (writtenHeader p.kind p.payload).length = p.payload.length from rfl, hsplit]
  rfl

end Bytes

/-- A stream gives up the parcels that fit, in order, and then what is behind it. -/
theorem whole_stream_append (ps : List Parcel) (rest : Bytes) :
    whole (stream ps ++ rest) =
      ((ps.filter Fits).map frame ++ (whole rest).1, (whole rest).2) := by
  induction ps with
  | nil => rfl
  | cons p ps ih =>
    rw [stream_cons, List.append_assoc]
    by_cases hp : p.Fits
    · rw [whole_of_frame (next_bytes_append hp _), ih, List.filter_cons_of_pos (by simpa using hp)]
      rfl
    · rw [bytes_eq_nil hp, List.nil_append, ih, List.filter_cons_of_neg (by simpa using hp)]

theorem whole_stream (ps : List Parcel) :
    whole (stream ps) = ((ps.filter Fits).map frame, []) := by
  have hnil : whole [] = ([], []) := whole_of_not_frame fun _ _ => Arrival.noConfusion
  have h := whole_stream_append ps []
  rwa [List.append_nil, hnil, List.append_nil] at h

end Parcel

end TileRealm
