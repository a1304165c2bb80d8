import TileRealm.Proofs.Wire.Series

/-!
# Streams that are cut off

Of the first `k` bytes of a stream, the reader gets the frames that lie wholly inside them and no
other (`Parcel.frames_of_take`).  The rest of a frame that was cut is told from the end of the
stream by its header only, so that up to two bytes of a frame count as none (`Frame.next_take`): the
reader takes the stream for closed wherever fewer than three bytes lie behind the last whole frame
(`Parcel.readAll_take_eq_closed_iff`).
-/

namespace TileRealm

open TileRealm.Frame

namespace Frame

theorem next_eq_noHeader_iff {b : Bytes} : next b = .noHeader ↔ b.length < headerLength := by
  have hpayload : ∀ header tail, nextPayload header tail ≠ .noHeader := by
    intro header tail
    unfold nextPayload
    split <;> exact Arrival.noConfusion
  match b with
  | [] | [_] | [_, _] => exact iff_of_true rfl (by simp [headerLength])
  | version :: kindByte :: lengthByte :: rest =>
    refine iff_of_false ?_ (by simp [headerLength])
    unfold next
    dsimp only
    split
    · split
      · exact hpayload _ _
      · exact Arrival.noConfusion
    · exact hpayload _ _

/-- The beginning of a frame gives up nothing, and shows only if it has the bytes of a header. -/
theorem next_take {b : Bytes} {f : Frame} (h : next b = .frame f []) {j : Nat} (hj : j < b.length) :
    next (b.take j) = if j < headerLength then .noHeader else .cut := by
  have hlen : (b.take j).length = j := List.length_take_of_le (Nat.le_of_lt hj)
  cases hnext : next (b.take j) with
  | frame f' rest =>
    -- What is behind that frame would be behind it in the whole bytes as well.
    obtain ⟨front, hfront, happend⟩ := next_append hnext
    have hwhole := happend (rest ++ b.drop j)
    rw [← List.append_assoc, ← hfront, List.take_append_drop] at hwhole
    obtain ⟨-, hnil⟩ := Arrival.frame.inj (h.symm.trans hwhole)
    have hdrop := congrArg List.length (List.append_eq_nil_iff.1 hnil.symm).2
    rw [List.length_drop, List.length_nil] at hdrop
    omega
  | noHeader => rw [if_pos (hlen ▸ next_eq_noHeader_iff.1 hnext)]
  | cut =>
    have hno : ¬ (b.take j).length < headerLength := fun hlt => by
      rw [next_eq_noHeader_iff.2 hlt] at hnext
      cases hnext
    rw [if_neg (hlen ▸ hno)]

end Frame

namespace Parcel

/-! ### Where frames end -/

/-- Where in a stream the frame with this number begins, and the one before it ends. -/
def offset (ps : List Parcel) (i : Nat) : Nat := (stream (ps.take i)).length

@[simp] theorem offset_zero (ps : List Parcel) : offset ps 0 = 0 := rfl

@[simp] theorem offset_cons_succ (p : Parcel) (ps : List Parcel) (i : Nat) :
    offset (p :: ps) (i + 1) = p.bytes.length + offset ps i :=
  List.length_append

theorem offset_length (ps : List Parcel) : offset ps ps.length = (stream ps).length := by
  rw [offset, List.take_length]

theorem offset_mono (ps : List Parcel) {i i' : Nat} (h : i ≤ i') : offset ps i ≤ offset ps i' := by
  obtain ⟨qs, hqs⟩ := List.take_prefix_take_left h (l := ps)
  rw [offset, offset, ← hqs, stream_append, List.length_append]
  exact Nat.le_add_right ..

/-- Between where a frame begins and where it ends there is a header at least. -/
theorem offset_add_le {ps : List Parcel} (hps : ∀ p ∈ ps, p.Fits) {i : Nat} (hi : i < ps.length) :
    offset ps i + 3 ≤ offset ps (i + 1) := by
  have hheader : 3 ≤ ps[i].bytes.length :=
    headerLength_le_length_bytes (hps _ (List.getElem_mem hi))
  have hoffset : offset ps (i + 1) = offset ps i + ps[i].bytes.length := by
    rw [offset, List.take_succ_eq_append_getElem hi, stream_append, List.length_append]
    simp [offset]
  omega

/-! ### Where a stream is cut -/

/-- The first `k` bytes of a stream hold `m` whole frames, and the bytes that are left are the
beginning of one that does not show before it has a header. -/
structure CutAt (ps : List Parcel) (k m : Nat) (left : Bytes) : Prop where
  le_length : m ≤ ps.length
  whole_eq : whole ((stream ps).take k) = ((ps.take m).map frame, left)
  offset_add : offset ps m + left.length = min k (stream ps).length
  lt_offset : m < ps.length → k < offset ps (m + 1)
  next_left : next left = if left.length < 3 then .noHeader else .cut

theorem cutAt_nil (k : Nat) : CutAt [] k 0 [] where
  le_length := Nat.le_refl 0
  whole_eq := by
    rw [stream_nil, List.take_nil]
    exact whole_of_not_frame fun _ _ => Arrival.noConfusion
  offset_add := (Nat.min_zero k).symm
  lt_offset := fun h => absurd h (Nat.lt_irrefl 0)
  next_left := rfl

section Cuts

variable {p : Parcel} {ps : List Parcel} {k : Nat}

theorem cutAt_cons_of_lt (hp : p.Fits) (hk : k < p.bytes.length) :
    CutAt (p :: ps) k 0 (p.bytes.take k) := by
  have hlen : (p.bytes.take k).length = k := List.length_take_of_le (Nat.le_of_lt hk)
  have hframe : next p.bytes = .frame p.frame [] := by simpa using next_bytes_append hp []
  have hnext := next_take hframe hk
  have htake : (stream (p :: ps)).take k = p.bytes.take k :=
    List.take_append_of_le_length (Nat.le_of_lt hk)
  refine ⟨Nat.zero_le _, ?_, ?_, fun _ => ?_, hlen.symm ▸ hnext⟩
  · rw [htake]
    refine whole_of_not_frame fun f rest h => ?_
    rw [h] at hnext
    split at hnext <;> cases hnext
  · rw [hlen, offset_zero, stream_cons, List.length_append]
    omega
  · rw [offset_cons_succ]
    exact Nat.lt_add_right _ hk

theorem CutAt.cons {m : Nat} {left : Bytes} (h : CutAt ps k m left) (hp : p.Fits) :
    CutAt (p :: ps) (p.bytes.length + k) (m + 1) left where
  le_length := Nat.succ_le_succ h.le_length
  whole_eq := by
    rw [stream_cons, List.take_length_add_append, whole_of_frame (next_bytes_append hp _),
      h.whole_eq]
    rfl
  offset_add := by
    have := h.offset_add
    rw [offset_cons_succ, stream_cons, List.length_append]
    omega
  lt_offset hm := by
    have := h.lt_offset (Nat.lt_of_succ_lt_succ hm)
    rw [offset_cons_succ]
    omega
  next_left := h.next_left

/-- Wherever a stream is cut, there is a last whole frame. -/
theorem exists_cutAt (hps : ∀ p ∈ ps, p.Fits) (k : Nat) : ∃ m left, CutAt ps k m left := by
  induction ps generalizing k with
  | nil => exact ⟨0, [], cutAt_nil k⟩
  | cons p ps ih =>
    have hp : p.Fits := hps p List.mem_cons_self
    by_cases hk : k < p.bytes.length
    · exact ⟨0, _, cutAt_cons_of_lt hp hk⟩
    · obtain ⟨k', rfl⟩ := Nat.exists_eq_add_of_le (Nat.not_lt.1 hk)
      obtain ⟨m, left, h⟩ := ih (fun q hq => hps q (List.mem_cons_of_mem _ hq)) k'
      exact ⟨m + 1, left, h.cons hp⟩

end Cuts

/-! ### What is read -/

/-- The reader of the first `k` bytes of a stream gets, in order, the parcels whose frames end among
these bytes, and then nothing. -/
theorem frames_of_take {ps : List Parcel} (hps : ∀ p ∈ ps, p.payload.length ≤ 65535) (k : Nat) :
    let (frames, left) := whole ((stream ps).take k)
    (∀ i, frames[i]? = if offset ps (i + 1) ≤ k then ps[i]?.map frame else none) ∧
      ∀ f rest, next left ≠ .frame f rest := by
  obtain ⟨m, left, h⟩ := exists_cutAt hps k
  rw [h.whole_eq]
  refine ⟨fun i => ?_, fun f rest hnext => ?_⟩
  · rw [List.getElem?_map]
    by_cases hi : i < m
    · have hend : offset ps (i + 1) ≤ k := by
        have hle := offset_mono ps (show i + 1 ≤ m from hi)
        have := h.offset_add
        omega
      rw [List.getElem?_take_of_lt hi, if_pos hend]
    · rw [List.getElem?_eq_none (by simp; omega), Option.map_none]
      by_cases hm : m < ps.length
      · have hend : k < offset ps (i + 1) :=
          Nat.lt_of_lt_of_le (h.lt_offset hm) (offset_mono ps (by omega))
        rw [if_neg (Nat.not_le.2 hend)]
      · rw [List.getElem?_eq_none (by omega), Option.map_none, ite_self]
  · have hleft := h.next_left
    rw [hnext] at hleft
    split at hleft <;> cases hleft

/-- A short frame, a long one and an empty one, of which the last misses a byte. -/
theorem frames_of_take_empty :
    let ps : List Parcel :=
      [⟨.moveRequest, [0, 0, 0, 6, 0, 0, 0, 5]⟩, ⟨.clientConfig, List.replicate 300 9⟩,
        ⟨.provisionalConnection, []⟩]
    (∀ p ∈ ps, p.payload.length ≤ 65535) ∧
      let frames := (whole ((stream ps).take 318)).1
      frames[0]? = some ⟨⟨1, 0, 8⟩, [0, 0, 0, 6, 0, 0, 0, 5]⟩ ∧
        frames[1]? = some (frame ⟨.clientConfig, List.replicate 300 9⟩) ∧ frames[2]? = none := by
  intro ps
  have hps : ∀ p ∈ ps, p.payload.length ≤ 65535 := by decide +kernel
  obtain ⟨hframes, -⟩ := frames_of_take hps 318
  refine ⟨hps, ?_, ?_, ?_⟩
  · exact (hframes 0).trans (if_pos (by decide +kernel))
  · exact (hframes 1).trans (if_pos (by decide +kernel))
  · exact (hframes 2).trans (if_neg (by decide +kernel))

/-! ### How the reading ends -/

/-- A cut falls between two frames, or before the first or behind the last. -/
def IsBoundary (ps : List Parcel) (k : Nat) : Prop := ∃ m ≤ ps.length, k = offset ps m

instance (ps : List Parcel) (k : Nat) : Decidable (IsBoundary ps k) :=
  inferInstanceAs (Decidable (∃ m ≤ ps.length, k = offset ps m))

section Ending

variable {ps : List Parcel} {k : Nat}

/-- Inside the header of a frame no other begins or ends. -/
theorem not_isBoundary_offset_add (hps : ∀ p ∈ ps, p.Fits) {m j : Nat} (hm : m < ps.length)
    (hpos : 0 < j) (hlt : j < 3) : ¬ IsBoundary ps (offset ps m + j) := by
  rintro ⟨m', -, hm'⟩
  have hroom := offset_add_le hps hm
  rcases Nat.lt_or_ge m m' with hless | hle
  · have := offset_mono ps (show m + 1 ≤ m' from hless)
    omega
  · have := offset_mono ps hle
    omega

/-- The reader finds a stream closed that is cut less than a header behind the end of a frame. -/
theorem readAll_take_eq_closed_iff (hps : ∀ p ∈ ps, p.Fits) (hk : k ≤ (stream ps).length) :
    (readAll ((stream ps).take k)).2 = .closed ↔
      ∃ m ≤ ps.length, offset ps m ≤ k ∧ k < offset ps m + 3 := by
  obtain ⟨m, left, h⟩ := exists_cutAt hps k
  have hadd : offset ps m + left.length = k := h.offset_add.trans (Nat.min_eq_left hk)
  have hclosed : (readAll ((stream ps).take k)).2 = .closed ↔ left.length < 3 := by
    rw [readAll, h.whole_eq]
    dsimp only
    rw [h.next_left]
    by_cases hleft : left.length < 3
    · simp [hleft]
    · simp [hleft]
  rw [hclosed]
  constructor
  · intro hleft
    exact ⟨m, h.le_length, by omega, by omega⟩
  · rintro ⟨m', hm', hle, hlt⟩
    -- A frame that ends that near before the cut is the last whole one.
    rcases Nat.lt_trichotomy m' m with hless | rfl | hmore
    · have hend := offset_mono ps (show m' + 1 ≤ m from hless)
      have := offset_add_le hps (Nat.lt_of_lt_of_le hless h.le_length)
      omega
    · omega
    · have hbegin := offset_mono ps (show m + 1 ≤ m' from hmore)
      have := h.lt_offset (by omega)
      omega

/-- The reader finds a stream closed that is cut less than a header behind the end of a frame.  So
the end tells whether the cut falls between frames, unless it leaves one or two bytes of a frame. -/
theorem closed_iff_isBoundary_iff (hps : ∀ p ∈ ps, p.payload.length ≤ 65535)
    (hk : k ≤ (stream ps).length) :
    let ending := (readAll ((stream ps).take k)).2
    (ending = .closed ↔ ∃ m ≤ ps.length, offset ps m ≤ k ∧ k < offset ps m + 3) ∧
      (((ending = .closed ↔ IsBoundary ps k) ∧ (¬ IsBoundary ps k → ending = .cut)) ↔
        ∀ m < ps.length, k ≠ offset ps m + 1 ∧ k ≠ offset ps m + 2) := by
  have hclosed := readAll_take_eq_closed_iff hps hk
  refine ⟨hclosed, ?_⟩
  constructor
  · rintro ⟨hboundary, -⟩ m hm
    have hnone : ∀ j, 0 < j → j < 3 → k ≠ offset ps m + j := by
      rintro j hpos hlt rfl
      refine not_isBoundary_offset_add hps hm hpos hlt (hboundary.1 (hclosed.2 ?_))
      exact ⟨m, Nat.le_of_lt hm, by omega, by omega⟩
    exact ⟨hnone 1 (by decide) (by decide), hnone 2 (by decide) (by decide)⟩
  · intro hno
    have hiff : (readAll ((stream ps).take k)).2 = .closed ↔ IsBoundary ps k := by
      rw [hclosed]
      constructor
      · rintro ⟨m, hm, hle, hlt⟩
        refine ⟨m, hm, ?_⟩
        rcases Nat.lt_or_eq_of_le hm with hm' | rfl
        · have := hno m hm'
          omega
        · rw [offset_length] at hle ⊢
          omega
      · rintro ⟨m, hm, rfl⟩
        exact ⟨m, hm, Nat.le_refl _, Nat.lt_add_of_pos_right (by decide)⟩
    refine ⟨hiff, fun hboundary => ?_⟩
    cases hend : (readAll ((stream ps).take k)).2 with
    | closed => exact absurd (hiff.1 hend) hboundary
    | cut => rfl

end Ending

/-- A cut inside a payload is found out. -/
theorem closed_iff_isBoundary_iff_payload :
    let ps : List Parcel := [⟨.moveState, [1]⟩, ⟨.provisionalConnection, []⟩]
    (∀ p ∈ ps, p.payload.length ≤ 65535) ∧ 3 ≤ (stream ps).length ∧
      (∀ m < ps.length, 3 ≠ offset ps m + 1 ∧ 3 ≠ offset ps m + 2) ∧ ¬ IsBoundary ps 3 ∧
        (readAll ((stream ps).take 3)).2 = .cut := by
  intro ps
  have hps : ∀ p ∈ ps, p.payload.length ≤ 65535 := by decide
  have hk : 3 ≤ (stream ps).length := by decide
  have hno : ∀ m < ps.length, 3 ≠ offset ps m + 1 ∧ 3 ≠ offset ps m + 2 := by decide
  have hinside : ¬ IsBoundary ps 3 := by decide
  exact ⟨hps, hk, hno, hinside, ((closed_iff_isBoundary_iff hps hk).2.2 hno).2 hinside⟩

/-- A cut inside a header is not found out. -/
theorem closed_inside_header :
    let ps : List Parcel := [⟨.provisionalConnection, []⟩, ⟨.moveState, [1]⟩]
    5 ≤ (stream ps).length ∧ ¬ IsBoundary ps 5 ∧
      readAll ((stream ps).take 5) = ([⟨⟨1, 10, 0⟩, []⟩], .closed) := by
  intro ps
  refine ⟨by decide, by decide, ?_⟩
  have hframe : next ((stream ps).take 5) = .frame ⟨⟨1, 10, 0⟩, []⟩ [1, 11] := rfl
  rw [readAll_of_frame hframe, readAll_of_noHeader rfl]

end Parcel

end TileRealm
