import TileRealm.Proofs.Wire.Request

/-!
# One reader for many items

A payload is read item by item, and when a reading fails the next one goes on from where it stopped.
Where that is, and what comes of the reading, can be told from the payload alone
(`Payload.Outcome`, `Payload.read_at_of_outcome`).  So every reading in a row of them is accounted for
(`Payload.Attempt.IsAccounted`), and items that were written are all read back
(`Payload.attempts_accounted`).
-/

namespace TileRealm

/-- The cursor of a payload behind its first `offset` bytes. -/
def Cursor.behind (payload : Bytes) (offset : Nat) : Cursor := ⟨offset, payload.drop offset⟩

namespace Reading

variable {α β : Type} {r : Reading α} {f : α → Reading β} {c c' : Cursor}

theorem at_bind_of_ok {a : α} (h : r.at c = (.ok a, c')) : (r >>= f).at c = (f a).at c' := by
  rw [at_bind, h]

theorem at_bind_of_error {e : CodecError} (h : r.at c = (.error e, c')) :
    (r >>= f).at c = (.error e, c') := by
  rw [at_bind, h]

end Reading

namespace Payload

open Reading

/-! ### Items -/

/-- What an item of a payload can be. -/
inductive ItemKind where
  | int32
  | byte
  | text
deriving DecidableEq, Repr

/-- An item of a payload. -/
inductive Item where
  | int32 (n : Int32)
  | byte (b : UInt8)
  | text (s : String)
deriving DecidableEq, Repr

namespace Item

/-- Which of the three an item is. -/
def kind : Item → ItemKind
  | int32 _ => .int32
  | byte _ => .byte
  | text _ => .text

/-- What is written for an item. -/
def bytes : Item → Bytes
  | int32 n => Payload.int32 n
  | byte b => Payload.byte b
  | text s => Payload.text s

/-- Whether 32 bits can count the bytes of an item. -/
def Measured : Item → Prop
  | text s => s.utf8ByteSize < countLimit
  | _ => True

end Item

namespace ItemKind

/-- Take an item. -/
def read : ItemKind → Reading Item
  | int32 => do return .int32 (← readInt32)
  | byte => do return .byte (← readByte)
  | text => do return .text (← readText)

/-- The bytes that are taken at once in the beginning: the item itself, or the length of a text. -/
def opening : ItemKind → Nat
  | int32 => 4
  | byte => 1
  | text => 4

/-- A reading of something that makes up an item takes the item. -/
theorem takes_item {α : Type} {r : Reading α} {R : α → Bytes → Prop} (h : r.Takes R) (f : α → Item)
    {k : ItemKind} (hf : ∀ v, v.kind = k ↔ ∃ a, f a = v)
    (hR : ∀ a b, R a b ↔ (f a).Measured ∧ b = (f a).bytes) :
    (do return f (← r) : Reading Item).Takes fun v b => v.kind = k ∧ v.Measured ∧ b = v.bytes := by
  refine (h.map f).congr fun v b => ?_
  constructor
  · rintro ⟨a, ha, rfl⟩
    exact ⟨(hf _).2 ⟨a, rfl⟩, (hR a b).1 ha⟩
  · rintro ⟨hkind, hv⟩
    obtain ⟨a, rfl⟩ := (hf v).1 hkind
    exact ⟨a, (hR a b).2 hv, rfl⟩

theorem takes_read (k : ItemKind) :
    k.read.Takes fun v b => v.kind = k ∧ v.Measured ∧ b = v.bytes := by
  cases k with
  | int32 =>
    refine takes_item takes_readInt32 Item.int32 (fun v => ?_) fun n b => (Iff.of_eq (true_and _)).symm
    cases v <;> simp [Item.kind]
  | byte =>
    refine takes_item takes_readByte Item.byte (fun v => ?_) fun n b => (Iff.of_eq (true_and _)).symm
    cases v <;> simp [Item.kind]
  | text =>
    refine takes_item takes_readText Item.text (fun v => ?_) fun s b => Iff.rfl
    cases v <;> simp [Item.kind]

end ItemKind

/-! ### What comes of a reading -/

/-- What comes of taking an item behind the first bytes of a payload, and how many bytes are behind the
cursor then. -/
inductive Outcome (payload : Bytes) :
    ItemKind → Nat → Except CodecError Item → Nat → Prop
  | item {o : Nat} (v : Item) (measured : v.Measured) (here : v.bytes <+: payload.drop o) :
    Outcome payload v.kind o (.ok v) (o + v.bytes.length)
  | short {o : Nat} (k : ItemKind) (few : (payload.drop o).length < k.opening) :
    Outcome payload k o (.error (.truncated o k.opening)) o
  | negative {o : Nat} (n : Int32) (here : int32 n <+: payload.drop o) (neg : n.toInt < 0) :
    Outcome payload .text o (.error (.negativeLength n)) (o + 4)
  | shortBody {o : Nat} (n : Int32) (here : int32 n <+: payload.drop o) (nonneg : 0 ≤ n.toInt)
    (few : (payload.drop (o + 4)).length < n.toInt.toNat) :
    Outcome payload .text o (.error (.truncated (o + 4) n.toInt.toNat)) (o + 4)
  | notText {o : Nat} (n : Int32) (body : Bytes) (here : int32 n ++ body <+: payload.drop o)
    (len : n.toInt = body.length) (invalid : ∀ s, body ≠ Text.utf8 s) :
    Outcome payload .text o (.error .invalidUtf8) (o + 4 + body.length)

section Outcomes

variable {payload : Bytes} {k : ItemKind} {o o' : Nat} {r : Except CodecError Item}

theorem readBytes_at_of_lt {n : Nat} {c : Cursor} (h : c.rest.length < n) :
    (readBytes n).at c = (.error (.truncated c.offset n), c) := by
  rw [readBytes_at, split?_eq_none_iff.2 h]

/-- Each reading begins with the bytes of its opening. -/
theorem read_at_of_lt {c : Cursor} (h : c.rest.length < k.opening) :
    k.read.at c = (.error (.truncated c.offset k.opening), c) := by
  have hfail := readBytes_at_of_lt h
  cases k with
  | int32 => exact at_bind_of_error (at_bind_of_error hfail)
  | byte => exact at_bind_of_error (at_bind_of_error hfail)
  | text => exact at_bind_of_error (at_bind_of_error (at_bind_of_error (at_bind_of_error hfail)))

theorem readCount_at_append (n : Int32) (rest : Bytes) :
    readCount.at ⟨o, int32 n ++ rest⟩ =
      (if n.toInt < 0 then .error (.negativeLength n) else .ok n.toInt.toNat, ⟨o + 4, rest⟩) := by
  rw [readCount, at_bind_of_ok (takes_readInt32.at_append rfl o rest)]
  by_cases hn : n.toInt < 0
  · rw [if_pos hn, if_pos hn]
    rfl
  · rw [if_neg hn, if_neg hn]
    rfl

theorem behind_add {front rest : Bytes} (h : front ++ rest = payload.drop o) :
    Cursor.behind payload (o + front.length) = ⟨o + front.length, rest⟩ := by
  rw [Cursor.behind, ← List.drop_drop, ← h, List.drop_left]

theorem behind_eq {front rest : Bytes} (h : front ++ rest = payload.drop o) :
    Cursor.behind payload o = ⟨o, front ++ rest⟩ := by
  rw [Cursor.behind, h]

/-- Behind its length, a text is the bytes that the length announces. -/
theorem readText_at_append {n : Int32} (hn : 0 ≤ n.toInt) (rest : Bytes) :
    readText.at ⟨o, int32 n ++ rest⟩ =
      match split? n.toInt.toNat rest with
      | some (body, rest') =>
        (match Text.ofUtf8? body with
          | some s => .ok s
          | none => .error .invalidUtf8, ⟨o + 4 + n.toInt.toNat, rest'⟩)
      | none => (.error (.truncated (o + 4) n.toInt.toNat), ⟨o + 4, rest⟩) := by
  have hcount := readCount_at_append (o := o) n rest
  rw [if_neg (Int.not_lt.2 hn)] at hcount
  rw [readText, at_bind_of_ok hcount, at_bind, readBytes_at]
  cases split? n.toInt.toNat rest with
  | none => rfl
  | some parts =>
    dsimp only
    cases Text.ofUtf8? parts.1 with
    | none => rfl
    | some s => rfl

/-- What should come of a reading does come of it. -/
theorem read_at_of_outcome (h : Outcome payload k o r o') :
    k.read.at (.behind payload o) = (r, .behind payload o') := by
  cases h with
  | item v measured here =>
    obtain ⟨rest, hrest⟩ := here
    rw [behind_add hrest, behind_eq hrest]
    exact v.kind.takes_read.at_append ⟨rfl, measured, rfl⟩ o rest
  | short k few => exact read_at_of_lt few
  | negative n here neg =>
    -- The length is behind the cursor already when it is found to be none.
    obtain ⟨rest, hrest⟩ := here
    have hcount := readCount_at_append (o := o) n rest
    rw [if_pos neg] at hcount
    rw [← length_int32 n, behind_add hrest, behind_eq hrest]
    exact at_bind_of_error (at_bind_of_error hcount)
  | shortBody n here nonneg few =>
    obtain ⟨rest, hrest⟩ := here
    rw [← List.drop_drop, ← hrest, ← length_int32 n, List.drop_left] at few
    have htext := readText_at_append (o := o) nonneg rest
    rw [split?_eq_none_iff.2 few] at htext
    rw [← length_int32 n, behind_add hrest, behind_eq hrest]
    exact at_bind_of_error htext
  | notText n body here len invalid =>
    obtain ⟨rest, hrest⟩ := here
    have hnone : Text.ofUtf8? body = none :=
      Option.eq_none_iff_forall_ne_some.2 fun s hs => invalid s (Text.ofUtf8?_eq_some_iff.1 hs)
    have hlen : n.toInt.toNat = body.length := by omega
    have htext := readText_at_append (o := o) (n := n) (by omega) (body ++ rest)
    rw [split?_eq_some_iff.2 ⟨rfl, hlen.symm⟩] at htext
    simp only [hnone, hlen] at htext
    have hend := behind_add hrest
    rw [List.length_append, length_int32, ← Nat.add_assoc] at hend
    rw [hend, behind_eq hrest, List.append_assoc]
    exact at_bind_of_error htext

theorem Outcome.unique {r₁ r₂ : Except CodecError Item} {o₁ o₂ : Nat}
    (h₁ : Outcome payload k o r₁ o₁) (h₂ : Outcome payload k o r₂ o₂) : r₁ = r₂ ∧ o₁ = o₂ := by
  have h := (read_at_of_outcome h₁).symm.trans (read_at_of_outcome h₂)
  obtain ⟨hr, hc⟩ := Prod.mk.inj h
  exact ⟨hr, congrArg Cursor.offset hc⟩

/-- A length and what follows it make a text, or tell why there is none. -/
theorem exists_outcome_text {n : Int32} {rest : Bytes} (h : int32 n ++ rest = payload.drop o) :
    ∃ r o', Outcome payload .text o r o' := by
  have hn : int32 n <+: payload.drop o := ⟨rest, h⟩
  rcases Int.lt_or_le n.toInt 0 with hneg | hnonneg
  · exact ⟨_, _, .negative n hn hneg⟩
  rcases Nat.lt_or_ge rest.length n.toInt.toNat with hfew | henough
  · refine ⟨_, _, .shortBody n hn hnonneg ?_⟩
    rwa [← List.drop_drop, ← h, ← length_int32 n, List.drop_left]
  · obtain ⟨body, rest, rfl, hlen⟩ : ∃ body rest', rest = body ++ rest' ∧ body.length = n.toInt.toNat :=
      ⟨_, _, (List.take_append_drop n.toInt.toNat rest).symm, List.length_take_of_le henough⟩
    by_cases htext : ∃ s, body = Text.utf8 s
    · -- The length is then the one that is written in front of the text.
      obtain ⟨s, rfl⟩ := htext
      have hbegins : BeginsWithText (payload.drop o) :=
        ⟨n, _, rest, by rw [← h, List.append_assoc], hnonneg, hlen, s, rfl⟩
      obtain ⟨s, rest, hs, hrest⟩ := beginsWithText_iff.1 hbegins
      exact ⟨_, _, .item (.text s) hs ⟨rest, hrest.symm⟩⟩
    · refine ⟨_, _, .notText n body ⟨rest, ?_⟩ (by omega) fun s hs => htext ⟨s, hs⟩⟩
      rw [List.append_assoc, h]

/-- Something comes of every reading. -/
theorem exists_outcome (payload : Bytes) (k : ItemKind) (o : Nat) :
    ∃ r o', Outcome payload k o r o' := by
  rcases Nat.lt_or_ge (payload.drop o).length k.opening with hfew | henough
  · exact ⟨_, _, .short k hfew⟩
  cases k with
  | int32 =>
    obtain ⟨n, rest, h⟩ := exists_int32_append_iff.2 henough
    exact ⟨_, _, .item (.int32 n) trivial ⟨rest, h.symm⟩⟩
  | byte =>
    obtain ⟨b, rest, h⟩ := List.exists_cons_of_length_pos henough
    exact ⟨_, _, .item (.byte b) trivial ⟨rest, h.symm⟩⟩
  | text =>
    obtain ⟨n, rest, h⟩ := exists_int32_append_iff.2 henough
    exact exists_outcome_text h.symm

theorem Outcome.le (h : Outcome payload k o r o') : o ≤ o' := by
  cases h <;> omega

theorem Outcome.le_length (h : Outcome payload k o r o') (ho : o ≤ payload.length) :
    o' ≤ payload.length := by
  cases h with
  | short => exact ho
  | item v _ here =>
    have := here.length_le
    rw [List.length_drop] at this
    omega
  | negative n here _ | shortBody n here _ _ =>
    have := here.length_le
    rw [List.length_drop, length_int32] at this
    omega
  | notText n body here _ _ =>
    have := here.length_le
    rw [List.length_drop, List.length_append, length_int32] at this
    omega

end Outcomes

/-! ### Readings in a row -/

/-- A reading of an item: the cursors in front of it and behind it, and its result. -/
structure Attempt where
  kind : ItemKind
  before : Cursor
  result : Except CodecError Item
  after : Cursor

/-- The readings of one reader, each of which goes on where the one before it stopped. -/
def attempts : List ItemKind → Cursor → List Attempt
  | [], _ => []
  | k :: ks, c => ⟨k, c, (k.read.at c).1, (k.read.at c).2⟩ :: attempts ks (k.read.at c).2

/-- Where the readings of one reader stop in the end. -/
def cursorAfter (ks : List ItemKind) (c : Cursor) : Cursor :=
  ks.foldl (fun c k => (k.read.at c).2) c

namespace Attempt

/-- The bytes of a payload that the cursor moves over. -/
def movedOver (a : Attempt) (payload : Bytes) : Bytes :=
  (payload.drop a.before.offset).take (a.after.offset - a.before.offset)

/-- What is to be known of a reading of a payload: where its cursor is and goes, when there is an item
and from which bytes, and when there is which error. -/
structure IsAccounted (payload : Bytes) (a : Attempt) : Prop where
  /-- The cursor does not go back and does not leave the payload. -/
  offset_le : a.before.offset ≤ a.after.offset
  offset_le_length : a.after.offset ≤ payload.length
  /-- What remains is what is not behind the cursor. -/
  remaining_before : a.before.remaining = payload.length - a.before.offset
  remaining_after : a.after.remaining = payload.length - a.after.offset
  /-- There is an item where its bytes come next, and the cursor moves over these. -/
  ok_iff : ∀ v, a.result = .ok v ↔
    v.kind = a.kind ∧ v.Measured ∧ v.bytes <+: payload.drop a.before.offset
  moved_ok : ∀ v, a.result = .ok v → a.movedOver payload = v.bytes
  /-- Bytes are missing when fewer remain than the item needs, or else than its length announces. -/
  truncated_iff : ∀ offset needed, a.result = .error (.truncated offset needed) ↔
    (a.before.remaining < a.kind.opening ∧ offset = a.before.offset ∧ needed = a.kind.opening) ∨
      a.kind = .text ∧ ∃ n : Int32, int32 n <+: payload.drop a.before.offset ∧ 0 ≤ n.toInt ∧
        a.before.remaining < 4 + n.toInt ∧ offset = a.before.offset + 4 ∧ needed = n.toInt.toNat
  moved_truncated : ∀ offset needed, a.result = .error (.truncated offset needed) →
    a.after.offset = offset
  /-- A length may be negative. -/
  negativeLength_iff : ∀ n, a.result = .error (.negativeLength n) ↔
    a.kind = .text ∧ int32 n <+: payload.drop a.before.offset ∧ n.toInt < 0
  moved_negativeLength : ∀ n, a.result = .error (.negativeLength n) →
    a.after.offset = a.before.offset + 4
  /-- The bytes behind a length may be those of no text. -/
  invalidUtf8_iff : a.result = .error .invalidUtf8 ↔
    a.kind = .text ∧ ∃ n body, int32 n ++ body <+: payload.drop a.before.offset ∧
      n.toInt = body.length ∧ ∀ s, body ≠ Text.utf8 s
  moved_invalidUtf8 : a.result = .error .invalidUtf8 →
    ∃ n : Int32, int32 n <+: payload.drop a.before.offset ∧
      a.after.offset = a.before.offset + 4 + n.toInt
  /-- There are no other errors. -/
  isMalformed : ∀ e, a.result = .error e → e.IsMalformed

end Attempt

section Attempts

variable {payload : Bytes} {k : ItemKind} {o o' : Nat} {r : Except CodecError Item}

theorem Outcome.ok_iff (h : Outcome payload k o r o') (v : Item) :
    r = .ok v ↔ v.kind = k ∧ v.Measured ∧ v.bytes <+: payload.drop o := by
  constructor
  · rintro rfl
    cases h with
    | item v measured here => exact ⟨rfl, measured, here⟩
  · rintro ⟨rfl, measured, here⟩
    exact (h.unique (.item v measured here)).1

theorem Outcome.truncated_iff (h : Outcome payload k o r o') (offset needed : Nat) :
    r = .error (.truncated offset needed) ↔
      ((payload.drop o).length < k.opening ∧ offset = o ∧ needed = k.opening) ∨
        k = .text ∧ ∃ n : Int32, int32 n <+: payload.drop o ∧ 0 ≤ n.toInt ∧
          (payload.drop o).length < 4 + n.toInt ∧ offset = o + 4 ∧ needed = n.toInt.toNat := by
  constructor
  · rintro rfl
    cases h with
    | short k few => exact .inl ⟨few, rfl, rfl⟩
    | shortBody n here nonneg few =>
      rw [← List.drop_drop, List.length_drop] at few
      exact .inr ⟨rfl, n, here, nonneg, by omega, rfl, rfl⟩
  · rintro (⟨few, rfl, rfl⟩ | ⟨rfl, n, here, nonneg, few, rfl, rfl⟩)
    · exact (h.unique (.short k few)).1
    · refine (h.unique (.shortBody n here nonneg ?_)).1
      have := here.length_le
      rw [length_int32] at this
      rw [← List.drop_drop, List.length_drop]
      omega

theorem Outcome.negativeLength_iff (h : Outcome payload k o r o') (n : Int32) :
    r = .error (.negativeLength n) ↔ k = .text ∧ int32 n <+: payload.drop o ∧ n.toInt < 0 := by
  constructor
  · rintro rfl
    cases h with
    | negative n here neg => exact ⟨rfl, here, neg⟩
  · rintro ⟨rfl, here, neg⟩
    exact (h.unique (.negative n here neg)).1

theorem Outcome.invalidUtf8_iff (h : Outcome payload k o r o') :
    r = .error .invalidUtf8 ↔
      k = .text ∧ ∃ n body, int32 n ++ body <+: payload.drop o ∧ n.toInt = body.length ∧
        ∀ s, body ≠ Text.utf8 s := by
  constructor
  · rintro rfl
    cases h with
    | notText n body here len invalid => exact ⟨rfl, n, body, here, len, invalid⟩
  · rintro ⟨rfl, n, body, here, len, invalid⟩
    exact (h.unique (.notText n body here len invalid)).1

theorem isAccounted_of_outcome (h : Outcome payload k o r o') (ho : o ≤ payload.length) :
    Attempt.IsAccounted payload ⟨k, .behind payload o, r, .behind payload o'⟩ where
  offset_le := h.le
  offset_le_length := h.le_length ho
  remaining_before := List.length_drop
  remaining_after := List.length_drop
  ok_iff := h.ok_iff
  moved_ok v hr := by
    cases hr
    cases h with
    | item v measured here =>
      show (payload.drop o).take (o + v.bytes.length - o) = v.bytes
      rw [Nat.add_sub_cancel_left]
      exact (List.prefix_iff_eq_take.1 here).symm
  truncated_iff := h.truncated_iff
  moved_truncated offset needed hr := by
    cases hr
    cases h <;> rfl
  negativeLength_iff := h.negativeLength_iff
  moved_negativeLength n hr := by
    cases hr
    cases h
    rfl
  invalidUtf8_iff := h.invalidUtf8_iff
  moved_invalidUtf8 hr := by
    cases hr
    cases h with
    | notText n body here len invalid =>
      refine ⟨n, (List.prefix_append ..).trans here, ?_⟩
      rw [len]
      rfl
  isMalformed e hr := by
    cases hr
    cases h <;> trivial

variable {ks : List ItemKind}

theorem attempts_cons_of_outcome (h : Outcome payload k o r o') :
    attempts (k :: ks) (.behind payload o) =
      ⟨k, .behind payload o, r, .behind payload o'⟩ :: attempts ks (.behind payload o') := by
  rw [attempts, read_at_of_outcome h]

theorem map_kind_attempts (ks : List ItemKind) (c : Cursor) :
    (attempts ks c).map Attempt.kind = ks := by
  induction ks generalizing c with
  | nil => rfl
  | cons k ks ih => rw [attempts, List.map_cons, ih]

theorem le_before_of_mem_attempts {a : Attempt} (h : a ∈ attempts ks (.behind payload o)) :
    o ≤ a.before.offset := by
  induction ks generalizing o with
  | nil => cases h
  | cons k ks ih =>
    obtain ⟨r, o', hout⟩ := exists_outcome payload k o
    rw [attempts_cons_of_outcome hout] at h
    rcases List.mem_cons.1 h with rfl | h
    · exact Nat.le_refl o
    · exact Nat.le_trans hout.le (ih h)

/-- Every reading of a row is accounted for, whether those before it failed or not. -/
theorem isAccounted_of_mem_attempts {a : Attempt} (ho : o ≤ payload.length)
    (h : a ∈ attempts ks (.behind payload o)) : a.IsAccounted payload := by
  induction ks generalizing o with
  | nil => cases h
  | cons k ks ih =>
    obtain ⟨r, o', hout⟩ := exists_outcome payload k o
    rw [attempts_cons_of_outcome hout] at h
    rcases List.mem_cons.1 h with rfl | h
    · exact isAccounted_of_outcome hout ho
    · -- Failed or not, the reading has left its cursor inside the payload.
      exact ih (hout.le_length ho) h

/-- No reading begins in front of the place where an earlier one stopped. -/
theorem pairwise_attempts (payload : Bytes) (ks : List ItemKind) (o : Nat) :
    (attempts ks (.behind payload o)).Pairwise fun a b => a.after.offset ≤ b.before.offset := by
  induction ks generalizing o with
  | nil => exact .nil
  | cons k ks ih =>
    obtain ⟨r, o', hout⟩ := exists_outcome payload k o
    rw [attempts_cons_of_outcome hout]
    exact .cons (fun b hb => le_before_of_mem_attempts hb) (ih o')

/-! ### Written items -/

/-- Items are read where they were written, whatever follows. -/
theorem read_written {vs : List Item} (hvs : ∀ v ∈ vs, v.Measured)
    (h : vs.flatMap Item.bytes <+: payload.drop o) :
    (attempts (vs.map Item.kind) (.behind payload o)).map Attempt.result = vs.map .ok ∧
      cursorAfter (vs.map Item.kind) (.behind payload o) =
        .behind payload (o + (vs.flatMap Item.bytes).length) := by
  induction vs generalizing o with
  | nil => exact ⟨rfl, rfl⟩
  | cons v vs ih =>
    rw [List.flatMap_cons] at h
    have hout := Outcome.item v (hvs v List.mem_cons_self) ((List.prefix_append ..).trans h)
    have hrest : vs.flatMap Item.bytes <+: payload.drop (o + v.bytes.length) := by
      obtain ⟨rest, hrest⟩ := h
      exact ⟨rest, by rw [← List.drop_drop, ← hrest, List.append_assoc, List.drop_left]⟩
    obtain ⟨hresults, hafter⟩ := ih (fun w hw => hvs w (List.mem_cons_of_mem v hw)) hrest
    constructor
    · rw [List.map_cons, attempts_cons_of_outcome hout, List.map_cons, hresults, List.map_cons]
    · rw [List.map_cons, cursorAfter, List.foldl_cons, read_at_of_outcome hout, List.flatMap_cons,
        List.length_append, ← Nat.add_assoc]
      exact hafter

/-- A reader may be asked for whatever items of whatever payload: each of its readings is accounted for,
and none goes back behind an earlier one.  What was written item by item is read item by item, and
nothing remains. -/
theorem attempts_accounted :
    (∀ (payload : Bytes) (ks : List ItemKind), let as := attempts ks (.start payload)
      as.map Attempt.kind = ks ∧ (∀ a ∈ as, a.IsAccounted payload) ∧
        as.Pairwise fun a b => a.after.offset ≤ b.before.offset) ∧
    ∀ vs : List Item, (∀ v ∈ vs, v.Measured) →
      let written := Cursor.start (vs.flatMap Item.bytes)
      (attempts (vs.map Item.kind) written).map Attempt.result = vs.map .ok ∧
        (cursorAfter (vs.map Item.kind) written).remaining = 0 := by
  constructor
  · intro payload ks
    exact ⟨map_kind_attempts ks _, fun a => isAccounted_of_mem_attempts (Nat.zero_le _),
      pairwise_attempts payload ks 0⟩
  · intro vs hvs
    have hall : vs.flatMap Item.bytes <+: (vs.flatMap Item.bytes).drop 0 := List.prefix_rfl
    obtain ⟨hresults, hafter⟩ := read_written hvs hall
    refine ⟨hresults, (congrArg Cursor.remaining hafter).trans ?_⟩
    rw [Nat.zero_add]
    exact List.length_eq_zero_iff.2 List.drop_length

/-- A length of less than nothing, a length of two in front of bytes that are no text, and too few bytes
for a number: the reader goes on each time. -/
theorem attempts_accounted_broken :
    let payload : Bytes := [255, 255, 255, 255, 0, 0, 0, 2, 195, 40, 7]
    let as := attempts [.text, .text, .int32, .byte] (.start payload)
    as.map (fun a => a.after.offset) = [4, 10, 10, 11] ∧
      as.map (fun a => a.result.toOption) = [none, none, none, some (.byte 7)] ∧
      (∀ a ∈ as, a.IsAccounted payload) ∧
      let vs : List Item := [.text "é", .int32 (-5), .byte 9]
      let written := Cursor.start (vs.flatMap Item.bytes)
      (∀ v ∈ vs, v.Measured) ∧
        (attempts (vs.map Item.kind) written).map Attempt.result = vs.map .ok ∧
        (cursorAfter (vs.map Item.kind) written).remaining = 0 := by
  intro payload as
  obtain ⟨hall, hwritten⟩ := attempts_accounted
  have hvs : ∀ v ∈ [Item.text "é", .int32 (-5), .byte 9], v.Measured := by
    intro v hv
    simp only [List.mem_cons, List.not_mem_nil, or_false] at hv
    rcases hv with rfl | rfl | rfl
    · show _ < _
      decide
    · trivial
    · trivial
  exact ⟨by decide +kernel, by decide +kernel, (hall _ _).2.1, hvs, hwritten _ hvs⟩

end Attempts

end Payload

end TileRealm
