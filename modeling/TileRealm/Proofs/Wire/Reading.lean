import Mathlib.Algebra.Group.Nat.Defs
import TileRealm.Wire.Payload

/-!
# What readings take

A reading takes a relation between values and bytes (`Reading.Takes`) if it succeeds on exactly the
bytes that begin with some that stand for a value, gives that value and stops behind them, and if
with all other bytes it fails because of the bytes.  There is one rule for each way to put readings
together, and one statement for each field of a payload.
-/

namespace TileRealm

/-- An error that lies in the bytes of a payload, not in its kind or its size. -/
def CodecError.IsMalformed : CodecError → Prop
  | .truncated .. => True
  | .negativeLength _ => True
  | .invalidUtf8 => True
  | _ => False

namespace Reading

variable {α β : Type}

/-! ### Steps of a reading -/

theorem at_pure (a : α) (c : Cursor) : (pure a : Reading α).at c = (.ok a, c) := rfl

theorem at_bind (r : Reading α) (k : α → Reading β) (c : Cursor) :
    (r >>= k).at c =
      match r.at c with
      | (.ok a, c') => (k a).at c'
      | (.error e, c') => (.error e, c') := by
  change (ExceptT.bindCont k (r.at c).1).run (r.at c).2 = _
  obtain ⟨result, c'⟩ := r.at c
  cases result with
  | ok a => rfl
  | error e => rfl

theorem at_bind_eq_ok_iff {r : Reading α} {k : α → Reading β} {c c' : Cursor} {b : β} :
    (r >>= k).at c = (.ok b, c') ↔ ∃ a c₁, r.at c = (.ok a, c₁) ∧ (k a).at c₁ = (.ok b, c') := by
  rw [at_bind]
  constructor
  · intro h
    split at h
    next a c₁ hr => exact ⟨a, c₁, hr, h⟩
    next => cases h
  · rintro ⟨a, c₁, hr, hk⟩
    rw [hr]
    exact hk

theorem at_bind_eq_error {r : Reading α} {k : α → Reading β} {c c' : Cursor} {e : CodecError}
    (h : (r >>= k).at c = (.error e, c')) :
    r.at c = (.error e, c') ∨ ∃ a c₁, r.at c = (.ok a, c₁) ∧ (k a).at c₁ = (.error e, c') := by
  rw [at_bind] at h
  split at h
  next a c₁ hr => exact .inr ⟨a, c₁, hr, h⟩
  next e' c₁ hr =>
    cases h
    exact .inl hr

/-! ### Relations between values and bytes -/

/-- A reading succeeds on the bytes that stand for a value, whatever follows, and on no others. -/
structure Takes (r : Reading α) (R : α → Bytes → Prop) : Prop where
  at_eq_ok_iff : ∀ {c c' a}, r.at c = (.ok a, c') ↔
    ∃ b, R a b ∧ c.rest = b ++ c'.rest ∧ c'.offset = c.offset + b.length
  isMalformed : ∀ {c c' e}, r.at c = (.error e, c') → e.IsMalformed

namespace Takes

variable {r : Reading α} {R R' : α → Bytes → Prop}

theorem at_append (h : r.Takes R) {a : α} {b : Bytes} (hb : R a b) (offset : Nat) (rest : Bytes) :
    r.at ⟨offset, b ++ rest⟩ = (.ok a, ⟨offset + b.length, rest⟩) :=
  h.at_eq_ok_iff.2 ⟨b, hb, rfl, rfl⟩

/-- A payload is read if it begins with bytes that stand for a value, and only then. -/
theorem fst_at_eq_ok_iff (h : r.Takes R) (offset : Nat) {a : α} {bytes : Bytes} :
    (r.at ⟨offset, bytes⟩).1 = .ok a ↔ ∃ b rest, R a b ∧ bytes = b ++ rest := by
  constructor
  · intro ha
    obtain ⟨b, hb, hrest, -⟩ := h.at_eq_ok_iff.1 (Prod.ext ha rfl)
    exact ⟨b, _, hb, hrest⟩
  · rintro ⟨b, rest, hb, rfl⟩
    rw [h.at_append hb]

theorem congr (h : r.Takes R) (hR : ∀ a b, R a b ↔ R' a b) : r.Takes R' where
  at_eq_ok_iff := h.at_eq_ok_iff.trans (exists_congr fun b => and_congr_left' (hR _ b))
  isMalformed := h.isMalformed

theorem pure (a : α) : (pure a : Reading α).Takes fun a' b => a' = a ∧ b = [] where
  at_eq_ok_iff {c c' a'} := by
    rw [at_pure]
    constructor
    · intro h
      cases h
      exact ⟨[], ⟨rfl, rfl⟩, rfl, rfl⟩
    · rintro ⟨b, ⟨rfl, rfl⟩, hrest, hoffset⟩
      obtain ⟨offset, rest⟩ := c
      obtain ⟨offset', rest'⟩ := c'
      cases hrest
      cases hoffset
      rfl
  isMalformed h := by cases h

/-- Of two readings, one after the other, each takes its own bytes; of what the first one gives,
the second one need only be known to take its bytes where some stand for it. -/
theorem bind_of {k : α → Reading β} {S : α → β → Bytes → Prop} (h : r.Takes R)
    (hk : ∀ a x, R a x → (k a).Takes (S a)) :
    (r >>= k).Takes fun b w => ∃ a x y, R a x ∧ S a b y ∧ w = x ++ y where
  at_eq_ok_iff {c c' b} := by
    rw [at_bind_eq_ok_iff]
    constructor
    · rintro ⟨a, c₁, hr, hb⟩
      obtain ⟨x, hx, hrest, hoffset⟩ := h.at_eq_ok_iff.1 hr
      obtain ⟨y, hy, hrest', hoffset'⟩ := (hk a x hx).at_eq_ok_iff.1 hb
      refine ⟨x ++ y, ⟨a, x, y, hx, hy, rfl⟩, ?_, ?_⟩
      · rw [hrest, hrest', List.append_assoc]
      · rw [hoffset', hoffset, List.length_append, Nat.add_assoc]
    · rintro ⟨w, ⟨a, x, y, hx, hy, rfl⟩, hrest, hoffset⟩
      rw [List.append_assoc] at hrest
      rw [List.length_append, ← Nat.add_assoc] at hoffset
      exact ⟨a, ⟨c.offset + x.length, y ++ c'.rest⟩, h.at_eq_ok_iff.2 ⟨x, hx, hrest, rfl⟩,
        (hk a x hx).at_eq_ok_iff.2 ⟨y, hy, rfl, hoffset⟩⟩
  isMalformed he := by
    rcases at_bind_eq_error he with hr | ⟨a, c₁, hr, hb⟩
    · exact h.isMalformed hr
    · obtain ⟨x, hx, -, -⟩ := h.at_eq_ok_iff.1 hr
      exact (hk a x hx).isMalformed hb

theorem bind {k : α → Reading β} {S : α → β → Bytes → Prop} (h : r.Takes R)
    (hk : ∀ a, (k a).Takes (S a)) :
    (r >>= k).Takes fun b w => ∃ a x y, R a x ∧ S a b y ∧ w = x ++ y :=
  h.bind_of fun a _ _ => hk a

theorem map (h : r.Takes R) (f : α → β) :
    (r >>= fun a => Pure.pure (f a)).Takes fun b w => ∃ a, R a w ∧ b = f a := by
  refine (h.bind fun a => .pure (f a)).congr fun b w => ?_
  constructor
  · rintro ⟨a, x, _, hx, ⟨rfl, rfl⟩, rfl⟩
    exact ⟨a, by rwa [List.append_nil], rfl⟩
  · rintro ⟨a, hw, rfl⟩
    exact ⟨a, w, _, hw, ⟨rfl, rfl⟩, (List.append_nil w).symm⟩

/-- A reading that fails because of the bytes takes nothing. -/
theorem throw {e : CodecError} (he : e.IsMalformed) :
    (throw e : Reading α).Takes fun _ _ => False where
  at_eq_ok_iff {c c' a} :=
    ⟨fun h => (nomatch (Prod.mk.inj h).1 : False).elim, fun ⟨_, hb, _⟩ => hb.elim⟩
  isMalformed {c c' e'} h := by
    cases h
    exact he

end Takes

end Reading

namespace Payload

open Reading

/-! ### Bytes -/

theorem readBytes_at (n : Nat) (c : Cursor) :
    (readBytes n).at c =
      match split? n c.rest with
      | some (front, rest) => (.ok front, ⟨c.offset + n, rest⟩)
      | none => (.error (.truncated c.offset n), c) := by
  show (match split? n c.rest with
    | some (front, rest) => _
    | none => _ : Reading Bytes).at c = _
  split <;> rfl

theorem takes_readBytes (n : Nat) : (readBytes n).Takes fun a b => a.length = n ∧ b = a where
  at_eq_ok_iff {c c' a} := by
    rw [readBytes_at]
    constructor
    · intro h
      split at h
      next front rest hs =>
        cases h
        obtain ⟨hrest, hlen⟩ := split?_eq_some_iff.1 hs
        exact ⟨a, ⟨hlen, rfl⟩, hrest, by rw [hlen]⟩
      next => cases h
    · rintro ⟨b, ⟨rfl, rfl⟩, hrest, hoffset⟩
      rw [split?_eq_some_iff.2 ⟨hrest, rfl⟩]
      obtain ⟨offset', rest'⟩ := c'
      cases hoffset
      rfl
  isMalformed {c c' e} h := by
    rw [readBytes_at] at h
    split at h
    next => cases h
    next =>
      cases h
      trivial

theorem takes_readByte : readByte.Takes fun a b => b = byte a := by
  -- The bytes that come first are known to be one, so the other branch of the match is never taken.
  refine ((takes_readBytes 1).bind_of (S := fun bs a b => bs = [a] ∧ b = []) ?_).congr ?_
  · rintro bs - ⟨hlen, -⟩
    obtain ⟨b, rfl⟩ := List.length_eq_one_iff.1 hlen
    exact (Takes.pure b).congr fun a w => by simp [eq_comm]
  · intro a b
    constructor
    · rintro ⟨_, _, _, ⟨-, rfl⟩, ⟨rfl, rfl⟩, rfl⟩
      rfl
    · rintro rfl
      exact ⟨[a], _, _, ⟨rfl, rfl⟩, ⟨rfl, rfl⟩, rfl⟩

theorem takes_readFlag : readFlag.Takes fun a b => ∃ mark, (mark != 0) = a ∧ b = byte mark :=
  (takes_readByte.map (· != 0)).congr fun a b => by simp only [and_comm, eq_comm]

/-! ### Numbers -/

@[simp] theorem length_int32 (n : Int32) : (int32 n).length = 4 := rfl

/-- The 32-bit number of four bytes is written as these bytes. -/
theorem int32_toInt32 (b₃ b₂ b₁ b₀ : UInt8) :
    int32 (toInt32 b₃ b₂ b₁ b₀) = [b₃, b₂, b₁, b₀] := by
  have h₃ := b₃.toNat_lt
  have h₂ := b₂.toNat_lt
  have h₁ := b₁.toNat_lt
  have h₀ := b₀.toNat_lt
  have hw : (toInt32 b₃ b₂ b₁ b₀).toUInt32.toNat =
      b₃.toNat * 16777216 + b₂.toNat * 65536 + b₁.toNat * 256 + b₀.toNat := by
    rw [toInt32, UInt32.toUInt32_toInt32, UInt32.toNat_ofNat_of_lt']
    show _ < 4294967296
    omega
  have hbyte : ∀ {n : Nat} {b : UInt8}, n % 2 ^ 8 = b.toNat → n.toUInt8 = b :=
    fun h => UInt8.toNat_inj.1 (UInt8.toNat_ofNat'.trans h)
  rw [int32, hw, hbyte (b := b₃) (by omega), hbyte (b := b₂) (by omega),
    hbyte (b := b₁) (by omega), hbyte (b := b₀) (by omega)]

theorem toInt32_int32 (n : Int32) :
    let w := n.toUInt32.toNat
    toInt32 (w / 16777216).toUInt8 (w / 65536).toUInt8 (w / 256).toUInt8 w.toUInt8 = n := by
  intro w
  have hw : w < 4294967296 := n.toUInt32.toNat_lt
  have hsum : w / 16777216 % 2 ^ 8 * 16777216 + w / 65536 % 2 ^ 8 * 65536 +
      w / 256 % 2 ^ 8 * 256 + w % 2 ^ 8 = w := by omega
  rw [toInt32]
  simp only [Nat.toUInt8, UInt8.toNat_ofNat']
  rw [hsum, UInt32.ofNat_toNat, Int32.toInt32_toUInt32]

theorem bytes_eq_int32_iff {n : Int32} {b₃ b₂ b₁ b₀ : UInt8} :
    [b₃, b₂, b₁, b₀] = int32 n ↔ n = toInt32 b₃ b₂ b₁ b₀ := by
  constructor
  · intro h
    rw [int32] at h
    simp only [List.cons.injEq, and_true] at h
    obtain ⟨rfl, rfl, rfl, rfl⟩ := h
    exact (toInt32_int32 n).symm
  · rintro rfl
    exact (int32_toInt32 ..).symm

theorem takes_readInt32 : readInt32.Takes fun n b => b = int32 n := by
  refine ((takes_readBytes 4).bind_of (S := fun bs n b => bs = int32 n ∧ b = []) ?_).congr ?_
  · rintro bs - ⟨hlen, -⟩
    match bs, hlen with
    | [b₃, b₂, b₁, b₀], _ =>
      exact (Takes.pure (toInt32 b₃ b₂ b₁ b₀)).congr fun n w => by rw [bytes_eq_int32_iff]
  · intro n b
    constructor
    · rintro ⟨_, _, _, ⟨-, rfl⟩, ⟨rfl, rfl⟩, rfl⟩
      exact List.append_nil _
    · rintro rfl
      exact ⟨int32 n, _, _, ⟨rfl, rfl⟩, ⟨rfl, rfl⟩, (List.append_nil _).symm⟩

/-- What is counted, or how long a text is, must be less to be read back. -/
def countLimit : Nat := 2 ^ 31

theorem toInt_ofNat_of_lt_countLimit {n : Nat} (h : n < countLimit) :
    (Int32.ofNat n).toInt = n := Int32.toInt_ofNat_of_lt h

theorem takes_readCount : readCount.Takes fun n b => n < countLimit ∧ b = count n := by
  refine (takes_readInt32.bind (S := fun v n b => v = Int32.ofNat n ∧ n < countLimit ∧ b = [])
    fun v => ?_).congr fun n b => ?_
  · by_cases hv : v.toInt < 0
    · -- Nothing that is counted is written as a negative number: it would be past the limit.
      simp only [if_pos hv]
      refine (Takes.throw (e := .negativeLength v) trivial).congr fun n b => ?_
      refine iff_of_false not_false ?_
      rintro ⟨rfl, hn, -⟩
      rw [toInt_ofNat_of_lt_countLimit hn] at hv
      omega
    · simp only [if_neg hv]
      refine (Takes.pure v.toInt.toNat).congr fun n b => ?_
      have hlt := v.toInt_lt
      constructor
      · rintro ⟨rfl, rfl⟩
        exact ⟨(Int32.ofNat_toNatClampNeg v (by simpa [Int32.le_iff_toInt_le] using hv)).symm,
          by rw [countLimit]; omega, rfl⟩
      · rintro ⟨rfl, hn, rfl⟩
        rw [toInt_ofNat_of_lt_countLimit hn]
        exact ⟨rfl, rfl⟩
  · constructor
    · rintro ⟨_, _, _, rfl, ⟨rfl, hn, rfl⟩, rfl⟩
      exact ⟨hn, List.append_nil _⟩
    · rintro ⟨hn, rfl⟩
      exact ⟨_, _, _, rfl, ⟨rfl, hn, rfl⟩, (List.append_nil _).symm⟩

/-! ### Texts -/

theorem takes_readText :
    readText.Takes fun s b => s.utf8ByteSize < countLimit ∧ b = text s := by
  refine (takes_readCount.bind fun n => (takes_readBytes n).bind
    (S := fun bs s b => bs = Text.utf8 s ∧ b = []) fun bs => ?_).congr fun s b => ?_
  · cases hs : Text.ofUtf8? bs with
    | none =>
      -- The bytes of a text are UTF-8, so these are the bytes of none.
      refine (Takes.throw (e := .invalidUtf8) trivial).congr fun s b => ?_
      refine iff_of_false not_false ?_
      rintro ⟨rfl, -⟩
      rw [Text.ofUtf8?_utf8] at hs
      cases hs
    | some s₀ =>
      obtain rfl := Text.ofUtf8?_eq_some_iff.1 hs
      refine (Takes.pure s₀).congr fun s b => and_congr_left' ?_
      exact ⟨fun h => by rw [h], fun h => (Text.utf8_injective h).symm⟩
  · constructor
    · rintro ⟨_, _, _, ⟨hn, rfl⟩, ⟨_, _, _, ⟨rfl, rfl⟩, ⟨rfl, rfl⟩, rfl⟩, rfl⟩
      rw [Text.length_utf8] at hn ⊢
      exact ⟨hn, by rw [List.append_nil, text]⟩
    · rintro ⟨hn, rfl⟩
      exact ⟨_, _, _, ⟨hn, rfl⟩, ⟨_, _, _, ⟨rfl, rfl⟩, ⟨rfl, rfl⟩, (List.append_nil _).symm⟩, rfl⟩

/-! ### Sequences -/

/-- Bytes that stand for things one after the other. -/
inductive Sequence {α : Type} (R : α → Bytes → Prop) : List α → Bytes → Prop
  | nil : Sequence R [] []
  | cons {a : α} {as : List α} {x y : Bytes} (head : R a x) (tail : Sequence R as y) :
    Sequence R (a :: as) (x ++ y)

section Sequences

variable {α : Type} {R : α → Bytes → Prop}

theorem sequence_nil_iff {b : Bytes} : Sequence R [] b ↔ b = [] :=
  ⟨fun h => by cases h; rfl, fun h => h ▸ .nil⟩

theorem sequence_cons_iff {a : α} {as : List α} {b : Bytes} :
    Sequence R (a :: as) b ↔ ∃ x y, R a x ∧ Sequence R as y ∧ b = x ++ y := by
  constructor
  · intro h
    cases h with
    | cons head tail => exact ⟨_, _, head, tail, rfl⟩
  · rintro ⟨x, y, head, tail, rfl⟩
    exact .cons head tail

theorem takes_readMany {r : Reading α} (h : r.Takes R) (n : Nat) :
    (readMany r n).Takes fun as b => as.length = n ∧ Sequence R as b := by
  induction n with
  | zero =>
    refine (Takes.pure []).congr fun as b => ?_
    rw [List.length_eq_zero_iff]
    exact and_congr_right fun has => by rw [has, sequence_nil_iff]
  | succ n ih =>
    refine (h.bind fun a => ih.map (a :: ·)).congr fun as b => ?_
    constructor
    · rintro ⟨a, x, y, ha, ⟨as, ⟨rfl, has⟩, rfl⟩, rfl⟩
      exact ⟨rfl, .cons ha has⟩
    · rintro ⟨hlen, hb⟩
      cases hb with
      | nil => cases hlen
      | cons ha has => exact ⟨_, _, _, ha, ⟨_, ⟨Nat.succ.inj hlen, has⟩, rfl⟩, rfl⟩

end Sequences

end Payload

end TileRealm
