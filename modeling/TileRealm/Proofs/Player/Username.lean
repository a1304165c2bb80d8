import TileRealm.Player.Session
import TileRealm.Proofs.Bytes

/-!
# Names cut to length

A name that is too long is cut where a character begins, as near to the limit as possible.  Such a place
is searched backward from the limit, byte by byte (`Text.Searches`).  The search ends in front of the
character that the limit cuts through, so it takes as many steps as there are bytes of this character
in front of the limit, and these are at most three (`Text.exists_cut`).  What is kept is the longest
part of the name that fits (`Session.username_cut`).
-/

namespace TileRealm

namespace Text

/-! ### Where characters begin -/

theorem isContinuation_ofNat_iff {n : Nat} (h : n < 256) :
    isContinuation (UInt8.ofNat n) = true ↔ 128 ≤ n ∧ n < 192 := by
  simp only [isContinuation, Bool.and_eq_true, decide_eq_true_eq, UInt8.le_iff_toNat_le,
    UInt8.lt_iff_toNat_lt, UInt8.toNat_ofNat_of_lt' h]
  rfl

/-- A character has one byte that begins it, and all of its others go on with it. -/
theorem exists_utf8EncodeChar_eq (c : Char) :
    ∃ b bs, String.utf8EncodeChar c = b :: bs ∧ isContinuation b = false ∧
      ∀ x ∈ bs, isContinuation x = true := by
  have hgoesOn : ∀ n, isContinuation (UInt8.ofNat (n % 64 + 128)) = true := fun n =>
    (isContinuation_ofNat_iff (by omega)).2 (by omega)
  have hbegins : ∀ {n}, n < 256 → ¬ (128 ≤ n ∧ n < 192) → isContinuation (UInt8.ofNat n) = false :=
    fun hlt hn => Bool.eq_false_iff.2 fun h => hn ((isContinuation_ofNat_iff hlt).1 h)
  unfold String.utf8EncodeChar
  dsimp only
  split_ifs <;>
    refine ⟨_, _, rfl, hbegins (by omega) (by omega), ?_⟩ <;>
    simp only [List.mem_cons, List.not_mem_nil, or_false, forall_eq_or_imp, forall_eq, hgoesOn,
      and_self, false_imp_iff, implies_true]

section Character

variable (front rest : Bytes) (d : Char)

theorem isBoundary_front :
    isBoundary (front ++ (String.utf8EncodeChar d ++ rest)) front.length = true := by
  obtain ⟨b, bs, hd, hb, -⟩ := exists_utf8EncodeChar_eq d
  have hbyte : (front ++ (String.utf8EncodeChar d ++ rest))[front.length]? = some b := by
    rw [List.getElem?_append_right (Nat.le_refl _), Nat.sub_self, hd]
    rfl
  rw [isBoundary, hbyte]
  dsimp only
  rw [hb, Bool.not_false, Bool.or_true]

theorem isBoundary_inside {i : Nat} (hi : i + 1 < d.utf8Size) :
    isBoundary (front ++ (String.utf8EncodeChar d ++ rest)) (front.length + (i + 1)) = false := by
  obtain ⟨b, bs, hd, -, hbs⟩ := exists_utf8EncodeChar_eq d
  have hlen : bs.length + 1 = d.utf8Size := by rw [← String.length_utf8EncodeChar, hd, List.length_cons]
  have hlt : i < bs.length := by omega
  have hbyte : (front ++ (String.utf8EncodeChar d ++ rest))[front.length + (i + 1)]? = some bs[i] := by
    rw [List.getElem?_append_right (Nat.le_add_right _ _), Nat.add_sub_cancel_left, hd,
      List.cons_append, List.getElem?_cons_succ, List.getElem?_append_left hlt,
      List.getElem?_eq_getElem hlt]
  rw [isBoundary, hbyte]
  dsimp only
  rw [hbs _ (List.getElem_mem hlt), Bool.not_true, Bool.or_false]
  exact beq_eq_false_iff_ne.2 (by omega)

end Character

/-! ### The search -/

/-- The search backward from an offset, its number of steps and where it ends.  It takes a step of one
byte where no character begins, and it cannot take one at the beginning of the bytes. -/
inductive Searches (b : Bytes) : Nat → Nat → Nat → Prop
  | here {n : Nat} (boundary : isBoundary b n = true) : Searches b n 0 n
  | back {n steps m : Nat} (inside : isBoundary b (n + 1) = false) (rest : Searches b n steps m) :
    Searches b (n + 1) (steps + 1) m

theorem Searches.boundaryBefore_eq {b : Bytes} {n steps m : Nat} (h : Searches b n steps m) :
    boundaryBefore b n = m := by
  induction h with
  | @here n boundary =>
    cases n with
    | zero => rfl
    | succ n => rw [boundaryBefore, if_pos boundary]
  | back inside _ ih => rw [boundaryBefore, if_neg (by rw [inside]; decide), ih]

/-- From inside a character the search goes back to its first byte. -/
theorem searches_of_lt (front rest : Bytes) {d : Char} {i : Nat} (hi : i < d.utf8Size) :
    Searches (front ++ (String.utf8EncodeChar d ++ rest)) (front.length + i) i front.length := by
  induction i with
  | zero => exact .here (isBoundary_front front rest d)
  | succ i ih => exact .back (isBoundary_inside front rest d hi) (ih (Nat.lt_of_succ_lt hi))

/-! ### The cut -/

theorem utf8_ofList (cs : List Char) :
    utf8 (String.ofList cs) = cs.flatMap String.utf8EncodeChar := by
  rw [utf8_eq_flatMap, String.toList_ofList]

theorem utf8ByteSize_eq (s : String) :
    s.utf8ByteSize = (s.toList.flatMap String.utf8EncodeChar).length := by
  rw [← utf8_eq_flatMap, length_utf8]

/-- A number of bytes that a text does not fit into ends in one of its characters or in front of it. -/
theorem exists_cut_chars {cs : List Char} {limit : Nat}
    (h : limit < (cs.flatMap String.utf8EncodeChar).length) :
    ∃ front d rest, cs = front ++ d :: rest ∧
      (front.flatMap String.utf8EncodeChar).length ≤ limit ∧
      limit < (front.flatMap String.utf8EncodeChar).length + d.utf8Size := by
  induction cs generalizing limit with
  | nil => exact absurd h (Nat.not_lt_zero _)
  | cons c cs ih =>
    rw [List.flatMap_cons, List.length_append, String.length_utf8EncodeChar] at h
    rcases Nat.lt_or_ge limit c.utf8Size with hlt | hge
    · exact ⟨[], c, cs, rfl, Nat.zero_le _, by simpa using hlt⟩
    · have hrest : limit - c.utf8Size < (cs.flatMap String.utf8EncodeChar).length := by omega
      obtain ⟨front, d, rest, rfl, hle, hlt⟩ := ih hrest
      refine ⟨c :: front, d, rest, rfl, ?_⟩
      rw [List.flatMap_cons, List.length_append, String.length_utf8EncodeChar]
      omega

/-- A text that is too long is cut in front of the character that goes beyond the limit, and there the
search backward from the limit ends. -/
theorem exists_cut {limit : Nat} {s : String} (h : limit < s.utf8ByteSize) :
    let t := truncate limit s
    ∃ d rest, s.toList = t.toList ++ d :: rest ∧ t.utf8ByteSize ≤ limit ∧
      limit < t.utf8ByteSize + d.utf8Size ∧
      Searches (utf8 s) limit (limit - t.utf8ByteSize) t.utf8ByteSize := by
  obtain ⟨front, d, rest, hs, hle, hlt⟩ := exists_cut_chars (utf8ByteSize_eq s ▸ h)
  have hbytes := utf8_eq_flatMap s
  rw [hs, List.flatMap_append, List.flatMap_cons, ← utf8_ofList] at hbytes
  rw [← utf8_ofList] at hle hlt
  have hsearch : Searches (utf8 s) limit (limit - (utf8 (String.ofList front)).length)
      (utf8 (String.ofList front)).length := by
    -- The limit is as many bytes behind the first one of the character as the search takes steps.
    have := searches_of_lt (utf8 (String.ofList front)) (rest.flatMap String.utf8EncodeChar)
      (Nat.sub_lt_left_of_lt_add hle hlt)
    rwa [← hbytes, Nat.add_sub_cancel' hle] at this
  have ht : truncate limit s = String.ofList front := by
    rw [truncate, if_neg (Nat.not_le.2 h)]
    dsimp only
    rw [hsearch.boundaryBefore_eq, hbytes, List.take_left, ofUtf8?_utf8, Option.getD_some]
  intro t
  rw [show t = String.ofList front from ht]
  exact ⟨d, rest, by rw [hs, String.toList_ofList], hle, hlt, hsearch⟩

/-- Whatever whole characters fit from the beginning of a text are kept of it. -/
theorem prefix_truncate {limit : Nat} {s p : String} (hp : p.toList <+: s.toList)
    (hsize : p.utf8ByteSize ≤ limit) : p.toList <+: (truncate limit s).toList := by
  rcases Nat.lt_or_ge limit s.utf8ByteSize with hlt | hle
  · obtain ⟨d, rest, hs, -, hnext, -⟩ := exists_cut hlt
    rcases Nat.lt_or_ge (truncate limit s).toList.length p.toList.length with hlong | hshort
    · -- The next character would be a part of `p`, too, and it does not fit.
      have hnextPrefix : (truncate limit s).toList ++ [d] <+: p.toList := by
        refine List.prefix_of_prefix_length_le ⟨rest, ?_⟩ hp ?_
        · rw [hs, List.append_assoc, List.singleton_append]
        · rw [List.length_append, List.length_singleton]
          exact hlong
      obtain ⟨more, hmore⟩ := hnextPrefix
      rw [utf8ByteSize_eq, ← hmore, List.flatMap_append, List.flatMap_append, List.length_append,
        List.length_append, ← utf8ByteSize_eq, List.flatMap_singleton,
        String.length_utf8EncodeChar] at hsize
      omega
    · exact List.prefix_of_prefix_length_le hp ⟨d :: rest, hs.symm⟩ hshort
  · rwa [truncate_of_le hle]

theorem truncate_prefix (limit : Nat) (s : String) : (truncate limit s).toList <+: s.toList := by
  rcases Nat.lt_or_ge limit s.utf8ByteSize with hlt | hle
  · obtain ⟨d, rest, hs, -⟩ := exists_cut hlt
    exact ⟨d :: rest, hs.symm⟩
  · exact ⟨[], by rw [truncate_of_le hle, List.append_nil]⟩

end Text

namespace Session

/-- The name that is kept is the longest part of a name, from its beginning and of whole characters,
that fits in 32 bytes.  A longer name loses what begins with the character that goes beyond the limit;
the cut is found at most three bytes in front of the limit, and there is nothing left to cut. -/
theorem username_cut (name : String) :
    let kept := Text.truncate maxUsernameLength name
    (kept.toList <+: name.toList ∧ kept.utf8ByteSize ≤ 32 ∧
      ∀ p : String, p.toList <+: name.toList → p.utf8ByteSize ≤ 32 → p.toList <+: kept.toList) ∧
    (name.utf8ByteSize ≤ 32 → kept = name) ∧
    (32 < name.utf8ByteSize →
      29 ≤ kept.utf8ByteSize ∧
      (∃ d rest, name.toList = kept.toList ++ d :: rest ∧ 32 < kept.utf8ByteSize + d.utf8Size) ∧
      Text.boundaryBefore (Text.utf8 name) maxUsernameLength = kept.utf8ByteSize ∧
      ∃ steps ≤ 3, Text.Searches (Text.utf8 name) 32 steps kept.utf8ByteSize) ∧
    Text.truncate maxUsernameLength kept = kept := by
  intro kept
  have hsize : kept.utf8ByteSize ≤ 32 := Text.utf8ByteSize_truncate_le ..
  refine ⟨⟨Text.truncate_prefix .., hsize, fun p => Text.prefix_truncate⟩, Text.truncate_of_le,
    fun hlong => ?_, Text.truncate_of_le hsize⟩
  obtain ⟨d, rest, hname, -, hnext, hsearch⟩ := Text.exists_cut hlong
  have hleft : 32 < kept.utf8ByteSize + d.utf8Size := hnext
  have hd := d.utf8Size_le_four
  exact ⟨by omega, ⟨d, rest, hname, hleft⟩, hsearch.boundaryBefore_eq, 32 - kept.utf8ByteSize,
    by omega, hsearch⟩

/-- A name of 33 bytes, the last four of which are one character. -/
theorem username_cut_bird :
    let name := String.ofList (List.replicate 29 'a' ++ ['🐦'])
    let kept := Text.truncate maxUsernameLength name
    32 < name.utf8ByteSize ∧ 29 ≤ kept.utf8ByteSize ∧ kept.toList = List.replicate 29 'a' ∧
      (∃ steps ≤ 3, Text.Searches (Text.utf8 name) 32 steps kept.utf8ByteSize) ∧
      Text.truncate maxUsernameLength "wren" = "wren" ∧
      ("aaa".toList <+: name.toList ∧ "aaa".toList <+: kept.toList) := by
  intro name kept
  obtain ⟨⟨-, -, hlongest⟩, -, hcut, -⟩ := username_cut name
  obtain ⟨-, hfits, -, -⟩ := username_cut "wren"
  have hlong : 32 < name.utf8ByteSize := by decide +kernel
  obtain ⟨hsize, -, -, hsearch⟩ := hcut hlong
  have hprefix : "aaa".toList <+: name.toList := by decide +kernel
  exact ⟨hlong, hsize, by decide +kernel, hsearch, hfits (by decide), hprefix,
    hlongest "aaa" hprefix (by decide)⟩

end Session

end TileRealm
