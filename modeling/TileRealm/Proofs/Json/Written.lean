import TileRealm.Proofs.Json.Record
import TileRealm.Proofs.Json.Token

/-!
# Written documents

A record that is written is read back with its members as they stand (`Json.parse_writeRecord`), and
so is a list of records (`Json.parse_writeRecords`).  A field that takes null may be written as null or
left out where its text is empty (`Json.Spells`): what is found in the fields of such a record stands
for the same members (`Json.fields?_of_spells`).
-/

namespace TileRealm

namespace Json

/-! ### Lists -/

/-- What a written value may begin with: no blank, and not the end of a list or a record. -/
def Begins (c : Char) : Prop := isBlank c = false ∧ c ≠ ']' ∧ c ≠ '\x7d'

instance (c : Char) : Decidable (Begins c) :=
  inferInstanceAs (Decidable (isBlank c = false ∧ c ≠ ']' ∧ c ≠ '\x7d'))

/-- The text is read as the given thing, wherever a value may stand. -/
structure Reads {α : Type} (item : Scan α) (part : List Char) (a : α) : Prop where
  begins : ∃ c cs, part = c :: cs ∧ Begins c
  scan : ∀ rest, Follows rest → item (part ++ rest) = some (a, rest)

theorem skipBlanks_cons {c : Char} (h : isBlank c = false) (cs : List Char) :
    skipBlanks (c :: cs) = c :: cs :=
  List.dropWhile_cons_of_neg (by simp [h])

section Lists

variable {α : Type} {item : Scan α} {part : List Char} {a : α} {parts : List (List Char)}
  {as : List α} {close : Char} {fuel : Nat}

theorem Reads.skipBlanks_append (h : Reads item part a) (rest : List Char) :
    skipBlanks (part ++ rest) = part ++ rest := by
  obtain ⟨c, cs, rfl, hc⟩ := h.begins
  exact skipBlanks_cons hc.1 (cs ++ rest)

theorem commas_cons (part : List Char) {parts : List (List Char)} (h : parts ≠ []) :
    commas (part :: parts) = part ++ ',' :: commas parts := by
  cases parts with
  | nil => exact absurd rfl h
  | cons next parts => rfl

theorem length_le_length_commas (h : part ∈ parts) : part.length ≤ (commas parts).length := by
  induction parts with
  | nil => cases h
  | cons first parts ih =>
    cases parts with
    | nil =>
      rw [List.mem_singleton] at h
      rw [h]
      exact Nat.le_refl _
    | cons next parts =>
      rw [commas_cons first (List.cons_ne_nil next parts), List.length_append]
      rcases List.mem_cons.1 h with rfl | h
      · exact Nat.le_add_right _ _
      · have hnext := ih h
        rw [List.length_cons]
        omega

theorem length_le_length_commas_add_one (parts : List (List Char)) :
    parts.length ≤ (commas parts).length + 1 := by
  induction parts with
  | nil => exact Nat.zero_le _
  | cons first parts ih =>
    cases parts with
    | nil => exact Nat.le_add_left _ _
    | cons next parts =>
      rw [commas_cons first (List.cons_ne_nil next parts)]
      simp only [List.length_append, List.length_cons] at ih ⊢
      omega

theorem scanItems_close {cs rest : List Char} (hclose : close = ']' ∨ close = '\x7d')
    (h : item (skipBlanks cs) = some (a, close :: rest)) :
    scanItems item close (fuel + 1) cs = some ([a], rest) := by
  rcases hclose with rfl | rfl
  all_goals
    rw [scanItems, h, Option.bind_eq_bind, Option.bind_some]
    rfl

theorem scanItems_comma {cs rest : List Char} (h : item (skipBlanks cs) = some (a, ',' :: rest))
    (hrest : scanItems item close fuel rest = some (as, part)) :
    scanItems item close (fuel + 1) cs = some (a :: as, part) := by
  rw [scanItems, h, Option.bind_eq_bind, Option.bind_some]
  simp only [skipBlanks_cons (c := ',') rfl, hrest, Option.bind_eq_bind, Option.bind_some,
    Option.pure_def]

/-- A list that is not empty is read to its end, one item at a time. -/
theorem scanItems_commas (hclose : close = ']' ∨ close = '\x7d')
    (h : List.Forall₂ (Reads item) parts as) (hne : parts ≠ []) (hfuel : parts.length ≤ fuel)
    (rest : List Char) : scanItems item close fuel (commas parts ++ close :: rest) = some (as, rest) := by
  induction h generalizing fuel with
  | nil => exact absurd rfl hne
  | @cons part a parts as hpart hparts ih =>
    obtain ⟨fuel, rfl⟩ : ∃ n, fuel = n + 1 := Nat.exists_eq_add_of_le' (Nat.zero_lt_of_lt hfuel)
    cases hparts with
    | nil =>
      apply scanItems_close hclose
      rw [commas, hpart.skipBlanks_append]
      exact hpart.scan (close :: rest) (.inr hclose)
    | cons hnext hparts =>
      refine scanItems_comma ?_ (ih (List.cons_ne_nil _ _) (Nat.le_of_succ_le_succ hfuel))
      rw [commas_cons part (List.cons_ne_nil _ _), List.append_assoc, hpart.skipBlanks_append]
      exact hpart.scan _ (.inl rfl)

theorem scanList_commas (hclose : close = ']' ∨ close = '\x7d')
    (h : List.Forall₂ (Reads item) parts as) (hfuel : parts.length ≤ fuel) (rest : List Char) :
    scanList item close fuel (commas parts ++ close :: rest) = some (as, rest) := by
  have hblank : isBlank close = false := by
    rcases hclose with rfl | rfl <;> rfl
  unfold scanList
  cases h with
  | nil =>
    rw [commas, List.nil_append, skipBlanks_cons hblank]
    exact if_pos rfl
  | @cons part a parts as hpart hparts =>
    obtain ⟨c, cs, hcs, hc⟩ :
        ∃ c cs, commas (part :: parts) ++ close :: rest = c :: cs ∧ Begins c := by
      obtain ⟨c, cs, rfl, hc⟩ := hpart.begins
      cases parts with
      | nil => exact ⟨c, _, rfl, hc⟩
      | cons => exact ⟨c, _, rfl, hc⟩
    have hother : c ≠ close := by
      rcases hclose with rfl | rfl
      · exact hc.2.1
      · exact hc.2.2
    have hread := scanItems_commas hclose (.cons hpart hparts) (List.cons_ne_nil _ _) hfuel rest
    rw [hcs] at hread ⊢
    rw [skipBlanks_cons hc.1]
    exact (if_neg hother).trans hread

end Lists

/-! ### Values -/

/-- A value of a record: null, if there is nothing. -/
def entryValue : Option Scalar → Json
  | none => .null
  | some (.text s) => .string (some s)
  | some (.number n) => .number (some n)
  | some (.flag b) => .bool b

/-- A value of a record, written. -/
def valueChars : Option Scalar → List Char
  | none => "null".toList
  | some x => x.chars

theorem scanValue_eq_scanNumber {c : Char} (h : c = '-' ∨ c.isDigit = true) (fuel : Nat)
    (cs : List Char) : scanValue (fuel + 1) (c :: cs) =
      (scanNumber (c :: cs)).map fun (n, rest) => (.number n, rest) := by
  rw [scanValue.eq_def]
  dsimp only
  split
  case h_7 => rfl
  all_goals
    next heq =>
      cases heq
      exact absurd h (by decide)

theorem exists_cons_ofInt (n : Int) :
    ∃ c cs, (Numeral.ofInt n).toList = c :: cs ∧ (c = '-' ∨ c.isDigit = true) := by
  cases n with
  | ofNat n =>
    obtain ⟨d, ds, hds, hd⟩ := Numeral.exists_cons_toDigits n
    exact ⟨d, ds, (Numeral.toList_ofInt_ofNat n).trans hds, .inr hd⟩
  | negSucc n => exact ⟨'-', _, Numeral.toList_ofInt_negSucc n, .inl rfl⟩

theorem begins_of_number {c : Char} (h : c = '-' ∨ c.isDigit = true) : Begins c := by
  refine ⟨Bool.eq_false_iff.2 fun hc => ?_, ?_, ?_⟩
  · simp only [isBlank, Bool.or_eq_true, beq_iff_eq] at hc
    rcases hc with ((rfl | rfl) | rfl) | rfl <;> exact absurd h (by decide)
  all_goals
    rintro rfl
    exact absurd h (by decide)

theorem reads_valueChars (x : Option Scalar) (fuel : Nat) :
    Reads (scanValue (fuel + 1)) (valueChars x) (entryValue x) := by
  cases x with
  | none => exact ⟨⟨'n', _, rfl, by decide⟩, fun rest _ => rfl⟩
  | some x =>
    cases x with
    | text s =>
      obtain ⟨cs, hcs, hread⟩ := exists_quote_eq s
      refine ⟨⟨'"', cs, hcs, by decide⟩, fun rest _ => ?_⟩
      rw [valueChars, Scalar.chars, hcs, List.cons_append, scanValue, hread]
      rfl
    | number n =>
      obtain ⟨c, cs, hcs, hc⟩ := exists_cons_ofInt n
      refine ⟨⟨c, cs, hcs, begins_of_number hc⟩, fun rest hrest => ?_⟩
      have hread := scanNumber_ofInt n hrest
      rw [valueChars, Scalar.chars]
      rw [hcs, List.cons_append] at hread ⊢
      rw [scanValue_eq_scanNumber hc, hread]
      rfl
    | flag b =>
      cases b with
      | true => exact ⟨⟨'t', _, rfl, by decide⟩, fun rest _ => rfl⟩
      | false => exact ⟨⟨'f', _, rfl, by decide⟩, fun rest _ => rfl⟩

/-! ### Records -/

/-- A member of a record, written. -/
def entryChars (e : String × Option Scalar) : List Char := quote e.1 ++ ':' :: valueChars e.2

/-- A record, written. -/
def recordChars (es : List (String × Option Scalar)) : List Char :=
  '\x7b' :: commas (es.map entryChars) ++ ['\x7d']

/-- The text of a record. -/
def writeRecord (es : List (String × Option Scalar)) : String := String.ofList (recordChars es)

/-- The text of a list of records. -/
def writeRecords (records : List (List (String × Option Scalar))) : String :=
  String.ofList (arrayChars (records.map recordChars))

/-- The record with all its members. -/
def plain (ms : List (String × Scalar)) : List (String × Option Scalar) :=
  ms.map fun m => (m.1, some m.2)

theorem objectChars_eq (ms : List (String × Scalar)) : objectChars ms = recordChars (plain ms) := by
  rw [objectChars, recordChars, plain, List.map_map]
  rfl

theorem writeObject_eq (ms : List (String × Scalar)) : writeObject ms = writeRecord (plain ms) := by
  rw [writeObject, writeRecord, objectChars_eq]

theorem writeArray_eq (records : List (List (String × Scalar))) :
    writeArray records = writeRecords (records.map plain) := by
  rw [writeArray, writeRecords, List.map_map]
  exact congrArg _ (congrArg _ (List.map_congr_left fun ms _ => objectChars_eq ms))

/-- The members of a record. -/
def entries (es : List (String × Option Scalar)) : List (Option String × Json) :=
  es.map fun e => (some e.1, entryValue e.2)

theorem reads_entryChars (e : String × Option Scalar) (fuel : Nat) :
    Reads (scanMember (scanValue (fuel + 1))) (entryChars e) (some e.1, entryValue e.2) := by
  obtain ⟨cs, hcs, hname⟩ := exists_quote_eq e.1
  have hvalue := reads_valueChars e.2 fuel
  refine ⟨⟨'"', _, congrArg (· ++ _) hcs, by decide⟩, fun rest hrest => ?_⟩
  rw [entryChars, hcs, List.append_assoc, List.cons_append, scanMember, hname]
  simp only [Option.bind_eq_bind, Option.bind_some, List.cons_append,
    skipBlanks_cons (c := ':') rfl, hvalue.skipBlanks_append, hvalue.scan rest hrest,
    Option.pure_def]

theorem reads_recordChars (es : List (String × Option Scalar)) {fuel : Nat}
    (h : (recordChars es).length ≤ fuel) :
    Reads (scanValue fuel) (recordChars es) (.object (entries es)) := by
  have hcount := length_le_length_commas_add_one (es.map entryChars)
  rw [recordChars, List.length_append, List.length_cons, List.length_singleton] at h
  -- One for the record and one for each of its values, as the brackets alone are that long.
  obtain ⟨fuel, rfl⟩ : ∃ n, fuel = n + 2 := Nat.exists_eq_add_of_le' (by omega)
  refine ⟨⟨'\x7b', _, rfl, by decide⟩, fun rest _ => ?_⟩
  have hread : List.Forall₂ (Reads (scanMember (scanValue (fuel + 1)))) (es.map entryChars)
      (entries es) := by
    rw [entries, List.forall₂_map_left_iff, List.forall₂_map_right_iff, List.forall₂_same]
    exact fun e _ => reads_entryChars e fuel
  rw [recordChars, List.append_assoc, List.cons_append, List.singleton_append, scanValue,
    scanList_commas (.inr rfl) hread (by omega)]
  rfl

theorem reads_arrayChars {parts : List (List Char)} {vs : List Json} {fuel : Nat}
    (h : List.Forall₂ (Reads (scanValue fuel)) parts vs) (hfuel : parts.length ≤ fuel) :
    Reads (scanValue (fuel + 1)) (arrayChars parts) (.array vs) := by
  refine ⟨⟨'[', _, rfl, by decide⟩, fun rest _ => ?_⟩
  rw [arrayChars, List.append_assoc, List.cons_append, List.singleton_append, scanValue,
    scanList_commas (.inl rfl) h hfuel]
  rfl

theorem parse_of_reads {cs : List Char} {v : Json} (h : Reads (scanValue (cs.length + 1)) cs v) :
    parse (String.ofList cs) = some v := by
  have hfront := h.skipBlanks_append []
  have hread := h.scan [] trivial
  rw [List.append_nil] at hfront hread
  rw [parse, String.toList_ofList, parseChars, hfront, hread]
  rfl

/-- A record is read back. -/
theorem parse_writeRecord (es : List (String × Option Scalar)) :
    parse (writeRecord es) = some (.object (entries es)) :=
  parse_of_reads (reads_recordChars es (Nat.le_succ _))

/-- A list of records is read back. -/
theorem parse_writeRecords (records : List (List (String × Option Scalar))) :
    parse (writeRecords records) = some (.array (records.map fun es => .object (entries es))) := by
  apply parse_of_reads
  have hlength : (arrayChars (records.map recordChars)).length =
      (commas (records.map recordChars)).length + 2 := by
    rw [arrayChars, List.length_append, List.length_cons, List.length_singleton]
  apply reads_arrayChars
  · rw [List.forall₂_map_left_iff, List.forall₂_map_right_iff, List.forall₂_same]
    intro es hes
    have hes := length_le_length_commas (List.mem_map_of_mem (f := recordChars) hes)
    exact reads_recordChars es (by omega)
  · have := length_le_length_commas_add_one (records.map recordChars)
    omega

/-! ### Fields -/

/-- A record that is written for the members.  The fields that take null may be null or missing if
their text is empty; all the others have to be there. -/
inductive Spells (lenient : List String) :
    List (String × Option Scalar) → List (String × Scalar) → Prop
  | nil : Spells lenient [] []
  | value {name : String} {x : Scalar} {es : List (String × Option Scalar)}
      {ms : List (String × Scalar)} (h : Spells lenient es ms) :
      Spells lenient ((name, some x) :: es) ((name, x) :: ms)
  | null {name : String} {es : List (String × Option Scalar)} {ms : List (String × Scalar)}
      (hname : name ∈ lenient) (h : Spells lenient es ms) :
      Spells lenient ((name, none) :: es) ((name, .text "") :: ms)
  | missing {name : String} {es : List (String × Option Scalar)} {ms : List (String × Scalar)}
      (hname : name ∈ lenient) (h : Spells lenient es ms) :
      Spells lenient es ((name, .text "") :: ms)

/-- What may be found in the field of a member. -/
inductive Found (lenient : List String) : String × Scalar → Option Json → Prop
  | value {name : String} {x : Scalar} : Found lenient (name, x) (some (entryValue (some x)))
  | null {name : String} (hname : name ∈ lenient) :
      Found lenient (name, .text "") (some (entryValue none))
  | missing {name : String} (hname : name ∈ lenient) : Found lenient (name, .text "") none

section Fields

variable {lenient : List String} {es : List (String × Option Scalar)} {ms : List (String × Scalar)}
  {name : String} {v : Option Json}

/-- Members may be written as they are. -/
theorem spells_plain (lenient : List String) (ms : List (String × Scalar)) :
    Spells lenient (plain ms) ms := by
  induction ms with
  | nil => exact .nil
  | cons m ms ih => exact .value ih

theorem Spells.names_subset (h : Spells lenient es ms) : es.map Prod.fst ⊆ ms.map Prod.fst := by
  induction h with
  | nil => exact List.Subset.refl []
  | value _ ih => exact List.cons_subset_cons _ ih
  | null _ _ ih => exact List.cons_subset_cons _ ih
  | missing _ _ ih => exact List.subset_cons_of_subset _ ih

theorem valuesOf_entries_cons (name : String) (e : String × Option Scalar)
    (es : List (String × Option Scalar)) :
    valuesOf [name] (entries (e :: es)) =
      if e.1 = name then entryValue e.2 :: valuesOf [name] (entries es)
      else valuesOf [name] (entries es) := by
  unfold valuesOf entries
  rw [List.map_cons, List.filterMap_cons]
  split <;> simp_all

theorem valuesOf_entries_of_notMem (h : name ∉ es.map Prod.fst) :
    valuesOf [name] (entries es) = [] := by
  induction es with
  | nil => rfl
  | cons e es ih =>
    rw [List.map_cons, List.mem_cons, not_or] at h
    rw [valuesOf_entries_cons, if_neg (Ne.symm h.1), ih h.2]

/-- A member that is written in front of others is found, and the others are found as before. -/
theorem exists_valuesOf_cons {m : String × Scalar} {x : Scalar} {y : Option Scalar}
    (hfound : Found lenient (name, x) (some (entryValue y))) (hes : es.map Prod.fst ⊆ ms.map Prod.fst)
    (hname : name ∉ ms.map Prod.fst)
    (hrest : ∀ m ∈ ms, ∃ v, valuesOf [m.1] (entries es) = Option.toList v ∧ Found lenient m v)
    (hm : m ∈ (name, x) :: ms) :
    ∃ v, valuesOf [m.1] (entries ((name, y) :: es)) = Option.toList v ∧ Found lenient m v := by
  rcases List.mem_cons.1 hm with rfl | hm
  · refine ⟨some (entryValue y), ?_, hfound⟩
    rw [valuesOf_entries_cons, if_pos rfl, valuesOf_entries_of_notMem fun hin => hname (hes hin)]
    rfl
  · have hne : name ≠ m.1 := fun heq => hname (heq ▸ List.mem_map_of_mem hm)
    rw [valuesOf_entries_cons, if_neg hne]
    exact hrest m hm

/-- A field is found at most once, and what is found stands for its member. -/
theorem Spells.exists_valuesOf (h : Spells lenient es ms) (hnames : (ms.map Prod.fst).Nodup) :
    ∀ m ∈ ms, ∃ v, valuesOf [m.1] (entries es) = Option.toList v ∧ Found lenient m v := by
  induction h with
  | nil => exact fun m hm => nomatch hm
  | value h ih =>
    rw [List.map_cons, List.nodup_cons] at hnames
    exact fun m => exists_valuesOf_cons .value h.names_subset hnames.1 (ih hnames.2)
  | null hname h ih =>
    rw [List.map_cons, List.nodup_cons] at hnames
    exact fun m => exists_valuesOf_cons (.null hname) h.names_subset hnames.1 (ih hnames.2)
  | missing hname h ih =>
    rw [List.map_cons, List.nodup_cons] at hnames
    intro m hm
    rcases List.mem_cons.1 hm with rfl | hm
    · have hnone := valuesOf_entries_of_notMem fun hin => hnames.1 (h.names_subset hin)
      exact ⟨none, hnone, .missing hname⟩
    · exact ih hnames.2 m hm

/-- The fields of a record are those of the members that it is written for. -/
theorem fields?_of_spells (h : Spells lenient es ms) (hnames : (ms.map Prod.fst).Nodup) :
    ∃ vs, (object (entries es)).fields? (ms.map fun m => [m.1]) = some vs ∧
      List.Forall₂ (Found lenient) ms vs := by
  refine ⟨ms.map fun m => (valuesOf [m.1] (entries es)).head?, ?_, ?_⟩
  · have htext : (entries es).all (fun m => m.1.isSome) = true := by
      simp [entries]
    unfold fields?
    dsimp only
    rw [if_pos htext, mapM_eq_some_iff, List.forall₂_map_left_iff, List.forall₂_map_right_iff,
      List.forall₂_same]
    intro m hm
    obtain ⟨v, hv, -⟩ := h.exists_valuesOf hnames m hm
    rw [hv]
    cases v <;> rfl
  · rw [List.forall₂_map_right_iff, List.forall₂_same]
    intro m hm
    obtain ⟨v, hv, hfound⟩ := h.exists_valuesOf hnames m hm
    rw [hv]
    cases v <;> exact hfound

/-- A field that does not take null holds the value of its member. -/
theorem Found.eq_some {x : Scalar} (h : Found lenient (name, x) v) (hname : name ∉ lenient) :
    v = some (entryValue (some x)) := by
  cases h with
  | value => rfl
  | null hin => exact absurd hin hname
  | missing hin => exact absurd hin hname

/-- In a field that takes null, null and nothing are read as the empty text. -/
theorem Found.optional_textOrNull? {s : String} (h : Found lenient (name, .text s) v) :
    optional textOrNull? "" v = some s := by
  cases h with
  | value => rfl
  | null => rfl
  | missing => rfl

theorem int32?_entryValue (n : Int32) : int32? (entryValue (some (.number n.toInt))) = some n :=
  Coord.ofInt?_eq_some_iff.2 rfl

end Fields

end Json

end TileRealm
