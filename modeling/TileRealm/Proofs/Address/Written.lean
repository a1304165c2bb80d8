import TileRealm.Proofs.Address.Usable
import TileRealm.Proofs.Address.Wrapping

/-!
# Endpoints in writing

The endpoints that address texts are read as are the tidy ones (`Endpoint.exists_parse_iff`).  Such an
endpoint is read back from its written form, whatever stands around it, just when its host shows there
(`Endpoint.ShowsHost`, `Endpoint.parseChars_around_iff`), which a host without brackets does.  A host that
has brackets of its own may not, and then what is read is no endpoint or another one.
-/

namespace TileRealm

namespace Endpoint

/-! ### What is read -/

/-- An endpoint with nothing left in its host that reading takes off. -/
structure IsTidy (e : Endpoint) : Prop extends IsUsable e where
  trimmed : Text.trim e.host = e.host
  slash_not_mem : '/' ∉ e.host.toList
  at_not_mem : '@' ∉ e.host.toList

/-- Whether host and port, as they stand in a text, are those of an endpoint. -/
structure Names (host port : List Char) (e : Endpoint) : Prop where
  host_eq : Text.trimChars host = e.host.toList
  port_eq : Numeral.readNat 65535 (Text.trimChars port) = .ok e.port.toNat

theorem parseChars_eq_some_iff {cs : List Char} {e : Endpoint} :
    parseChars cs = some e ↔
      ∃ host port, hostAndPort? (bare cs) = some (host, port) ∧ Names host port e ∧ e.IsUsable := by
  constructor
  · intro h
    have husable := isUsable_of_parseChars h
    unfold parseChars at h
    simp only [Option.bind_eq_bind, Option.bind_eq_some_iff] at h
    obtain ⟨⟨host, port⟩, hparts, n, hn, h⟩ := h
    refine ⟨host, port, hparts, ?_, husable⟩
    have hread : Numeral.readNat 65535 (Text.trimChars port) = .ok n := by
      cases hread : Numeral.readNat 65535 (Text.trimChars port) with
      | ok m =>
        rw [hread] at hn
        rw [Option.some.inj hn]
      | error =>
        rw [hread] at hn
        cases hn
    split at h
    next => cases h
    next =>
      cases h
      have hback : (UInt16.ofNat n).toNat = n :=
        UInt16.toNat_ofNat_of_lt (Nat.lt_succ_of_le (Numeral.le_of_readNat hread))
      exact ⟨String.toList_ofList.symm, hread.trans (congrArg Except.ok hback.symm)⟩
  · rintro ⟨host, port, hparts, ⟨hhost, hport⟩, husable⟩
    have hempty : e.host.toList.isEmpty = false := by
      simpa using husable.host_ne
    have hzero : (e.port.toNat == 0) = false := by
      rw [beq_eq_false_iff_ne]
      exact fun h => husable.port_ne (UInt16.toNat_inj.1 h)
    unfold parseChars
    unfold bare at hparts
    simp only [Option.bind_eq_bind, hparts, Option.bind_some, hhost, hport, Except.toOption, hempty,
      hzero, Bool.or_self, Bool.false_eq_true, if_false, String.ofList_toList, UInt16.ofNat_toNat]
    rfl

theorem slash_not_mem_authority (cs : List Char) : '/' ∉ authority cs := by
  intro h
  have := List.mem_takeWhile_imp h
  simp at this

theorem afterUser_suffix (cs : List Char) : afterUser cs <:+ cs := by
  unfold afterUser
  split
  next front back h =>
    obtain ⟨rfl, -⟩ := splitLast?_eq_some_iff.1 h
    exact (List.suffix_cons _ _).trans (List.suffix_append _ _)
  next => exact List.suffix_refl cs

theorem at_not_mem_afterUser (cs : List Char) : '@' ∉ afterUser cs := by
  unfold afterUser
  split
  next front back h => exact (splitLast?_eq_some_iff.1 h).2
  next h => exact splitLast?_eq_none_iff.1 h

/-- Host and port in brackets: the first closing bracket ends the host. -/
theorem hostAndPort?_bracket_eq_some_iff {cs host port : List Char} :
    hostAndPort? ('[' :: cs) = some (host, port) ↔ cs = host ++ ']' :: ':' :: port ∧ ']' ∉ host := by
  have hsplit := List.takeWhile_append_dropWhile (p := (· != ']')) (l := cs)
  have hfront : ']' ∉ cs.takeWhile (· != ']') := fun h => by
    have := List.mem_takeWhile_imp h
    simp at this
  simp only [hostAndPort?]
  constructor
  · intro h
    split at h
    next port' hrest =>
      cases h
      rw [hrest] at hsplit
      exact ⟨hsplit.symm, hfront⟩
    next => cases h
  · rintro ⟨rfl, hhost⟩
    have hkeep : ∀ c ∈ host, (c != ']') = true := by
      intro c hc
      rw [bne_iff_ne]
      rintro rfl
      exact hhost hc
    rw [List.dropWhile_append_of_pos hkeep, List.takeWhile_append_of_pos hkeep]
    simp

theorem subset_of_hostAndPort? {cs host port : List Char} (h : hostAndPort? cs = some (host, port)) :
    host ⊆ cs := by
  by_cases hhead : cs.head? = some '['
  · obtain ⟨rest, rfl⟩ := List.head?_eq_some_iff.1 hhead
    obtain ⟨rfl, -⟩ := hostAndPort?_bracket_eq_some_iff.1 h
    exact List.Subset.trans (List.subset_append_left _ _) (List.subset_cons_self _ _)
  · rw [hostAndPort?_of_head_ne hhead] at h
    obtain ⟨rfl, -⟩ := splitLast?_eq_some_iff.1 h
    exact List.subset_append_left _ _

theorem isTidy_of_parse {s : String} {e : Endpoint} (h : parse s = some e) : e.IsTidy := by
  obtain ⟨host, port, hparts, ⟨hhost, -⟩, husable⟩ := parseChars_eq_some_iff.1 h
  have hsubset : e.host.toList ⊆ bare s.toList := fun c hc => by
    rw [← hhost] at hc
    exact subset_of_hostAndPort? hparts (Text.mem_of_mem_trimBy hc)
  refine ⟨husable, ?_, fun hc => ?_, fun hc => at_not_mem_afterUser _ (hsubset hc)⟩
  · have htrim : Text.trimChars e.host.toList = e.host.toList := by
      rw [← hhost]
      exact Text.trimBy_trimBy _ _
    rw [Text.trim, htrim, String.ofList_toList]
  · exact slash_not_mem_authority _ ((afterUser_suffix _).subset (hsubset hc))

/-! ### What is written -/

/-- The host as it is written. -/
def shownHost (e : Endpoint) : List Char :=
  if ':' ∈ e.host.toList then '[' :: (e.host.toList ++ [']']) else e.host.toList

theorem toList_text (e : Endpoint) :
    e.text.toList = e.shownHost ++ ':' :: Nat.toDigits 10 e.port.toNat := by
  have hdigits : (Numeral.ofNat e.port.toNat).toList = Nat.toDigits 10 e.port.toNat :=
    String.toList_ofList
  unfold text shownHost
  by_cases h : ':' ∈ e.host.toList
  · simp [h, hdigits]
  · simp [h, hdigits]

theorem mem_shownHost {e : Endpoint} {c : Char} (h : c ∈ e.shownHost) :
    c ∈ e.host.toList ∨ c = '[' ∨ c = ']' := by
  unfold shownHost at h
  split at h
  · simpa [or_comm, or_assoc, or_left_comm] using h
  · exact .inl h

theorem trimChars_host {e : Endpoint} (h : e.IsTidy) :
    Text.trimChars e.host.toList = e.host.toList := by
  have := congrArg String.toList h.trimmed
  rwa [Text.trim, String.toList_ofList] at this

theorem toList_host_ne_nil {e : Endpoint} (h : e.IsUsable) : e.host.toList ≠ [] := by
  simpa using h.host_ne

theorem slash_not_mem_shownHost {e : Endpoint} (h : e.IsTidy) : '/' ∉ e.shownHost := by
  intro hc
  rcases mem_shownHost hc with hc | hc | hc
  · exact h.slash_not_mem hc
  · cases hc
  · cases hc

theorem at_not_mem_shownHost {e : Endpoint} (h : e.IsTidy) : '@' ∉ e.shownHost := by
  intro hc
  rcases mem_shownHost hc with hc | hc | hc
  · exact h.at_not_mem hc
  · cases hc
  · cases hc

theorem head_shownHost {e : Endpoint} (h : e.IsTidy) :
    ∃ c, e.shownHost.head? = some c ∧ Text.isBlank c = false := by
  unfold shownHost
  split
  · exact ⟨'[', rfl, rfl⟩
  · obtain ⟨c, rest, hc⟩ := List.exists_cons_of_ne_nil (toList_host_ne_nil h.toIsUsable)
    refine ⟨c, by rw [hc]; rfl, ?_⟩
    exact Text.head_of_trimBy_eq_self (trimChars_host h) c (by rw [hc]; rfl)

/-- Nothing is to be taken off the written form. -/
theorem isBare_text {e : Endpoint} (h : e.IsTidy) : IsBare e.text.toList := by
  obtain ⟨c, hc, hblank⟩ := head_shownHost h
  have hne : e.shownHost ≠ [] := by
    intro hnil
    rw [hnil] at hc
    cases hc
  rw [toList_text]
  refine ⟨by simp, ?_, ?_, ?_, ?_⟩
  · rw [List.head?_append_of_ne_nil _ hne, hc]
    rintro d hd
    rwa [← Option.some.inj hd]
  · exact isDigit_last_append_toDigits _ _
  · exact not_mem_append_toDigits (slash_not_mem_shownHost h) (by decide) (by decide) _
  · exact not_mem_append_toDigits (at_not_mem_shownHost h) (by decide) (by decide) _

theorem names_text {e : Endpoint} (h : e.IsTidy) :
    Names e.host.toList (Nat.toDigits 10 e.port.toNat) e := by
  refine ⟨trimChars_host h, ?_⟩
  rw [trimChars_toDigits, Numeral.readNat_toDigits, if_pos]
  have := e.port.toNat_lt
  omega

/-! ### What is read back -/

/-- Whether the brackets that a host may have leave it to be told from what is written around it. -/
def ShowsHost (e : Endpoint) : Prop :=
  (':' ∈ e.host.toList → ']' ∉ e.host.toList) ∧ (':' ∉ e.host.toList → e.host.toList.head? ≠ some '[')

instance (e : Endpoint) : Decidable e.ShowsHost :=
  inferInstanceAs (Decidable ((_ → _) ∧ (_ → _)))

theorem hostAndPort?_text {e : Endpoint} (h : e.ShowsHost) (hne : e.host.toList ≠ []) :
    hostAndPort? e.text.toList = some (e.host.toList, Nat.toDigits 10 e.port.toNat) := by
  rw [toList_text]
  unfold shownHost
  split
  next hcolon =>
    rw [List.cons_append, hostAndPort?_bracket_eq_some_iff]
    exact ⟨by simp, h.1 hcolon⟩
  next hcolon =>
    rw [hostAndPort?_of_head_ne, splitLast?_eq_some_iff]
    · exact ⟨rfl, colon_not_mem_toDigits _⟩
    · rw [List.head?_append_of_ne_nil _ hne]
      exact h.2 hcolon

/-- Reading the written form cannot find the host if it does not show. -/
theorem showsHost_of_names {e : Endpoint} {host port : List Char}
    (hparts : hostAndPort? e.text.toList = some (host, port)) (hnames : Names host port e) :
    e.ShowsHost := by
  rw [toList_text] at hparts
  unfold shownHost at hparts
  constructor
  · intro hcolon hbracket
    rw [if_pos hcolon, List.cons_append, hostAndPort?_bracket_eq_some_iff] at hparts
    rw [← hnames.host_eq] at hbracket
    exact hparts.2 (Text.mem_of_mem_trimBy hbracket)
  · intro hcolon hhead
    obtain ⟨rest, hrest⟩ := List.head?_eq_some_iff.1 hhead
    rw [if_neg hcolon, hrest, List.cons_append, hostAndPort?_bracket_eq_some_iff] at hparts
    rw [hrest, List.mem_cons, not_or] at hcolon
    -- The colon in front of the port is the only one, so the host that is read has lost a bracket at
    -- either end.
    have hsplit : rest ++ ':' :: Nat.toDigits 10 e.port.toNat = (host ++ [']']) ++ ':' :: port := by
      rw [hparts.1, List.append_assoc]
      rfl
    have hhost : rest = host ++ [']'] :=
      ((List.append_cons_inj_of_notMem hcolon.2 (colon_not_mem_toDigits _)).1 hsplit).1
    have hlen := Text.length_trimBy_le Text.isBlank host
    rw [← Text.trimChars, hnames.host_eq, hrest, hhost] at hlen
    simp only [List.length_cons, List.length_append, List.length_nil] at hlen
    omega

/-- A tidy endpoint is read back from its written form, with anything around it, just when its host
shows. -/
theorem parseChars_around_iff {e : Endpoint} (h : e.IsTidy) (w : Wrapping) :
    parseChars (w.around e.text.toList) = some e ↔ e.ShowsHost := by
  rw [parseChars_eq_some_iff, bare_around (isBare_text h)]
  constructor
  · rintro ⟨host, port, hparts, hnames, -⟩
    exact showsHost_of_names hparts hnames
  · intro hshows
    have hparts := hostAndPort?_text hshows (toList_host_ne_nil h.toIsUsable)
    exact ⟨_, _, hparts, names_text h, h.toIsUsable⟩

theorem parse_text_iff {e : Endpoint} (h : e.IsTidy) : parse e.text = some e ↔ e.ShowsHost := by
  have hnothing : Wrapping.around {} e.text.toList = e.text.toList := by
    simp [Wrapping.around, Wrapping.schemePart, Wrapping.userPart]
  have := parseChars_around_iff h {}
  rwa [hnothing] at this

theorem showsHost_of_not_mem {e : Endpoint} (hopening : '[' ∉ e.host.toList)
    (hclosing : ']' ∉ e.host.toList) : e.ShowsHost :=
  ⟨fun _ => hclosing, fun _ h => hopening (List.mem_of_mem_head? h)⟩

/-- An at sign in front of everything keeps the blanks behind it from being trimmed. -/
theorem bare_at {cs : List Char} (hlast : ∀ c ∈ ('@' :: cs).getLast?, c.isDigit = true)
    (hslash : '/' ∉ cs) (hat : '@' ∉ cs) : bare ('@' :: cs) = cs := by
  have hslash' : '/' ∉ '@' :: cs := by
    rw [List.mem_cons, not_or]
    exact ⟨by decide, hslash⟩
  have htrim : Text.trimChars ('@' :: cs) = '@' :: cs := by
    refine Text.trimBy_eq_self (fun c hc => ?_) fun c hc => ?_
    · rw [← Option.some.inj hc]
      rfl
    · exact Text.isBlank_of_isDigit (hlast c hc)
  unfold bare afterUser
  rw [htrim, afterScheme_of_not_mem hslash', authority_of_not_mem hslash', ← List.nil_append ('@' :: _),
    splitLast?_append hat]

/-- Every tidy endpoint is read from some text: behind an at sign and a blank, brackets are characters
of the host like any other. -/
theorem exists_parse_iff {e : Endpoint} : (∃ s, parse s = some e) ↔ e.IsTidy := by
  refine ⟨fun ⟨s, h⟩ => isTidy_of_parse h, fun h => ?_⟩
  let host := ' ' :: e.host.toList
  let digits := Nat.toDigits 10 e.port.toNat
  have hslash : '/' ∉ host := by
    simpa [host] using h.slash_not_mem
  have hat : '@' ∉ host := by
    simpa [host] using h.at_not_mem
  have hbare : bare ('@' :: (host ++ ':' :: digits)) = host ++ ':' :: digits :=
    bare_at (isDigit_last_append_toDigits ('@' :: host) _)
      (not_mem_append_toDigits hslash (by decide) (by decide) _)
      (not_mem_append_toDigits hat (by decide) (by decide) _)
  have hparts : hostAndPort? (host ++ ':' :: digits) = some (host, digits) := by
    rw [hostAndPort?_of_head_ne (by simp [host]), splitLast?_eq_some_iff]
    exact ⟨rfl, colon_not_mem_toDigits _⟩
  have hhost : Text.trimChars host = e.host.toList := by
    have hblank : Text.trimChars ([' '] ++ e.host.toList ++ []) = Text.trimChars e.host.toList :=
      Text.trimBy_append (List.forall_mem_singleton.2 rfl) (by simp) _
    rw [List.append_nil, List.singleton_append] at hblank
    exact hblank.trans (trimChars_host h)
  refine ⟨String.ofList ('@' :: (host ++ ':' :: digits)), ?_⟩
  rw [parse, String.toList_ofList, parseChars_eq_some_iff, hbare]
  exact ⟨host, digits, hparts, ⟨hhost, (names_text h).port_eq⟩, h.toIsUsable⟩

/-- An endpoint whose host has no brackets is read back from its written form, alone and with a scheme,
user information, a path and blanks around it.  Whatever the text, an endpoint that is read is tidy. -/
theorem wrapped_read_back :
    (∀ e : Endpoint, e.IsTidy → '[' ∉ e.host.toList → ']' ∉ e.host.toList →
      parse e.text = some e ∧
      ∀ w : Wrapping, parse (String.ofList (w.around e.text.toList)) = some e) ∧
    ∀ (s : String) (e : Endpoint), parse s = some e → e.IsTidy := by
  refine ⟨fun e h hopening hclosing => ?_, fun s e => isTidy_of_parse⟩
  have hshows := showsHost_of_not_mem hopening hclosing
  refine ⟨(parse_text_iff h).2 hshows, fun w => ?_⟩
  rw [parse, String.toList_ofList]
  exact (parseChars_around_iff h w).2 hshows

/-- An address with everything around it that there may be, white space of other scripts included. -/
def lodge : Wrapping where
  front := ['\t', ' ']
  scheme := some "tcp+x.1".toList
  user := some "a:b@[c]".toList
  path := "/x://y@z:1//".toList
  back := ['\u3000']
  front_blank := List.forall_mem_cons.2 ⟨rfl, List.forall_mem_singleton.2 rfl⟩
  back_blank := List.forall_mem_singleton.2 rfl
  scheme_plain := by decide
  user_plain := by decide
  path_head _ h := (Option.some.inj h).symm
  path_plain := by decide

theorem wrapped_read_back_lodge :
    let e : Endpoint := ⟨"fe80::1", 7000⟩
    e.IsTidy ∧ '[' ∉ e.host.toList ∧ ']' ∉ e.host.toList ∧
      String.ofList (lodge.around e.text.toList) =
        "\t tcp+x.1://a:b@[c]@[fe80::1]:7000/x://y@z:1//\u3000" ∧
      parse "\t tcp+x.1://a:b@[c]@[fe80::1]:7000/x://y@z:1//\u3000" = some e := by
  intro e
  have h : e.IsTidy := ⟨⟨by decide, by decide⟩, by decide +kernel, by decide, by decide⟩
  have htext : String.ofList (lodge.around e.text.toList) =
      "\t tcp+x.1://a:b@[c]@[fe80::1]:7000/x://y@z:1//\u3000" := by decide +kernel
  refine ⟨h, by decide, by decide, htext, ?_⟩
  rw [← htext]
  exact (wrapped_read_back.1 e h (by decide) (by decide)).2 lodge

/-- An endpoint that is read from a text is read again from its written form if its host shows, and
otherwise not.  The endpoints that are read from texts are all the tidy ones. -/
theorem read_again_iff_showsHost (e : Endpoint) :
    (∀ s, parse s = some e → (parse e.text = some e ↔ e.ShowsHost)) ∧
      ((∃ s, parse s = some e) ↔ e.IsTidy) :=
  ⟨fun _ h => parse_text_iff (isTidy_of_parse h), exists_parse_iff⟩

theorem read_again_iff_showsHost_link :
    let e : Endpoint := ⟨"fe80::1", 7000⟩
    parse "tcp://[ fe80::1]: +7000/" = some e ∧ (parse e.text = some e ↔ e.ShowsHost) ∧
      e.ShowsHost := by
  intro e
  have h : parse "tcp://[ fe80::1]: +7000/" = some e := by decide +kernel
  exact ⟨h, (read_again_iff_showsHost e).1 _ h, by decide +kernel⟩

/-- Brackets behind a blank are taken for a part of the host, and are written in brackets again. -/
theorem lost_on_reading_again :
    let e : Endpoint := ⟨"[::1]", 9090⟩
    parse "tcp:// [::1]:9090" = some e ∧ e.text = "[[::1]]:9090" ∧ parse e.text = none := by
  decide +kernel

end Endpoint

end TileRealm
