import TileRealm.Proofs.Player.Announcement

/-!
# Crowds

Messages of several connections that are handled at the same time.  A handler that has everyone told
does so in three strokes: it shows the new view, it copies all views, and it offers the copy to
everyone who is in it; the strokes of different handlers come in any order.  One handler alone does
what the world does (`Crowd.run_message`).  A copy may be offered after a later one, and then it is
the last that everyone hears (`Crowd.not_upToDate_of_overtaken`).  What is always heard, and what is
heard last, is said by `Crowd.hearings_of_run`.
-/

namespace TileRealm

open ServerMessage

/-- What a handler has still to do. -/
inductive Stage where
  /-- To copy the views, to offer them and to take some actions. -/
  | shown (rest : List Action)
  /-- To offer some views and to take some actions. -/
  | copied (views : Table ConnectionId View) (rest : List Action)

/-- A world with handlers at work, one for a connection at most. -/
structure Crowd where
  world : World
  stages : Table ConnectionId Stage := ∅

/-- What a handler does at once. -/
inductive Stroke where
  /-- Begin with a message that has everyone told, and show the new view. -/
  | publish (id : ConnectionId) (m : ClientMessage)
  /-- Copy all views. -/
  | copy (id : ConnectionId)
  /-- Offer the copied views to everyone who is in them, and take the actions that are left. -/
  | deliver (id : ConnectionId)
deriving DecidableEq

namespace Crowd

/-- What a handler does before it copies the views. -/
def untilBroadcast (as : List Action) : List Action := as.takeWhile fun a => a ≠ .broadcast

/-- What a handler does after it has offered the copy. -/
def afterBroadcast (as : List Action) : List Action := (as.dropWhile fun a => a ≠ .broadcast).tail

/-- The crowd after a stroke, if a handler can do it. -/
def step (c : Crowd) : Stroke → Option Crowd
  | .publish id m =>
    match c.world.sessions.get? id, c.stages.get? id with
    | some s, none =>
      if s.announces c.world.scene m then
        let next := s.handle c.world.scene m
        some
          { world := World.performAll id (c.world.withSession id next.1) (untilBroadcast next.2)
            stages := c.stages.insert id (.shown (afterBroadcast next.2)) }
      else none
    | _, _ => none
  | .copy id =>
    match c.stages.get? id with
    | some (.shown rest) =>
      some { c with stages := c.stages.insert id (.copied c.world.lobby.views rest) }
    | _ => none
  | .deliver id =>
    match c.stages.get? id with
    | some (.copied views rest) =>
      some
        { world := World.performAll id (c.world.withLobby (c.world.lobby.offerAll views).1) rest
          stages := c.stages.erase id }
    | _ => none

/-- The crowd after some strokes, if handlers can do them in this order. -/
def run (c : Crowd) (ss : List Stroke) : Option Crowd := ss.foldlM step c

@[simp] theorem run_nil (c : Crowd) : c.run [] = some c := rfl

theorem run_cons (c : Crowd) (t : Stroke) (ss : List Stroke) :
    c.run (t :: ss) = (c.step t).bind fun c' => c'.run ss := rfl

theorem run_append (c : Crowd) (ss ts : List Stroke) :
    c.run (ss ++ ts) = (c.run ss).bind fun c' => c'.run ts :=
  List.foldlM_append

theorem run_concat_eq_some_iff {c c' : Crowd} {ss : List Stroke} {t : Stroke} :
    c.run (ss ++ [t]) = some c' ↔ ∃ c₁, c.run ss = some c₁ ∧ c₁.step t = some c' := by
  rw [run_append, Option.bind_eq_some_iff]
  simp only [run_cons, run_nil, Option.bind_fun_some]

/-- Whether every registered connection has room for a snapshot. -/
def roomy (c : Crowd) : Bool :=
  c.world.lobby.views.toList.all fun e => (c.world.lobby.lines.get? e.1).any Line.hasRoom

/-- Whether every registered connection has room before each stroke. -/
def NeverFull (c : Crowd) (ss : List Stroke) : Prop :=
  ∀ i < ss.length, ∀ c' ∈ c.run (ss.take i), c'.roomy = true

end Crowd

/-! ### What is heard -/

namespace Line

theorem snapshots_foldl_push {ms : List ServerMessage} (hms : ∀ m ∈ ms, m.isSnapshot = false)
    (l : Line) : snapshots (ms.foldl push l).queued = snapshots l.queued := by
  induction ms generalizing l with
  | nil => rfl
  | cons m ms ih =>
    rw [List.foldl_cons, ih fun n hn => hms n (List.mem_cons_of_mem _ hn), push]
    split
    next => rfl
    next =>
      have hm : snapshots [m] = [] := by simp [snapshots, hms m List.mem_cons_self]
      rw [snapshots_append, hm, List.append_nil]

end Line

namespace Lobby

/-- The snapshots that a connection hears, oldest first. -/
def heard (l : Lobby) (id : ConnectionId) : List ServerMessage := snapshots (l.queued id)

/-- Who is in a copy of the views and has room hears the copy. -/
theorem heard_offerAll {l : Lobby} {shown : Table ConnectionId View} {id : ConnectionId} {v : View}
    (hv : shown.get? id = some v) (hroom : (l.lines.get? id).any Line.hasRoom = true) :
    (l.offerAll shown).1.heard id = l.heard id ++ [snapshotFor shown v] := by
  have hlines := l.get?_lines_offerAll shown id
  cases hline : l.lines.get? id with
  | none => simp [hline] at hroom
  | some line =>
    have hr : line.hasRoom = true := by simpa [hline] using hroom
    simp only [hv, hline, Option.map_some, Line.offer_of_hasRoom hr, Option.getD_some] at hlines
    simp only [heard, queued, hlines, hline, snapshots_append]
    rfl

end Lobby

namespace World

/-- Messages other than snapshots are not heard. -/
theorem heard_performAll_map_send (id : ConnectionId) (w : World) {ms : List ServerMessage}
    (hms : ∀ m ∈ ms, m.isSnapshot = false) :
    ∃ l, performAll id w (ms.map .send) = w.withLobby l ∧ l.views = w.lobby.views ∧
      ∀ id', l.heard id' = w.lobby.heard id' := by
  obtain ⟨l, heq, hviews, hlines⟩ := performAll_map_send id w ms
  refine ⟨l, heq, hviews, fun id' => ?_⟩
  rw [Lobby.heard, Lobby.heard, Lobby.queued, Lobby.queued, hlines]
  cases w.lobby.lines.get? id' with
  | none => rfl
  | some line =>
    refine Line.snapshots_foldl_push (fun m hm => ?_) line
    split at hm
    next => exact hms m hm
    next => cases hm

end World

namespace Crowd

/-! ### Strokes -/

/-- The actions that are left to a handler. -/
def rest : Stage → List Action
  | .shown rest => rest
  | .copied _ rest => rest

/-- All that is left to handlers is messages to their players, none of them a snapshot. -/
def Tidy (c : Crowd) : Prop :=
  ∀ id stage, c.stages.get? id = some stage →
    ∃ ms : List ServerMessage, rest stage = ms.map .send ∧ ∀ m ∈ ms, m.isSnapshot = false

/-- What a stroke makes of a crowd. -/
inductive Struck (c : Crowd) : Stroke → Crowd → Prop where
  | publish {id : ConnectionId} {m : ClientMessage} {s s' : Session} {l : Lobby}
      {rest : List ServerMessage} (hs : c.world.sessions.get? id = some s)
      (hs' : s' = (s.handle c.world.scene m).1) (hidle : c.stages.get? id = none)
      (ha : s.announces c.world.scene m = true)
      (hviews : l.views = (c.world.lobby.publish id s'.view).views)
      (hheard : ∀ id', l.heard id' = c.world.lobby.heard id')
      (hrest : ∀ n ∈ rest, n.isSnapshot = false) :
      Struck c (.publish id m)
        ⟨(c.world.withSession id s').withLobby l, c.stages.insert id (.shown (rest.map .send))⟩
  | copy {id : ConnectionId} {rest : List Action} (h : c.stages.get? id = some (.shown rest)) :
      Struck c (.copy id)
        { c with stages := c.stages.insert id (.copied c.world.lobby.views rest) }
  | deliver {id : ConnectionId} {views : Table ConnectionId View} {rest : List Action} {l : Lobby}
      (h : c.stages.get? id = some (.copied views rest)) (hviews : l.views = c.world.lobby.views)
      (hheard : ∀ id', l.heard id' = (c.world.lobby.offerAll views).1.heard id') :
      Struck c (.deliver id) ⟨c.world.withLobby l, c.stages.erase id⟩

theorem untilBroadcast_eq (ms ns : List ServerMessage) (v : View) :
    untilBroadcast (ms.map .send ++ (.publish v :: .broadcast :: ns.map .send)) =
      ms.map .send ++ [.publish v] := by
  rw [untilBroadcast, List.takeWhile_append_of_pos (by simp)]
  rfl

theorem afterBroadcast_eq (ms ns : List ServerMessage) (v : View) :
    afterBroadcast (ms.map .send ++ (.publish v :: .broadcast :: ns.map .send)) = ns.map .send := by
  rw [afterBroadcast, List.dropWhile_append_of_pos (by simp)]
  rfl

theorem struck {c c' : Crowd} (hc : c.Tidy) {t : Stroke} (h : c.step t = some c') :
    Struck c t c' := by
  cases t with
  | publish id m =>
    rw [step] at h
    split at h
    next s hs hidle =>
      split at h
      next ha =>
        have hp := s.handling c.world.scene m
        obtain ⟨rest, has⟩ := hp.of_announces ha
        have hsend : ∀ n ∈ (s.ahead c.world.scene m) ++ rest, n.isSnapshot = false := fun n hn => by
          refine hp.isSnapshot_eq_false ?_
          rw [has]
          simpa using List.mem_append.1 hn
        obtain ⟨l, heq, hviews, hheard⟩ := World.heard_performAll_map_send id
          (c.world.withSession id (s.handle c.world.scene m).1)
          (fun n hn => hsend n (List.mem_append_left _ hn))
        rw [← Option.some.inj h]
        rw [has, untilBroadcast_eq, afterBroadcast_eq, World.performAll_append, heq]
        exact .publish hs rfl hidle ha (l := l.publish id (s.handle c.world.scene m).1.view)
          (congrArg (fun views => Table.modify views id fun _ => _) hviews) hheard
          fun n hn => hsend n (List.mem_append_right _ hn)
      next => cases h
    next => cases h
  | copy id =>
    rw [step] at h
    split at h
    next rest hrest => exact Option.some.inj h ▸ .copy hrest
    next => cases h
  | deliver id =>
    rw [step] at h
    split at h
    next views as has =>
      obtain ⟨ms, hms, hnot⟩ := hc _ _ has
      obtain ⟨l, heq, hviews, hheard⟩ := World.heard_performAll_map_send id
        (c.world.withLobby (c.world.lobby.offerAll views).1) hnot
      rw [← Option.some.inj h, show as = ms.map .send from hms, heq]
      exact .deliver has (hviews.trans (Lobby.views_offerAll ..)) hheard
    next => cases h

theorem Struck.tidy {c c' : Crowd} {t : Stroke} (h : Struck c t c') (hc : c.Tidy) : c'.Tidy := by
  intro id' stage hstage
  cases h with
  | publish hs hs' hidle ha hviews hheard hrest =>
    rw [Table.get?_insert] at hstage
    split at hstage
    next => exact ⟨_, Option.some.inj hstage ▸ rfl, hrest⟩
    next => exact hc _ _ hstage
  | copy hshown =>
    rw [Table.get?_insert] at hstage
    split at hstage
    next =>
      cases hstage
      obtain ⟨ms, hms, hnot⟩ := hc _ _ hshown
      exact ⟨ms, hms, hnot⟩
    next => exact hc _ _ hstage
  | deliver =>
    rw [Table.get?_erase] at hstage
    split at hstage
    next => cases hstage
    next => exact hc _ _ hstage

theorem Struck.isRegistered {c c' : Crowd} {t : Stroke} (h : Struck c t c') (id : ConnectionId) :
    c'.world.lobby.isRegistered id = c.world.lobby.isRegistered id := by
  cases h with
  | @publish id' m s s' l rest hs hs' hidle ha hviews hheard hrest =>
    show (l.views.get? id).isSome = (c.world.lobby.views.get? id).isSome
    rw [hviews, Lobby.get?_views_publish]
    split
    next hid => rw [hid, Option.isSome_map]
    next => rfl
  | copy => rfl
  | @deliver id' views rest l hcopied hviews hheard =>
    show (l.views.get? id).isSome = (c.world.lobby.views.get? id).isSome
    rw [hviews]

/-- Only a new view changes what is shown. -/
theorem Struck.views_eq {c c' : Crowd} {t : Stroke} (h : Struck c t c')
    (ht : ∀ id m, t ≠ .publish id m) : c'.world.lobby.views = c.world.lobby.views := by
  cases h with
  | publish => exact absurd rfl (ht _ _)
  | copy => rfl
  | deliver hcopied hviews hheard => exact hviews

/-- Only an offer is heard. -/
theorem Struck.heard_eq {c c' : Crowd} {t : Stroke} (h : Struck c t c')
    (ht : ∀ id, t ≠ .deliver id) (id : ConnectionId) :
    c'.world.lobby.heard id = c.world.lobby.heard id := by
  cases h with
  | publish hs hs' hidle ha hviews hheard hrest => exact hheard id
  | copy => rfl
  | deliver => exact absurd rfl (ht _)

theorem erase_stages (id : ConnectionId) (a b : Stage) :
    (((∅ : Table ConnectionId Stage).insert id a).insert id b).erase id = ∅ := by
  refine Table.ext_get? fun id' => ?_
  rw [Table.get?_erase, Table.get?_insert, Table.get?_insert]
  split
  next => rfl
  next => rfl

/-- A handler that is alone does at once what its message does to the world. -/
theorem run_message {w : World} (hw : w.Sound) {id : ConnectionId} {s : Session}
    (hs : w.sessions.get? id = some s) {m : ClientMessage} (ha : s.announces w.scene m = true) :
    (Crowd.mk w ∅).run [.publish id m, .copy id, .deliver id] =
      some ⟨w.step (.message id m), ∅⟩ := by
  obtain ⟨rest, has⟩ := (s.handling w.scene m).of_announces ha
  have hstep : w.step (.message id m) = _ := World.dispatch_of_some hs m
  rw [World.expire_performAll (w := w.withSession id _) hw.timers (by simp [has]), has,
    List.append_cons, World.performAll_append, World.performAll_cons] at hstep
  have hidle : (∅ : Table ConnectionId Stage).get? id = none := rfl
  simp only [run, List.foldlM_cons, List.foldlM_nil, step, hs, hidle, ha, if_true, has,
    untilBroadcast_eq, afterBroadcast_eq, Table.get?_insert_self, Option.bind_eq_bind,
    Option.bind_some, erase_stages]
  rw [hstep]
  rfl

/-! ### Runs -/

/-- A crowd that is reached from one without handlers at work. -/
theorem tidy_run {w : World} {ss : List Stroke} {c : Crowd} (h : (Crowd.mk w ∅).run ss = some c) :
    c.Tidy := by
  induction ss using List.reverseRecOn generalizing c with
  | nil =>
    cases h
    intro id stage hstage
    cases hstage
  | append_singleton ss t ih =>
    obtain ⟨c₁, h₁, ht⟩ := run_concat_eq_some_iff.1 h
    exact (struck (ih h₁) ht).tidy (ih h₁)

section Runs

variable {w : World} {ss : List Stroke} {c : Crowd}

/-- What a crowd without handlers at work comes to, stroke after stroke. -/
theorem run_induction {motive : List Stroke → Crowd → Prop} (nil : motive [] ⟨w, ∅⟩)
    (concat : ∀ ss t c c', (Crowd.mk w ∅).run ss = some c → Struck c t c' → motive ss c →
      motive (ss ++ [t]) c')
    (h : (Crowd.mk w ∅).run ss = some c) : motive ss c := by
  induction ss using List.reverseRecOn generalizing c with
  | nil => exact Option.some.inj h ▸ nil
  | append_singleton ss t ih =>
    obtain ⟨c₁, h₁, ht⟩ := run_concat_eq_some_iff.1 h
    exact concat ss t c₁ c h₁ (struck (tidy_run h₁) ht) (ih h₁)

theorem isRegistered_run (h : (Crowd.mk w ∅).run ss = some c) (id : ConnectionId) :
    c.world.lobby.isRegistered id = w.lobby.isRegistered id :=
  run_induction (motive := fun _ c => c.world.lobby.isRegistered id = w.lobby.isRegistered id) rfl
    (fun _ _ _ _ _ ht ih => (ht.isRegistered id).trans ih) h

/-- What is shown stays as long as no new view is. -/
theorem views_run_of_not_publish {c' : Crowd} {ts : List Stroke} (hc : c.Tidy)
    (h : c.run ts = some c') (hts : ∀ id m, .publish id m ∉ ts) :
    c'.world.lobby.views = c.world.lobby.views := by
  induction ts generalizing c with
  | nil => exact Option.some.inj h ▸ rfl
  | cons t ts ih =>
    rw [run_cons, Option.bind_eq_some_iff] at h
    obtain ⟨c₁, ht, h⟩ := h
    have hstruck := struck hc ht
    rw [ih (hstruck.tidy hc) h fun id m hm => hts id m (List.mem_cons_of_mem _ hm)]
    exact hstruck.views_eq fun id m htm => hts id m (htm ▸ List.mem_cons_self)

/-- In some of the strokes a handler copied the views, and not again since. -/
def CopiedIn (w : World) (ss : List Stroke) (id : ConnectionId) (views : Table ConnectionId View) :
    Prop :=
  ∃ ss₁ ss₂ c₁, ss = ss₁ ++ .copy id :: ss₂ ∧ .copy id ∉ ss₂ ∧
    (Crowd.mk w ∅).run ss₁ = some c₁ ∧ views = c₁.world.lobby.views

/-- A copy from before is still the last one of its handler. -/
theorem CopiedIn.concat {id : ConnectionId} {views : Table ConnectionId View} {t : Stroke}
    (h : CopiedIn w ss id views) (ht : t ≠ .copy id) : CopiedIn w (ss ++ [t]) id views := by
  obtain ⟨ss₁, ss₂, c₁, rfl, hno, h₁, hviews⟩ := h
  refine ⟨ss₁, ss₂ ++ [t], c₁, by simp, ?_, h₁, hviews⟩
  simpa [hno] using ht.symm

theorem copiedIn_of_run (h : (Crowd.mk w ∅).run ss = some c) : ∀ {id views rest},
    c.stages.get? id = some (.copied views rest) → CopiedIn w ss id views := by
  refine run_induction (motive := fun ss c => ∀ {id views rest},
    c.stages.get? id = some (.copied views rest) → CopiedIn w ss id views) ?_ ?_ h
  · intro id views rest hs
    cases hs
  · intro ss t c c' hrun ht ih id views rest hs
    cases ht with
    | publish =>
      rw [Table.get?_insert] at hs
      split at hs
      next => cases hs
      next => exact (ih hs).concat Stroke.noConfusion
    | copy hshown =>
      rw [Table.get?_insert] at hs
      split at hs
      next hid =>
        cases hs
        exact ⟨ss, [], c, by rw [hid], List.not_mem_nil, hrun, rfl⟩
      next hid => exact (ih hs).concat fun heq => hid (Stroke.copy.inj heq).symm
    | deliver =>
      rw [Table.get?_erase] at hs
      split at hs
      next => cases hs
      next => exact (ih hs).concat Stroke.noConfusion

end Runs

/-- Whether every registered connection hears a copy of some views when it is offered. -/
theorem heard_deliver {c c' : Crowd} (hroom : c.roomy = true) {id : ConnectionId}
    {views : Table ConnectionId View} {rest : List Action}
    (hs : c.stages.get? id = some (.copied views rest)) (ht : Struck c (.deliver id) c')
    {id' : ConnectionId} {v : View} (hv : views.get? id' = some v)
    (hreg : c.world.lobby.isRegistered id' = true) :
    c'.world.lobby.heard id' = c.world.lobby.heard id' ++ [Lobby.snapshotFor views v] := by
  cases ht with
  | deliver hs' hviews hheard =>
    cases hs.symm.trans hs'
    obtain ⟨u, hu⟩ := Option.isSome_iff_exists.1 hreg
    have hline := List.all_eq_true.1 hroom (id', u) (Table.mem_toList_iff.2 hu)
    exact (hheard id').trans (Lobby.heard_offerAll hv hline)

/-! ### What is heard in a run -/

theorem NeverFull.concat {c c' : Crowd} {ss : List Stroke} {t : Stroke}
    (h : c.NeverFull (ss ++ [t])) (hrun : c.run ss = some c') :
    c.NeverFull ss ∧ c'.roomy = true := by
  refine ⟨fun i hi => ?_, ?_⟩
  · have hi' := h i (by rw [List.length_append]; omega)
    rwa [List.take_append_of_le_length (Nat.le_of_lt hi)] at hi'
  · refine h ss.length (by simp) c' ?_
    rw [List.take_left, hrun]
    rfl

section Heard

variable {w : World} {ss : List Stroke} {c c' : Crowd}

/-- A copy that is offered is heard by all, whatever it shows of them. -/
theorem heard_of_deliver (h : (Crowd.mk w ∅).run ss = some c) (hroom : c.roomy = true)
    {id : ConnectionId} (ht : Struck c (.deliver id) c') :
    ∃ ss₁ ss₂ c₁ rest, ss = ss₁ ++ .copy id :: ss₂ ∧ .copy id ∉ ss₂ ∧
      (Crowd.mk w ∅).run ss₁ = some c₁ ∧
      c.stages.get? id = some (.copied c₁.world.lobby.views rest) ∧
      ∀ id' v, c₁.world.lobby.views.get? id' = some v → c'.world.lobby.heard id' =
        c.world.lobby.heard id' ++ [Lobby.snapshotFor c₁.world.lobby.views v] := by
  have ht' := ht
  cases ht with
  | @deliver _ views rest l hs hviews hheard =>
    obtain ⟨ss₁, ss₂, c₁, rfl, hno, h₁, rfl⟩ := copiedIn_of_run h hs
    refine ⟨ss₁, ss₂, c₁, rest, rfl, hno, h₁, hs, fun id' v hv => ?_⟩
    refine heard_deliver hroom hs ht' hv ?_
    rw [isRegistered_run h, ← isRegistered_run h₁]
    exact Option.isSome_iff_exists.2 ⟨v, hv⟩

/-- What is heard is not unheard. -/
theorem mem_heard_of_struck (h : (Crowd.mk w ∅).run ss = some c) (hroom : c.roomy = true)
    {t : Stroke} (ht : Struck c t c') {id : ConnectionId} {m : ServerMessage}
    (hreg : c.world.lobby.isRegistered id = true) (hm : m ∈ c.world.lobby.heard id) :
    m ∈ c'.world.lobby.heard id := by
  by_cases hdeliver : ∃ id', t = .deliver id'
  · obtain ⟨id', rfl⟩ := hdeliver
    obtain ⟨ss₁, ss₂, c₁, rest, rfl, hno, h₁, hs, hheard⟩ := heard_of_deliver h hroom ht
    rw [isRegistered_run h, ← isRegistered_run h₁] at hreg
    obtain ⟨v, hv⟩ := Option.isSome_iff_exists.1 hreg
    rw [hheard id v hv]
    exact List.mem_append_left _ hm
  · rwa [ht.heard_eq fun id' heq => hdeliver ⟨id', heq⟩]

/-- A handler has still to offer what is shown. -/
def Pending (c : Crowd) : Prop :=
  (∃ id rest, c.stages.get? id = some (.shown rest)) ∨
    ∃ id rest, c.stages.get? id = some (.copied c.world.lobby.views rest)

/-- Everyone has heard what is shown. -/
def AllHeard (c : Crowd) : Prop :=
  ∀ id v, c.world.lobby.views.get? id = some v →
    Lobby.snapshotFor c.world.lobby.views v ∈ c.world.lobby.heard id

/-- An offer is heard by all if it is of what is shown, and else leaves it to others. -/
theorem pending_or_allHeard_of_deliver (h : (Crowd.mk w ∅).run ss = some c)
    (hroom : c.roomy = true) {id : ConnectionId} (ht : Struck c (.deliver id) c')
    (hc : c.Pending ∨ c.AllHeard) : c'.Pending ∨ c'.AllHeard := by
  obtain ⟨ss₁, ss₂, c₁, rest, -, -, -, hs, hheard⟩ := heard_of_deliver h hroom ht
  have hviews := ht.views_eq fun id m => Stroke.noConfusion
  have hstages : ∀ id', id' ≠ id → c'.stages.get? id' = c.stages.get? id' := by
    intro id' hid
    cases ht with
    | deliver => rw [Table.get?_erase, if_neg hid]
  rcases hc with (⟨id', rest', hshown⟩ | ⟨id', rest', hcopied⟩) | hall
  · have hid : id' ≠ id := by
      rintro rfl
      cases hs.symm.trans hshown
    exact .inl (.inl ⟨id', rest', (hstages id' hid).trans hshown⟩)
  · by_cases hid : id' = id
    · -- The copy that is offered shows what is shown.
      subst hid
      have heq : c₁.world.lobby.views = c.world.lobby.views := by
        have := hs.symm.trans hcopied
        injection this with this
        injection this
      refine .inr fun id'' v hv => ?_
      rw [hviews, ← heq] at hv ⊢
      rw [hheard id'' v hv]
      exact List.mem_append_right _ (List.mem_singleton_self _)
    · refine .inl (.inr ⟨id', rest', ?_⟩)
      rw [hstages id' hid, hviews]
      exact hcopied
  · refine .inr fun id' v hv => ?_
    rw [hviews] at hv ⊢
    exact mem_heard_of_struck h hroom ht (Option.isSome_iff_exists.2 ⟨v, hv⟩) (hall id' v hv)

/-- What is shown is heard by all, or will be. -/
theorem pending_or_allHeard_run (h : (Crowd.mk w ∅).run ss = some c)
    (hroom : (Crowd.mk w ∅).NeverFull ss) : ss = [] ∨ c.Pending ∨ c.AllHeard := by
  revert hroom
  refine run_induction (motive := fun ss c => (Crowd.mk w ∅).NeverFull ss →
    ss = [] ∨ c.Pending ∨ c.AllHeard) (fun _ => .inl rfl) ?_ h
  intro ss t c c' hrun ht ih hroom
  obtain ⟨hbefore, hroomy⟩ := hroom.concat hrun
  refine .inr ?_
  cases t with
  | publish id m =>
    cases ht with
    | publish => exact .inl (.inl ⟨_, _, Table.get?_insert_self ..⟩)
  | copy id =>
    cases ht with
    | copy => exact .inl (.inr ⟨_, _, Table.get?_insert_self ..⟩)
  | deliver id =>
    refine pending_or_allHeard_of_deliver hrun hroomy ht ((ih hbefore).resolve_left ?_)
    rintro rfl
    obtain ⟨ss₁, ss₂, -, -, hss, -⟩ := heard_of_deliver hrun hroomy ht
    simp at hss

/-- Handlers that have come to their ends end with an offer, and everyone heard its copy last. -/
theorem getLast?_heard_run (h : (Crowd.mk w ∅).run ss = some c)
    (hroom : (Crowd.mk w ∅).NeverFull ss) (hne : ss ≠ [])
    (hdone : ∀ id, c.stages.get? id = none) :
    ∃ ss₁ ss₂ id c₁, ss = ss₁ ++ .copy id :: (ss₂ ++ [.deliver id]) ∧ .copy id ∉ ss₂ ∧
      (Crowd.mk w ∅).run ss₁ = some c₁ ∧ ∀ id' v, c₁.world.lobby.views.get? id' = some v →
        (c.world.lobby.heard id').getLast? =
          some (Lobby.snapshotFor c₁.world.lobby.views v) := by
  obtain ⟨ss, t, rfl⟩ := (List.eq_nil_or_concat' ss).resolve_left hne
  obtain ⟨c₀, h₀, ht⟩ := run_concat_eq_some_iff.1 h
  replace ht := struck (tidy_run h₀) ht
  cases t with
  | publish id m =>
    cases ht with
    | publish => cases (hdone id).symm.trans (Table.get?_insert_self ..)
  | copy id =>
    cases ht with
    | copy => cases (hdone id).symm.trans (Table.get?_insert_self ..)
  | deliver id =>
    obtain ⟨ss₁, ss₂, c₁, rest, rfl, hno, h₁, -, hheard⟩ :=
      heard_of_deliver h₀ (hroom.concat h₀).2 ht
    refine ⟨ss₁, ss₂, id, c₁, by simp, hno, h₁, fun id' v hv => ?_⟩
    rw [hheard id' v hv, List.getLast?_concat]

end Heard

/-! ### What a snapshot lists -/

/-- A snapshot of all players with an id as some views show them. -/
def Lists (shown : Table ConnectionId View) (m : ServerMessage) : Prop :=
  ∃ myId players, m = .playersSnapshot myId players ∧
    ∀ p, p ∈ players ↔ ∃ id v, shown.get? id = some v ∧ v.clientId ≠ 0 ∧ p = Lobby.listed v

theorem lists_snapshotFor (shown : Table ConnectionId View) (v : View) :
    Lists shown (Lobby.snapshotFor shown v) := by
  refine ⟨_, _, rfl, fun p => ⟨Lobby.exists_view_of_mem_roster, ?_⟩⟩
  rintro ⟨id, u, hu, h0, rfl⟩
  exact Lobby.mem_roster_iff.2
    ⟨u, List.mem_map.2 ⟨(id, u), Table.mem_toList_iff.2 hu, rfl⟩, h0, rfl⟩

/-- The last snapshot that each registered connection has heard lists what is shown. -/
def UpToDate (l : Lobby) : Prop :=
  ∀ id, l.isRegistered id = true → ∃ m, (l.heard id).getLast? = some m ∧ Lists l.views m

/-- A view that the last snapshot does not list is news. -/
theorem not_upToDate {l : Lobby} {id id' : ConnectionId} {myId : Int32} {players : List Player}
    {v : View} (hreg : l.isRegistered id = true)
    (hlast : (l.heard id).getLast? = some (.playersSnapshot myId players))
    (hv : l.views.get? id' = some v) (h0 : v.clientId ≠ 0) (hno : Lobby.listed v ∉ players) :
    ¬UpToDate l := by
  intro h
  obtain ⟨m, hm, myId', players', rfl, hlists⟩ := h id hreg
  cases hlast.symm.trans hm
  exact hno ((hlists _).2 ⟨id', v, hv, h0, rfl⟩)

theorem idle_of_length_eq_zero {c : Crowd} (h : c.stages.toList.length = 0) (id : ConnectionId) :
    c.stages.get? id = none := by
  refine Option.eq_none_iff_forall_ne_some.2 fun stage hstage => ?_
  have hmem := Table.mem_toList_iff.2 hstage
  rw [List.length_eq_zero_iff.1 h] at hmem
  cases hmem

/-- A player moves and copies the views, then another player moves, copies them and offers the copy,
and only then the first copy is offered: everyone hears last that the second player has not moved.
Whoever takes a new name is listed with the old one until someone moves. -/
theorem not_upToDate_of_overtaken :
    let es : List Event := [.connect, .connect, .message 0 (.clientConfig 1 (some "a")),
      .message 1 (.clientConfig 1 (some "b"))]
    let c₀ : Crowd := ⟨World.quietCrossing.run es, ∅⟩
    let ss : List Stroke := [.publish 0 (.moveRequest 3 3), .copy 0, .publish 1 (.moveRequest 7 5),
      .copy 1, .deliver 1, .deliver 0]
    (c₀.NeverFull ss ∧ ∃ c, c₀.run ss = some c ∧ (∀ id, c.stages.get? id = none) ∧
        ¬UpToDate c.world.lobby) ∧
      ¬UpToDate (World.quietCrossing.run (es ++ [.message 0 (.moveRequest 3 3),
        .message 1 (.clientConfig 1 (some "c"))])).lobby := by
  intro es c₀ ss
  have hroom : ∀ i < ss.length, ∀ c' ∈ c₀.run (ss.take i), c'.roomy = true := by decide +kernel
  refine ⟨⟨hroom, ?_⟩, ?_⟩
  · have hrun : (c₀.run ss).map (fun c => (c.stages.toList.length, c.world.lobby.isRegistered 0,
        (c.world.lobby.heard 0).getLast?, c.world.lobby.views.get? 1)) =
        some (0, true, some (.playersSnapshot 1
          [⟨1, ⟨3, 3⟩, false, "a"⟩, ⟨2, ⟨0, 0⟩, false, "b"⟩]), some ⟨2, "b", ⟨7, 5⟩, false⟩) := by
      decide +kernel
    obtain ⟨c, hc, hfacts⟩ := Option.map_eq_some_iff.1 hrun
    simp only [Prod.mk.injEq] at hfacts
    obtain ⟨hstages, hreg, hlast, hview⟩ := hfacts
    exact ⟨c, hc, idle_of_length_eq_zero hstages,
      not_upToDate hreg hlast hview (by decide) (by decide)⟩
  · have hlast : ((World.quietCrossing.run (es ++ [.message 0 (.moveRequest 3 3),
        .message 1 (.clientConfig 1 (some "c"))])).lobby.heard 0).getLast? =
        some (.playersSnapshot 1 [⟨1, ⟨3, 3⟩, false, "a"⟩, ⟨2, ⟨0, 0⟩, false, "b"⟩]) := by
      decide +kernel
    have hview : (World.quietCrossing.run (es ++ [.message 0 (.moveRequest 3 3),
        .message 1 (.clientConfig 1 (some "c"))])).lobby.views.get? 1 =
        some ⟨2, "c", ⟨0, 0⟩, false⟩ := by decide +kernel
    exact not_upToDate (by decide +kernel) hlast hview (by decide) (by decide)

/-- When handlers that had everyone told have all come to their ends, whatever the order of their
strokes, everyone has heard what is shown.  What everyone heard last is the copy that was offered
last, which lists what was shown when it was made, and so what is shown now if nothing was shown
since. -/
theorem hearings_of_run (w : World) (ss : List Stroke) (c : Crowd)
    (h : (Crowd.mk w ∅).run ss = some c) (hroom : (Crowd.mk w ∅).NeverFull ss) (hne : ss ≠ [])
    (hdone : ∀ id, c.stages.get? id = none) :
    (∀ id, c.world.lobby.isRegistered id = true →
      ∃ m ∈ c.world.lobby.heard id, Lists c.world.lobby.views m) ∧
    ∃ ss₁ ss₂ id c₁, ss = ss₁ ++ .copy id :: (ss₂ ++ [.deliver id]) ∧ .copy id ∉ ss₂ ∧
      (Crowd.mk w ∅).run ss₁ = some c₁ ∧
      (∀ id', c.world.lobby.isRegistered id' = true →
        ∃ m, (c.world.lobby.heard id').getLast? = some m ∧ Lists c₁.world.lobby.views m) ∧
      ((∀ id' m, .publish id' m ∉ ss₂) → UpToDate c.world.lobby) := by
  have hpending : ¬c.Pending := by
    rintro (⟨id, rest, hs⟩ | ⟨id, rest, hs⟩)
    · cases (hdone id).symm.trans hs
    · cases (hdone id).symm.trans hs
  have hall := ((pending_or_allHeard_run h hroom).resolve_left hne).resolve_left hpending
  obtain ⟨ss₁, ss₂, id, c₁, rfl, hno, h₁, hheard⟩ := getLast?_heard_run h hroom hne hdone
  have hlists : ∀ id', c.world.lobby.isRegistered id' = true →
      ∃ m, (c.world.lobby.heard id').getLast? = some m ∧ Lists c₁.world.lobby.views m := by
    intro id' hreg
    rw [isRegistered_run h, ← isRegistered_run h₁] at hreg
    obtain ⟨v, hv⟩ := Option.isSome_iff_exists.1 hreg
    exact ⟨_, hheard id' v hv, lists_snapshotFor ..⟩
  refine ⟨fun id hreg => ?_, ss₁, ss₂, id, c₁, rfl, hno, h₁, hlists, fun hpublish => ?_⟩
  · obtain ⟨v, hv⟩ := Option.isSome_iff_exists.1 hreg
    exact ⟨_, hall id v hv, lists_snapshotFor ..⟩
  · have hviews : c.world.lobby.views = c₁.world.lobby.views := by
      rw [run_append, h₁] at h
      refine views_run_of_not_publish (tidy_run h₁) h fun id' m hm => hpublish id' m ?_
      simpa using hm
    exact fun id' hreg => hviews ▸ hlists id' hreg

/-- Two players show their moves before either copies the views, so it does not matter whose copy is
offered last. -/
theorem hearings_of_run_pair :
    let es : List Event := [.connect, .connect, .message 0 (.clientConfig 1 (some "a")),
      .message 1 (.clientConfig 1 (some "b"))]
    let c₀ : Crowd := ⟨World.quietCrossing.run es, ∅⟩
    let ss : List Stroke := [.publish 0 (.moveRequest 3 3), .publish 1 (.moveRequest 7 5), .copy 1,
      .copy 0, .deliver 1, .deliver 0]
    c₀.NeverFull ss ∧ ∃ c, c₀.run ss = some c ∧ (∀ id, c.stages.get? id = none) ∧
      c.world.lobby.isRegistered 0 = true ∧
      (∃ m ∈ c.world.lobby.heard 0, Lists c.world.lobby.views m) ∧ UpToDate c.world.lobby := by
  intro es c₀ ss
  have hroom : c₀.NeverFull ss := by
    show ∀ i < ss.length, ∀ c' ∈ c₀.run (ss.take i), c'.roomy = true
    decide +kernel
  have hrun : (c₀.run ss).map (fun c => (c.stages.toList.length, c.world.lobby.isRegistered 0)) =
      some (0, true) := by decide +kernel
  obtain ⟨c, hc, hfacts⟩ := Option.map_eq_some_iff.1 hrun
  obtain ⟨hstages, hreg⟩ := Prod.mk.inj hfacts
  have hdone := idle_of_length_eq_zero hstages
  obtain ⟨hall, ss₁, ss₂, id, c₁, hss, -, -, -, hlast⟩ :=
    hearings_of_run _ ss c hc hroom (by simp [ss]) hdone
  refine ⟨hroom, c, hc, hdone, hreg, hall 0 hreg, hlast fun id' m hm => ?_⟩
  -- Both moves are shown before the first copy, so nothing is shown after any.
  rcases ss₁ with _ | ⟨_, _ | ⟨_, ss₁⟩⟩
  · cases (List.cons.inj hss).1
  · cases (List.cons.inj (List.cons.inj hss).2).1
  · have hlater : [.copy 1, .copy 0, .deliver 1, .deliver 0] =
        ss₁ ++ .copy id :: (ss₂ ++ [.deliver id]) := (List.cons.inj (List.cons.inj hss).2).2
    have hmem : .publish id' m ∈ ss₁ ++ .copy id :: (ss₂ ++ [.deliver id]) := by simp [hm]
    rw [← hlater] at hmem
    simp at hmem

end Crowd

end TileRealm
