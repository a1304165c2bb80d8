import TileRealm.Proofs.Player.Registration
import TileRealm.Proofs.Player.Snapshot
import TileRealm.Proofs.Wire.Stream
import TileRealm.Wire.Transcript

/-!
# Readers

The reading of one connection next to everything else that happens in its world.  The reader takes
turns: it handles the next frame of its input, or learns that its registration has ended or that the
region shuts down.  What ends the reading ends the registration, and when what is queued for the
connection is sent the others are told.  Whatever the order of the turns, the world is that in which
the proper frames of the input are handled, one after the other, up to what ends the reading first
(`Reader.onCourse_run`, `Reader.readings_of_run`).
-/

namespace TileRealm

open TileRealm.Frame

/-- Why a connection is read no more. -/
inductive Stop where
  /-- The payload of a frame is at fault. -/
  | malformed (error : CodecError)
  /-- The input is over. -/
  | ended (how : StreamEnd)
  /-- The registration has ended. -/
  | dismissed
  /-- The region shuts down. -/
  | shutDown
deriving DecidableEq, Repr

/-- How far the reading of a connection is. -/
inductive Phase where
  | reading
  /-- What is queued for the connection is still being sent. -/
  | leaving (why : Stop)
  | gone (why : Stop)
deriving DecidableEq, Repr

/-- What can happen next to a connection that is read, or besides it. -/
inductive Turn where
  /-- What comes next in the input is taken. -/
  | read
  /-- The reader learns that the registration has ended. -/
  | dismissal
  /-- The reader learns that the region shuts down. -/
  | shutdown
  /-- What was queued for the connection is sent. -/
  | farewell
  /-- Something else happens in the world. -/
  | meanwhile (e : Event)
deriving DecidableEq

/-- A connection that is read, in its world. -/
structure Reader where
  world : World
  /-- All bytes that the connection has yet to send, or has sent and nobody has looked at. -/
  input : Bytes
  phase : Phase := .reading

namespace Reader

/-- End the registration and read no more. -/
def stop (r : Reader) (id : ConnectionId) (why : Stop) : Reader :=
  { r with world := r.world.remove id, phase := .leaving why }

/-- Handle what comes next in the input. -/
def readNext (r : Reader) (id : ConnectionId) : Reader :=
  match Frame.next r.input with
  | .frame f rest =>
    match r.world.route id f.header.kindByte f.payload with
    | (w, none) => { r with world := w, input := rest }
    | (w, some e) => stop { r with world := w, input := rest } id (.malformed e)
  | .noHeader => r.stop id (.ended .closed)
  | .cut => r.stop id (.ended .cut)

/-- Take a turn. -/
def turn (id : ConnectionId) (r : Reader) : Turn → Reader
  | .read => if r.phase = .reading then r.readNext id else r
  | .dismissal => if r.phase = .reading then r.stop id .dismissed else r
  | .shutdown => if r.phase = .reading then r.stop id .shutDown else r
  | .farewell =>
    match r.phase with
    | .leaving why => { r with world := r.world.close id, phase := .gone why }
    | _ => r
  | .meanwhile e => { r with world := r.world.step e }

/-- Take turns, one after the other. -/
def run (id : ConnectionId) (r : Reader) (ts : List Turn) : Reader := ts.foldl (turn id) r

/-! ### Turns -/

/-- What a frame has happen. -/
def asked (id : ConnectionId) (f : Frame) : List Event := (f.request?.map (.message id)).toList

/-- What a turn makes of a reader. -/
inductive Taken (id : ConnectionId) (r : Reader) : Turn → Reader → Prop where
  | frame {f : Frame} {rest : Bytes} (hr : r.phase = .reading)
      (hnext : Frame.next r.input = .frame f rest) (hf : f.fault? = none) :
      Taken id r .read { r with world := r.world.run (asked id f), input := rest }
  | fault {f : Frame} {rest : Bytes} {e : CodecError} (hr : r.phase = .reading)
      (hnext : Frame.next r.input = .frame f rest) (hf : f.fault? = some e) :
      Taken id r .read (stop { r with input := rest } id (.malformed e))
  | closed (hr : r.phase = .reading) (hnext : Frame.next r.input = .noHeader) :
      Taken id r .read (r.stop id (.ended .closed))
  | cut (hr : r.phase = .reading) (hnext : Frame.next r.input = .cut) :
      Taken id r .read (r.stop id (.ended .cut))
  | dismissal (hr : r.phase = .reading) : Taken id r .dismissal (r.stop id .dismissed)
  | shutdown (hr : r.phase = .reading) : Taken id r .shutdown (r.stop id .shutDown)
  | farewell {why : Stop} (hr : r.phase = .leaving why) :
      Taken id r .farewell { r with world := r.world.step (.close id), phase := .gone why }
  | meanwhile (e : Event) : Taken id r (.meanwhile e) { r with world := r.world.step e }
  /-- News and input are for a reader that reads, the farewell is for one that leaves. -/
  | idle {t : Turn} (hr : r.phase = .reading → t = .farewell)
      (hl : ∀ why, r.phase = .leaving why → t ≠ .farewell) (ht : ∀ e, t ≠ .meanwhile e) :
      Taken id r t r

theorem run_asked (w : World) (id : ConnectionId) (f : Frame) :
    w.run (asked id f) = f.request?.elim w (w.dispatch id) := by
  rw [asked]
  cases f.request? with
  | none => rfl
  | some m => rfl

theorem taken_read {id : ConnectionId} {r : Reader} (hr : r.phase = .reading) :
    Taken id r .read (r.readNext id) := by
  unfold readNext
  split
  next f rest hnext =>
    rw [route_eq]
    cases hf : f.fault? with
    | none =>
      rw [← run_asked]
      exact .frame hr hnext hf
    | some e => exact .fault hr hnext hf
  next hnext => exact .closed hr hnext
  next hnext => exact .cut hr hnext

theorem taken (id : ConnectionId) (r : Reader) (t : Turn) : Taken id r t (r.turn id t) := by
  have hidle : r.phase ≠ .reading → t ≠ .farewell → (∀ e, t ≠ .meanwhile e) → Taken id r t r :=
    fun hr hf ht => .idle (fun h => absurd h hr) (fun _ _ => hf) ht
  cases t with
  | read =>
    rw [turn]
    split
    next hr => exact taken_read hr
    next hr => exact hidle hr Turn.noConfusion fun e => Turn.noConfusion
  | dismissal =>
    rw [turn]
    split
    next hr => exact .dismissal hr
    next hr => exact hidle hr Turn.noConfusion fun e => Turn.noConfusion
  | shutdown =>
    rw [turn]
    split
    next hr => exact .shutdown hr
    next hr => exact hidle hr Turn.noConfusion fun e => Turn.noConfusion
  | farewell =>
    rw [turn]
    split
    next why hr => exact .farewell hr
    next hr => exact .idle (fun _ => rfl) (fun why h => absurd h (hr why)) fun e => Turn.noConfusion
  | meanwhile e => exact .meanwhile e

theorem Taken.turn_eq {id : ConnectionId} {r r' : Reader} {t : Turn} (h : Taken id r t r') :
    r.turn id t = r' := by
  cases h with
  | frame hr hnext hf => simp only [turn, hr, if_true, readNext, hnext, route_eq, hf, run_asked]
  | fault hr hnext hf => simp only [turn, hr, if_true, readNext, hnext, route_eq, hf]
  | closed hr hnext => simp only [turn, hr, if_true, readNext, hnext]
  | cut hr hnext => simp only [turn, hr, if_true, readNext, hnext]
  | dismissal hr => exact if_pos hr
  | shutdown hr => exact if_pos hr
  | farewell hr =>
    simp only [turn, hr]
    rfl
  | meanwhile e => rfl
  | idle hr hl ht =>
    cases t with
    | farewell =>
      rw [turn]
      split
      next why hr' => exact absurd rfl (hl why hr')
      next => rfl
    | meanwhile e => exact absurd rfl (ht e)
    | _ => exact if_neg fun h => Turn.noConfusion (hr h)

/-! ### Runs -/

@[simp] theorem run_nil (id : ConnectionId) (r : Reader) : r.run id [] = r := rfl

@[simp] theorem run_cons (id : ConnectionId) (r : Reader) (t : Turn) (ts : List Turn) :
    r.run id (t :: ts) = (r.turn id t).run id ts := rfl

theorem run_append (id : ConnectionId) (r : Reader) (ts us : List Turn) :
    r.run id (ts ++ us) = (r.run id ts).run id us :=
  List.foldl_append

theorem run_concat (id : ConnectionId) (r : Reader) (ts : List Turn) (t : Turn) :
    r.run id (ts ++ [t]) = (r.run id ts).turn id t :=
  run_append id r ts [t]

/-! ### What has to happen -/

/-- What else happens in a turn. -/
def other? : Turn → Option Event
  | .meanwhile e => some e
  | _ => none

/-- What else happens in turns. -/
def others (ts : List Turn) : List Event := ts.filterMap other?

/-- The frames are handled, one in each turn that reads, amid what else happens. -/
def script (id : ConnectionId) : List Frame → List Turn → List Event
  | _, [] => []
  | fs, .read :: ts => fs.head?.toList.flatMap (asked id) ++ script id fs.tail ts
  | fs, .meanwhile e :: ts => e :: script id fs ts
  | fs, _ :: ts => script id fs ts

/-- Why an input is not read beyond its proper frames. -/
def ending (b : Bytes) : Stop :=
  match (readAll b).1.findSome? fault? with
  | some e => .malformed e
  | none => .ended (readAll b).2

/-- Turns in which the reader reads proper frames only, and learns nothing that ends the reading. -/
structure Undisturbed (b : Bytes) (ts : List Turn) : Prop where
  dismissal : .dismissal ∉ ts
  shutdown : .shutdown ∉ ts
  read : ts.count .read ≤ (proper b).length

/-- Why a turn ends the reading of an input of which some frames were read, if it does. -/
def stop? (b : Bytes) (read : Nat) : Turn → Option Stop
  | .read => if read < (proper b).length then none else some (ending b)
  | .dismissal => some .dismissed
  | .shutdown => some .shutDown
  | _ => none

/-- What has to happen in turns: proper frames are handled until a turn ends the reading, then the
registration ends, and with the farewell the session. -/
inductive Course (id : ConnectionId) (b : Bytes) : List Turn → Phase → List Event → Prop where
  | reading {ts : List Turn} (h : Undisturbed b ts) :
      Course id b ts .reading (script id (proper b) ts)
  | leaving {ts₁ ts₂ : List Turn} {t : Turn} {why : Stop} (h : Undisturbed b ts₁)
      (hstop : stop? b (ts₁.count .read) t = some why) (hno : .farewell ∉ ts₂) :
      Course id b (ts₁ ++ t :: ts₂) (.leaving why)
        (script id (proper b) ts₁ ++ .remove id :: others ts₂)
  | gone {ts₁ ts₂ ts₃ : List Turn} {t : Turn} {why : Stop} (h : Undisturbed b ts₁)
      (hstop : stop? b (ts₁.count .read) t = some why) (hno : .farewell ∉ ts₂) :
      Course id b (ts₁ ++ t :: (ts₂ ++ .farewell :: ts₃)) (.gone why)
        (script id (proper b) ts₁ ++ .remove id :: (others ts₂ ++ .close id :: others ts₃))

theorem others_concat (ts : List Turn) (t : Turn) :
    others (ts ++ [t]) = others ts ++ (other? t).toList := by
  rw [others, List.filterMap_append]
  cases t <;> rfl

theorem script_append (id : ConnectionId) (fs : List Frame) (ts us : List Turn) :
    script id fs (ts ++ us) = script id fs ts ++ script id (fs.drop (ts.count .read)) us := by
  induction ts generalizing fs with
  | nil => rfl
  | cons t ts ih =>
    cases t with
    | read =>
      rw [List.cons_append, script, script, ih, List.append_assoc, List.count_cons_self,
        List.drop_tail]
    | meanwhile e =>
      rw [List.cons_append, script, script, ih, List.cons_append,
        List.count_cons_of_ne (by simp)]
    | _ =>
      rw [List.count_cons_of_ne (by simp)]
      exact ih fs

theorem Undisturbed.concat {b : Bytes} {ts : List Turn} {t : Turn} (h : Undisturbed b ts)
    (ht : stop? b (ts.count .read) t = none) : Undisturbed b (ts ++ [t]) where
  dismissal hmem := by
    rcases List.mem_append.1 hmem with hmem | hmem
    · exact h.dismissal hmem
    · rw [← List.mem_singleton.1 hmem] at ht
      cases ht
  shutdown hmem := by
    rcases List.mem_append.1 hmem with hmem | hmem
    · exact h.shutdown hmem
    · rw [← List.mem_singleton.1 hmem] at ht
      cases ht
  read := by
    rw [List.count_append]
    cases t with
    | read =>
      rw [stop?] at ht
      split at ht
      next hlt => exact hlt
      next => cases ht
    | _ => exact h.read

/-- What comes next in an input, by its proper frames and the reason not to read on. -/
theorem ending_of_frame {b rest : Bytes} {f : Frame} (h : next b = .frame f rest)
    (hf : f.fault? = none) : ending b = ending rest := by
  rw [ending, readAll_of_frame h, List.findSome?_cons, hf, ending]

theorem ending_of_fault {b rest : Bytes} {f : Frame} {e : CodecError}
    (h : next b = .frame f rest) (hf : f.fault? = some e) : ending b = .malformed e := by
  rw [ending, readAll_of_frame h, List.findSome?_cons, hf]

/-- How far a reader has come in an input. -/
structure Reached (b : Bytes) (n : Nat) (input : Bytes) : Prop where
  proper : proper input = (proper b).drop n
  ending : ending input = ending b

theorem Reached.succ {b input rest : Bytes} {n : Nat} {f : Frame} (h : Reached b n input)
    (hnext : next input = .frame f rest) (hf : f.fault? = none) :
    (Frame.proper b).drop n = f :: Frame.proper rest ∧ Reached b (n + 1) rest := by
  have hproper := h.proper
  rw [proper_of_frame hnext, hf] at hproper
  refine ⟨hproper.symm, ?_, ?_⟩
  · rw [← List.drop_drop, ← hproper]
    rfl
  · rw [← h.ending, ending_of_frame hnext hf]

/-- Where no proper frame is next, the reading ends. -/
theorem Reached.stop? {b input : Bytes} {n : Nat} (h : Reached b n input)
    (hnil : Frame.proper input = []) : Reader.stop? b n .read = some (Reader.ending input) := by
  have hlen := congrArg List.length (h.proper.symm.trans hnil)
  rw [List.length_drop, List.length_nil] at hlen
  rw [Reader.stop?, if_neg (by omega), h.ending]

namespace Course

variable {id : ConnectionId} {b : Bytes} {ts : List Turn} {p : Phase} {es : List Event}

theorem stop {t : Turn} {why : Stop} (h : Undisturbed b ts)
    (hstop : stop? b (ts.count .read) t = some why) :
    Course id b (ts ++ [t]) (.leaving why) (script id (proper b) ts ++ [.remove id]) :=
  .leaving h hstop List.not_mem_nil

theorem frame {f : Frame} {fs : List Frame} (h : Undisturbed b ts)
    (hf : (proper b).drop (ts.count .read) = f :: fs) :
    Course id b (ts ++ [.read]) .reading (script id (proper b) ts ++ asked id f) := by
  have hlt : ts.count .read < (proper b).length := by
    have hlen := congrArg List.length hf
    rw [List.length_drop, List.length_cons] at hlen
    omega
  have hscript : script id (proper b) (ts ++ [.read]) =
      script id (proper b) ts ++ asked id f := by
    rw [script_append, hf, script, script]
    simp
  exact hscript ▸ .reading (h.concat (if_pos hlt))

/-- What else happens is added to the course, and nothing else that neither ends the reading nor the
session. -/
theorem concat {t : Turn} (h : Course id b ts p es)
    (hr : p = .reading → t = .farewell ∨ ∃ e, t = .meanwhile e)
    (hl : ∀ why, p = .leaving why → t ≠ .farewell) :
    Course id b (ts ++ [t]) p (es ++ (other? t).toList) := by
  cases h with
  | reading h =>
    have hstop : stop? b (ts.count .read) t = none := by
      rcases hr rfl with rfl | ⟨e, rfl⟩
      · rfl
      · rfl
    have hscript : script id (proper b) (ts ++ [t]) =
        script id (proper b) ts ++ (other? t).toList := by
      rw [script_append]
      rcases hr rfl with rfl | ⟨e, rfl⟩
      · rfl
      · rfl
    exact hscript ▸ .reading (h.concat hstop)
  | @leaving ts₁ ts₂ t' why h hstop hno =>
    have hno' : .farewell ∉ ts₂ ++ [t] := by simpa [hno] using (hl why rfl).symm
    rw [List.append_assoc, List.cons_append, List.append_assoc, List.cons_append, ← others_concat]
    exact .leaving h hstop hno'
  | gone h hstop hno =>
    simp only [List.append_assoc, List.cons_append, ← others_concat]
    exact .gone h hstop hno

theorem farewell {why : Stop} (h : Course id b ts (.leaving why) es) :
    Course id b (ts ++ [.farewell]) (.gone why) (es ++ [.close id]) := by
  cases h with
  | leaving h hstop hno =>
    simp only [List.append_assoc, List.cons_append]
    exact .gone h hstop hno

end Course

/-- What a reader has done in turns is what has to happen in them. -/
structure OnCourse (id : ConnectionId) (w : World) (b : Bytes) (ts : List Turn) (r : Reader) :
    Prop where
  course : ∃ es, Course id b ts r.phase es ∧ r.world = w.run es
  reached : r.phase = .reading → Reached b (ts.count .read) r.input

section Turns

variable {id : ConnectionId} {w : World} {b : Bytes} {ts : List Turn} {r r' : Reader} {t : Turn}

theorem OnCourse.undisturbed (h : OnCourse id w b ts r) (hr : r.phase = .reading) :
    Undisturbed b ts ∧ r.world = w.run (script id (proper b) ts) := by
  obtain ⟨es, hcourse, hworld⟩ := h.course
  rw [hr] at hcourse
  cases hcourse with
  | reading h => exact ⟨h, hworld⟩

theorem OnCourse.stop (h : OnCourse id w b ts r) (hr : r.phase = .reading) {why : Stop}
    (hstop : stop? b (ts.count .read) t = some why) (rest : Bytes) :
    OnCourse id w b (ts ++ [t]) (Reader.stop { r with input := rest } id why) where
  course := by
    obtain ⟨hundisturbed, hworld⟩ := h.undisturbed hr
    refine ⟨_, .stop hundisturbed hstop, ?_⟩
    rw [World.run_concat, ← hworld]
    rfl
  reached := Phase.noConfusion

/-- A turn keeps to the course. -/
theorem OnCourse.turn (h : OnCourse id w b ts r) (ht : Taken id r t r') :
    OnCourse id w b (ts ++ [t]) r' := by
  cases ht with
  | frame hr hnext hf =>
    obtain ⟨hundisturbed, hworld⟩ := h.undisturbed hr
    obtain ⟨hdrop, hnext'⟩ := (h.reached hr).succ hnext hf
    refine ⟨⟨_, hr ▸ Course.frame hundisturbed hdrop, ?_⟩, fun _ => ?_⟩
    · rw [World.run_append, ← hworld]
    · rw [List.count_append]
      exact hnext'
  | fault hr hnext hf =>
    have hstop := (h.reached hr).stop? (by rw [proper_of_frame hnext, hf]; rfl)
    rw [ending_of_fault hnext hf] at hstop
    exact h.stop hr hstop _
  | closed hr hnext =>
    have hstop := (h.reached hr).stop? (by rw [proper, readAll_of_noHeader hnext]; rfl)
    rw [ending, readAll_of_noHeader hnext] at hstop
    exact h.stop hr hstop _
  | cut hr hnext =>
    have hstop := (h.reached hr).stop? (by rw [proper, readAll_of_cut hnext]; rfl)
    rw [ending, readAll_of_cut hnext] at hstop
    exact h.stop hr hstop _
  | dismissal hr => exact h.stop hr rfl _
  | shutdown hr => exact h.stop hr rfl _
  | farewell hr =>
    obtain ⟨es, hcourse, hworld⟩ := h.course
    refine ⟨⟨_, (hr ▸ hcourse).farewell, ?_⟩, Phase.noConfusion⟩
    rw [World.run_concat, ← hworld]
  | meanwhile e =>
    obtain ⟨es, hcourse, hworld⟩ := h.course
    refine ⟨⟨_, hcourse.concat (fun _ => .inr ⟨e, rfl⟩) fun _ _ => Turn.noConfusion, ?_⟩,
      fun hr => ?_⟩
    · rw [World.run_append, ← hworld]
      rfl
    · rw [List.count_append]
      exact h.reached hr
  | idle hr hl ht =>
    obtain ⟨es, hcourse, hworld⟩ := h.course
    have hother : (other? t).toList = [] := by
      cases t with
      | meanwhile e => exact absurd rfl (ht e)
      | _ => rfl
    have hcourse' := hcourse.concat (t := t) (fun h => .inl (hr h)) hl
    rw [hother, List.append_nil] at hcourse'
    refine ⟨⟨_, hcourse', hworld⟩, fun hreading => ?_⟩
    rw [hr hreading, List.count_append]
    exact h.reached hreading

end Turns

/-- Turns take the course that they have to. -/
theorem onCourse_run (id : ConnectionId) (w : World) (b : Bytes) (ts : List Turn) :
    OnCourse id w b ts ((Reader.mk w b .reading).run id ts) := by
  induction ts using List.reverseRecOn with
  | nil =>
    have hundisturbed : Undisturbed b [] := ⟨List.not_mem_nil, List.not_mem_nil, Nat.zero_le _⟩
    exact ⟨⟨[], .reading hundisturbed, rfl⟩, fun _ => ⟨rfl, rfl⟩⟩
  | append_singleton ts t ih =>
    rw [run_concat]
    exact ih.turn (taken ..)

/-! ### Input that is not read -/

/-- Whether a connection is read no more because its input is over. -/
def isEnded : Phase → Bool
  | .leaving (.ended _) => true
  | .gone (.ended _) => true
  | _ => false

/-- A reader with another input. -/
def withInput (r : Reader) (input : Bytes) : Reader := { r with input }

theorem isEnded_turn {r : Reader} (h : isEnded r.phase = true) (id : ConnectionId) (t : Turn) :
    isEnded (r.turn id t).phase = true := by
  have ht := taken id r t
  generalize r.turn id t = r' at ht
  cases ht with
  | @farewell why hr =>
    rw [hr] at h
    cases why with
    | ended how => rfl
    | _ => cases h
  | meanwhile e => exact h
  | idle => exact h
  | _ hr =>
    rw [hr] at h
    cases h

theorem isEnded_run {r : Reader} (h : isEnded r.phase = true) (id : ConnectionId)
    (ts : List Turn) : isEnded (r.run id ts).phase = true := by
  induction ts generalizing r with
  | nil => exact h
  | cons t ts ih => exact ih (isEnded_turn h id t)

/-- The bytes behind those that a turn takes make no difference to it, but for where the input is
over. -/
theorem Taken.withInput {id : ConnectionId} {r r' : Reader} {t : Turn} (h : Taken id r t r') :
    ∃ front, r.input = front ++ r'.input ∧ (isEnded r'.phase = false →
      ∀ c, Taken id (r.withInput (front ++ c)) t (r'.withInput c)) := by
  cases h with
  | frame hr hnext hf =>
    obtain ⟨front, hfront, happend⟩ := next_append hnext
    exact ⟨front, hfront, fun _ c => .frame (r := r.withInput (front ++ c)) hr (happend c) hf⟩
  | fault hr hnext hf =>
    obtain ⟨front, hfront, happend⟩ := next_append hnext
    exact ⟨front, hfront, fun _ c => .fault (r := r.withInput (front ++ c)) hr (happend c) hf⟩
  | closed => exact ⟨[], rfl, Bool.noConfusion⟩
  | cut => exact ⟨[], rfl, Bool.noConfusion⟩
  | dismissal hr => exact ⟨[], rfl, fun _ c => .dismissal (r := r.withInput c) hr⟩
  | shutdown hr => exact ⟨[], rfl, fun _ c => .shutdown (r := r.withInput c) hr⟩
  | farewell hr => exact ⟨[], rfl, fun _ c => .farewell (r := r.withInput c) hr⟩
  | meanwhile e => exact ⟨[], rfl, fun _ c => .meanwhile (r := r.withInput c) e⟩
  | idle hr hl ht => exact ⟨[], rfl, fun _ c => .idle (r := r.withInput c) hr hl ht⟩

/-- What is read does not depend on the bytes behind it, unless the input is over there. -/
theorem run_withInput (r : Reader) (id : ConnectionId) (ts : List Turn) :
    ∃ front, r.input = front ++ (r.run id ts).input ∧ (isEnded (r.run id ts).phase = false →
      ∀ c, (r.withInput (front ++ c)).run id ts = (r.run id ts).withInput c) := by
  induction ts generalizing r with
  | nil => exact ⟨[], rfl, fun _ c => rfl⟩
  | cons t ts ih =>
    obtain ⟨front, hfront, happend⟩ := (taken id r t).withInput
    obtain ⟨front', hfront', happend'⟩ := ih (r.turn id t)
    refine ⟨front ++ front', ?_, fun he c => ?_⟩
    · rw [hfront, hfront', List.append_assoc, run_cons]
    · have hend : isEnded (r.turn id t).phase = false := by
        refine Bool.eq_false_iff.2 fun h => ?_
        rw [run_cons, isEnded_run h] at he
        cases he
      rw [List.append_assoc, run_cons, (happend hend (front' ++ c)).turn_eq]
      exact happend' he c

/-! ### The registration and the session -/

/-- Whether an event is a message of a connection or its end. -/
def isOf (id : ConnectionId) : Event → Bool
  | .message id' _ => id' = id
  | .close id' => id' = id
  | _ => false

/-- What is known of a connection that came: it is not registered when it is read no more, and it
has its session until it is gone. -/
structure Attached (id : ConnectionId) (r : Reader) : Prop where
  sound : r.world.Sound
  came : id < r.world.nextConnection
  unregistered : r.phase ≠ .reading → r.world.lobby.isRegistered id = false
  session : (∀ why, r.phase ≠ .gone why) → (r.world.sessions.get? id).isSome

/-- An event that is not of a connection leaves it its session. -/
theorem get?_sessions_step_of_isOf {w : World} {id : ConnectionId} (hid : id < w.nextConnection)
    {e : Event} (he : isOf id e = false) : (w.step e).sessions.get? id = w.sessions.get? id := by
  rw [World.get?_sessions_step]
  cases e with
  | connect => exact if_neg (Nat.ne_of_lt hid)
  | message id' m => exact if_neg fun h => by simp [isOf, h] at he
  | close id' => exact if_neg fun h => by simp [isOf, h] at he
  | _ => rfl

theorem Attached.event {id : ConnectionId} {r : Reader} (h : Attached id r) (e : Event) :
    (r.world.step e).Sound ∧ id < (r.world.step e).nextConnection ∧
      (r.phase ≠ .reading → (r.world.step e).lobby.isRegistered id = false) :=
  ⟨World.sound_step h.sound e, Nat.lt_of_lt_of_le h.came (World.step_frame r.world e).2.2.2,
    fun hr => World.isRegistered_run_eq_false h.sound h.came [e] (h.unregistered hr)⟩

theorem Attached.stop {id : ConnectionId} {r : Reader} (h : Attached id r)
    (hr : r.phase = .reading) (why : Stop) (rest : Bytes) :
    Attached id (Reader.stop { r with input := rest } id why) where
  sound := World.sound_step h.sound (.remove id)
  came := h.came
  unregistered _ := by
    refine Bool.eq_false_iff.2 fun hreg => ?_
    exact (Lobby.isRegistered_leave.1 hreg).2 rfl
  session _ := h.session fun why' hphase => by
    rw [hr] at hphase
    cases hphase

theorem Attached.turn {id : ConnectionId} {r r' : Reader} {t : Turn} (h : Attached id r)
    (ht : Taken id r t r') (hof : ∀ e, t = .meanwhile e → isOf id e = false) :
    Attached id r' := by
  cases ht with
  | @frame f =>
    cases hreq : f.request? with
    | none =>
      rw [asked, hreq]
      exact ⟨h.sound, h.came, h.unregistered, h.session⟩
    | some m =>
      rw [asked, hreq]
      obtain ⟨hsound, hcame, hunregistered⟩ := h.event (.message id m)
      refine ⟨hsound, hcame, hunregistered, fun hphase => ?_⟩
      obtain ⟨s, hs⟩ := Option.isSome_iff_exists.1 (h.session hphase)
      exact Option.isSome_iff_exists.2 ⟨_, World.sessions_step_message hs m⟩
  | fault hr => exact h.stop hr ..
  | closed hr => exact h.stop hr ..
  | cut hr => exact h.stop hr ..
  | dismissal hr => exact h.stop hr ..
  | shutdown hr => exact h.stop hr ..
  | farewell hr =>
    obtain ⟨hsound, hcame, hunregistered⟩ := h.event (.close id)
    exact ⟨hsound, hcame, fun _ => hunregistered (by simp [hr]), fun hphase => absurd rfl (hphase _)⟩
  | meanwhile e =>
    obtain ⟨hsound, hcame, hunregistered⟩ := h.event e
    refine ⟨hsound, hcame, hunregistered, fun hphase => ?_⟩
    show ((r.world.step e).sessions.get? id).isSome = true
    rw [get?_sessions_step_of_isOf h.came (hof e rfl)]
    exact h.session hphase
  | idle => exact h

theorem Attached.run {id : ConnectionId} {r : Reader} (h : Attached id r) {ts : List Turn}
    (hof : ∀ e, .meanwhile e ∈ ts → isOf id e = false) : Attached id (r.run id ts) := by
  induction ts generalizing r with
  | nil => exact h
  | cons t ts ih =>
    refine ih (h.turn (taken id r t) fun e ht => hof e (ht ▸ List.mem_cons_self)) fun e he => ?_
    exact hof e (List.mem_cons_of_mem _ he)

theorem gone_run {id : ConnectionId} {r : Reader} {why : Stop} (h : r.phase = .gone why)
    (ts : List Turn) : (r.run id ts).phase = .gone why := by
  induction ts generalizing r with
  | nil => exact h
  | cons t ts ih =>
    refine ih ?_
    have ht := taken id r t
    generalize r.turn id t = r' at ht
    cases ht with
    | farewell hr => cases h.symm.trans hr
    | meanwhile e => exact h
    | idle => exact h
    | _ hr => cases h.symm.trans hr

/-- Until the farewell the session is the one with which the reading ended. -/
theorem Attached.get?_sessions_run {id : ConnectionId} {r : Reader} (h : Attached id r)
    {why why' : Stop} (hr : r.phase = .leaving why) {ts : List Turn}
    (hof : ∀ e, .meanwhile e ∈ ts → isOf id e = false)
    (hl : (r.run id ts).phase = .leaving why') :
    (r.run id ts).world.sessions.get? id = r.world.sessions.get? id := by
  induction ts generalizing r with
  | nil => rfl
  | cons t ts ih =>
    have ht := taken id r t
    have hof' : ∀ e, .meanwhile e ∈ ts → isOf id e = false :=
      fun e he => hof e (List.mem_cons_of_mem _ he)
    have h' := h.turn ht fun e ht => hof e (ht ▸ List.mem_cons_self)
    rw [run_cons] at hl ⊢
    generalize r.turn id t = r' at ht h' hl
    cases ht with
    | farewell =>
      rw [gone_run rfl] at hl
      cases hl
    | meanwhile e =>
      rw [ih h' hr hof' hl]
      exact get?_sessions_step_of_isOf h.came (hof e List.mem_cons_self)
    | idle => exact ih h' hr hof' hl
    | _ hreading => cases hr.symm.trans hreading

/-- With the farewell all who are registered and have room are told who is left, if the player had
an id. -/
theorem Attached.exists_told {id : ConnectionId} {r : Reader} (h : Attached id r) {s : Session}
    (hs : r.world.sessions.get? id = some s) (h0 : s.clientId ≠ 0) {why : Stop}
    (hr : r.phase = .leaving why) :
    ∃ players : List Player, players.Perm (r.world.step (.close id)).players ∧
      (∀ p ∈ players, ∃ id' s', id' ≠ id ∧
        (r.world.step (.close id)).sessions.get? id' = some s' ∧
        p = ⟨s'.clientId, s'.pos, s'.moving, s'.username⟩) ∧
      ∀ id', (r.world.step (.close id)).lobby.isRegistered id' = true →
        r.world.hasRoom (.close id) id' = true →
        ∃ s', (r.world.step (.close id)).sessions.get? id' = some s' ∧
          ServerMessage.snapshots (r.world.queuedBy (.close id) id') =
            [.playersSnapshot s'.clientId players] := by
  have ha : r.world.announces (.close id) = true := by simp [World.announces, hs, h0]
  obtain ⟨players, hperm, htold⟩ := World.exists_told h.sound ha
  refine ⟨players, hperm, fun p hp => ?_, htold⟩
  obtain ⟨id', s', hreg, -, hs', rfl⟩ := World.mem_players_iff.1 (hperm.mem_iff.1 hp)
  refine ⟨id', s', ?_, hs', rfl⟩
  rintro rfl
  obtain ⟨-, -, hunregistered⟩ := h.event (.close id')
  rw [hunregistered (by simp [hr])] at hreg
  cases hreg

/-- Whatever bytes a connection sends and in whatever order the reader takes its turns, what happens
is that the proper frames are handled, one after the other, up to what ends the reading first, which
ends the registration.  Frames of kinds that clients do not send end nothing, and the bytes behind
those that were read make no difference.  With the farewell everyone else is told who is left. -/
theorem readings_of_run (shard : Shard) (book : AddressBook) (grace now : Nat) (es : List Event)
    (id : ConnectionId) (s : Session)
    (hs : ((World.fresh shard book grace now).run es).sessions.get? id = some s) (b : Bytes)
    (ts : List Turn) (hof : ∀ e, .meanwhile e ∈ ts → isOf id e = false) :
    let w := (World.fresh shard book grace now).run es
    let r₀ : Reader := ⟨w, b, .reading⟩
    let r := r₀.run id ts
    (∃ es', Course id b ts r.phase es' ∧ r.world = w.run es') ∧
    (∀ f : Frame, (f.header.kindByte ∉ [(0 : UInt8), 3, 10, 11] →
        f.request? = none ∧ f.fault? = none) ∧
      ∀ e, f.fault? = some e ↔ ∃ k ∈ ServerMessage.foreignKinds,
        f.header.kindByte = k.toByte ∧ ClientMessage.decode k f.payload = .error e) ∧
    (∃ front, b = front ++ r.input ∧ (isEnded r.phase = false →
      ∀ c, (r₀.withInput (front ++ c)).run id ts = r.withInput c)) ∧
    (r.phase ≠ .reading → ∀ es', (r.world.run es').lobby.isRegistered id = false) ∧
    ∀ ts₁ ts₂ why, ts = ts₁ ++ .farewell :: ts₂ → (r₀.run id ts₁).phase = .leaving why →
      let w₁ := (r₀.run id ts₁).world
      let w₂ := w₁.step (.close id)
      ∃ s', (∀ ts₃ ts₄ why', ts₁ = ts₃ ++ ts₄ → (r₀.run id ts₃).phase = .leaving why' →
          (r₀.run id ts₃).world.sessions.get? id = some s') ∧
        (s'.clientId ≠ 0 → ∃ players : List Player, players.Perm w₂.players ∧
          (∀ p ∈ players, ∃ id' s', id' ≠ id ∧ w₂.sessions.get? id' = some s' ∧
            p = ⟨s'.clientId, s'.pos, s'.moving, s'.username⟩) ∧
          ∀ id', w₂.lobby.isRegistered id' = true → w₁.hasRoom (.close id) id' = true →
            ∃ s', w₂.sessions.get? id' = some s' ∧
              ServerMessage.snapshots (w₁.queuedBy (.close id) id') =
                [.playersSnapshot s'.clientId players]) := by
  intro w r₀ r
  have hw : w.Sound := World.sound_run shard book grace now es
  have h₀ : Attached id r₀ :=
    ⟨hw, hw.sessions_lt hs, fun h => absurd rfl h, fun _ => Option.isSome_iff_exists.2 ⟨s, hs⟩⟩
  have h : Attached id r := h₀.run hof
  refine ⟨(onCourse_run id w b ts).course, fun f => ⟨request?_eq_none_of_kindByte, fun e =>
    fault?_eq_some_iff⟩, run_withInput r₀ id ts, fun hr es' =>
    World.isRegistered_run_eq_false h.sound h.came es' (h.unregistered hr), ?_⟩
  rintro ts₁ ts₂ why rfl hl w₁ w₂
  have hof₁ : ∀ e, .meanwhile e ∈ ts₁ → isOf id e = false :=
    fun e he => hof e (List.mem_append_left _ he)
  have h₁ := h₀.run hof₁
  obtain ⟨s', hs'⟩ := Option.isSome_iff_exists.1 (h₁.session fun why' hphase => by
    cases hl.symm.trans hphase)
  refine ⟨s', ?_, fun h0 => h₁.exists_told hs' h0 hl⟩
  rintro ts₃ ts₄ why' rfl hl'
  have h₃ : Attached id (r₀.run id ts₃) := h₀.run fun e he => hof₁ e (List.mem_append_left _ he)
  rw [run_append] at hl hs'
  rw [← h₃.get?_sessions_run hl' (fun e he => hof₁ e (List.mem_append_right _ he)) hl]
  exact hs'

/-- A player has a name, asks for a tile, sends a frame of an unknown kind, one of half a tile and one
more wish.  The frame of half a tile ends the reading, the wish behind it is not looked at, and the
farewell tells the other player that nobody else is left. -/
theorem readings_of_run_malformed :
    let es : List Event := [.connect, .connect, .message 1 (.clientConfig 1 (some "b")),
      .message 1 (.moveRequest 3 3)]
    let w := World.quietCrossing.run es
    let b : Bytes := Transcript.request [.clientConfig 1 (some "a"), .moveRequest 8 5] ++
      [1, 77, 0] ++ [1, 0, 4, 0, 0, 0, 6] ++ Transcript.request [.moveRequest 7 5]
    let ts₁ : List Turn := [.read, .read, .meanwhile (.message 1 (.moveRequest 3 4)), .read, .read,
      .read, .meanwhile (.message 1 (.moveRequest 3 5))]
    let r₀ : Reader := ⟨w, b, .reading⟩
    let r₁ := r₀.run 0 ts₁
    let r := r₀.run 0 (ts₁ ++ [.farewell, .dismissal])
    (w.sessions.get? 0).isSome = true ∧ r₁.phase = .leaving (.malformed (.truncated 4 4)) ∧
      r.phase = .gone (.malformed (.truncated 4 4)) ∧
      r.input = Transcript.request [.moveRequest 7 5] ∧
      (∃ es', Course 0 b (ts₁ ++ [.farewell, .dismissal]) r.phase es' ∧ r.world = w.run es') ∧
      (∀ es', (r.world.run es').lobby.isRegistered 0 = false) ∧
      (∀ c, ∃ front, b = front ++ r.input ∧
        (r₀.withInput (front ++ c)).run 0 (ts₁ ++ [.farewell, .dismissal]) = r.withInput c) ∧
      ServerMessage.snapshots (r₁.world.queuedBy (.close 0) 1) =
        [.playersSnapshot 1 [⟨1, ⟨3, 5⟩, false, "b"⟩]] := by
  intro es w b ts₁ r₀ r₁ r
  have hs : (w.sessions.get? 0).isSome = true := by decide +kernel
  obtain ⟨s, hs'⟩ := Option.isSome_iff_exists.1 hs
  have hof : ∀ e, .meanwhile e ∈ ts₁ ++ [.farewell, .dismissal] → isOf 0 e = false := by
    intro e he
    simp only [ts₁, List.cons_append, List.nil_append, List.mem_cons, List.not_mem_nil,
      Turn.meanwhile.injEq, reduceCtorEq, or_false, false_or] at he
    rcases he with rfl | rfl <;> rfl
  have hl : r₁.phase = .leaving (.malformed (.truncated 4 4)) := by decide +kernel
  have hphase : r.phase = .gone (.malformed (.truncated 4 4)) := by decide +kernel
  have hinput : r.input = Transcript.request [.moveRequest 7 5] := by decide +kernel
  have hid : (r₁.world.sessions.get? 0).map Session.clientId = some 2 := by decide +kernel
  have hplayers : (r₁.world.step (.close 0)).players = [⟨1, ⟨3, 5⟩, false, "b"⟩] := by
    decide +kernel
  have hreg : (r₁.world.step (.close 0)).lobby.isRegistered 1 = true := by decide +kernel
  have hroom : r₁.world.hasRoom (.close 0) 1 = true := by decide +kernel
  have hone : ((r₁.world.step (.close 0)).sessions.get? 1).map Session.clientId = some 1 := by
    decide +kernel
  obtain ⟨hcourse, -, ⟨front, hfront, hbehind⟩, hgone, hfarewell⟩ :=
    readings_of_run World.crossing (.seeded .host World.crossing.realm) 250 0 es 0 s hs' b _ hof
  obtain ⟨s', hsame, htold⟩ := hfarewell ts₁ [.dismissal] _ rfl hl
  have hs₁ : r₁.world.sessions.get? 0 = some s' := hsame ts₁ [] _ (List.append_nil _).symm hl
  have h0 : s'.clientId ≠ 0 := by
    rw [hs₁] at hid
    rw [Option.some.inj hid]
    decide
  obtain ⟨players, hperm, -, hlines⟩ := htold h0
  obtain ⟨s₁, hs₁', hsnapshots⟩ := hlines 1 hreg hroom
  have hself : s₁.clientId = 1 := by
    rw [show (r₁.world.step (.close 0)).sessions.get? 1 = some s₁ from hs₁'] at hone
    exact Option.some.inj hone
  have hlist : players = [⟨1, ⟨3, 5⟩, false, "b"⟩] := List.perm_singleton.1 (hplayers ▸ hperm)
  have hnot : r.phase ≠ .reading := by rw [hphase]; exact Phase.noConfusion
  have hend : isEnded r.phase = false := by rw [hphase]; rfl
  refine ⟨hs, hl, hphase, hinput, hcourse, hgone hnot, fun c => ⟨front, hfront, hbehind hend c⟩, ?_⟩
  rw [← hlist, ← hself]
  exact hsnapshots

end Reader

end TileRealm
