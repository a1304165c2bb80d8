import TileRealm.Proofs.Player.Queue

/-!
# What a client knows of the neighbours

A client can keep a table of the neighbours that it was told of (`ServerMessage.replay`).  Messages
are coherent if each fits that table (`ServerMessage.Coherent`): an entered neighbour is new to the
client, and one that is left is known by the host and port that are repeated.
-/

namespace TileRealm

/-- Neighbours with their host and port, as a client knows them. -/
abbrev Known : Type := Table String (String × Int32)

namespace ServerMessage

/-- The neighbour that a message is about. -/
def neighbor? : ServerMessage → Option String
  | ghostZoneEnter region _ _ => some region
  | ghostZoneLeave region _ _ => some region
  | _ => none

/-- What a client knows after a message. -/
def learn (known : Known) : ServerMessage → Known
  | ghostZoneEnter region host port => known.insert region (host, port)
  | ghostZoneLeave region _ _ => known.erase region
  | _ => known

/-- What a client knows after messages, one after the other. -/
def replay (known : Known) (ms : List ServerMessage) : Known := ms.foldl learn known

/-- Whether a message fits what a client knows. -/
def Fits (known : Known) : ServerMessage → Prop
  | ghostZoneEnter region _ _ => known.get? region = none
  | ghostZoneLeave region host port => known.get? region = some (host, port)
  | _ => True

/-- Whether each message fits what a client knows by then. -/
def Coherent (known : Known) : List ServerMessage → Prop
  | [] => True
  | m :: ms => m.Fits known ∧ Coherent (learn known m) ms

variable {known : Known} {m : ServerMessage} {ms ns : List ServerMessage} {region : String}

theorem replay_append : replay known (ms ++ ns) = replay (replay known ms) ns := List.foldl_append

theorem coherent_append :
    Coherent known (ms ++ ns) ↔ Coherent known ms ∧ Coherent (replay known ms) ns := by
  induction ms generalizing known with
  | nil => exact ⟨fun h => ⟨trivial, h⟩, And.right⟩
  | cons m ms ih =>
    rw [List.cons_append, Coherent, Coherent, ih, and_assoc]
    rfl

theorem Coherent.fits (h : Coherent known (ms ++ m :: ns)) : m.Fits (replay known ms) :=
  (coherent_append.1 h).2.1

/-! ### Snapshots -/

theorem replay_withoutSnapshots (known : Known) (ms : List ServerMessage) :
    replay known (withoutSnapshots ms) = replay known ms := by
  induction ms generalizing known with
  | nil => rfl
  | cons m ms ih => cases m <;> exact ih _

theorem coherent_withoutSnapshots :
    Coherent known (withoutSnapshots ms) ↔ Coherent known ms := by
  induction ms generalizing known with
  | nil => exact Iff.rfl
  | cons m ms ih =>
    cases m with
    | playersSnapshot myId players => exact ⟨fun h => ⟨trivial, ih.1 h⟩, fun h => ih.2 h.2⟩
    | _ => exact and_congr_right fun _ => ih

/-! ### The last word on a neighbour -/

theorem get?_learn_of_ne (h : m.neighbor? ≠ some region) :
    (learn known m).get? region = known.get? region := by
  cases m with
  | ghostZoneEnter other host port =>
    exact Table.get?_insert_of_ne (fun heq => h (by rw [heq, neighbor?])) _
  | ghostZoneLeave other host port =>
    exact (Table.get?_erase ..).trans (if_neg fun heq => h (by rw [heq, neighbor?]))
  | _ => rfl

/-- A client knows a neighbour by the host and port with which it was entered last. -/
theorem exists_enter_of_get?_replay {host : String} {port : Int32}
    (h : (replay ∅ ms).get? region = some (host, port)) :
    ∃ ms₁ ms₂, ms = ms₁ ++ .ghostZoneEnter region host port :: ms₂ ∧
      ∀ m ∈ ms₂, m.neighbor? ≠ some region := by
  induction ms using List.reverseRecOn with
  | nil => cases h
  | append_singleton ms m ih =>
    rw [replay_append] at h
    change (learn (replay ∅ ms) m).get? region = _ at h
    by_cases hm : m.neighbor? = some region
    · cases m with
      | ghostZoneEnter other host' port' =>
        obtain rfl : other = region := Option.some.inj hm
        rw [learn, Table.get?_insert_self] at h
        cases h
        exact ⟨ms, [], rfl, by simp⟩
      | ghostZoneLeave other host' port' =>
        obtain rfl : other = region := Option.some.inj hm
        rw [learn, Table.get?_erase, if_pos rfl] at h
        cases h
      | _ => cases hm
    · rw [get?_learn_of_ne hm] at h
      obtain ⟨ms₁, ms₂, rfl, hlater⟩ := ih h
      refine ⟨ms₁, ms₂ ++ [m], by rw [List.append_assoc, List.cons_append], fun n hn => ?_⟩
      rcases List.mem_append.1 hn with hn | hn
      · exact hlater n hn
      · rw [List.mem_singleton.1 hn]
        exact hm

end ServerMessage

end TileRealm
