import Mathlib.Algebra.GroupWithZero.Nat
import VorbisTrack.Proofs.Session.Calls

/-!
# The samples that the library has received

The library receives samples when it is told that the memory holds them. `Session.received` puts
together what it has been told of a channel, and `Session.accepted` lists the counts that it has
agreed to. A write that succeeds adds what it was given, and nothing else adds anything.
-/

set_option autoImplicit false

namespace VorbisTrack

variable {σ : Type} {lib : Library σ}

def Event.plane (channel : Nat) : Event → List Sample
  | ⟨.wrote _ planes, _⟩ => planes.getD channel []
  | _ => []

/-- The samples of a channel that calls hand over, the earliest first. -/
def receivedIn (calls : List Event) (channel : Nat) : List Sample :=
  calls.flatMap (Event.plane channel)

theorem receivedIn_append (calls more : List Event) (channel : Nat) :
    receivedIn (calls ++ more) channel = receivedIn calls channel ++ receivedIn more channel :=
  List.flatMap_append

/-- Calls that put nothing in hand nothing over. -/
theorem receivedIn_eq_nil {calls : List Event}
    (other : ∀ event ∈ calls, event.call.purpose ≠ .input) (channel : Nat) :
    receivedIn calls channel = [] := by
  rw [receivedIn, List.flatMap_eq_nil_iff]
  intro event member
  have away := other event member
  obtain ⟨call, answer⟩ := event
  cases call with
  | wrote count planes => exact absurd rfl away
  | _ => rfl

namespace Session

def received (s : Session lib) (channel : Nat) : List Sample :=
  receivedIn s.trace channel

theorem received_perform (s : Session lib) (call : Call) (channel : Nat) :
    (s.perform call).2.received channel =
      s.received channel ++ Event.plane channel ⟨call, (s.perform call).1⟩ := by
  rw [received, trace, log_perform, List.reverse_cons, receivedIn_append]
  exact congrArg _ (List.append_nil _)

/-- Setting up and getting packets out hands no samples over. -/
theorem Makes.received {purpose : Purpose} {s s' : Session lib} (h : s.Makes purpose s')
    (other : purpose ≠ .input) (channel : Nat) : s'.received channel = s.received channel := by
  obtain ⟨events, log, made⟩ := h.log
  have none : receivedIn events.reverse channel = [] := by
    apply receivedIn_eq_nil
    intro event member
    rw [made event (List.mem_reverse.mp member)]
    exact other
  rw [Session.received, Session.received, trace, trace, log, List.reverse_append,
    receivedIn_append, none, List.append_nil]

/-- A write that succeeds hands over the samples that it was given, if there are as many as it
says. -/
theorem received_write {s s' : Session lib} {count : Nat} (some_ : count ≠ 0)
    {fill : Nat → List Sample} (written : s.write count fill = (.ok (), s')) {channel : Nat}
    (inRange : channel < s.channels.toNat) (full : (fill channel).length = count) :
    s'.received channel = s.received channel ++ fill channel := by
  rcases write_cases s count fill with
    ⟨_, refused, -⟩ | ⟨-, -, unfilled⟩ | ⟨-, memory, _, -, rfl, filled⟩
  · rw [refused] at written
    cases written
  · rw [unfilled] at written
    cases written
  · rw [filled, Prod.mk.injEq] at written
    obtain ⟨-, rfl⟩ := written
    -- The samples fill the memory, so nothing of what was there is left in the plane.
    have plane : (s.writtenPlanes count fill memory).getD channel [] = fill channel := by
      rw [writtenPlanes, if_neg some_, List.getD_eq_getElem?_getD, List.getElem?_map,
        List.getElem?_range inRange, Option.map_some, Option.getD_some,
        overwrite_of_length_eq full]
    rw [received_perform, received_perform]
    show s.received channel ++ [] ++ (s.writtenPlanes count fill memory).getD channel [] = _
    rw [plane, List.append_nil]

theorem received_signalEnd (s : Session lib) (channel : Nat) :
    s.signalEnd.2.received channel = s.received channel := by
  have told : (s.perform (.wrote 0 [])).2.received channel = s.received channel := by
    rw [received_perform]
    exact List.append_nil _
  exact signalEnd_keeps (P := fun s' => s'.received channel = s.received channel) rfl told
    fun _ kept => kept

end Session

/-! ## Counts -/

/-- The count of samples that the library accepts by a call. -/
def Event.accepted? : Event → Option Nat
  | ⟨.wrote count _, code⟩ => if 0 ≤ code then some count else none
  | _ => none

theorem Event.accepted?_eq_none {event : Event} (other : event.call.purpose ≠ .input) :
    event.accepted? = none := by
  obtain ⟨call, answer⟩ := event
  cases call with
  | wrote => exact absurd rfl other
  | _ => rfl

namespace Session

/-- The counts of samples that the library has accepted, the earliest first. An end of the input is
a count of zero. -/
def accepted (s : Session lib) : List Nat :=
  s.trace.filterMap Event.accepted?

theorem accepted_wrote (s : Session lib) (count : Nat) (planes : List (List Sample)) :
    (s.perform (.wrote count planes)).2.accepted =
      s.accepted ++ if 0 ≤ (s.perform (.wrote count planes)).1 then [count] else [] := by
  rw [accepted, filterMap_trace_perform, accepted]
  congr 1
  simp only [Event.accepted?]
  split <;> rfl

/-- Setting up and getting packets out puts no samples in. -/
theorem Makes.accepted {purpose : Purpose} {s s' : Session lib} (h : s.Makes purpose s')
    (other : purpose ≠ .input) : s'.accepted = s.accepted :=
  h.filterMap_trace fun _ made => Event.accepted?_eq_none (by rwa [made])

/-- Ending the input is a count of zero, if anything. -/
theorem accepted_signalEnd (s : Session lib) :
    s.signalEnd.2.accepted = s.accepted ∨ s.signalEnd.2.accepted = s.accepted ++ [0] := by
  have told := accepted_wrote s 0 []
  refine signalEnd_keeps
    (P := fun s' => s'.accepted = s.accepted ∨ s'.accepted = s.accepted ++ [0]) (.inl rfl) ?_
    fun _ kept => kept
  rw [told]
  split
  · exact .inr rfl
  · exact .inl (List.append_nil _)

end Session

/-! ## Planes -/

/-- The count of samples and the planes that a call tells the library of. -/
def Event.told? : Event → Option (Nat × List (List Sample))
  | ⟨.wrote count planes, _⟩ => some (count, planes)
  | _ => none

theorem Event.told?_eq_none {event : Event} (other : event.call.purpose ≠ .input) :
    event.told? = none := by
  obtain ⟨call, answer⟩ := event
  cases call with
  | wrote => exact absurd rfl other
  | _ => rfl

namespace Session

/-- All that the library has been told of, the earliest first. -/
def told (s : Session lib) : List (Nat × List (List Sample)) :=
  s.trace.filterMap Event.told?

theorem Makes.told {purpose : Purpose} {s s' : Session lib} (h : s.Makes purpose s')
    (other : purpose ≠ .input) : s'.told = s.told :=
  h.filterMap_trace fun _ made => Event.told?_eq_none (by rwa [made])

/-- A write tells the library of its planes, once, or it fails and has told it of nothing. -/
theorem told_write (s : Session lib) (count : Nat) (fill : Nat → List Sample) :
    ((s.write count fill).2.told = s.told ∧ (s.write count fill).1.isOk = false) ∨
      ∃ memory, (s.write count fill).2.told =
        s.told ++ [(count, s.writtenPlanes count fill memory)] := by
  have asked : (s.perform (.buffer count)).2.told = s.told :=
    (filterMap_trace_perform Event.told? s (.buffer count)).trans (List.append_nil _)
  rcases write_cases s count fill with
    ⟨_, refused, -⟩ | ⟨-, -, unfilled⟩ | ⟨-, memory, _, -, rfl, filled⟩
  · exact .inl (by rw [refused]; exact ⟨rfl, rfl⟩)
  · exact .inl (by rw [unfilled]; exact ⟨asked, rfl⟩)
  · refine .inr ⟨memory, ?_⟩
    rw [filled, ← asked]
    exact filterMap_trace_perform Event.told? _ (.wrote count _)

end Session

end VorbisTrack
