import VorbisTrack.Library.Scripted
import VorbisTrack.Proofs.Session.Protocol

/-!
# Who ends the input of a session

The library takes a count of no samples for the end of its input. A session notes for itself whether
that end has been accepted, so its note and the state of the library may come apart. This is about
any operations on an open session, in any order and with any answers. Only a request to end the
input, and a write of no samples, tell the library of an end (`tellsEnd_of_after`). The session
notes what a request has come to and passes over what a write has. So the note is right until a
write of no samples succeeds, and wrong from then on until the end is requested (`endsInput_iff`).
Without such a write the end is accepted once at most, and nothing is put in after it
(`open_endsOnRequest`).
-/

set_option autoImplicit false

namespace VorbisTrack

variable {σ : Type} {lib : Library σ}

namespace Event

/-- The library is told that the input ends, whatever it answers. -/
def tellsEnd : Event → Bool
  | ⟨.wrote 0 _, _⟩ => true
  | _ => false

/-- Only calls for the input put something in. -/
theorem isInput_eq_false {event : Event} (other : event.call.purpose ≠ .input) :
    event.isInput = false := by
  obtain ⟨call, answer⟩ := event
  cases call with
  | buffer count => exact absurd rfl other
  | wrote count planes => exact absurd rfl other
  | _ => rfl

theorem isInput_of_tellsEnd {event : Event} (tells : event.tellsEnd = true) :
    event.isInput = true := by
  obtain ⟨call, answer⟩ := event
  cases call with
  | wrote count planes => rfl
  | _ => cases tells

end Event

namespace Session

/-! ## Operations -/

inductive Operation : Type 1
  | headers (comments : List (String × String))
  | write (count : Nat) (fill : Nat → List Sample)
  | signalEnd
  | drain {τ : Type} (sink : Sink τ) (state : τ)

def after (s : Session lib) : Operation → Session lib
  | .headers comments => (s.headerPackets comments).2
  | .write count fill => (s.write count fill).2
  | .signalEnd => s.signalEnd.2
  | .drain sink state => (drain sink state s).2.2

def afterAll (s : Session lib) (operations : List Operation) : Session lib :=
  operations.foldl after s

theorem afterAll_append (s : Session lib) (earlier later : List Operation) :
    s.afterAll (earlier ++ later) = (s.afterAll earlier).afterAll later :=
  List.foldl_append

/-- The operation is a write of no samples, and it succeeds. -/
def Misleads (s : Session lib) : Operation → Prop
  | .write 0 fill => (s.write 0 fill).1 = .ok ()
  | _ => False

/-- None of the operations is a write of no samples that succeeds. -/
def IsHonest : Session lib → List Operation → Prop
  | _, [] => True
  | s, operation :: rest => ¬ s.Misleads operation ∧ (s.after operation).IsHonest rest

theorem leadsTo_after (s : Session lib) (operation : Operation) :
    s.LeadsTo (s.after operation) := by
  cases operation with
  | headers comments => exact (makes_headerPackets s comments).leadsTo
  | write count fill => exact (makes_write s count fill).leadsTo
  | signalEnd => exact leadsTo_signalEnd s
  | drain sink state => exact (makes_drain sink state s).leadsTo

theorem leadsTo_afterAll (operations : List Operation) (s : Session lib) :
    s.LeadsTo (s.afterAll operations) := by
  induction operations generalizing s with
  | nil => exact .refl s
  | cons operation rest ih => exact (leadsTo_after s operation).trans (ih _)

/-! ## Nothing is put in -/

/-- From `s` to `s'` nothing is put in, and no end is told. -/
def PutsNothingIn (s s' : Session lib) : Prop :=
  ∃ events, s'.log = events ++ s.log ∧ ∀ event ∈ events, event.isInput = false

theorem PutsNothingIn.refl (s : Session lib) : s.PutsNothingIn s :=
  ⟨[], rfl, fun _ none => absurd none (by simp)⟩

theorem PutsNothingIn.trans {s s' s'' : Session lib} (first : s.PutsNothingIn s')
    (second : s'.PutsNothingIn s'') : s.PutsNothingIn s'' := by
  obtain ⟨earlier, log, before⟩ := first
  obtain ⟨later, log', after⟩ := second
  refine ⟨later ++ earlier, by rw [log', log, List.append_assoc], ?_⟩
  intro event made
  rcases List.mem_append.mp made with made | made
  · exact after event made
  · exact before event made

theorem Makes.putsNothingIn {purpose : Purpose} {s s' : Session lib} (made : s.Makes purpose s')
    (other : purpose ≠ .input) : s.PutsNothingIn s' := by
  obtain ⟨events, log, all⟩ := made.log
  refine ⟨events, log, fun event he => Event.isInput_eq_false ?_⟩
  rw [all event he]
  exact other

/-- Once the end has been noted, an operation puts nothing in, and the note stays. -/
theorem putsNothingIn_after {s : Session lib} (ended : s.ended = true) (operation : Operation) :
    s.PutsNothingIn (s.after operation) ∧ (s.after operation).ended = true := by
  cases operation with
  | headers comments =>
    have made := makes_headerPackets s comments
    exact ⟨made.putsNothingIn (by simp), made.ended.trans ended⟩
  | write count fill =>
    have same : (s.write count fill).2 = s := by rw [write, if_pos ended]
    show s.PutsNothingIn (s.write count fill).2 ∧ (s.write count fill).2.ended = true
    rw [same]
    exact ⟨.refl s, ended⟩
  | signalEnd =>
    show s.PutsNothingIn s.signalEnd.2 ∧ s.signalEnd.2.ended = true
    rw [signalEnd_of_ended ended]
    exact ⟨.refl s, ended⟩
  | drain sink state =>
    have made := makes_drain sink state s
    exact ⟨made.putsNothingIn (by simp), made.ended.trans ended⟩

theorem putsNothingIn_afterAll (operations : List Operation) {s : Session lib}
    (ended : s.ended = true) :
    s.PutsNothingIn (s.afterAll operations) ∧ (s.afterAll operations).ended = true := by
  induction operations generalizing s with
  | nil => exact ⟨.refl s, ended⟩
  | cons operation rest ih =>
    obtain ⟨first, still⟩ := putsNothingIn_after ended operation
    obtain ⟨others, last⟩ := ih still
    exact ⟨first.trans others, last⟩

/-! ## The end is told -/

/-- An operation tells the library of the end only if it is asked to, or if it writes no samples. -/
theorem tellsEnd_of_after {s : Session lib} {operation : Operation} {events : List Event}
    (log : (s.after operation).log = events ++ s.log) {event : Event} (made : event ∈ events)
    (tells : event.tellsEnd = true) :
    operation = .signalEnd ∨ ∃ fill, operation = .write 0 fill := by
  -- An operation that puts nothing in tells nothing either.
  have silent (quiet : s.PutsNothingIn (s.after operation)) : False := by
    obtain ⟨all, log', none⟩ := quiet
    obtain rfl := List.append_cancel_right (log.symm.trans log')
    have input := none event made
    rw [Event.isInput_of_tellsEnd tells] at input
    cases input
  cases operation with
  | headers comments =>
    exact (silent ((makes_headerPackets s comments).putsNothingIn (by simp))).elim
  | signalEnd => exact .inl rfl
  | drain sink state => exact (silent ((makes_drain sink state s).putsNothingIn (by simp))).elim
  | write count fill =>
    cases count with
    | zero => exact .inr ⟨fill, rfl⟩
    | succ n =>
      rcases write_cases s (n + 1) fill with
        ⟨_, refused, -⟩ | ⟨-, -, unfilled⟩ | ⟨-, memory, told, -, rfl, filled⟩
      · exact (silent ⟨[], by rw [after, refused]; rfl, by simp⟩).elim
      · rw [after, unfilled] at log
        have one : [_] ++ s.log = events ++ s.log := log
        obtain rfl := List.append_cancel_right one
        obtain rfl := List.mem_singleton.mp made
        cases tells
      · rw [after, filled] at log
        have two : [_, _] ++ s.log = events ++ s.log := log
        obtain rfl := List.append_cancel_right two
        rcases List.mem_cons.mp made with rfl | made
        · cases tells
        · obtain rfl := List.mem_singleton.mp made
          cases tells

/-! ## The end is noted -/

/-- If the session has noted the end, the library has accepted one. -/
def NotesTruly (s : Session lib) : Prop :=
  s.ended = true → ∃ event ∈ s.log, event.endsInput = true

theorem NotesTruly.makes {purpose : Purpose} {s s' : Session lib} (h : s.NotesTruly)
    (made : s.Makes purpose s') : s'.NotesTruly := by
  intro noted
  obtain ⟨event, before, ends⟩ := h (made.ended ▸ noted)
  exact ⟨event, made.leadsTo.log.subset before, ends⟩

theorem notesTruly_after {s : Session lib} (h : s.NotesTruly) (operation : Operation) :
    (s.after operation).NotesTruly := by
  cases operation with
  | headers comments => exact h.makes (makes_headerPackets s comments)
  | write count fill => exact h.makes (makes_write s count fill)
  | drain sink state => exact h.makes (makes_drain sink state s)
  | signalEnd =>
    show s.signalEnd.2.NotesTruly
    rcases signalEnd_cases s with ⟨-, same⟩ | ⟨-, -, refused⟩ | ⟨-, accepted, told⟩
    · rwa [same]
    · rw [refused]
      exact h.makes (makes_perform s (.wrote 0 []))
    · rw [told]
      intro _
      exact ⟨_, List.mem_cons_self .., decide_eq_true accepted⟩

theorem notesTruly_afterAll (operations : List Operation) {s : Session lib} (h : s.NotesTruly) :
    (s.afterAll operations).NotesTruly := by
  induction operations generalizing s with
  | nil => exact h
  | cons operation rest ih => exact ih (notesTruly_after h operation)

theorem orderly_after {s : Session lib} (h : s.Orderly) {operation : Operation}
    (honest : ¬ s.Misleads operation) : (s.after operation).Orderly := by
  cases operation with
  | headers comments => exact h.makes_setup (makes_headerPackets s comments)
  | signalEnd => exact orderly_signalEnd h
  | drain sink state => exact orderly_drain sink state h
  | write count fill =>
    refine orderly_write_of_empty h fun zero => ?_
    subst zero
    exact honest

theorem orderly_afterAll (operations : List Operation) {s : Session lib} (h : s.Orderly)
    (honest : s.IsHonest operations) : (s.afterAll operations).Orderly := by
  induction operations generalizing s with
  | nil => exact h
  | cons operation rest ih => exact ih (orderly_after h honest.1) honest.2

/-- A write of no samples that succeeds has made the library accept the end. -/
theorem endsInput_of_misleads {s : Session lib} {operation : Operation}
    (misleads : s.Misleads operation) :
    ∃ event ∈ (s.after operation).log, event.endsInput = true := by
  unfold Misleads at misleads
  split at misleads
  · next fill =>
    rcases write_cases s 0 fill with
      ⟨_, refused, -⟩ | ⟨-, -, unfilled⟩ | ⟨-, memory, told, -, wrote, filled⟩
    · rw [refused] at misleads
      cases misleads
    · rw [unfilled] at misleads
      cases misleads
    · have accepted : (0 : Int32) ≤ told.1 := by
        refine Int32.not_lt.mp fun failed => ?_
        rw [filled, if_pos failed] at misleads
        cases misleads
      subst wrote
      rw [after, filled]
      exact ⟨_, List.mem_cons_self .., decide_eq_true accepted⟩
  · exact misleads.elim

theorem endsInput_of_not_isHonest {s : Session lib} {operations : List Operation}
    (dishonest : ¬ s.IsHonest operations) :
    ∃ event ∈ (s.afterAll operations).log, event.endsInput = true := by
  induction operations generalizing s with
  | nil => exact absurd trivial dishonest
  | cons operation rest ih =>
    by_cases misleads : s.Misleads operation
    · -- What the library has accepted stays in the log.
      obtain ⟨event, told, ends⟩ := endsInput_of_misleads misleads
      exact ⟨event, (leadsTo_afterAll rest _).log.subset told, ends⟩
    · exact ih fun honest => dishonest ⟨misleads, honest⟩

/-- The library has accepted the end exactly if the session has noted so, or a write of no samples
has succeeded. -/
theorem endsInput_iff {s : Session lib} (orderly : s.Orderly) (truly : s.NotesTruly)
    (operations : List Operation) :
    (∃ event ∈ (s.afterAll operations).log, event.endsInput = true) ↔
      (s.afterAll operations).ended = true ∨ ¬ s.IsHonest operations := by
  constructor
  · intro ⟨event, told, ends⟩
    by_cases honest : s.IsHonest operations
    · left
      cases noted : (s.afterAll operations).ended with
      | true => rfl
      | false =>
        have open_ := (orderly_afterAll operations orderly honest).ended noted event told
        rw [ends] at open_
        cases open_
    · exact .inr honest
  · rintro (noted | dishonest)
    · exact notesTruly_afterAll operations truly noted
    · exact endsInput_of_not_isHonest dishonest

/-! ## Whole sessions -/

/-- How the library is told of the end in the course of any operations on the session. -/
structure EndsOnRequest (s : Session lib) : Prop where
  /-- Before the first operation nothing has been put in. -/
  opening : ∀ event ∈ s.trace, event.isInput = false
  /-- An operation tells the library of the end only if it is asked to, or if it writes no
  samples. -/
  told : ∀ (earlier : List Operation) (operation : Operation) (events : List Event),
    ((s.afterAll earlier).after operation).trace = (s.afterAll earlier).trace ++ events →
      ∀ event ∈ events, event.tellsEnd = true →
        operation = .signalEnd ∨ ∃ fill, operation = .write 0 fill
  /-- The session has noted the end exactly if the library has accepted one, but for writes of no
  samples that have succeeded: the library accepts those as the end too. -/
  noted : ∀ operations : List Operation,
    (∃ event ∈ (s.afterAll operations).trace, event.endsInput = true) ↔
      (s.afterAll operations).ended = true ∨ ¬ s.IsHonest operations
  /-- Without such writes, the end is accepted once at most. -/
  once : ∀ operations : List Operation, s.IsHonest operations →
    (s.afterAll operations).trace.countP Event.endsInput ≤ 1
  /-- Without such writes, nothing is put in once the end has been accepted, until the session has
  been given back. -/
  closed : ∀ operations : List Operation, s.IsHonest operations →
    ∀ before after event, (s.afterAll operations).release.trace = before ++ event :: after →
      event.endsInput = true → ∀ later ∈ after, later.isInput = false
  /-- Once the session has noted the end, nothing is put in whatever is done. -/
  silent : ∀ earlier later : List Operation, (s.afterAll earlier).ended = true →
    (s.afterAll earlier).PutsNothingIn (s.afterAll (earlier ++ later)).release

/-- **The input of a session ends when that is asked for, unless a write of no samples succeeds.**
This holds of every session that was opened, whatever is done with it and whatever the library
answers. -/
theorem open_endsOnRequest {options : EncodingOptions} {s : Session lib}
    (opened : Session.open lib options = (.ok (), s)) : s.EndsOnRequest := by
  have setup : (unused lib options).Makes .setup s := makes_open opened
  have orderly : s.Orderly := (orderly_unused lib options).makes_setup setup
  have truly : s.NotesTruly := NotesTruly.makes (fun noted => absurd noted (by simp)) setup
  constructor
  case opening =>
    intro event he
    obtain ⟨events, log, none⟩ := setup.putsNothingIn (by simp)
    rw [trace, log, List.append_nil] at he
    exact none event (List.mem_reverse.mp he)
  case told =>
    intro earlier operation events split event he tells
    have log : ((s.afterAll earlier).after operation).log =
        events.reverse ++ (s.afterAll earlier).log := by
      rw [← List.reverse_inj, List.reverse_append, List.reverse_reverse]
      exact split
    exact tellsEnd_of_after log (List.mem_reverse.mpr he) tells
  case noted =>
    intro operations
    simpa only [trace, List.mem_reverse] using endsInput_iff orderly truly operations
  case once =>
    intro operations honest
    rw [trace, List.countP_reverse]
    exact (orderly_afterAll operations orderly honest).legal.countP_endsInput_le
  case closed =>
    intro operations honest before after event split ends
    have legal := legal_release (orderly_afterAll operations orderly honest).toLawful
    have follows : FollowsProtocol (s.afterAll operations).release.trace :=
      Legal.followsProtocol (by rwa [trace, List.reverse_reverse])
    exact follows.ended before after event split ends
  case silent =>
    intro earlier later noted
    rw [afterAll_append]
    obtain ⟨quiet, still⟩ := putsNothingIn_afterAll later noted
    exact quiet.trans ((makes_release still).putsNothingIn (by simp))

def monoOptions : EncodingOptions :=
  { rate := 8000, channels := 1, rateControl := .managed 32000 none none }

/-- A library that refuses the first end it is told of. -/
def unwillingScript : Script :=
  { forced := [{ routine := .analysisWrote, skip := 1, code := -131 }], block := 4 }

/-- Samples, a write of none that is refused, and two requests for the end. -/
def singleEnd : List Operation :=
  [.write 4 fun _ => [], .write 0 fun _ => [], .signalEnd, .signalEnd, .write 0 fun _ => []]

theorem open_endsOnRequest_unwilling :
    ∃ s : Session unwillingScript.library,
      Session.open unwillingScript.library monoOptions = (.ok (), s) ∧ s.EndsOnRequest ∧
        s.IsHonest singleEnd ∧ (s.afterAll singleEnd).trace.countP Event.endsInput = 1 :=
  ⟨_, show Session.open unwillingScript.library monoOptions = _ from rfl,
    open_endsOnRequest (show Session.open unwillingScript.library monoOptions = _ from rfl),
    ⟨nofun, nofun, nofun, nofun, nofun, trivial⟩, rfl⟩

/-- A write of no samples ends the input unnoticed: the session takes it to be open, and when the
end is requested the library is told a second time. -/
theorem endsInput_of_empty_write :
    ∃ s : Session ({} : Script).library,
      Session.open ({} : Script).library monoOptions = (.ok (), s) ∧
        (s.afterAll [.write 0 fun _ => []]).trace.countP Event.endsInput = 1 ∧
        (s.afterAll [.write 0 fun _ => []]).ended = false ∧
        (s.afterAll [.write 0 fun _ => [], .signalEnd]).trace.countP Event.endsInput = 2 :=
  ⟨_, show Session.open ({} : Script).library monoOptions = _ from rfl, rfl, rfl, rfl⟩

end Session

end VorbisTrack
