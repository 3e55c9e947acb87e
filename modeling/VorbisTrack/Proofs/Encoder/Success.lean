import VorbisTrack.Proofs.Encoder.Conservation
import VorbisTrack.Proofs.Encoder.Samples
import VorbisTrack.Proofs.Encoder.Timing
import VorbisTrack.Proofs.EncodingOptions
import VorbisTrack.Proofs.Session.Received
import VorbisTrack.Proofs.Session.Success

/-!
# Encoders fail only if the library does

An encoder whose library has not failed takes every frame that it does not refuse, and hands out
packets until none is left. Receiving them all empties the queue (`Empties`), so the next frame is
not refused for want of room, and it ends with the failure that tells whether more can come.
-/

set_option autoImplicit false

namespace VorbisTrack

variable {σ : Type} {lib : Library σ}

namespace Encoder

/-! ## Opening -/

/-- An encoder whose library does not fail can be opened. -/
theorem open_ok {settings : Settings} {options : EncodingOptions}
    (timeBase : settings.timeBase.isTimeBase = true)
    (resolved : EncodingOptions.resolve settings = .ok options)
    (good : ∀ event ∈ (Encoder.open lib settings).2, event.fails = false) :
    ∃ e trace, Encoder.open lib settings = (.ok e, trace) := by
  have unfailing {s : Session lib} (all : ∀ event ∈ s.trace, event.fails = false) :
      s.Unfailing := fun event member => all event (List.mem_reverse.mpr member)
  have checked := (EncodingOptions.of_resolve resolved).2.2.2
  simp only [open_eq_ok_iff, timeBase, resolved, true_and]
  simp only [«open», timeBase, not_true, if_false, resolved] at good
  generalize opened : Session.open lib options = reply at good
  obtain ⟨result, started⟩ := reply
  -- Each way out with a failure needs an answer that is one, and all of them are in the trace.
  cases result with
  | error failure =>
    have ok := @Session.open_ok _ lib options (by rw [opened]; exact unfailing good)
    rw [opened] at ok
    cases ok
  | ok =>
    simp only at good
    generalize made : started.headerPackets (tags options) = reply at good
    obtain ⟨result, session⟩ := reply
    have ok (h : session.Unfailing) : ∃ headers, result = .ok headers := by
      have := @Session.headerPackets_ok _ lib _ (nulFault?_tags checked) started
        (by rw [made]; exact h)
      rwa [made] at this
    cases result with
    | error failure =>
      obtain ⟨headers, none⟩ := ok ((unfailing good).earlier (Session.leadsTo_release session))
      cases none
    | ok headers => exact ⟨_, _, options, started, headers, session, rfl, opened, made, rfl, rfl⟩

/-- An encoder that has just been opened has the options of its settings, and its library has
received nothing. -/
theorem fresh_of_open {settings : Settings} {e : Encoder lib} {trace : List Event}
    (opened : Encoder.open lib settings = (.ok e, trace)) :
    EncodingOptions.resolve settings = .ok e.options ∧ e.timeBase = settings.timeBase ∧
      e.streamIndex = settings.streamIndex ∧ e.staging = {} ∧ e.start = none ∧ e.position = 0 ∧
      ∀ c, e.session.received c = [] := by
  have silent := (makes_of_open opened).received (by decide)
  obtain ⟨-, options, started, headers, session, resolved, -, -, rfl, -⟩ :=
    open_eq_ok_iff.mp opened
  exact ⟨resolved, rfl, rfl, rfl, rfl, rfl, silent⟩

/-! ## Sending -/

theorem drain_ok {e : Encoder lib} (good : e.drain.2.session.Unfailing) : e.drain.1 = .ok () := by
  cases full : e.staging.isFull with
  | true => rw [drain_of_isFull full]
  | false =>
    rw [drain_of_not_isFull full] at good ⊢
    exact Session.drain_ok _ _ good

theorem refill_ok {e : Encoder lib} (good : e.refill.2.session.Unfailing) :
    e.refill.1 = .ok () := by
  by_cases empty : e.staging.packets = []
  · rw [refill_of_empty empty] at good ⊢
    exact drain_ok good
  · rw [refill_of_ne empty]

/-- A frame that the encoder accepts is taken, and the library receives its samples. -/
theorem send_ok {e : Encoder lib} {frame : Frame} (accepts : e.Accepts frame)
    (agrees : e.AgreesOnEnd) (some_ : frame.sampleCount ≠ 0)
    (few : frame.sampleCount ≤ Session.maxCount)
    (channels : e.session.channels = e.options.channels)
    (good : (e.send frame).2.session.Unfailing) :
    (e.send frame).1 = .ok () ∧ (e.send frame).2.ended = false ∧
      ∀ c < e.options.channels.toNat,
        (e.send frame).2.session.received c = e.session.received c ++ vorbisSamples frame c := by
  rcases send_cases e frame with
    ⟨_, refused, -⟩ | ⟨-, none, -⟩ | ⟨failure, session, -, -, written, sent⟩ |
    ⟨session, -, -, written, sent⟩
  · rw [refusal?_eq_none_iff.mpr accepts] at refused
    cases refused
  · exact absurd none some_
  · rw [sent] at good
    have going : e.session.ended = false := agrees.symm.trans accepts.ended
    have ok := @Session.write_ok _ lib e.session going _ few (vorbisSamples frame)
      (by rw [written]; exact good)
    rw [written] at ok
    cases ok
  · -- Draining only gets packets out. So the input goes on, and the library has received what the
    -- write has told it of.
    have drained := makes_drain
      { e.anchor frame.pts with session, samplesSent := e.samplesSent + frame.sampleCount }
    have input := Session.makes_write e.session frame.sampleCount (vorbisSamples frame)
    rw [written] at input
    rw [sent] at good ⊢
    refine ⟨drain_ok good, ?_, ?_⟩
    · rw [ended_drain]
      exact (ended_anchor e frame.pts).trans accepts.ended
    intro c inRange
    rw [drained.received (by decide)]
    rw [← channels] at inRange
    exact Session.received_write some_ written inRange
      (accepts.length_vorbisSamples (by rwa [← channels]))

theorem flush_ok {e : Encoder lib} (good : e.flush.2.session.Unfailing) :
    e.flush.1 = .ok () ∧ e.flush.2.ended = true ∧
      ∀ c, e.flush.2.session.received c = e.session.received c := by
  have told (h : e.session.signalEnd.2.Unfailing) := Session.signalEnd_ok h
  have received := Session.received_signalEnd e.session
  rcases flush_cases e with
    ⟨ended, flushed⟩ | ⟨failure, session, -, signal, flushed⟩ | ⟨session, -, signal, flushed⟩
  · rw [flushed] at good ⊢
    exact ⟨drain_ok good, (ended_drain e).trans ended, (makes_drain e).received (by decide)⟩
  · rw [signal] at told
    rw [flushed] at good
    cases (told good).1
  · have drained := makes_drain { e with session, ended := true }
    rw [signal] at received
    rw [flushed] at good ⊢
    refine ⟨drain_ok good, ended_drain _, ?_⟩
    intro c
    rw [drained.received (by decide)]
    exact received c

/-! ## Receiving -/

structure HandsOut (e e' : Encoder lib) (taken : List RawPacket) : Prop where
  conserves : e.Conserves e' taken
  charged : e.staging.Charged → e'.staging.Charged
  session : e.session.Makes .output e'.session
  ended : e'.ended = e.ended
  options : e'.options = e.options
  clock : e'.clock = (taken.map RawPacket.content).foldl Clock.after e.clock

theorem HandsOut.trans {e e' e'' : Encoder lib} {taken more : List RawPacket}
    (first : e.HandsOut e' taken) (second : e'.HandsOut e'' more) :
    e.HandsOut e'' (taken ++ more) where
  conserves := first.conserves.trans second.conserves
  charged h := second.charged (first.charged h)
  session := first.session.trans second.session
  ended := second.ended.trans first.ended
  options := second.options.trans first.options
  clock := by rw [second.clock, first.clock, List.map_append, List.foldl_append]

theorem handsOut_refill (e : Encoder lib) : e.HandsOut e.refill.2 [] :=
  ⟨conserves_refill e, charged_refill, makes_refill e, ended_refill e, (leadsTo_refill e).options,
    clock_refill e⟩

/-- If the library does not fail, receiving hands out the next packet, or nothing is left. -/
theorem receive_ok {e : Encoder lib} (good : e.receive.2.session.Unfailing) :
    (∃ raw, e.receive.1 = .ok (e.clock.packet raw.content) ∧ e.HandsOut e.receive.2 [raw]) ∨
    (e.receive.1 = .error (if e.ended then .endOfStream else .tryAgain) ∧
      e.HandsOut e.receive.2 [] ∧ e.receive.2.staging.packets = []) := by
  have refilled := handsOut_refill e
  -- The refill hands out nothing by itself. Only in the last case a packet leaves the queue.
  rcases receive_cases e with
    ⟨failure, failed, received⟩ | ⟨-, none, received⟩ | ⟨raw, rest, -, staged, received⟩
  · rw [received] at good
    rw [refill_ok good] at failed
    cases failed
  · right
    rw [received, ended_refill]
    exact ⟨rfl, refilled, none⟩
  · left
    rw [received]
    refine ⟨raw, ?_, ?_⟩
    · show Except.ok (e.refill.2.packetOf raw) = _
      rw [packetOf_eq, clock_refill]
    · have one : e.refill.2.HandsOut (e.refill.2.handOut raw rest) [raw] :=
        ⟨.handOut staged, fun charged => charged.rest staged, .refl .output _, rfl, rfl, rfl⟩
      exact refilled.trans one

end Encoder

end VorbisTrack
