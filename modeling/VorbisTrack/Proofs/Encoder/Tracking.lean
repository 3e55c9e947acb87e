import VorbisTrack.Proofs.Encoder.Samples
import VorbisTrack.Proofs.Encoder.Timing
import VorbisTrack.Proofs.Session.Blocks

/-!
# Encoders over a library that works like a codec

Between two operations an encoder is in a simple relation to the view of such a library. No block is
being worked on, and what has been delivered, followed by what is staged, are the packets of the
blocks that have been handed out (`Tracks`). Sending appends to the input, flushing ends it, and
every operation may hand out more blocks. So whether analysis ran early or late cannot be seen.
-/

set_option autoImplicit false

namespace VorbisTrack

variable {σ : Type} {lib : Library σ} {codec : Codec} {rel : σ → View → Prop}

namespace Encoder

/-- The samples of an input channel in frames, frame by frame. -/
def stream (frames : List Frame) (channel : Nat) : List Sample :=
  frames.flatMap fun frame => channelSamples frame channel

end Encoder

namespace Input

/-- The input followed by the channels of frames, in Vorbis order. -/
def feed (input : Input) (channels : Nat) (frames : List Frame) : Input :=
  { input with
    samples := fun c => input.samples c ++
      if c < channels then Encoder.stream frames (ChannelLayout.source channels c) else [] }

theorem feed_nil (input : Input) (channels : Nat) : input.feed channels [] = input := by
  apply Input.ext
  · funext c
    show input.samples c ++ (if c < channels then [] else []) = input.samples c
    rw [ite_self, List.append_nil]
  · rfl

theorem feed_cons (input : Input) (channels : Nat) (frame : Frame) (rest : List Frame) :
    input.feed channels (frame :: rest) = (input.feed channels [frame]).feed channels rest := by
  apply Input.ext
  · -- The samples of a channel are put one after the other either way.
    funext c
    simp only [feed]
    split
    · simp only [Encoder.stream, List.flatMap_cons, List.flatMap_nil, List.append_nil,
        List.append_assoc]
    · rw [List.append_nil, List.append_nil]
  · rfl

/-- A frame that has no samples feeds nothing. -/
theorem feed_of_sampleCount_eq_zero (input : Input) (channels : Nat) {frame : Frame}
    (none : frame.sampleCount = 0) : input.feed channels [frame] = input := by
  apply Input.ext
  · funext c
    simp only [feed]
    rw [Encoder.stream, List.flatMap_singleton,
      Encoder.channelSamples_of_sampleCount_eq_zero none, ite_self, List.append_nil]
  · rfl

/-- What is written for a frame is what it feeds. -/
theorem append_vorbisSamples (input : Input) (frame : Frame) :
    input.append ((List.range frame.channels.toNat).map (Encoder.vorbisSamples frame))
      = input.feed frame.channels.toNat [frame] := by
  apply Input.ext
  · funext c
    simp only [append, feed]
    rw [Encoder.stream, List.flatMap_singleton, List.getD_eq_getElem?_getD, List.getElem?_map]
    by_cases inRange : c < frame.channels.toNat
    · rw [if_pos inRange, List.getElem?_range inRange]
      rfl
    · -- There is no plane for a channel that the frame does not have.
      rw [if_neg inRange, List.getElem?_eq_none (by rw [List.length_range]; omega)]
      rfl
  · rfl

end Input

namespace Encoder

/-- The encoder `e` has delivered the contents `delivered`, and its library has got as far as the
view `v` says. -/
structure Tracks (codec : Codec) (rel : σ → View → Prop) (e : Encoder lib) (v : View)
    (delivered : List Content) : Prop where
  rel : rel e.session.native v
  idle : v.Idle
  ended : v.input.ended = e.ended
  agrees : e.AgreesOnEnd
  handed : v.handed ≤ (codec.blocks v.input).length
  /-- The packets of the blocks that were handed out have been delivered, or they are staged. -/
  balance : delivered ++ e.staging.packets.map RawPacket.content
    = ((codec.blocks v.input).take v.handed).flatten
  charged : e.staging.Charged
  channels : e.session.channels = e.options.channels

/-- More input leaves the blocks alone that have been handed out. -/
theorem Tracks.extend {e : Encoder lib} {v : View} {delivered : List Content}
    (h : e.Tracks codec rel v delivered) {input : Input}
    (more : codec.blocks v.input <+: codec.blocks input) :
    v.handed ≤ (codec.blocks input).length ∧
      delivered ++ e.staging.packets.map RawPacket.content
        = ((codec.blocks input).take v.handed).flatten := by
  have bound := h.handed
  obtain ⟨further, all⟩ := more
  constructor
  · rw [← all, List.length_append]
    omega
  · rw [h.balance, ← all, List.take_append_of_le_length bound]

/-! ## Draining -/

/-- Draining hands out blocks until there is none left or the queue is full. -/
theorem tracks_drain (sim : codec.Simulates lib rel) {e : Encoder lib} {v : View}
    {delivered : List Content} (h : e.Tracks codec rel v delivered) :
    ∃ handed, e.drain.1 = .ok () ∧ e.drain.2.Tracks codec rel { v with handed } delivered ∧
      (handed = (codec.blocks v.input).length ∨ e.drain.2.staging.isFull = true) := by
  have charged := charged_drain h.charged
  cases full : e.staging.isFull with
  | true =>
    rw [drain_of_isFull full]
    exact ⟨v.handed, rfl, h, .inr full⟩
  | false =>
    obtain ⟨packets, handed, ok, put, later, bound, contents, last⟩ :=
      Session.drain_view sim Staging.sink e.staging e.session h.rel h.idle h.handed
    have made := Session.makes_drain Staging.sink e.staging e.session
    rw [drain_of_not_isFull full] at charged ⊢
    refine ⟨handed, ok,
      ⟨later, ⟨h.idle.working, h.idle.queue⟩, h.ended, ?_, bound, ?_, charged, ?_⟩, ?_⟩
    · exact h.agrees.trans made.ended.symm
    · show delivered ++ (e.session.drain Staging.sink e.staging).2.1.packets.map _ = _
      rw [put, Staging.packets_putAll, List.map_append, ← List.append_assoc, h.balance]
      exact contents
    · exact made.channels.trans h.channels
    · -- The sink wants no more exactly when the queue is full.
      rcases last with all | enough
      · exact .inl all
      · right
        show (e.session.drain Staging.sink e.staging).2.1.isFull = true
        rw [put]
        simpa [Staging.sink] using enough

/-- After resuming analysis nothing is staged only if every block has been handed out. -/
theorem tracks_refill (sim : codec.Simulates lib rel) {e : Encoder lib} {v : View}
    {delivered : List Content} (h : e.Tracks codec rel v delivered) :
    ∃ handed, e.refill.1 = .ok () ∧ e.refill.2.Tracks codec rel { v with handed } delivered ∧
      (e.refill.2.staging.packets = [] → handed = (codec.blocks v.input).length) := by
  by_cases empty : e.staging.packets = []
  · rw [refill_of_empty empty]
    obtain ⟨handed, ok, tracks, last⟩ := tracks_drain sim h
    refine ⟨handed, ok, tracks, ?_⟩
    intro none
    rcases last with all | full
    · exact all
    · rw [tracks.charged.isFull_of_nil none] at full
      cases full
  · rw [refill_of_ne empty]
    exact ⟨v.handed, rfl, h, fun none => absurd none empty⟩

/-! ## Sending -/

theorem Tracks.anchor {e : Encoder lib} {v : View} {delivered : List Content}
    (h : e.Tracks codec rel v delivered) (time : Timestamp) :
    (e.anchor time).Tracks codec rel v delivered := by
  have options := (leadsTo_anchor e time).options
  constructor
  · rw [session_anchor]
    exact h.rel
  · exact h.idle
  · rw [ended_anchor]
    exact h.ended
  · rw [AgreesOnEnd, ended_anchor, session_anchor]
    exact h.agrees
  · exact h.handed
  · rw [staging_anchor]
    exact h.balance
  · rw [staging_anchor]
    exact h.charged
  · rw [session_anchor, options]
    exact h.channels

/-- Samples that have been written extend the input by their frame. -/
theorem Tracks.written {e : Encoder lib} {v : View} {delivered : List Content}
    (h : e.Tracks codec rel v delivered) {frame : Frame} (accepts : e.Accepts frame)
    {session : Session lib} (ended : session.ended = e.session.ended)
    (channels : session.channels = e.session.channels)
    (later : rel session.native { v with
      input := v.input.append
        ((List.range e.session.channels.toNat).map (vorbisSamples frame)) }) :
    Tracks codec rel
      { e.anchor frame.pts with session, samplesSent := e.samplesSent + frame.sampleCount }
      { v with input := v.input.feed e.options.channels.toNat [frame] } delivered := by
  have more := codec.blocks_append v.input
    ((List.range e.session.channels.toNat).map (vorbisSamples frame))
    (h.ended.trans accepts.ended)
  rw [h.channels, ← accepts.channels, Input.append_vorbisSamples, accepts.channels]
    at more later
  obtain ⟨bound, balance⟩ := h.extend more
  have options := (leadsTo_anchor e frame.pts).options
  have anchored := h.anchor frame.pts
  refine ⟨later, ⟨h.idle.working, h.idle.queue⟩, anchored.ended, ?_, bound, ?_, ?_, ?_⟩
  · exact (ended_anchor e frame.pts).trans (h.agrees.trans ended.symm)
  · rw [staging_anchor]
    exact balance
  · exact anchored.charged
  · rw [channels, options]
    exact h.channels

/-- A frame is refused, it holds more samples than can be told of at once, or it extends the
input. -/
theorem tracks_send (sim : codec.Simulates lib rel) {e : Encoder lib} {v : View}
    {delivered : List Content} (h : e.Tracks codec rel v delivered) (frame : Frame) :
    (∃ failure, e.refusal? frame = some failure ∧ e.send frame = (.error failure, e)) ∨
    (Session.maxCount < frame.sampleCount ∧
      (e.send frame).1 = .error (.tooManySamples frame.sampleCount)) ∨
    (e.Accepts frame ∧ ∃ e' handed, e.send frame = (.ok (), e') ∧
      e'.Tracks codec rel
        { v with input := v.input.feed e.options.channels.toNat [frame], handed } delivered) := by
  have anchored := h.anchor frame.pts
  rcases send_cases e frame with
    ⟨failure, refused, sent⟩ | ⟨taken, none, sent⟩ | ⟨failure, session, taken, some_, write, sent⟩ |
    ⟨session, taken, some_, write, sent⟩
  · exact .inl ⟨failure, refused, sent⟩
  · have accepts := refusal?_eq_none_iff.mp taken
    refine .inr (.inr ⟨accepts, _, v.handed, sent, ?_⟩)
    rw [Input.feed_of_sampleCount_eq_zero v.input _ none]
    exact anchored
  -- In both cases left there are samples, and the library has been asked to take them.
  all_goals
    have accepts := refusal?_eq_none_iff.mp taken
    have full : ∀ c < e.session.channels.toNat,
        (vorbisSamples frame c).length = frame.sampleCount := by
      rw [h.channels]
      intro c inRange
      exact accepts.length_vorbisSamples inRange
    have notEnded : e.session.ended = false := h.agrees.symm.trans accepts.ended
    have written := Session.write_view sim h.rel h.idle (h.ended.trans h.agrees) some_ full
    rw [write] at written
  · rcases written with ⟨_, same, ⟨already, -⟩ | ⟨many, rfl⟩⟩ | ⟨_, other, -⟩
    · rw [notEnded] at already
      cases already
    · cases same
      exact .inr (.inl ⟨many, by rw [sent]⟩)
    · cases other
  · rcases written with ⟨_, other, -⟩ | ⟨_, same, ended, channels, later⟩
    · cases other
    · cases same
      obtain ⟨handed, ok, tracks, -⟩ := tracks_drain sim (h.written accepts ended channels later)
      exact .inr (.inr ⟨accepts, _, handed, by rw [sent, ← ok], tracks⟩)

/-! ## Flushing -/

theorem tracks_flush (sim : codec.Simulates lib rel) {e : Encoder lib} {v : View}
    {delivered : List Content} (h : e.Tracks codec rel v delivered) :
    ∃ handed, e.flush.1 = .ok () ∧
      e.flush.2.Tracks codec rel { v with input := v.input.finish, handed } delivered := by
  obtain ⟨ok, ended, channels, later⟩ :=
    Session.signalEnd_view sim h.rel h.idle (h.ended.trans h.agrees)
  obtain ⟨bound, balance⟩ := h.extend (codec.blocks_finish v.input)
  rcases flush_cases e with ⟨past, flushed⟩ | ⟨_, _, -, failed, -⟩ | ⟨session, -, told, flushed⟩
  · -- The input has ended before, so the session is not told again.
    rw [Session.signalEnd_of_ended (h.agrees.symm.trans past)] at later
    have finished : e.Tracks codec rel { v with input := v.input.finish } delivered :=
      ⟨later, ⟨h.idle.working, h.idle.queue⟩, past.symm, h.agrees, bound, balance, h.charged,
        h.channels⟩
    obtain ⟨handed, ok, tracks, -⟩ := tracks_drain sim finished
    rw [flushed]
    exact ⟨handed, ok, tracks⟩
  · rw [failed] at ok
    cases ok
  · rw [told] at ended channels later
    have finished : Tracks codec rel { e with session, ended := true }
        { v with input := v.input.finish } delivered :=
      ⟨later, ⟨h.idle.working, h.idle.queue⟩, rfl, ended.symm, bound, balance, h.charged,
        channels.trans h.channels⟩
    obtain ⟨handed, ok, tracks, -⟩ := tracks_drain sim finished
    rw [flushed]
    exact ⟨handed, ok, tracks⟩

/-! ## Receiving -/

/-- Receiving delivers the next packet, or there is none left in the blocks so far. -/
theorem tracks_receive (sim : codec.Simulates lib rel) {e : Encoder lib} {v : View}
    {delivered : List Content} (h : e.Tracks codec rel v delivered) :
    ∃ handed,
      (∃ content e', e.receive = (.ok (e.clock.packet content), e') ∧
        e'.clock = e.clock.after content ∧ e'.options = e.options ∧
        e'.Tracks codec rel { v with handed } (delivered ++ [content])) ∨
      (∃ e', e.receive = (.error (if v.input.ended then .endOfStream else .tryAgain), e') ∧
        e'.clock = e.clock ∧ e'.options = e.options ∧ e'.staging.isFull = false ∧
        e'.Tracks codec rel { v with handed } delivered ∧
        delivered = (codec.blocks v.input).flatten) := by
  obtain ⟨handed, ok, tracks, last⟩ := tracks_refill sim h
  have led := leadsTo_refill e
  refine ⟨handed, ?_⟩
  rcases receive_cases e with
    ⟨_, failed, -⟩ | ⟨-, none, received⟩ | ⟨raw, rest, -, staged, received⟩
  · rw [failed] at ok
    cases ok
  · right
    have ended : v.input.ended = e.refill.2.ended := tracks.ended
    refine ⟨_, by rw [received, ended], clock_refill e, led.options,
      tracks.charged.isFull_of_nil none, tracks, ?_⟩
    -- With nothing staged, what was delivered are the packets of all blocks.
    have balance := tracks.balance
    rw [none, List.map_nil, List.append_nil, last none, List.take_length] at balance
    exact balance
  · left
    have balance := tracks.balance
    rw [staged, List.map_cons] at balance
    refine ⟨raw.content, e.refill.2.handOut raw rest, ?_, ?_, led.options, ?_⟩
    · rw [received, packetOf_eq, clock_refill]
    · rw [clock_handOut, clock_refill]
    · refine ⟨tracks.rel, tracks.idle, tracks.ended, tracks.agrees, tracks.handed, ?_,
        tracks.charged.rest staged, tracks.channels⟩
      rw [List.append_assoc]
      exact balance

/-! ## What the answers tell -/

/-- A frame that has been taken has extended the input. -/
theorem Tracks.sent (sim : codec.Simulates lib rel) {e e' : Encoder lib} {v : View}
    {delivered : List Content} (h : e.Tracks codec rel v delivered) {frame : Frame}
    (sent : e.send frame = (.ok (), e')) :
    ∃ handed, e'.options = e.options ∧ e'.Tracks codec rel
      { v with input := v.input.feed e.options.channels.toNat [frame], handed } delivered := by
  have led : e.LeadsTo (e.send frame).2 := leadsTo_after e (.send frame)
  rw [sent] at led
  rcases tracks_send sim h frame with ⟨_, -, other⟩ | ⟨-, other⟩ | ⟨-, _, handed, same, tracks⟩
  · rw [sent] at other
    cases other
  · rw [sent] at other
    cases other
  · rw [sent] at same
    cases same
    exact ⟨handed, led.options, tracks⟩

/-- A frame that is to be sent again has changed nothing. -/
theorem Tracks.eq_of_tryAgain (sim : codec.Simulates lib rel) {e e' : Encoder lib} {v : View}
    {delivered : List Content} (h : e.Tracks codec rel v delivered) {frame : Frame}
    (sent : e.send frame = (.error .tryAgain, e')) : e' = e := by
  rcases tracks_send sim h frame with ⟨_, -, same⟩ | ⟨-, other⟩ | ⟨-, _, _, other, -⟩
  · rw [sent] at same
    cases same
    rfl
  · rw [sent] at other
    cases other
  · rw [sent] at other
    cases other

/-- A packet that is received is stamped by the clock, which it moves. -/
theorem Tracks.received (sim : codec.Simulates lib rel) {e e' : Encoder lib} {v : View}
    {delivered : List Content} (h : e.Tracks codec rel v delivered) {packet : Packet}
    (received : e.receive = (.ok packet, e')) :
    ∃ content handed, packet = e.clock.packet content ∧ e'.clock = e.clock.after content ∧
      e'.options = e.options ∧
      e'.Tracks codec rel { v with handed } (delivered ++ [content]) := by
  obtain ⟨handed, ⟨content, _, same, after, options, tracks⟩ | ⟨_, other, -⟩⟩ :=
    tracks_receive sim h
  · rw [received] at same
    cases same
    exact ⟨content, handed, rfl, after, options, tracks⟩
  · rw [received] at other
    cases other

/-- If no packet is received, all packets of the blocks so far have been delivered. -/
theorem Tracks.nothing (sim : codec.Simulates lib rel) {e e' : Encoder lib} {v : View}
    {delivered : List Content} (h : e.Tracks codec rel v delivered) {failure : Failure}
    (received : e.receive = (.error failure, e')) :
    ∃ handed, failure = (if v.input.ended then .endOfStream else .tryAgain) ∧
      e'.clock = e.clock ∧ e'.options = e.options ∧
      e'.Tracks codec rel { v with handed } delivered ∧
      delivered = (codec.blocks v.input).flatten := by
  obtain ⟨handed, ⟨_, _, other, -⟩ | ⟨_, same, clock, options, -, tracks, all⟩⟩ :=
    tracks_receive sim h
  · rw [received] at other
    cases other
  · rw [received] at same
    cases same
    exact ⟨handed, rfl, clock, options, tracks, all⟩

end Encoder

end VorbisTrack
