import VorbisTrack.Encoder
import VorbisTrack.Proofs.Session.Released

/-!
# Runs of an encoder

An `Operation` is one of the four things a caller can do with an open encoder, in any order and
any number of times. `Encoder.after` is the encoder after an operation, whether it succeeded or
not, and `Encoder.afterAll` the one after a list of them.

Every operation is first taken apart into what it can do (`send_cases`, `flush_cases`,
`receive_cases`, `receiveInto_cases`). Proofs about runs go through these and never open the
operations again. Both ways of receiving come down to `Receives`.
-/

set_option autoImplicit false

namespace VorbisTrack

variable {σ : Type} {lib : Library σ}

/-! ## The queue -/

namespace Staging

/-- Packets that are taken in join the end of the queue. -/
theorem packets_putAll (packets : List RawPacket) (s : Staging) :
    (sink.putAll packets s).packets = s.packets ++ packets := by
  induction packets generalizing s with
  | nil => exact (List.append_nil _).symm
  | cons packet rest ih =>
    show (sink.putAll rest (s.push packet)).packets = _
    rw [ih, push, List.append_assoc, List.singleton_append]

/-- What packets cost together: 48 bytes and its data for each. -/
def totalCost : List RawPacket → Nat
  | [] => 0
  | packet :: rest => 48 + packet.data.length + totalCost rest

theorem totalCost_cons (packet : RawPacket) (rest : List RawPacket) :
    totalCost (packet :: rest) = cost packet + totalCost rest :=
  rfl

theorem totalCost_concat (packets : List RawPacket) (packet : RawPacket) :
    totalCost (packets ++ [packet]) = totalCost packets + cost packet := by
  induction packets with
  | nil => exact Nat.add_comm _ _
  | cons first rest ih =>
    rw [List.cons_append, totalCost_cons, totalCost_cons, ih, Nat.add_assoc]

/-- The queue is charged with what its packets cost. -/
def Charged (s : Staging) : Prop :=
  s.bytes = totalCost s.packets

theorem Charged.putAll {s : Staging} (h : s.Charged) (packets : List RawPacket) :
    (sink.putAll packets s).Charged := by
  induction packets generalizing s with
  | nil => exact h
  | cons packet rest ih =>
    apply ih
    show s.bytes + cost packet = totalCost (s.packets ++ [packet])
    rw [h, totalCost_concat]

/-- Handing out the oldest packet gives back what it cost. -/
theorem Charged.rest {s : Staging} (h : s.Charged) {packet : RawPacket} {rest : List RawPacket}
    (staged : s.packets = packet :: rest) :
    Charged { packets := rest, bytes := s.bytes - cost packet } := by
  show s.bytes - cost packet = totalCost rest
  rw [h, staged, totalCost_cons, Nat.add_sub_cancel_left]

/-- A queue without packets has room. -/
theorem Charged.isFull_of_nil {s : Staging} (h : s.Charged) (empty : s.packets = []) :
    s.isFull = false := by
  have free : s.bytes = 0 := by rw [h, empty, totalCost]
  rw [isFull, free]
  rfl

end Staging

namespace Encoder

inductive Operation
  | send (frame : Frame)
  | receive
  /-- Receiving into a buffer that holds these bytes. -/
  | receiveInto (buffer : Bytes)
  | flush

def after (e : Encoder lib) : Operation → Encoder lib
  | .send frame => (e.send frame).2
  | .receive => e.receive.2
  | .receiveInto buffer => (e.receiveInto buffer).2.2
  | .flush => e.flush.2

/-- The encoder after operations, the first of the list first. -/
def afterAll (e : Encoder lib) (operations : List Operation) : Encoder lib :=
  operations.foldl after e

@[simp] theorem afterAll_cons (e : Encoder lib) (operation : Operation)
    (rest : List Operation) : e.afterAll (operation :: rest) = (e.after operation).afterAll rest :=
  rfl

/-! ## Opening -/

/-- Settings for a mono stream at 8 kHz. A tick is a sample. -/
def monoSettings : Settings :=
  { codec := "vorbis"
    rate := 8000
    channels := 1
    bitRate := 32000
    chosenTimeBase := some ⟨1, 8000⟩ }

def monoFrame (count : Nat) (pts : Timestamp := .unknown) : Frame :=
  { Frame.ofInterleaved (List.replicate count 0) 8000 1 with pts }

/-- An encoder is open once its settings have been resolved, its session is open and the library
has made the header packets. -/
theorem open_eq_ok_iff {settings : Settings} {e : Encoder lib} {trace : List Event} :
    Encoder.open lib settings = (.ok e, trace) ↔
      settings.timeBase.isTimeBase = true ∧
        ∃ options started headers session, EncodingOptions.resolve settings = .ok options ∧
          Session.open lib options = (.ok (), started) ∧
          started.headerPackets (tags options) = (.ok headers, session) ∧
          e = { session, options, headers, extradata := headers.toExtradata,
                timeBase := settings.timeBase, streamIndex := settings.streamIndex } ∧
          trace = session.trace := by
  unfold «open»
  constructor
  · intro h
    split at h
    · simp at h
    · next valid =>
      refine ⟨by simpa using valid, ?_⟩
      split at h
      · simp at h
      · next options resolved =>
        split at h
        · simp at h
        · next started opened =>
          split at h
          · simp at h
          · next headers session made =>
            simp only [Prod.mk.injEq, Except.ok.injEq] at h
            exact ⟨options, started, headers, session, resolved, opened, made, h.1.symm,
              h.2.symm⟩
  · rintro ⟨valid, options, started, headers, session, resolved, opened, made, rfl, rfl⟩
    simp only [valid, not_true, if_false, resolved, opened, made]

/-- Opening an encoder makes no call at all, or it sets a session up and gives it back unless it
succeeds. -/
theorem open_cases (lib : Library σ) (settings : Settings) :
    (∃ failure, Encoder.open lib settings = (.error failure, [])) ∨
    ∃ options s, (Session.unused lib options).Makes .setup s ∧
      ((∃ failure, Encoder.open lib settings = (.error failure, s.release.trace)) ∨
        ∃ e, Encoder.open lib settings = (.ok e, s.trace) ∧ e.session = s) := by
  unfold «open»
  split
  · exact .inl ⟨_, rfl⟩
  · split
    · exact .inl ⟨_, rfl⟩
    · next options _ =>
      -- The settings hold, so the library is called. From here on, every way out has made only
      -- calls of the setup, and every failure gives back what was set up.
      right
      obtain ⟨s, set, opened | ⟨failure, opened⟩⟩ := Session.open_cases lib options
      · have made := Session.makes_headerPackets s (tags options)
        rw [opened]
        simp only
        split
        · next failure s' failed =>
          rw [failed] at made
          exact ⟨options, s', set.trans made, .inl ⟨failure, rfl⟩⟩
        · next headers s' succeeded =>
          rw [succeeded] at made
          exact ⟨options, s', set.trans made, .inr ⟨_, rfl, rfl⟩⟩
      · rw [opened]
        exact ⟨options, s, set, .inl ⟨failure, rfl⟩⟩

/-- An encoder that has just been opened has only been set up. -/
theorem makes_of_open {settings : Settings} {e : Encoder lib} {trace : List Event}
    (opened : Encoder.open lib settings = (.ok e, trace)) :
    (Session.unused lib e.options).Makes .setup e.session := by
  obtain ⟨-, options, started, headers, session, -, first, made, rfl, -⟩ := open_eq_ok_iff.mp opened
  have second := Session.makes_headerPackets started (tags options)
  rw [made] at second
  exact (Session.makes_open first).trans second

/-- An encoder that has just been opened can be sent samples. -/
theorem running_of_open {settings : Settings} {e : Encoder lib} {trace : List Event}
    (opened : Encoder.open lib settings = (.ok e, trace)) :
    e.session.ended = false ∧ e.session.channels = e.options.channels :=
  ⟨(makes_of_open opened).ended, (makes_of_open opened).channels⟩

/-! ## What each operation does -/

def handOut (e : Encoder lib) (raw : RawPacket) (rest : List RawPacket) : Encoder lib :=
  { e with
    staging := { packets := rest, bytes := e.staging.bytes - Staging.cost raw }
    position := max raw.granule e.position }

theorem drain_of_isFull {e : Encoder lib} (full : e.staging.isFull = true) :
    e.drain = (.ok (), e) := by
  rw [drain, if_pos full]

theorem drain_of_not_isFull {e : Encoder lib} (room : e.staging.isFull = false) :
    e.drain =
      ((e.session.drain Staging.sink e.staging).1,
        { e with
          staging := (e.session.drain Staging.sink e.staging).2.1
          session := (e.session.drain Staging.sink e.staging).2.2 }) := by
  rw [drain, if_neg (by simp [room])]

theorem refill_of_empty {e : Encoder lib} (empty : e.staging.packets = []) :
    e.refill = e.drain := by
  rw [refill, if_pos (by simp [empty])]

theorem refill_of_ne {e : Encoder lib} (staged : e.staging.packets ≠ []) :
    e.refill = (.ok (), e) := by
  rw [refill, if_neg (by simpa using staged)]

/-! Fixing the start changes nothing else. -/

@[simp] theorem session_anchor (e : Encoder lib) (time : Timestamp) :
    (e.anchor time).session = e.session := by
  unfold anchor
  split <;> rfl

@[simp] theorem staging_anchor (e : Encoder lib) (time : Timestamp) :
    (e.anchor time).staging = e.staging := by
  unfold anchor
  split <;> rfl

@[simp] theorem ended_anchor (e : Encoder lib) (time : Timestamp) :
    (e.anchor time).ended = e.ended := by
  unfold anchor
  split <;> rfl

@[simp] theorem samplesSent_anchor (e : Encoder lib) (time : Timestamp) :
    (e.anchor time).samplesSent = e.samplesSent := by
  unfold anchor
  split <;> rfl

theorem isSome_start_anchor (e : Encoder lib) (time : Timestamp) :
    (e.anchor time).start.isSome = true := by
  unfold anchor
  split
  · next started => rw [started, Option.isSome_some]
  · rfl

/-- Sending a frame refuses it, only fixes the start, fails to write it, or writes it and runs
analysis. -/
theorem send_cases (e : Encoder lib) (frame : Frame) :
    (∃ failure, e.refusal? frame = some failure ∧ e.send frame = (.error failure, e)) ∨
    (e.refusal? frame = none ∧ frame.sampleCount = 0 ∧
      e.send frame = (.ok (), e.anchor frame.pts)) ∨
    (∃ failure session, e.refusal? frame = none ∧ frame.sampleCount ≠ 0 ∧
      e.session.write frame.sampleCount (vorbisSamples frame) = (.error failure, session) ∧
      e.send frame = (.error failure, { e.anchor frame.pts with session })) ∨
    (∃ session, e.refusal? frame = none ∧ frame.sampleCount ≠ 0 ∧
      e.session.write frame.sampleCount (vorbisSamples frame) = (.ok (), session) ∧
      e.send frame =
        drain
          { e.anchor frame.pts with
            session, samplesSent := e.samplesSent + frame.sampleCount }) := by
  cases refused : e.refusal? frame with
  | some failure => exact .inl ⟨failure, rfl, by simp only [send, refused]⟩
  | none =>
    right
    by_cases none : frame.sampleCount = 0
    · exact .inl ⟨rfl, none, by simp only [send, refused, none, if_true]⟩
    · right
      cases written : e.session.write frame.sampleCount (vorbisSamples frame) with
      | mk result session =>
        cases result with
        | error failure =>
          refine .inl ⟨failure, session, rfl, none, rfl, ?_⟩
          simp only [send, refused, none, if_false, session_anchor, samplesSent_anchor, written]
        | ok =>
          refine .inr ⟨session, rfl, none, rfl, ?_⟩
          simp only [send, refused, none, if_false, session_anchor, samplesSent_anchor, written]

/-- Flushing only runs analysis once the input has ended. Before that, it fails to end the input, or
ends it and runs analysis. -/
theorem flush_cases (e : Encoder lib) :
    (e.ended = true ∧ e.flush = e.drain) ∨
    (∃ failure session, e.ended = false ∧ e.session.signalEnd = (.error failure, session) ∧
      e.flush = (.error failure, { e with session })) ∨
    (∃ session, e.ended = false ∧ e.session.signalEnd = (.ok (), session) ∧
      e.flush = drain { e with session, ended := true }) := by
  by_cases ended : e.ended = true
  · exact .inl ⟨ended, if_pos ended⟩
  · right
    have flushed : e.flush = _ := if_neg ended
    have going := Bool.not_eq_true _ |>.mp ended
    cases told : e.session.signalEnd with
    | mk result session =>
      rw [told] at flushed
      cases result with
      | error failure => exact .inl ⟨failure, session, going, rfl, flushed⟩
      | ok => exact .inr ⟨session, going, rfl, flushed⟩

theorem receive_of_nothing {e : Encoder lib} (ok : e.refill.1 = .ok ())
    (none : e.refill.2.staging.packets = []) :
    e.receive = (.error (if e.refill.2.ended then .endOfStream else .tryAgain), e.refill.2) := by
  have refilled : e.refill = (.ok (), e.refill.2) := Prod.ext ok rfl
  rw [receive, refilled]
  simp only [Staging.pop?, none]

theorem receive_of_refill {e : Encoder lib} (ok : e.refill.1 = .ok ()) {raw : RawPacket}
    {rest : List RawPacket} (staged : e.refill.2.staging.packets = raw :: rest) :
    e.receive = (.ok (e.refill.2.packetOf raw), e.refill.2.handOut raw rest) := by
  have refilled : e.refill = (.ok (), e.refill.2) := Prod.ext ok rfl
  rw [receive, refilled]
  simp only [Staging.pop?, staged, handOut]

/-- A packet that is staged is received without a call. -/
theorem receive_of_staged {e : Encoder lib} {raw : RawPacket} {rest : List RawPacket}
    (staged : e.staging.packets = raw :: rest) :
    e.receive = (.ok (e.packetOf raw), e.handOut raw rest) := by
  have same : e.refill = (.ok (), e) := refill_of_ne (by simp [staged])
  have received := receive_of_refill (e := e) (by rw [same]) (by rw [same]; exact staged)
  rwa [same] at received

/-- Receiving fails to resume analysis, finds nothing staged, or hands out the oldest packet. -/
theorem receive_cases (e : Encoder lib) :
    (∃ failure, e.refill.1 = .error failure ∧ e.receive = (.error failure, e.refill.2)) ∨
    (e.refill.1 = .ok () ∧ e.refill.2.staging.packets = [] ∧
      e.receive =
        (.error (if e.refill.2.ended then .endOfStream else .tryAgain), e.refill.2)) ∨
    (∃ raw rest, e.refill.1 = .ok () ∧ e.refill.2.staging.packets = raw :: rest ∧
      e.receive = (.ok (e.refill.2.packetOf raw), e.refill.2.handOut raw rest)) := by
  cases ok : e.refill.1 with
  | error failure =>
    have refilled : e.refill = (.error failure, e.refill.2) := Prod.ext ok rfl
    refine .inl ⟨failure, rfl, ?_⟩
    rw [receive, refilled]
  | ok =>
    right
    cases staged : e.refill.2.staging.packets with
    | nil => exact .inl ⟨rfl, rfl, receive_of_nothing ok staged⟩
    | cons raw rest => exact .inr ⟨raw, rest, rfl, rfl, receive_of_refill ok staged⟩

/-- Receiving into a buffer fails to resume analysis, finds nothing staged, finds the packet too
large, or hands the packet out into the buffer. -/
theorem receiveInto_cases (e : Encoder lib) (buffer : Bytes) :
    (∃ failure, e.refill.1 = .error failure ∧
      e.receiveInto buffer = (.error failure, buffer, e.refill.2)) ∨
    (e.refill.1 = .ok () ∧ e.refill.2.staging.packets = [] ∧
      e.receiveInto buffer = (.ok 0, buffer, e.refill.2)) ∨
    (∃ raw rest, e.refill.1 = .ok () ∧ e.refill.2.staging.packets = raw :: rest ∧
      buffer.length < raw.data.length ∧
      e.receiveInto buffer =
        (.error (.bufferTooSmall raw.data.length buffer.length), buffer, e.refill.2)) ∨
    (∃ raw rest, e.refill.1 = .ok () ∧ e.refill.2.staging.packets = raw :: rest ∧
      raw.data.length ≤ buffer.length ∧
      e.receiveInto buffer =
        (.ok raw.data.length, raw.data ++ buffer.drop raw.data.length,
          e.refill.2.handOut raw rest)) := by
  cases refilled : e.refill with
  | mk result e' =>
    cases result with
    | error failure => exact .inl ⟨failure, rfl, by simp only [receiveInto, refilled]⟩
    | ok =>
      right
      cases staged : e'.staging.packets with
      | nil => exact .inl ⟨rfl, rfl, by simp only [receiveInto, refilled, staged]⟩
      | cons raw rest =>
        right
        by_cases small : buffer.length < raw.data.length
        · exact .inl ⟨raw, rest, rfl, rfl, small, by
            simp only [receiveInto, refilled, staged, small, if_true]⟩
        · -- The packet fits, so it is received as usual. Nothing is resumed for it again.
          refine .inr ⟨raw, rest, rfl, rfl, by omega, ?_⟩
          simp only [receiveInto, refilled, staged, small, if_false, receive_of_staged staged]
          rfl

/-! ## What operations hand out -/

/-- The data that an operation hands to the caller. Receiving into a buffer answers zero both when
nothing is staged, and then it hands out nothing, and for a packet without data. -/
def handedOut (e : Encoder lib) : Operation → List Bytes
  | .send _ | .flush => []
  | .receive =>
    match e.receive.1 with
    | .ok packet => [packet.data]
    | .error _ => []
  | .receiveInto buffer =>
    match e.receiveInto buffer with
    | (.ok size, filled, _) =>
      if e.refill.2.staging.packets.isEmpty then [] else [filled.take size]
    | (.error _, _, _) => []

/-- The packets that an operation receives. Receiving into a buffer receives the packet whose data
it copies. -/
def received (e : Encoder lib) : Operation → List Packet
  | .send _ | .flush => []
  | .receive =>
    match e.receive.1 with
    | .ok packet => [packet]
    | .error _ => []
  | .receiveInto buffer =>
    match (e.receiveInto buffer).1, e.receive.1 with
    | .ok _, .ok packet => [packet]
    | _, _ => []

/-- Receiving, into a buffer or not, refills the queue. Then it hands out nothing, or the packet at
the front. -/
inductive Receives (e : Encoder lib) (operation : Operation) : Prop
  | nothing (after : e.after operation = e.refill.2) (data : e.handedOut operation = [])
      (received : e.received operation = [])
  | front {raw : RawPacket} {rest : List RawPacket}
      (staged : e.refill.2.staging.packets = raw :: rest)
      (after : e.after operation = e.refill.2.handOut raw rest)
      (data : e.handedOut operation = [raw.data])
      (received : e.received operation = [e.refill.2.packetOf raw])

theorem receives_receive (e : Encoder lib) : e.Receives .receive := by
  rcases receive_cases e with
    ⟨_, -, received⟩ | ⟨-, -, received⟩ | ⟨raw, rest, -, staged, received⟩
  · apply Receives.nothing
    all_goals simp only [Encoder.received, handedOut, after, received]
  · apply Receives.nothing
    all_goals simp only [Encoder.received, handedOut, after, received]
  · apply Receives.front staged
    all_goals simp only [Encoder.received, handedOut, after, received]
    rfl

theorem receives_receiveInto (e : Encoder lib) (buffer : Bytes) :
    e.Receives (.receiveInto buffer) := by
  rcases receiveInto_cases e buffer with
    ⟨_, -, received⟩ | ⟨ok, none, received⟩ | ⟨_, _, -, -, -, received⟩ |
    ⟨raw, rest, ok, staged, -, received⟩
  · apply Receives.nothing
    all_goals simp only [Encoder.received, handedOut, after, received]
  · -- The answer is zero because nothing was staged after the refill.
    apply Receives.nothing
    all_goals simp only [Encoder.received, handedOut, after, received, none,
      receive_of_nothing ok none, List.isEmpty_nil, if_true]
  · apply Receives.nothing
    all_goals simp only [Encoder.received, handedOut, after, received]
  · apply Receives.front staged
    all_goals simp [Encoder.received, handedOut, after, received, staged,
      receive_of_refill ok staged]

/-- Handing a packet out makes no call. -/
theorem Receives.session {e : Encoder lib} {operation : Operation} (h : e.Receives operation) :
    (e.after operation).session = e.refill.2.session := by
  cases h with
  | nothing after => rw [after]
  | front _ after =>
    rw [after]
    rfl

/-! ## What operations keep -/

/-- A frame is only taken while the input goes on. -/
theorem ended_of_refusal?_eq_none {e : Encoder lib} {frame : Frame}
    (taken : e.refusal? frame = none) : e.ended = false := by
  cases ended : e.ended with
  | false => rfl
  | true => simp [refusal?, ended] at taken

section Keeps

variable {P : Encoder lib → Prop} {e : Encoder lib}

theorem send_keeps (anchor : ∀ e time, e.ended = false → P e → P (e.anchor time))
    (write : ∀ e count fill, count ≠ 0 → e.start.isSome = true → P e →
      P { e with session := (e.session.write count fill).2 })
    (count : ∀ e samplesSent, P e → P { e with samplesSent }) (drain : ∀ e, P e → P e.drain.2)
    (h : P e) (frame : Frame) : P (e.send frame).2 := by
  have anchored (taken : e.refusal? frame = none) :=
    anchor e frame.pts (ended_of_refusal?_eq_none taken) h
  have written (taken : e.refusal? frame = none) (some_ : frame.sampleCount ≠ 0) :=
    write (e.anchor frame.pts) frame.sampleCount (vorbisSamples frame) some_
      (isSome_start_anchor ..) (anchored taken)
  rw [session_anchor] at written
  rcases send_cases e frame with
    ⟨_, -, sent⟩ | ⟨taken, -, sent⟩ | ⟨_, _, taken, some_, wrote, sent⟩ |
    ⟨_, taken, some_, wrote, sent⟩
  · rwa [sent]
  · rw [sent]
    exact anchored taken
  · have kept := written taken some_
    rw [wrote] at kept
    rwa [sent]
  · have kept := written taken some_
    rw [wrote] at kept
    rw [sent]
    exact drain _ (count _ _ kept)

theorem flush_keeps
    (signalEnd : ∀ e, e.ended = false → P e →
      P { e with session := e.session.signalEnd.2, ended := e.session.signalEnd.1.isOk })
    (drain : ∀ e, P e → P e.drain.2) (h : P e) : P e.flush.2 := by
  rcases flush_cases e with
    ⟨-, flushed⟩ | ⟨_, session, going, told, flushed⟩ | ⟨session, going, told, flushed⟩
  · rw [flushed]
    exact drain e h
  · have signalled := signalEnd e going h
    have same : ({ e with session } : Encoder lib) = { e with session, ended := false } := by
      rw [← going]
    rw [told] at signalled
    rw [flushed, same]
    exact signalled
  · have signalled := signalEnd e going h
    rw [told] at signalled
    rw [flushed]
    exact drain _ signalled

/-- Both ways of receiving first run analysis again if nothing is staged. -/
theorem Receives.keeps (drain : ∀ e, P e → P e.drain.2)
    (handOut : ∀ e raw rest, e.staging.packets = raw :: rest → P e → P (e.handOut raw rest))
    (h : P e) {operation : Operation} (receives : e.Receives operation) :
    P (e.after operation) := by
  have refilled : P e.refill.2 := by
    by_cases empty : e.staging.packets = []
    · rw [refill_of_empty empty]
      exact drain e h
    · rwa [refill_of_ne empty]
  cases receives with
  | nothing after => rwa [after]
  | front staged after =>
    rw [after]
    exact handOut _ _ _ staged refilled

/-- Every operation is made up of a few steps: fixing the start while the input goes on, writing and
counting samples once the start is fixed, ending the input, running analysis and handing a packet
out. What these keep, the operation keeps. -/
theorem after_keeps (anchor : ∀ e time, e.ended = false → P e → P (e.anchor time))
    (write : ∀ e count fill, count ≠ 0 → e.start.isSome = true → P e →
      P { e with session := (e.session.write count fill).2 })
    (count : ∀ e samplesSent, P e → P { e with samplesSent })
    (signalEnd : ∀ e, e.ended = false → P e →
      P { e with session := e.session.signalEnd.2, ended := e.session.signalEnd.1.isOk })
    (drain : ∀ e, P e → P e.drain.2)
    (handOut : ∀ e raw rest, e.staging.packets = raw :: rest → P e → P (e.handOut raw rest))
    (h : P e) (operation : Operation) : P (e.after operation) := by
  cases operation with
  | send frame => exact send_keeps anchor write count drain h frame
  | flush => exact flush_keeps signalEnd drain h
  | receive => exact (receives_receive e).keeps drain handOut h
  | receiveInto buffer => exact (receives_receiveInto e buffer).keeps drain handOut h

end Keeps

/-- What every operation keeps, a run keeps. -/
theorem afterAll_keeps {P : Encoder lib → Prop}
    (step : ∀ e, P e → ∀ operation, P (e.after operation)) (operations : List Operation)
    {e : Encoder lib} (h : P e) : P (e.afterAll operations) := by
  induction operations generalizing e with
  | nil => exact h
  | cons operation rest ih => exact ih (step e h operation)

theorem charged_drain {e : Encoder lib} (h : e.staging.Charged) : e.drain.2.staging.Charged := by
  cases full : e.staging.isFull with
  | true => rwa [drain_of_isFull full]
  | false =>
    obtain ⟨packets, -, put⟩ := Session.drain_released Staging.sink e.staging e.session
    rw [drain_of_not_isFull full]
    show (e.session.drain Staging.sink e.staging).2.1.Charged
    rw [put]
    exact h.putAll packets

theorem charged_refill {e : Encoder lib} (h : e.staging.Charged) :
    e.refill.2.staging.Charged := by
  by_cases empty : e.staging.packets = []
  · rw [refill_of_empty empty]
    exact charged_drain h
  · rwa [refill_of_ne empty]

/-- The queue stays charged with what its packets cost, whatever is done. -/
theorem charged_after {e : Encoder lib} (h : e.staging.Charged) (operation : Operation) :
    (e.after operation).staging.Charged := by
  apply after_keeps (P := fun e => e.staging.Charged) ?_ ?_ ?_ ?_ ?_ ?_ h operation
  · intro e time _ charged
    rwa [staging_anchor]
  · intro _ _ _ _ _ charged
    exact charged
  · intro _ _ charged
    exact charged
  · intro _ _ charged
    exact charged
  · intro _ charged
    exact charged_drain charged
  · intro _ _ _ staged charged
    exact charged.rest staged

theorem charged_afterAll (operations : List Operation) {e : Encoder lib}
    (charged : e.staging.Charged) : (e.afterAll operations).staging.Charged :=
  afterAll_keeps (P := fun e => e.staging.Charged) (fun _ h => charged_after h) operations charged

/-- Nothing is staged at first, and nothing is charged. -/
theorem charged_of_open {settings : Settings} {e : Encoder lib} {trace : List Event}
    (opened : Encoder.open lib settings = (.ok e, trace)) : e.staging.Charged := by
  obtain ⟨-, options, started, headers, session, -, -, -, rfl, -⟩ := open_eq_ok_iff.mp opened
  rfl

/-! ## What an operation leaves alone -/

/-- The encoder `e'` comes from `e` by calls of the library, with the same setup. -/
structure LeadsTo (e e' : Encoder lib) : Prop where
  session : e.session.LeadsTo e'.session
  options : e'.options = e.options
  timeBase : e'.timeBase = e.timeBase
  streamIndex : e'.streamIndex = e.streamIndex

namespace LeadsTo

theorem refl (e : Encoder lib) : e.LeadsTo e :=
  ⟨.refl _, rfl, rfl, rfl⟩

theorem trans {e e' e'' : Encoder lib} (first : e.LeadsTo e') (second : e'.LeadsTo e'') :
    e.LeadsTo e'' :=
  ⟨first.session.trans second.session, second.options.trans first.options,
    second.timeBase.trans first.timeBase, second.streamIndex.trans first.streamIndex⟩

end LeadsTo

/-! Getting packets out only asks for them. -/

theorem makes_drain (e : Encoder lib) : e.session.Makes .output e.drain.2.session := by
  cases full : e.staging.isFull with
  | true =>
    rw [drain_of_isFull full]
    exact .refl .output e.session
  | false =>
    rw [drain_of_not_isFull full]
    exact Session.makes_drain ..

theorem makes_refill (e : Encoder lib) : e.session.Makes .output e.refill.2.session := by
  by_cases empty : e.staging.packets = []
  · rw [refill_of_empty empty]
    exact makes_drain e
  · rw [refill_of_ne empty]
    exact .refl .output e.session

theorem makes_receive (e : Encoder lib) : e.session.Makes .output e.receive.2.session := by
  have same : e.receive.2.session = e.refill.2.session := (receives_receive e).session
  rw [same]
  exact makes_refill e

theorem leadsTo_drain (e : Encoder lib) : e.LeadsTo e.drain.2 := by
  refine ⟨(makes_drain e).leadsTo, ?_, ?_, ?_⟩
  all_goals
    unfold drain
    split <;> rfl

theorem leadsTo_anchor (e : Encoder lib) (time : Timestamp) : e.LeadsTo (e.anchor time) := by
  unfold anchor
  split <;> exact ⟨.refl _, rfl, rfl, rfl⟩

theorem leadsTo_refill (e : Encoder lib) : e.LeadsTo e.refill.2 := by
  by_cases empty : e.staging.packets = []
  · rw [refill_of_empty empty]
    exact leadsTo_drain e
  · rw [refill_of_ne empty]
    exact .refl e

theorem leadsTo_after (e : Encoder lib) (operation : Operation) :
    e.LeadsTo (e.after operation) := by
  apply after_keeps (P := fun e' => e.LeadsTo e') ?_ ?_ ?_ ?_ ?_ ?_ (.refl e) operation
  · intro e' time _ led
    exact led.trans (leadsTo_anchor e' time)
  · intro e' count fill _ _ led
    have written := (Session.makes_write e'.session count fill).leadsTo
    exact led.trans ⟨written, rfl, rfl, rfl⟩
  · intro e' _ led
    exact led.trans ⟨.refl e'.session, rfl, rfl, rfl⟩
  · intro e' _ led
    exact led.trans ⟨Session.leadsTo_signalEnd e'.session, rfl, rfl, rfl⟩
  · intro e' led
    exact led.trans (leadsTo_drain e')
  · intro e' _ _ _ led
    exact led.trans ⟨.refl e'.session, rfl, rfl, rfl⟩

theorem leadsTo_afterAll (e : Encoder lib) (operations : List Operation) :
    e.LeadsTo (e.afterAll operations) :=
  afterAll_keeps (P := fun e' => e.LeadsTo e')
    (fun e' led operation => led.trans (leadsTo_after e' operation)) operations (.refl e)

/-! ## What is noted of the end -/

/-- The encoder and its session agree on whether the input has ended. -/
def AgreesOnEnd (e : Encoder lib) : Prop :=
  e.ended = e.session.ended

@[simp] theorem ended_drain (e : Encoder lib) : e.drain.2.ended = e.ended := by
  unfold drain
  split <;> rfl

@[simp] theorem ended_refill (e : Encoder lib) : e.refill.2.ended = e.ended := by
  unfold refill
  split
  · exact ended_drain e
  · rfl

/-- Receiving does not end the input. -/
theorem Receives.ended {e : Encoder lib} {operation : Operation} (h : e.Receives operation) :
    (e.after operation).ended = e.ended := by
  cases h with
  | nothing after => rw [after, ended_refill]
  | front _ after =>
    rw [after]
    exact ended_refill e

theorem ended_receive (e : Encoder lib) : e.receive.2.ended = e.ended :=
  (receives_receive e).ended

theorem AgreesOnEnd.drain {e : Encoder lib} (h : e.AgreesOnEnd) : e.drain.2.AgreesOnEnd := by
  rw [AgreesOnEnd, ended_drain, (makes_drain e).ended]
  exact h

theorem agreesOnEnd_after {e : Encoder lib} (h : e.AgreesOnEnd) (operation : Operation) :
    (e.after operation).AgreesOnEnd := by
  apply after_keeps (P := AgreesOnEnd) ?_ ?_ ?_ ?_ (fun _ agrees => agrees.drain) ?_ h operation
  · intro e time _ agrees
    rw [AgreesOnEnd, ended_anchor, session_anchor]
    exact agrees
  · intro e count fill _ _ agrees
    exact agrees.trans (Session.makes_write e.session count fill).ended.symm
  · intro _ _ agrees
    exact agrees
  · intro e going agrees
    show e.session.signalEnd.1.isOk = e.session.signalEnd.2.ended
    cases told : e.session.signalEnd with
    | mk result session =>
      cases result with
      | error failure =>
        -- The library has refused, so the input goes on for both.
        exact (agrees.symm.trans going).symm.trans (Session.ended_of_signalEnd_error told).symm
      | ok => exact (Session.ended_of_signalEnd told).symm
  · intro _ _ _ _ agrees
    exact agrees

theorem agreesOnEnd_of_open {settings : Settings} {e : Encoder lib} {trace : List Event}
    (opened : Encoder.open lib settings = (.ok e, trace)) : e.AgreesOnEnd := by
  rw [AgreesOnEnd, (running_of_open opened).1]
  obtain ⟨-, options, started, headers, session, -, -, -, rfl, -⟩ := open_eq_ok_iff.mp opened
  rfl

theorem agreesOnEnd_afterAll (operations : List Operation) {e : Encoder lib}
    (h : e.AgreesOnEnd) : (e.afterAll operations).AgreesOnEnd :=
  afterAll_keeps (P := AgreesOnEnd) (fun _ h => agreesOnEnd_after h) operations h

end Encoder

end VorbisTrack
