import VorbisTrack.Proofs.Encoder.Contiguity
import VorbisTrack.Proofs.Encoder.Exhaustion

/-!
# Receiving into a buffer

Receiving into a buffer is receiving, with another way of handing the data over: it has the same
four outcomes, and in each of them it leaves the encoder as receiving does (`Encoder.ReceivesInto`),
except that a packet that does not fit stays at the front of the queue. There it is safe. Whatever
is done until it is received, it comes as the same packet, and only fixing the start can still move
its times (`Encoder.Keeps`).
-/

set_option autoImplicit false

namespace VorbisTrack

variable {σ : Type} {lib : Library σ}

/-! ## Packets that wait -/

/-- A packet that has one time is not changed by this time. -/
theorem Packet.stamped_pts (packet : Packet) (same : packet.dts = packet.pts) :
    packet.stamped packet.pts = packet := by
  obtain ⟨stream, media, data, pts, dts, duration, isKey, isConfig⟩ := packet
  cases same
  rfl

namespace Clock

/-- Clocks that differ in the start alone stamp packets alike, but for the start. -/
theorem packet_of_startingAt {clock other : Clock}
    (same : other.startingAt 0 = clock.startingAt 0) (content : Content) :
    other.packet content =
      (clock.packet content).stamped
        ⟨(clock.packet content).pts.ticks + (other.start.getD 0 - clock.start.getD 0)⟩ := by
  obtain ⟨rate, timeBase, streamIndex, start, position⟩ := clock
  obtain ⟨rate', timeBase', streamIndex', start', position'⟩ := other
  simp only [startingAt, Clock.mk.injEq] at same
  obtain ⟨rfl, rfl, rfl, -, rfl⟩ := same
  simp only [packet, Packet.stamped, ticksAt, after]
  generalize (Timestamp.rescale ⟨position'⟩ (.perSample rate') timeBase').ticks = ticks
  have moved (ticks : Int64) :
      ticks + start'.getD 0 = ticks + start.getD 0 + (start'.getD 0 - start.getD 0) := by
    grind
  rw [moved]

end Clock

namespace Encoder

variable {e : Encoder lib}

/-- Operations that hand nothing out move nothing of the clock but its start. -/
theorem startingAt_afterAll {operations : List Operation}
    (nothing : e.handedOutAll operations = []) (time : Int64) :
    (e.afterAll operations).clock.startingAt time = e.clock.startingAt time := by
  induction operations generalizing e with
  | nil => rfl
  | cons operation rest ih =>
    rw [handedOutAll, List.append_eq_nil_iff] at nothing
    obtain ⟨taken, takes⟩ := exists_takes e operation
    have none : taken = [] := by
      rw [← List.map_eq_nil_iff (f := RawPacket.data), takes.data]
      exact nothing.1
    rw [afterAll_cons, ih nothing.2, takes.clock, none]
    rfl

/-- The packet at the front of the queue waits for as long as nothing is handed out. When it is
received, it is the packet it has been all the time, but for the start. -/
theorem receive_afterAll {raw : RawPacket} {rest : List RawPacket}
    (staged : e.staging.packets = raw :: rest) {operations : List Operation}
    (nothing : e.handedOutAll operations = []) :
    (e.afterAll operations).receive.1 = .ok ((e.packetOf raw).stamped
      ⟨(e.packetOf raw).pts.ticks
        + ((e.afterAll operations).start.getD 0 - e.start.getD 0)⟩) := by
  obtain ⟨taken, data, released, -, balance⟩ := conserves_afterAll operations e
  have none : taken = [] := by
    rw [← List.map_eq_nil_iff (f := RawPacket.data), data]
    exact nothing
  rw [none, List.nil_append, staged, List.cons_append] at balance
  rw [receive_of_staged balance, packetOf_eq,
    Clock.packet_of_startingAt (startingAt_afterAll nothing 0)]
  rfl

/-! ## One call -/

/-- Receiving, and receiving into a buffer, with the same outcome: analysis fails, there is nothing
to receive, or there is a packet, which is too large for the buffer or fits. -/
inductive ReceivesInto (e : Encoder lib) (buffer : Bytes) : Prop
  | fails {failure : Failure} (ofLibrary : failure.IsOfLibrary)
      (received : e.receive = (.error failure, e.refill.2))
      (into : e.receiveInto buffer = (.error failure, buffer, e.refill.2))
  | nothing {failure : Failure} (which : failure = .tryAgain ∨ failure = .endOfStream)
      (empty : e.refill.2.staging.packets = [])
      (received : e.receive = (.error failure, e.refill.2))
      (into : e.receiveInto buffer = (.ok 0, buffer, e.refill.2))
  | small {raw : RawPacket} {rest : List RawPacket}
      (staged : e.refill.2.staging.packets = raw :: rest)
      (large : buffer.length < raw.data.length)
      (received : e.receive = (.ok (e.refill.2.packetOf raw), e.refill.2.handOut raw rest))
      (into : e.receiveInto buffer =
        (.error (.bufferTooSmall raw.data.length buffer.length), buffer, e.refill.2))
  | fits {raw : RawPacket} {rest : List RawPacket}
      (staged : e.refill.2.staging.packets = raw :: rest)
      (room : raw.data.length ≤ buffer.length)
      (received : e.receive = (.ok (e.refill.2.packetOf raw), e.refill.2.handOut raw rest))
      (into : e.receiveInto buffer =
        (.ok raw.data.length, raw.data ++ buffer.drop raw.data.length,
          e.refill.2.handOut raw rest))

theorem receivesInto (e : Encoder lib) (buffer : Bytes) : e.ReceivesInto buffer := by
  rcases receiveInto_cases e buffer with
    ⟨failure, failed, into⟩ | ⟨ok, empty, into⟩ | ⟨raw, rest, ok, staged, large, into⟩ |
    ⟨raw, rest, ok, staged, room, into⟩
  · have refilled : e.refill = (.error failure, e.refill.2) := Prod.ext failed rfl
    exact .fails (refill_isOfLibrary failed) (by rw [receive, refilled]) into
  · refine .nothing ?_ empty (receive_of_nothing ok empty) into
    split
    · exact .inr rfl
    · exact .inl rfl
  · exact .small staged large (receive_of_refill ok staged) into
  · exact .fits staged room (receive_of_refill ok staged) into

section Outcomes

variable (buffer : Bytes)

theorem receiveInto_of_fits {packet : Packet} (given : e.receive.1 = .ok packet)
    (room : packet.data.length ≤ buffer.length) :
    e.receiveInto buffer =
      (.ok packet.data.length, packet.data ++ buffer.drop packet.data.length, e.receive.2) := by
  cases receivesInto e buffer with
  | fails _ received | nothing _ _ received =>
    rw [received] at given
    cases given
  | small _ large received =>
    rw [received] at given
    cases given
    exact absurd large (Nat.not_lt.mpr room)
  | fits _ _ received into =>
    rw [received] at given ⊢
    cases given
    exact into

theorem receiveInto_of_fails {failure : Failure} (failed : e.receive.1 = .error failure)
    (other : ¬ (failure = .tryAgain ∨ failure = .endOfStream)) :
    e.receiveInto buffer = (.error failure, buffer, e.receive.2) := by
  cases receivesInto e buffer with
  | fails _ received into =>
    rw [received] at failed ⊢
    cases failed
    exact into
  | nothing which _ received =>
    rw [received] at failed
    cases failed
    exact absurd which other
  | small _ _ received | fits _ _ received =>
    rw [received] at failed
    cases failed

theorem receiveInto_of_nothing {failure : Failure} (received : e.receive.1 = .error failure)
    (which : failure = .tryAgain ∨ failure = .endOfStream) :
    e.receiveInto buffer = (.ok 0, buffer, e.receive.2) := by
  cases receivesInto e buffer with
  | fails ofLibrary failed =>
    rw [failed] at received
    cases received
    exact absurd which ofLibrary.ne
  | nothing _ _ missing into =>
    rw [missing]
    exact into
  | small _ _ given | fits _ _ given =>
    rw [given] at received
    cases received

end Outcomes

/-! ## A packet that does not fit -/

/-- The encoder `kept` is `e` after a packet did not fit. The packet is where it was. -/
structure Keeps (e kept : Encoder lib) (packet : Packet) : Prop where
  /-- Nothing has been done but to resume analysis if nothing was staged. -/
  resumed : kept = e.refill.2
  unchanged : e.staging.packets ≠ [] → kept = e
  position : kept.position = e.position
  front : ∃ raw rest, kept.staging.packets = raw :: rest ∧ raw.data = packet.data
  /-- Receiving now is what receiving would have been before. -/
  next : kept.receive = e.receive
  /-- Receiving later, when no other packet can have been handed out, gives this packet. Its times
  move with the start of the stream if that is fixed meanwhile. -/
  later : ∀ operations, kept.handedOutAll operations = [] →
    (kept.afterAll operations).receive.1 = .ok (packet.stamped
      ⟨packet.pts.ticks + ((kept.afterAll operations).start.getD 0 - kept.start.getD 0)⟩)
  /-- So once the start is settled, nothing about the packet changes. -/
  settled : kept.Settled → ∀ operations, kept.handedOutAll operations = [] →
    (kept.afterAll operations).receive.1 = .ok packet

theorem keeps_refill {raw : RawPacket} {rest : List RawPacket}
    (staged : e.refill.2.staging.packets = raw :: rest)
    (received : e.receive = (.ok (e.refill.2.packetOf raw), e.refill.2.handOut raw rest)) :
    e.Keeps e.refill.2 (e.refill.2.packetOf raw) where
  resumed := rfl
  unchanged some_ := by rw [refill_of_ne some_]
  position := congrArg Clock.position (clock_refill e)
  front := ⟨raw, rest, staged, rfl⟩
  next := by rw [received, receive_of_staged staged]
  later _ nothing := receive_afterAll staged nothing
  settled settled operations nothing := by
    rw [receive_afterAll staged nothing, start_afterAll settled operations, Int64.sub_self,
      Int64.add_zero, Packet.stamped_pts (e.refill.2.packetOf raw) rfl]

theorem receiveInto_of_small {packet : Packet} {buffer : Bytes}
    (given : e.receive.1 = .ok packet) (large : buffer.length < packet.data.length) :
    e.receiveInto buffer =
        (.error (.bufferTooSmall packet.data.length buffer.length), buffer, e.refill.2) ∧
      e.Keeps e.refill.2 packet := by
  cases receivesInto e buffer with
  | fails _ received | nothing _ _ received =>
    rw [received] at given
    cases given
  | small staged _ received into =>
    have kept := keeps_refill staged received
    rw [received] at given
    cases given
    exact ⟨into, kept⟩
  | fits _ room received =>
    rw [received] at given
    cases given
    exact absurd large (Nat.not_lt.mpr room)

structure AgreesInto (e : Encoder lib) (buffer : Bytes) : Prop where
  /-- A packet that fits is copied to the start of the buffer. The rest of the buffer stays as it
  is, and the encoder is as it would be otherwise. -/
  fits : ∀ packet, e.receive.1 = .ok packet → packet.data.length ≤ buffer.length →
    e.receiveInto buffer =
      (.ok packet.data.length, packet.data ++ buffer.drop packet.data.length, e.receive.2)
  /-- A packet that does not fit is refused with its size, and kept. -/
  small : ∀ packet, e.receive.1 = .ok packet → buffer.length < packet.data.length →
    ∃ kept, e.receiveInto buffer =
      (.error (.bufferTooSmall packet.data.length buffer.length), buffer, kept) ∧
        e.Keeps kept packet
  /-- If analysis fails when it is resumed, both fail in the same way. -/
  fails : ∀ failure, e.receive.1 = .error failure →
    ¬ (failure = .tryAgain ∨ failure = .endOfStream) →
      e.receiveInto buffer = (.error failure, buffer, e.receive.2)
  /-- If there is nothing, the answer is zero. -/
  nothing : ∀ failure, e.receive.1 = .error failure →
    (failure = .tryAgain ∨ failure = .endOfStream) →
      e.receiveInto buffer = (.ok 0, buffer, e.receive.2)

/-- **Receiving into a buffer agrees with receiving.** This holds in every state of an encoder, over
every library and for every buffer. -/
theorem receiveInto_agrees (e : Encoder lib) (buffer : Bytes) : e.AgreesInto buffer where
  fits _ given room := receiveInto_of_fits buffer given room
  small _ given large := ⟨_, receiveInto_of_small given large⟩
  fails _ failed other := receiveInto_of_fails buffer failed other
  nothing _ received which := receiveInto_of_nothing buffer received which

end Encoder

end VorbisTrack
