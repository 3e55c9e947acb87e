import VorbisTrack.Proofs.Encoder.Run
import VorbisTrack.Proofs.Library.Codec

/-!
# How packets are stamped

Of all that an encoder holds, only its `Clock` matters for the times of the packets it hands out.
Handing a packet out moves the position, accepting the first frame sets the start, and nothing else
touches the clock. `Clock.packets` are the packets that are handed out for given contents if the
start stays as it is.
-/

set_option autoImplicit false

namespace VorbisTrack

variable {σ : Type} {lib : Library σ}

structure Clock where
  rate : UInt32
  timeBase : Rational
  streamIndex : Nat
  /-- The time of the first frame. -/
  start : Option Int64
  /-- The sample at which the last packet ended. -/
  position : Int64

namespace Clock

def ticksAt (clock : Clock) (sample : Int64) : Int64 :=
  ((Timestamp.mk sample).rescale (.perSample clock.rate) clock.timeBase).ticks

def after (clock : Clock) (content : Content) : Clock :=
  { clock with position := max content.granule clock.position }

def packet (clock : Clock) (content : Content) : Packet :=
  { Packet.audio clock.streamIndex content.data with
    isKey := true
    duration :=
      clock.ticksAt (clock.after content).position - clock.ticksAt clock.position }.stamped
      ⟨clock.ticksAt clock.position + clock.start.getD 0⟩

def packets : Clock → List Content → List Packet
  | _, [] => []
  | clock, content :: rest => clock.packet content :: packets (clock.after content) rest

/-- The start of the stream by its frames: the time of the first one if it is known. -/
def firstTime (frames : List Frame) : Int64 :=
  match frames.head? with
  | some frame => if frame.pts.isKnown then frame.pts.ticks else 0
  | none => 0

/-- Only the time of the first frame matters. -/
theorem firstTime_congr {frames frames' : List Frame}
    (first : frames.head?.map Frame.pts = frames'.head?.map Frame.pts) :
    firstTime frames = firstTime frames' := by
  unfold firstTime
  cases one : frames.head? with
  | none =>
    rw [one] at first
    rw [Option.map_eq_none_iff.mp first.symm]
  | some frame =>
    rw [one] at first
    obtain ⟨frame', other, times⟩ := Option.map_eq_some_iff.mp first.symm
    rw [other]
    simp only [times]

/-- The clock whose start has been fixed by frames, unless it had been before. -/
def fixedBy (clock : Clock) (frames : List Frame) : Clock :=
  { clock with start := some (clock.start.getD (firstTime frames)) }

theorem after_fixedBy (clock : Clock) (frames : List Frame) (content : Content) :
    (clock.fixedBy frames).after content = (clock.after content).fixedBy frames := rfl

/-- A start that is fixed stays. -/
theorem packets_fixedBy_of_isSome (contents : List Content) {clock : Clock}
    (fixed : clock.start.isSome = true) (frames : List Frame) :
    (clock.fixedBy frames).packets contents = clock.packets contents := by
  obtain ⟨time, started⟩ := Option.isSome_iff_exists.mp fixed
  have same : clock.fixedBy frames = clock := by
    rw [fixedBy, started, Option.getD_some, ← started]
  rw [same]

def startingAt (clock : Clock) (time : Int64) : Clock :=
  { clock with start := some time }

theorem after_startingAt (clock : Clock) (time : Int64) (content : Content) :
    (clock.startingAt time).after content = (clock.after content).startingAt time := rfl

/-- Without a start, packets are stamped as if it were zero. -/
theorem packets_startingAt (contents : List Content) {clock : Clock} {time : Int64}
    (same : clock.start.getD 0 = time) :
    (clock.startingAt time).packets contents = clock.packets contents := by
  -- Only the position differs from one packet to the next.
  induction contents generalizing clock with
  | nil => rfl
  | cons content rest ih =>
    have stamped : (clock.startingAt time).packet content = clock.packet content := by
      rw [← same]
      rfl
    have later := ih (show (clock.after content).start.getD 0 = time from same)
    rw [packets, packets, stamped, after_startingAt, later]

/-- Packets that are handed out before the start is fixed are stamped as if it were zero. -/
theorem packets_fixedBy_of_firstTime {frames : List Frame} (zero : firstTime frames = 0)
    (contents : List Content) (clock : Clock) :
    (clock.fixedBy frames).packets contents = clock.packets contents := by
  have fixed : clock.fixedBy frames = clock.startingAt (clock.start.getD 0) := by
    rw [fixedBy, zero, startingAt]
  rw [fixed, packets_startingAt contents rfl]

theorem data_packets (contents : List Content) (clock : Clock) :
    (clock.packets contents).map Packet.data = contents.map Content.data := by
  induction contents generalizing clock with
  | nil => rfl
  | cons content rest ih =>
    rw [packets, List.map_cons, List.map_cons, ih]
    rfl

theorem packets_append (contents further : List Content) (clock : Clock) :
    clock.packets (contents ++ further) =
      clock.packets contents ++ (contents.foldl after clock).packets further := by
  induction contents generalizing clock with
  | nil => rfl
  | cons content rest ih =>
    rw [List.cons_append, packets, packets, ih, List.cons_append, List.foldl_cons]

/-- A packet is stamped by the clock as the packets before it have left it. -/
theorem getElem?_packets (contents : List Content) (clock : Clock) (k : Nat) :
    (clock.packets contents)[k]? =
      contents[k]?.map fun content => ((contents.take k).foldl after clock).packet content := by
  induction contents generalizing clock k with
  | nil => rfl
  | cons content rest ih =>
    cases k with
    | zero => rfl
    | succ k =>
      rw [packets, List.getElem?_cons_succ, ih, List.getElem?_cons_succ, List.take_succ_cons,
        List.foldl_cons]

theorem ticksAt_zero (clock : Clock) : clock.ticksAt 0 = 0 := by
  unfold ticksAt Timestamp.rescale
  split
  · simp [wrap128]
  · rfl

/-- Handing packets out moves the position only. -/
theorem foldl_after_eq (contents : List Content) (clock : Clock) :
    contents.foldl after clock =
      { clock with position := (contents.foldl after clock).position } := by
  induction contents generalizing clock with
  | nil => rfl
  | cons content rest ih => exact ih (clock.after content)

theorem foldl_after_fixedBy (frames : List Frame) (contents : List Content) (clock : Clock) :
    contents.foldl after (clock.fixedBy frames) = (contents.foldl after clock).fixedBy frames := by
  induction contents generalizing clock with
  | nil => rfl
  | cons content rest ih => exact ih (clock.after content)

theorem packet_eq_stamped (clock : Clock) (content : Content) :
    clock.packet content = (clock.packet content).stamped
      ⟨clock.ticksAt clock.position + clock.start.getD 0⟩ := by
  rw [packet, Packet.stamped, Packet.stamped]

/-- A packet starts at the position to which those before it have moved the clock. -/
theorem stamped_of_getElem?_packets {contents : List Content} {clock : Clock} {k : Nat}
    {packet : Packet} (place : (clock.packets contents)[k]? = some packet) :
    packet = packet.stamped
      ⟨clock.ticksAt ((contents.take k).foldl after clock).position + clock.start.getD 0⟩ := by
  rw [getElem?_packets] at place
  obtain ⟨content, -, rfl⟩ := Option.map_eq_some_iff.mp place
  obtain ⟨position, moved⟩ : ∃ position, (contents.take k).foldl after clock =
      { clock with position } := ⟨_, foldl_after_eq (contents.take k) clock⟩
  rw [moved]
  exact packet_eq_stamped { clock with position } content

/-- The durations of packets add up to the ticks that go by while they are handed out. -/
theorem ticksAt_add_sum_duration (contents : List Content) (clock : Clock) (k : Nat) :
    clock.ticksAt clock.position +
        (((clock.packets contents).take k).map Packet.duration).sum =
      clock.ticksAt ((contents.take k).foldl after clock).position := by
  induction contents generalizing clock k with
  | nil => simp [packets]
  | cons content rest ih =>
    cases k with
    | zero => simp
    | succ k =>
      rw [packets, List.take_succ_cons, List.map_cons, List.sum_cons, List.take_succ_cons,
        List.foldl_cons]
      have one : clock.ticksAt clock.position + (clock.packet content).duration =
          clock.ticksAt (clock.after content).position := by
        show clock.ticksAt clock.position +
          (clock.ticksAt (clock.after content).position - clock.ticksAt clock.position) = _
        rw [Int64.add_comm, Int64.sub_add_cancel]
      rw [← Int64.add_assoc, one]
      exact ih (clock.after content) k

/-- Apart from the times, packets do not depend on the start. -/
theorem untimed_packets_fixedBy (frames : List Frame) (contents : List Content) (clock : Clock) :
    ((clock.fixedBy frames).packets contents).map (·.stamped .unknown)
      = (clock.packets contents).map (·.stamped .unknown) := by
  induction contents generalizing clock with
  | nil => rfl
  | cons content rest ih =>
    rw [packets, packets, List.map_cons, List.map_cons, after_fixedBy, ih]
    rfl

end Clock

namespace Encoder

def clock (e : Encoder lib) : Clock where
  rate := e.options.rate
  timeBase := e.timeBase
  streamIndex := e.streamIndex
  start := e.start
  position := e.position

theorem packetOf_eq (e : Encoder lib) (raw : RawPacket) :
    e.packetOf raw = e.clock.packet raw.content := rfl

theorem clock_handOut (e : Encoder lib) (raw : RawPacket) (rest : List RawPacket) :
    (e.handOut raw rest).clock = e.clock.after raw.content := rfl

theorem clock_anchor (e : Encoder lib) (frame : Frame) (rest : List Frame) :
    (e.anchor frame.pts).clock = e.clock.fixedBy (frame :: rest) := by
  cases started : e.start with
  | none => simp only [anchor, started, clock, Clock.fixedBy, Option.getD_none]; rfl
  | some time => simp only [anchor, started, clock, Clock.fixedBy, Option.getD_some]

@[simp] theorem clock_drain (e : Encoder lib) : e.drain.2.clock = e.clock := by
  unfold drain
  split <;> rfl

@[simp] theorem clock_refill (e : Encoder lib) : e.refill.2.clock = e.clock := by
  unfold refill
  split
  · exact clock_drain e
  · rfl

@[simp] theorem clock_flush (e : Encoder lib) : e.flush.2.clock = e.clock := by
  rcases flush_cases e with ⟨-, flushed⟩ | ⟨_, _, -, -, flushed⟩ | ⟨_, -, -, flushed⟩
  · rw [flushed, clock_drain]
  · rw [flushed]
    rfl
  · rw [flushed, clock_drain]
    rfl

/-- Accepting a frame fixes the start and leaves the rest of the clock alone. -/
theorem clock_send {e e' : Encoder lib} {frame : Frame} (sent : e.send frame = (.ok (), e'))
    (rest : List Frame) : e'.clock = e.clock.fixedBy (frame :: rest) := by
  have anchored := clock_anchor e frame rest
  -- The two ways of succeeding both fix the start, and draining does not touch the clock.
  rcases send_cases e frame with
    ⟨_, -, refused⟩ | ⟨-, -, empty⟩ | ⟨_, _, -, -, -, failed⟩ | ⟨session, -, -, -, written⟩
  · rw [refused] at sent
    cases sent
  · rw [empty] at sent
    cases sent
    exact anchored
  · rw [failed] at sent
    cases sent
  · rw [written] at sent
    have after := clock_drain
      { e.anchor frame.pts with session, samplesSent := e.samplesSent + frame.sampleCount }
    rw [sent] at after
    exact after.trans anchored

end Encoder

end VorbisTrack
