import VorbisTrack.Catalogue
import VorbisTrack.ChannelLayout
import VorbisTrack.Encoder.Staging
import VorbisTrack.Packet

/-!
# The Vorbis encoder

An encoder takes frames of 32-bit floating-point samples and gives timed packets. Sending a frame
hands its channels to the library in Vorbis order and stages what the library releases; receiving
takes the oldest staged packet, and resumes analysis whenever nothing is staged.

A packet starts where the one before it ended. Its times are rounded on the whole position, not on
its length, so they follow one another without gap or drift.
-/

set_option autoImplicit false

namespace VorbisTrack

structure Encoder {σ : Type} (lib : Library σ) where
  session : Session lib
  options : EncodingOptions
  headers : HeaderPackets
  /-- The laced header packets. -/
  extradata : Bytes
  timeBase : Rational
  streamIndex : Nat
  staging : Staging := {}
  /-- The time of the first frame, in ticks of the time base. -/
  start : Option Int64 := none
  /-- The sample at which the last packet that was handed out ends. -/
  position : Int64 := 0
  /-- Samples per channel that the library has taken. -/
  samplesSent : Nat := 0
  /-- The input has been ended. -/
  ended : Bool := false

variable {σ : Type} {lib : Library σ}

namespace Encoder

/-- The name and version that the encoder signs its streams with. -/
def ident : String := "zvd-vorbis 0.1.0"

/-- Samples per channel that callers should send in a frame. Every block size of the format is a
multiple of it. -/
def frameSize : Nat := 64

/-! ## Opening and closing -/

/-- The tags of the comment header: the encoder's own, then the caller's. -/
def tags (options : EncodingOptions) : List (String × String) :=
  ("encoder", ident) :: options.comments

/-- Opens an encoder with settings. If that fails, what was acquired is given back. The calls made
are told in both cases. -/
def «open» (lib : Library σ) (settings : Settings) :
    Except Failure (Encoder lib) × List Event :=
  if ¬ settings.timeBase.isTimeBase then (.error (.invalidTimeBase settings.timeBase), [])
  else
    match EncodingOptions.resolve settings with
    | .error failure => (.error failure, [])
    | .ok options =>
      match Session.open lib options with
      | (.error failure, session) => (.error failure, session.trace)
      | (.ok (), session) =>
        match session.headerPackets (tags options) with
        | (.error failure, session) => (.error failure, session.release.trace)
        | (.ok headers, session) =>
          (.ok
            { session
              options
              headers
              extradata := headers.toExtradata
              timeBase := settings.timeBase
              streamIndex := settings.streamIndex },
            session.trace)

def forCodec (lib : Library σ) (settings : Settings) :
    Except Failure (Encoder lib) × List Event :=
  if (CodecInfo.find? settings.codec).isSome then «open» lib settings
  else (.error (.noEncoder settings.codec), [])

def close (e : Encoder lib) : Session lib :=
  e.session.release

def trace (e : Encoder lib) : List Event :=
  e.session.trace

/-! ## Sending -/

/-- The samples of a channel, read from a packed or planar frame of 32-bit floating point. -/
def channelSamples (frame : Frame) (channel : Nat) : List Sample :=
  let channels := frame.channels.toNat
  match frame.format with
  | .flt =>
    let plane := (frame.planes.headD []).toArray
    (List.range (min frame.sampleCount (plane.size / (4 * channels)))).map fun i =>
      wordAt plane ((i * channels + channel) * 4)
  | .fltp =>
    let plane := (frame.planes.getD channel []).toArray
    (List.range (min frame.sampleCount (plane.size / 4))).map fun i => wordAt plane (i * 4)
  | _ => []

def vorbisSamples (frame : Frame) (channel : Nat) : List Sample :=
  channelSamples frame (ChannelLayout.source frame.channels.toNat channel)

/-- Why a frame cannot be sent now. -/
def refusal? (e : Encoder lib) (frame : Frame) : Option Failure :=
  if e.ended then some .alreadyFlushed
  else if frame.rate ≠ e.options.rate then some (.rateMismatch e.options.rate frame.rate)
  else if frame.channels ≠ e.options.channels then
    some (.channelMismatch e.options.channels frame.channels)
  else if frame.format ≠ .flt ∧ frame.format ≠ .fltp then some (.unsupportedSamples frame.format)
  else
    match frame.check with
    | .error failure => some failure
    | .ok () => if e.staging.isFull then some .tryAgain else none

/-- Runs analysis as far as the staging budget allows. -/
def drain (e : Encoder lib) : Except Failure Unit × Encoder lib :=
  if e.staging.isFull then (.ok (), e)
  else
    let (result, staging, session) := e.session.drain Staging.sink e.staging
    (result, { e with staging, session })

/-- Fixes the start of the stream by a frame, unless it is fixed. -/
def anchor (e : Encoder lib) (time : Timestamp) : Encoder lib :=
  match e.start with
  | some _ => e
  | none => { e with start := some (if time.isKnown then time.ticks else 0) }

/-- Sends a frame. A frame that is refused has not been looked at. -/
def send (e : Encoder lib) (frame : Frame) : Except Failure Unit × Encoder lib :=
  match e.refusal? frame with
  | some failure => (.error failure, e)
  | none =>
    let e := e.anchor frame.pts
    if frame.sampleCount = 0 then (.ok (), e)
    else
      match e.session.write frame.sampleCount (vorbisSamples frame) with
      | (.error failure, session) => (.error failure, { e with session })
      | (.ok (), session) =>
        drain { e with session, samplesSent := e.samplesSent + frame.sampleCount }

/-- Ends the input, if that has not been done, and runs analysis. -/
def flush (e : Encoder lib) : Except Failure Unit × Encoder lib :=
  if e.ended then e.drain
  else
    match e.session.signalEnd with
    | (.error failure, session) => (.error failure, { e with session })
    | (.ok (), session) => drain { e with session, ended := true }

/-! ## Receiving -/

def refill (e : Encoder lib) : Except Failure Unit × Encoder lib :=
  if e.staging.packets.isEmpty then e.drain else (.ok (), e)

def ticksAt (e : Encoder lib) (sample : Int64) : Int64 :=
  (Timestamp.mk sample).rescale (.perSample e.options.rate) e.timeBase |>.ticks

/-- The packet that carries released data. It lasts from the position up to the data's end, or no
time at all if that lies behind. -/
def packetOf (e : Encoder lib) (raw : RawPacket) : Packet :=
  let last := max raw.granule e.position
  { Packet.audio e.streamIndex raw.data with
    isKey := true
    duration := e.ticksAt last - e.ticksAt e.position }.stamped
      ⟨e.ticksAt e.position + e.start.getD 0⟩

def receive (e : Encoder lib) : Except Failure Packet × Encoder lib :=
  match e.refill with
  | (.error failure, e) => (.error failure, e)
  | (.ok (), e) =>
    match e.staging.pop? with
    | none => (.error (if e.ended then .endOfStream else .tryAgain), e)
    | some (raw, staging) =>
      (.ok (e.packetOf raw), { e with staging, position := max raw.granule e.position })

/-- Receives the data of the next packet into a buffer. The answer is the count of bytes written,
zero if nothing is staged. A packet that does not fit stays where it is. -/
def receiveInto (e : Encoder lib) (buffer : Bytes) : Except Failure Nat × Bytes × Encoder lib :=
  match e.refill with
  | (.error failure, e) => (.error failure, buffer, e)
  | (.ok (), e) =>
    match e.staging.packets with
    | [] => (.ok 0, buffer, e)
    | next :: _ =>
      let need := next.data.length
      if buffer.length < need then
        (.error (.bufferTooSmall need buffer.length), buffer, e)
      else
        match e.receive with
        | (.error failure, e) => (.error failure, buffer, e)
        | (.ok packet, e) => (.ok need, packet.data ++ buffer.drop need, e)

/-! ## Receiving all there is -/

/-- A bound on the packets to come: the blocks that are left, then the packets that are staged. -/
def remaining (e : Encoder lib) : Nat × Nat :=
  (lib.blocksLeft e.session.native, e.staging.packets.length)

/-- Receiving a packet uses one up. -/
theorem remaining_receive (e : Encoder lib) (packet : Packet) (e' : Encoder lib)
    (h : e.receive = (.ok packet, e')) :
    Prod.Lex (· < ·) (· < ·) e'.remaining e.remaining := by
  obtain ⟨session, options, headers, extradata, timeBase, streamIndex, ⟨packets, bytes⟩, start,
    position, samplesSent, ended⟩ := e
  cases packets with
  | cons raw rest =>
    simp only [receive, refill, List.isEmpty_cons, Bool.false_eq_true, if_false, Staging.pop?,
      Prod.mk.injEq] at h
    obtain ⟨-, rfl⟩ := h
    exact .right _ (Nat.lt_succ_self _)
  | nil =>
    simp only [receive, refill, List.isEmpty_nil, if_true, drain] at h
    split at h
    · simp at h
    · next e₁ refilled =>
      split at refilled
      · simp only [Prod.mk.injEq, true_and] at refilled
        subst refilled
        simp [Staging.pop?] at h
      · simp only [Prod.mk.injEq] at refilled
        obtain ⟨-, rfl⟩ := refilled
        -- A packet that was not staged comes from a block that has been handed out meanwhile.
        rcases Session.drain_eq_or_blocksLeft_lt Staging.sink ⟨[], bytes⟩ session with same | less
        · simp [same, Staging.pop?] at h
        · split at h
          · simp at h
          · simp only [Prod.mk.injEq] at h
            obtain ⟨-, rfl⟩ := h
            exact .left _ _ less

/-- Receives packets until one is missing, or up to a limit. A failure at the end tells why no
further packet came. -/
def receiveUpTo (limit : Option Nat) (e : Encoder lib) :
    List Packet × Option Failure × Encoder lib :=
  if limit = some 0 then ([], none, e)
  else
    match _received : e.receive with
    | (.error failure, e') => ([], some failure, e')
    | (.ok packet, e') =>
      let (packets, failure, e'') := receiveUpTo (limit.map (· - 1)) e'
      (packet :: packets, failure, e'')
termination_by e.remaining
decreasing_by exact remaining_receive e packet e' _received

end Encoder

end VorbisTrack
