import VorbisTrack.Command.Encode
import VorbisTrack.Proofs.Encoder.Success
import VorbisTrack.Proofs.Matroska.Muxer
import VorbisTrack.Proofs.SampleTime
import VorbisTrack.Proofs.Wav.Header

/-!
# Released packets become blocks

`blocksFrom` lists the blocks that a file gets for the packets of its only track: the data of each,
at the time at which the packets before it end. While a file is encoded, its blocks are those of
the packets released so far (`Job.Stores`), and writing further packets keeps this up.
-/

set_option autoImplicit false

namespace VorbisTrack.Command

variable {σ : Type} {lib : Library σ}

/-! ## Packets and their blocks -/

def totalSize : List RawPacket → Nat
  | [] => 0
  | raw :: rest => raw.data.length + totalSize rest

/-- The sample at which packets end: the latest of their granule positions, from `last` on. -/
def endFrom (last : Int) (packets : List RawPacket) : Int :=
  packets.foldl (fun last raw => max last raw.granule.toInt) last

def millisecondOf (rate : UInt32) (sample : Int) : Nat :=
  sample.toNat * 1000 / rate.toNat

/-- The blocks of packets, each with its time. A packet starts at the latest of the granule
positions before it, from `last` on. -/
def blocksFrom (rate : UInt32) : Int → List RawPacket → List Matroska.Block
  | _, [] => []
  | last, raw :: rest =>
    { track := 1, offset := millisecondOf rate last, data := raw.data } ::
      blocksFrom rate (max last raw.granule.toInt) rest

theorem track_of_mem_blocksFrom {rate : UInt32} {last : Int} {packets : List RawPacket}
    {block : Matroska.Block} (member : block ∈ blocksFrom rate last packets) : block.track = 1 := by
  induction packets generalizing last with
  | nil => cases member
  | cons raw rest ih =>
    rcases List.mem_cons.mp member with rfl | member
    · rfl
    · exact ih member

/-- The room of the blocks is that of the packets and a byte for each. -/
theorem sum_room_blocksFrom (rate : UInt32) (last : Int) (packets : List RawPacket) :
    ((blocksFrom rate last packets).map Matroska.Block.room).sum =
      packets.length + totalSize packets := by
  induction packets generalizing last with
  | nil => rfl
  | cons raw rest ih =>
    have first : (⟨1, millisecondOf rate last, raw.data⟩ : Matroska.Block).room =
      raw.data.length + 1 := rfl
    rw [blocksFrom, List.map_cons, List.sum_cons, ih, first, List.length_cons, totalSize]
    omega

theorem totalSize_concat (packets : List RawPacket) (raw : RawPacket) :
    totalSize (packets ++ [raw]) = totalSize packets + raw.data.length := by
  induction packets with
  | nil => exact Nat.add_comm _ _
  | cons first rest ih => rw [List.cons_append, totalSize, totalSize, ih, Nat.add_assoc]

theorem endFrom_concat (last : Int) (packets : List RawPacket) (raw : RawPacket) :
    endFrom last (packets ++ [raw]) = max (endFrom last packets) raw.granule.toInt := by
  rw [endFrom, List.foldl_append]
  rfl

theorem blocksFrom_concat (rate : UInt32) (last : Int) (packets : List RawPacket)
    (raw : RawPacket) :
    blocksFrom rate last (packets ++ [raw]) = blocksFrom rate last packets ++
      [{ track := 1, offset := millisecondOf rate (endFrom last packets), data := raw.data }] := by
  induction packets generalizing last with
  | nil => rfl
  | cons first rest ih =>
    rw [List.cons_append, blocksFrom, blocksFrom, ih]
    rfl

/-- The end of packets lies within any bounds that the start and all of them keep. -/
theorem endFrom_bounds {last bound : Int} (low : 0 ≤ last) (high : last < bound)
    {packets : List RawPacket} (early : ∀ raw ∈ packets, raw.granule.toInt < bound) :
    0 ≤ endFrom last packets ∧ endFrom last packets < bound := by
  induction packets generalizing last with
  | nil => exact ⟨low, high⟩
  | cons raw rest ih =>
    have first := early raw (List.mem_cons_self ..)
    apply ih
    · show 0 ≤ max last raw.granule.toInt
      omega
    · show max last raw.granule.toInt < bound
      omega
    · intro other member
      exact early other (List.mem_cons_of_mem _ member)

theorem millisecondOf_le {rate : UInt32} {sample sample' : Int} (h : sample ≤ sample') :
    millisecondOf rate sample ≤ millisecondOf rate sample' := by
  apply Nat.div_le_div_right
  apply Nat.mul_le_mul_right
  omega

/-! ## The clock -/

/-- The clock counts the samples of a stream that starts at zero, and these packets have been handed
out. -/
structure Counts (clock : Clock) (rate : UInt32) (done : List RawPacket) : Prop where
  sampleRate : clock.rate = rate
  timeBase : clock.timeBase = .perSample rate
  streamIndex : clock.streamIndex = 0
  start : clock.start.getD 0 = 0
  position : clock.position.toInt = endFrom 0 done

namespace Counts

variable {clock : Clock} {rate : UInt32} {done : List RawPacket}

theorem after (h : Counts clock rate done) (raw : RawPacket) :
    Counts (clock.after raw.content) rate (done ++ [raw]) := by
  refine ⟨h.sampleRate, h.timeBase, h.streamIndex, h.start, ?_⟩
  show (max raw.granule clock.position).toInt = _
  rw [Int64.toInt_max, h.position, endFrom_concat, Int.max_comm]

theorem afterAll (h : Counts clock rate done) (taken : List RawPacket) :
    Counts ((taken.map RawPacket.content).foldl Clock.after clock) rate (done ++ taken) := by
  induction taken generalizing clock done with
  | nil =>
    rw [List.append_nil]
    exact h
  | cons raw rest ih =>
    have next := ih (h.after raw)
    rw [List.append_assoc, List.singleton_append] at next
    exact next

/-- A packet is stamped with the sample at which those before it end. -/
theorem pts_packet (h : Counts clock rate done) (positive : 0 < rate.toNat) (raw : RawPacket) :
    (clock.packet raw.content).pts = ⟨clock.position⟩ := by
  show (⟨clock.ticksAt clock.position + clock.start.getD 0⟩ : Timestamp) = _
  rw [h.start, Int64.add_zero, Clock.ticksAt, h.sampleRate, h.timeBase,
    Timestamp.rescale_perSample positive]

end Counts

/-! ## Writing packets -/

/-- What is to be done: a WAVE file that is complete, and the place and the head of a file with one
track for it. -/
structure Task where
  header : Wav.Header
  content : Bytes
  decodable : header.IsDecodable
  present : header.dataStart + header.dataSize.toNat ≤ content.length
  output : Path
  location : Location
  head : Matroska.Head
  stream : Stream
  tracks : head.tracks = [{ number := 1, stream }]
  index : stream.index = 0
  timeBase : stream.timeBase = .perSample header.format.rate

namespace Task

def rate (task : Task) : UInt32 :=
  task.header.format.rate

def channels (task : Task) : Nat :=
  task.header.format.channels.toNat

def sample (task : Task) (channel i : Nat) : Sample :=
  task.header.sample task.content (ChannelLayout.source task.channels channel) i

end Task

namespace Job

/-- Released packets have been written: the blocks of the file are theirs, and they have been
counted. -/
structure Stores (job : Job lib) (task : Task) (done : List RawPacket) : Prop where
  holds : job.muxer.Holds job.files task.location task.head (blocksFrom task.rate 0 done)
  /-- The cluster that is being filled does not start after the packets so far. -/
  inOrder : job.muxer.cluster.blocks = [] ∨
    job.muxer.cluster.time ≤ millisecondOf task.rate (endFrom 0 done)
  packets : job.tally.packets = done.length
  bytes : job.tally.bytes = totalSize done

variable {task : Task} {done : List RawPacket}

/-- A packet that the clock has stamped is written. -/
theorem Stores.writePacket {job : Job lib} (h : job.Stores task done) {clock : Clock}
    (counts : Counts clock task.rate done)
    (early : ∀ raw ∈ done, raw.granule.toInt < 2 ^ 53) (raw : RawPacket) :
    ∃ muxer files, job.muxer.writePacket (clock.packet raw.content) job.files =
        (.ok (), muxer, files) ∧
      Stores { job with muxer, files, tally := job.tally.count (clock.packet raw.content) } task
        (done ++ [raw]) ∧
      job.files.ChangesOnly task.location files := by
  have bounds := endFrom_bounds (Int.le_refl 0) (by decide : (0 : Int) < 2 ^ 53) early
  -- There is one track, and its packets come from stream zero.
  have known : job.muxer.track? (clock.packet raw.content).stream =
      some { number := 1, stream := task.stream } := by
    show job.muxer.track? clock.streamIndex = _
    rw [Matroska.Muxer.track?, h.holds.tracks, task.tracks, counts.streamIndex]
    simp [task.index]
  -- The position counts samples, far fewer than would overflow.
  have time : Matroska.milliseconds task.stream.timeBase (clock.packet raw.content).pts =
      millisecondOf task.rate (endFrom 0 done) := by
    have low : 0 ≤ clock.position.toInt := by
      rw [counts.position]
      exact bounds.1
    have high : clock.position.toInt < 2 ^ 53 := by
      rw [counts.position]
      exact bounds.2
    have counted :=
      Matroska.milliseconds_perSample task.decodable.rate (t := ⟨clock.position⟩) low high
    rw [task.timeBase, counts.pts_packet task.decodable.rate, counted]
    show clock.position.toInt.toNat * 1000 / task.rate.toNat = _
    rw [counts.position, millisecondOf]
  obtain ⟨muxer, files, written, holds, started, changed⟩ :=
    h.holds.writePacket known time h.inOrder
  refine ⟨muxer, files, written, ⟨?_, .inr ?_, ?_, ?_⟩, changed⟩
  · rw [blocksFrom_concat]
    exact holds
  · rw [endFrom_concat]
    exact Nat.le_trans started (millisecondOf_le (Int.le_max_left ..))
  · show job.tally.packets + 1 = _
    rw [h.packets, List.length_append, List.length_singleton]
  · show job.tally.bytes + raw.data.length = _
    rw [h.bytes, totalSize_concat]

end Job

end VorbisTrack.Command
