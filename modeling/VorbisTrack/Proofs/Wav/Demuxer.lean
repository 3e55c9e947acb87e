import VorbisTrack.Proofs.Encoder.Samples
import VorbisTrack.Proofs.Wav.Header

/-!
# Reading a WAVE file from start to end

While a file is read, the fields of a demuxer are those of a source (`Demuxer.Reads`), whose reader
stands behind the samples that have been read (`Source.StandsIn`). If all sample data is present,
the next packet can be read as long as there are samples left, and its frame holds just the samples
that follow.
-/

set_option autoImplicit false

namespace VorbisTrack.Wav

/-- The reader stands in a file of these bytes, behind the samples that have been read. -/
structure Source.StandsIn (s : Source) (content : Bytes) : Prop where
  bytes : s.reader.bytes = content
  rest : s.reader.rest =
    content.drop (s.header.dataStart + s.samplesRead * s.header.format.blockAlign.toNat)

namespace Header

/-- The packet holds the samples of a file from a position on. -/
structure IsPacket (h : Header) (content : Bytes) (start count : Nat) (packet : Packet) :
    Prop where
  data : packet.data = (content.drop (h.dataStart + start * h.format.blockAlign.toNat)).take
    (count * h.format.blockAlign.toNat)
  whole : packet.data.length = count * h.format.blockAlign.toNat
  pts : packet.pts = ⟨Int64.ofNat start⟩

/-- The samples of a file are among its sample data, so they are present with it. -/
theorem le_length_of_present (h : Header) {content : Bytes} {samples : Nat}
    (present : h.dataStart + h.dataSize.toNat ≤ content.length)
    (within : samples ≤ h.sampleCount) :
    h.dataStart + samples * h.format.blockAlign.toNat ≤ content.length := by
  have few := Nat.mul_le_mul_right h.format.blockAlign.toNat within
  have all := h.sampleCount_mul_le
  omega

def packetAt (h : Header) (content : Bytes) (start count : Nat) : Packet :=
  { Packet.audio 0 ((content.drop (h.dataStart + start * h.format.blockAlign.toNat)).take
      (count * h.format.blockAlign.toNat)) with
    isKey := true
    duration := Int64.ofNat count }.stamped ⟨Int64.ofNat start⟩

/-- If the file has the bytes, the packet of some samples holds them. -/
theorem isPacket_packetAt {h : Header} {content : Bytes} {start count : Nat}
    (present : h.dataStart + (start + count) * h.format.blockAlign.toNat ≤ content.length) :
    h.IsPacket content start count (h.packetAt content start count) := by
  refine ⟨rfl, ?_, rfl⟩
  rw [Nat.add_mul] at present
  apply List.length_take_of_le
  rw [List.length_drop]
  omega

/-- The frame holds the samples of a file from a position on, in 32-bit floating point. -/
structure IsFrame (h : Header) (content : Bytes) (start count : Nat) (frame : Frame) : Prop where
  sampleCount : frame.sampleCount = count
  rate : frame.rate = h.format.rate
  channels : frame.channels = h.format.channels
  format : frame.format = .flt
  check : frame.check = .ok ()
  pts : frame.pts = ⟨Int64.ofNat start⟩
  samples : ∀ c < h.format.channels.toNat, Encoder.vorbisSamples frame c =
    (List.range count).map fun i =>
      h.sample content (ChannelLayout.source h.format.channels.toNat c) (start + i)

/-- A packet is the part of the sample data that starts with its first sample. -/
theorem IsPacket.ofPlane {h : Header} {content : Bytes} {start count : Nat} {packet : Packet}
    (holds : h.IsPacket content start count packet) (decodable : h.IsDecodable) {position : Nat}
    (inside : position < count * h.format.channels.toNat) :
    Sample.ofPlane h.format.samples packet.data position =
      .ofPlane h.format.samples (content.drop h.dataStart)
        (start * h.format.channels.toNat + position) := by
  have data : packet.data = ((content.drop h.dataStart).drop
      (start * h.format.channels.toNat * h.format.samples.size)).take
        (count * h.format.channels.toNat * h.format.samples.size) := by
    rw [holds.data, decodable.blockAlign, List.drop_drop, Nat.mul_assoc, Nat.mul_assoc]
  rw [data, Sample.ofPlane_take_drop _ _ inside]

end Header

namespace Demuxer

/-! ## What the fields say -/

/-- The demuxer reads a file, and has come as far as this source. -/
structure Reads (d : Demuxer) (s : Source) : Prop where
  reader : d.reader = some s.reader
  streams : d.streams = [s.header.stream]
  header : d.header? = some s.header
  samplesRead : d.samplesRead = s.samplesRead
  totalSamples : d.totalSamples = s.header.sampleCount

structure IsShut (d : Demuxer) : Prop where
  reader : d.reader = none
  streams : d.streams = []
  header : d.header? = none
  samplesRead : d.samplesRead = 0
  totalSamples : d.totalSamples = 0

theorem reads_holding (d : Demuxer) (s : Source) : (d.holding s).Reads s :=
  ⟨rfl, rfl, rfl, rfl, rfl⟩

/-- A demuxer that reads a file holds nothing else. -/
theorem Reads.holding_eq {d : Demuxer} {s : Source} (h : d.Reads s) : d.holding s = d := by
  rw [holding, ← h.reader, ← h.streams, ← h.header, ← h.samplesRead, ← h.totalSamples]

/-- The size of packets has nothing to do with the file. -/
theorem Reads.resized {d : Demuxer} {s : Source} (h : d.Reads s) (samples : Nat) :
    (d.withPacketSamples samples).Reads s :=
  ⟨h.reader, h.streams, h.header, h.samplesRead, h.totalSamples⟩

theorem Reads.refresh {d : Demuxer} {s : Source} (h : d.Reads s) (bytes : Bytes) :
    (d.refresh bytes).Reads { s with reader := s.reader.refresh bytes } := by
  refine ⟨?_, h.streams, h.header, h.samplesRead, h.totalSamples⟩
  rw [Demuxer.refresh, h.reader, Option.map_some]

/-- A file is taken over whatever was held before, but for the size of packets. -/
theorem holding_congr {d d' : Demuxer} (packets : d.packetSamples = d'.packetSamples)
    (s : Source) : d.holding s = d'.holding s := by
  obtain ⟨_, _, _, packetSamples, positive, _, _⟩ := d
  cases packets
  rfl

@[simp] theorem holding_holding (d : Demuxer) (s s' : Source) :
    (d.holding s).holding s' = d.holding s' :=
  rfl

/-! Reading and seeking change the reader and the count, if anything. -/

theorem exists_read_eq (d : Demuxer) :
    ∃ reader samplesRead, d.read.2 = { d with reader, samplesRead } := by
  simp only [read]
  split
  · exact ⟨_, _, rfl⟩
  · split
    · exact ⟨_, _, rfl⟩
    · split
      · exact ⟨_, _, rfl⟩
      · split <;> exact ⟨_, _, rfl⟩

theorem exists_seek_eq (d : Demuxer) (target : Int64) :
    ∃ reader samplesRead, (d.seek target).2 = { d with reader, samplesRead } := by
  simp only [seek]
  split
  · exact ⟨_, _, rfl⟩
  · split
    · exact ⟨_, _, rfl⟩
    · split <;> exact ⟨_, _, rfl⟩

/-! ## Opening -/

/-- A file is opened by reading its header and going to its first sample. -/
theorem openNode_eq_ok {node : Except FileFault Node} {s : Source}
    (opened : openNode node = .ok s) :
    ∃ content r, node = .ok (.file content) ∧ Header.read content = .ok (s.header, r) ∧
      s.header.isSupported = true ∧ s.reader = r.seek s.header.dataStart ∧ s.samplesRead = 0 := by
  unfold openNode at opened
  split at opened
  · cases opened
  · cases opened
  · next content =>
    split at opened
    · cases opened
    · next header r found =>
      by_cases supported : header.isSupported = true
      · rw [if_pos supported] at opened
        cases opened
        exact ⟨content, r, rfl, found, supported, rfl, rfl⟩
      · rw [if_neg supported] at opened
        cases opened

/-- A file that could be opened is decodable, and its reader stands at the first sample. -/
theorem of_openNode {node : Except FileFault Node} {s : Source} (opened : openNode node = .ok s) :
    ∃ bytes, node = .ok (.file bytes) ∧ s.header.IsDecodable ∧ s.StandsIn bytes ∧
      s.samplesRead = 0 := by
  obtain ⟨content, r, file, found, supported, reader, start⟩ := openNode_eq_ok opened
  have read := Header.isReadFrom_of_read found
  have ready := read.stands.seek s.header.dataStart
  refine ⟨content, file, Header.isDecodable_of_check read.checked supported, ⟨?_, ?_⟩, start⟩
  · rw [reader, ready.bytes]
  · rw [reader, ready.rest, start, Nat.zero_mul, Nat.add_zero]

/-- A demuxer that opens a file takes it over. -/
theorem open_eq_ok {d d' : Demuxer} {tree : FileTree} {path : Path}
    (opened : d.open tree path = (.ok (), d')) :
    ∃ s, openNode (tree.read path) = .ok s ∧ d' = d.holding s := by
  unfold «open» at opened
  split at opened
  · cases opened
  · next s found =>
    cases opened
    exact ⟨s, found, rfl⟩

theorem open_of_toOption (d : Demuxer) (tree : FileTree) (path : Path) {s : Source}
    (found : (openNode (tree.read path)).toOption = some s) :
    d.open tree path = (.ok (), d.holding s) := by
  unfold «open»
  cases node : openNode (tree.read path) with
  | error failure =>
    rw [node] at found
    cases found
  | ok s' =>
    rw [node] at found
    cases found
    rfl

/-! ## Reading -/

variable {d : Demuxer} {s : Source} {bytes : Bytes}

/-- A file that has not changed is read on as before. -/
theorem refresh_of_standsIn (open_ : d.Reads s) (stands : s.StandsIn bytes) :
    d.refresh bytes = d := by
  have same : s.reader.refresh bytes = s.reader := by
    rw [Reader.refresh, ← stands.bytes]
  rw [refresh, open_.reader, Option.map_some, same, ← open_.reader]

/-- When all samples have been read, the stream ends. -/
theorem read_of_sampleCount_le (open_ : d.Reads s)
    (all : s.header.sampleCount ≤ s.samplesRead) : d.read = (.error .endOfStream, d) := by
  rw [← open_.holding_eq]
  exact if_pos all

def nextCount (d : Demuxer) (s : Source) : Nat :=
  min d.packetSamples (s.header.sampleCount - s.samplesRead)

theorem nextCount_pos (d : Demuxer) (more : s.samplesRead < s.header.sampleCount) :
    0 < d.nextCount s := by
  have positive := d.packetSamples_pos
  rw [nextCount]
  omega

/-- While samples are left, a read asks for the next of them. It moves the reader in any case, and
the count if it gets them. -/
theorem read_of_more (open_ : d.Reads s) (more : s.samplesRead < s.header.sampleCount) :
    d.read =
      match s.reader.read (d.nextCount s * s.header.format.blockAlign.toNat) with
      | (none, reader) => (.error (.audioUnread .shortRead), d.holding { s with reader })
      | (some data, reader) =>
        (.ok
          ({ Packet.audio 0 data with
              isKey := true
              duration := Int64.ofNat (d.nextCount s) }.stamped ⟨Int64.ofNat s.samplesRead⟩),
          d.holding { s with reader, samplesRead := s.samplesRead + d.nextCount s }) := by
  rw [← open_.holding_eq]
  exact if_neg (Nat.not_le.mpr more)

/-- A seek to a sample that the file does not have is refused. Any other moves reader and count. -/
theorem seek_of_reads (open_ : d.Reads s) (target : Int64) :
    d.seek target =
      if target < 0 ∨ (s.header.sampleCount : Int) < target.toInt then
        (.error (.seekOutOfRange target s.header.sampleCount), d)
      else
        (.ok (), d.holding
          { s with
            reader := s.reader.seek
              (s.header.dataStart + target.toInt.toNat * s.header.format.blockAlign.toNat)
            samplesRead := target.toInt.toNat }) := by
  rw [← open_.holding_eq]
  rfl

/-- The next samples are read if the file has them. -/
theorem read_of_present (open_ : d.Reads s) (stands : s.StandsIn bytes)
    (more : s.samplesRead < s.header.sampleCount)
    (present : s.header.dataStart + (s.samplesRead + d.nextCount s)
      * s.header.format.blockAlign.toNat ≤ bytes.length) :
    ∃ s' : Source,
      d.read = (.ok (s.header.packetAt bytes s.samplesRead (d.nextCount s)),
        d.holding s') ∧
      s'.StandsIn bytes ∧ s'.header = s.header ∧
      s'.samplesRead = s.samplesRead + d.nextCount s := by
  have here : s.reader.rest = bytes.drop (s.header.dataStart +
      s.samplesRead * s.header.format.blockAlign.toNat) := stands.rest
  have long : d.nextCount s * s.header.format.blockAlign.toNat ≤ s.reader.rest.length := by
    rw [here, List.length_drop]
    rw [Nat.add_mul] at present
    omega
  obtain ⟨reader, reading⟩ : ∃ reader,
      s.reader.read (d.nextCount s * s.header.format.blockAlign.toNat) =
        (some (s.reader.rest.take (d.nextCount s * s.header.format.blockAlign.toNat)), reader) :=
    ⟨_, Prod.ext (Reader.read_of_le_length long) rfl⟩
  -- The reader now stands behind what it has read.
  have behind := s.reader.rest_read (d.nextCount s * s.header.format.blockAlign.toNat)
  rw [reading, here, List.drop_drop] at behind
  refine ⟨{ s with reader, samplesRead := s.samplesRead + d.nextCount s }, ?_, ⟨?_, ?_⟩, rfl, rfl⟩
  · rw [read_of_more open_ more, reading, Header.packetAt, ← here]
  · exact (Reader.position_le_of_read reading).1.trans stands.bytes
  · rw [Nat.add_mul, ← Nat.add_assoc]
    exact behind

/-- Reading fails if the next samples are not all left, and uses up what there is. -/
theorem read_of_missing (open_ : d.Reads s)
    (more : s.samplesRead < s.header.sampleCount)
    (missing : s.reader.rest.length < d.nextCount s * s.header.format.blockAlign.toNat) :
    ∃ reader : Reader,
      d.read = (.error (.audioUnread .shortRead), d.holding { s with reader }) ∧
      reader.bytes = s.reader.bytes ∧ reader.rest = [] := by
  obtain ⟨reader, reading, kept, empty⟩ := Reader.read_of_length_lt missing
  exact ⟨reader, by rw [read_of_more open_ more, reading], kept, empty⟩

/-- The next samples are not all left if the file ends before they do. -/
theorem missing_of_absent (stands : s.StandsIn bytes)
    (aligned : 0 < s.header.format.blockAlign.toNat)
    (more : s.samplesRead < s.header.sampleCount)
    (absent : bytes.length < s.header.dataStart + (s.samplesRead + d.nextCount s)
      * s.header.format.blockAlign.toNat) :
    s.reader.rest.length < d.nextCount s * s.header.format.blockAlign.toNat := by
  have some_ := Nat.mul_pos (d.nextCount_pos more) aligned
  rw [Nat.add_mul] at absent
  rw [stands.rest, List.length_drop]
  omega

/-- While there are samples left, the next of them can be read. -/
theorem read_of_lt_sampleCount (open_ : d.Reads s) (stands : s.StandsIn bytes)
    (present : s.header.dataStart + s.header.dataSize.toNat ≤ bytes.length)
    (more : s.samplesRead < s.header.sampleCount) :
    ∃ (count : Nat) (packet : Packet) (s' : Source), 0 < count ∧ count ≤ d.packetSamples ∧
      d.read = (.ok packet, d.holding s') ∧
      s.header.IsPacket bytes s.samplesRead count packet ∧ s'.StandsIn bytes ∧
      s'.header = s.header ∧ s'.samplesRead = s.samplesRead + count ∧
      s'.samplesRead ≤ s.header.sampleCount := by
  have within : s.samplesRead + d.nextCount s ≤ s.header.sampleCount := by
    rw [nextCount]
    omega
  have inside := s.header.le_length_of_present present within
  obtain ⟨s', reading, stands', header, further⟩ := read_of_present open_ stands more inside
  refine ⟨d.nextCount s, _, s', d.nextCount_pos more, Nat.min_le_left .., reading,
    Header.isPacket_packetAt inside, stands', header, further, ?_⟩
  rw [further]
  exact within

/-- A packet holds whole samples, so there is a frame of it. -/
theorem frameOf_of_isPacket {h : Header} {start count : Nat} {packet : Packet}
    (open_ : d.header? = some h) (decodable : h.IsDecodable)
    (holds : h.IsPacket bytes start count packet) :
    d.frameOf packet = .ok
        { planes := [packet.data]
          sampleCount := count
          rate := h.format.rate
          channels := h.format.channels
          format := h.format.samples
          pts := packet.pts
          duration := packet.duration } ∧
      count * h.format.channels.toNat * h.format.samples.size ≤ packet.data.length := by
  have whole : packet.size = count * h.format.blockAlign.toNat := holds.whole
  constructor
  · simp only [frameOf, open_, whole, Nat.mul_mod_left, ne_eq, not_true, if_false,
      Nat.mul_div_cancel _ decodable.blockAlign_pos]
  · apply Nat.le_of_eq
    rw [holds.whole, decodable.blockAlign, Nat.mul_assoc]

/-- The frame of a packet can be converted. -/
theorem toSingles_of_isPacket {h : Header} {start count : Nat} {packet : Packet}
    (open_ : d.header? = some h) (decodable : h.IsDecodable)
    (holds : h.IsPacket bytes start count packet) :
    ∃ frame, (d.frameOf packet).bind Frame.toSingles = .ok frame ∧
      h.IsFrame bytes start count frame := by
  obtain ⟨framed, long⟩ := frameOf_of_isPacket open_ decodable holds
  obtain ⟨frame, converted, converts⟩ := @Frame.toSingles_of_packed
    { planes := [packet.data]
      sampleCount := count
      rate := h.format.rate
      channels := h.format.channels
      format := h.format.samples
      pts := packet.pts
      duration := packet.duration }
    packet.data decodable.known decodable.packed rfl long
  refine ⟨frame, ?_, ?_⟩
  · rw [framed]
    exact converted
  · refine ⟨converts.sampleCount, converts.rate, converts.channels, converts.format,
      converts.check, converts.pts.trans holds.pts, ?_⟩
    intro c inRange
    rw [Encoder.vorbisSamples_of_converts converts inRange]
    apply List.map_congr_left
    intro i member
    have from_ := ChannelLayout.source_lt inRange
    show Sample.ofPlane h.format.samples packet.data
      (i * h.format.channels.toNat + ChannelLayout.source h.format.channels.toNat c) = _
    rw [holds.ofPlane decodable (Frame.position_lt (List.mem_range.mp member) from_),
      Header.sample, Nat.add_mul, Nat.add_assoc]

/-- Reading on is at the end of the stream, or it gives a frame of the samples that follow. -/
theorem next_of_standsIn (open_ : d.Reads s) (stands : s.StandsIn bytes)
    (decodable : s.header.IsDecodable)
    (present : s.header.dataStart + s.header.dataSize.toNat ≤ bytes.length)
    (within : s.samplesRead ≤ s.header.sampleCount) :
    (s.samplesRead = s.header.sampleCount ∧ (d.refresh bytes).read = (.error .endOfStream, d)) ∨
    ∃ (count : Nat) (packet : Packet) (s' : Source) (frame : Frame), 0 < count ∧
      count ≤ d.packetSamples ∧
      (d.refresh bytes).read = (.ok packet, d.holding s') ∧
      ((d.holding s').frameOf packet).bind Frame.toSingles = .ok frame ∧
      s.header.IsFrame bytes s.samplesRead count frame ∧ s'.StandsIn bytes ∧
      s'.header = s.header ∧ s'.samplesRead = s.samplesRead + count ∧
      s'.samplesRead ≤ s.header.sampleCount := by
  rw [refresh_of_standsIn open_ stands]
  by_cases all : s.header.sampleCount ≤ s.samplesRead
  · exact .inl ⟨by omega, read_of_sampleCount_le open_ all⟩
  · obtain ⟨count, packet, s', some_, few, reading, holds, stands', header, further, within'⟩ :=
      read_of_lt_sampleCount open_ stands present (Nat.lt_of_not_le all)
    obtain ⟨frame, converted, holds'⟩ :=
      @toSingles_of_isPacket (d.holding s') bytes s.header _ _ packet
        (congrArg some header) decodable holds
    exact .inr ⟨count, packet, s', frame, some_, few, reading, converted, holds', stands', header,
      further, within'⟩

end Demuxer

end VorbisTrack.Wav
