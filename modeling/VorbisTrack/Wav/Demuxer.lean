import VorbisTrack.Frame
import VorbisTrack.Packet
import VorbisTrack.Storage.FileTree
import VorbisTrack.Stream
import VorbisTrack.Wav.Header

/-!
# Reading packets from a WAVE file

A demuxer cuts the sample data of a file into packets of a given count of samples. It holds at
most one file at a time; a file that cannot be opened leaves the one before it in place.
-/

set_option autoImplicit false

namespace VorbisTrack.Wav

structure Source where
  header : Header
  reader : Reader
  /-- Samples per channel that have been read. -/
  samplesRead : Nat := 0

structure Demuxer where
  reader : Option Reader := none
  streams : List Stream := []
  header? : Option Header := none
  /-- Samples per channel in each packet. -/
  packetSamples : Nat := 1024
  packetSamples_pos : 0 < packetSamples := by decide
  /-- Samples per channel that have been read. -/
  samplesRead : Nat := 0
  /-- Samples per channel that the file states. -/
  totalSamples : Nat := 0

namespace Header

def isSupported (h : Header) : Bool :=
  (h.format.tag == .pcm || h.format.tag == .ieeeFloat) && h.format.samples.size != 0

def stream (h : Header) : Stream :=
  { Stream.ofAudio 0 "pcm"
      { rate := h.format.rate
        channels := h.format.channels
        format := h.format.samples
        bitRate := some (h.format.byteRate.toUInt64 * 8) } with
    duration := Int64.ofNat h.sampleCount
    metadata := [("duration", floatFixed 2 h.seconds ++ "s")] }

end Header

namespace Demuxer

def withPacketSamples (d : Demuxer) (samples : Nat) : Demuxer :=
  { d with packetSamples := max samples 1, packetSamples_pos := by omega }

def openNode (node : Except FileFault Node) : Except Failure Source :=
  match node with
  | .error fault => .error (.wavUnopened fault)
  | .ok .directory => .error (.riffHeaderUnread .isDirectory)
  | .ok (.file bytes) =>
    match Header.read bytes with
    | .error failure => .error failure
    | .ok (header, reader) =>
      if header.isSupported then .ok { header, reader := reader.seek header.dataStart }
      else .error (.unsupportedWav header.format.tag header.format.sampleBits)

/-- The demuxer when it has taken over a file that could be opened. -/
def holding (d : Demuxer) (source : Source) : Demuxer :=
  { d with
    reader := some source.reader
    streams := [source.header.stream]
    header? := some source.header
    samplesRead := source.samplesRead
    totalSamples := source.header.sampleCount }

def «open» (d : Demuxer) (tree : FileTree) (path : Path) : Except Failure Unit × Demuxer :=
  match openNode (tree.read path) with
  | .error failure => (.error failure, d)
  | .ok source => (.ok (), d.holding source)

/-- The demuxer after its file has got other bytes. -/
def refresh (d : Demuxer) (bytes : Bytes) : Demuxer :=
  { d with reader := d.reader.map fun reader => reader.refresh bytes }

def close (d : Demuxer) : Demuxer :=
  { d with reader := none, streams := [], header? := none, samplesRead := 0, totalSamples := 0 }

/-- Reads the next packet. If its bytes are not all there, what is left of the file is used up. -/
def read (d : Demuxer) : Except Failure Packet × Demuxer :=
  match d.reader with
  | none => (.error .notOpened, d)
  | some reader =>
    match d.header? with
    | none => (.error .noHeader, d)
    | some header =>
      if d.totalSamples ≤ d.samplesRead then (.error .endOfStream, d)
      else
        let samples := min d.packetSamples (d.totalSamples - d.samplesRead)
        match reader.read (samples * header.format.blockAlign.toNat) with
        | (none, reader) => (.error (.audioUnread .shortRead), { d with reader := some reader })
        | (some data, reader) =>
          (.ok
            ({ Packet.audio 0 data with
                isKey := true
                duration := Int64.ofNat samples }.stamped ⟨Int64.ofNat d.samplesRead⟩),
            { d with reader := some reader, samplesRead := d.samplesRead + samples })

def seek (d : Demuxer) (target : Int64) : Except Failure Unit × Demuxer :=
  match d.reader with
  | none => (.error .notOpened, d)
  | some reader =>
    match d.header? with
    | none => (.error .noHeader, d)
    | some header =>
      if target < 0 ∨ (d.totalSamples : Int) < target.toInt then
        (.error (.seekOutOfRange target d.totalSamples), d)
      else
        let sample := target.toInt.toNat
        let position := header.dataStart + sample * header.format.blockAlign.toNat
        (.ok (), { d with reader := some (reader.seek position), samplesRead := sample })

def frameOf (d : Demuxer) (packet : Packet) : Except Failure Frame :=
  match d.header? with
  | none => .error .notOpened
  | some h =>
    let blockAlign := h.format.blockAlign.toNat
    if packet.size % blockAlign ≠ 0 then .error (.unevenPacket packet.size blockAlign)
    else
      .ok
        { planes := [packet.data]
          sampleCount := packet.size / blockAlign
          rate := h.format.rate
          channels := h.format.channels
          format := h.format.samples
          pts := packet.pts
          duration := packet.duration }

/-! ## Reading all there is -/

/-- Samples per channel that have not been read. -/
def samplesLeft (d : Demuxer) : Nat :=
  d.totalSamples - d.samplesRead

/-- Other bytes in the file are no other count of samples. -/
@[simp] theorem samplesLeft_refresh (d : Demuxer) (bytes : Bytes) :
    (d.refresh bytes).samplesLeft = d.samplesLeft :=
  rfl

/-- Reading a packet uses samples up. -/
theorem samplesLeft_read {d d' : Demuxer} {packet : Packet} (h : d.read = (.ok packet, d')) :
    d'.samplesLeft < d.samplesLeft := by
  have pos := d.packetSamples_pos
  simp only [read] at h
  split at h
  · simp at h
  · split at h
    · simp at h
    · split at h
      · simp at h
      · next more =>
        split at h
        · simp at h
        · simp only [Prod.mk.injEq] at h
          obtain ⟨-, rfl⟩ := h
          simp only [samplesLeft]
          omega

/-- Reads packets until one is missing. The failure tells why. -/
def readAll (d : Demuxer) : List Packet × Failure × Demuxer :=
  match _read : d.read with
  | (.error failure, d') => ([], failure, d')
  | (.ok packet, d') =>
    let (packets, failure, d'') := d'.readAll
    (packet :: packets, failure, d'')
termination_by d.samplesLeft
decreasing_by exact samplesLeft_read _read

end Demuxer

end VorbisTrack.Wav
