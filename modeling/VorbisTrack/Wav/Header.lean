import VorbisTrack.Storage.Reader
import VorbisTrack.Wav.Format

/-!
# The header of a WAVE file

A WAVE file is a row of chunks behind the word `RIFF`, a size that is not looked at, and the word
`WAVE`. A chunk has a name of four bytes, a size and a body; a body of odd size is followed by a
byte of padding. Reading the header stops at the start of the data chunk's body.
-/

set_option autoImplicit false

namespace VorbisTrack.Wav

structure ChunkHeader where
  name : Bytes
  size : UInt32
  deriving DecidableEq

namespace ChunkHeader

def length : Nat := 8

def ofBytes? (bytes : Bytes) : Option ChunkHeader :=
  if bytes.length < length then none
  else some ⟨bytes.take 4, Format.word bytes 4⟩

def toBytes (c : ChunkHeader) : Bytes :=
  c.name ++ Bytes.littleEndian 4 c.size.toNat

/-- Bytes of the body and of its padding. -/
def paddedSize (c : ChunkHeader) : Nat :=
  c.size.toNat + c.size.toNat % 2

end ChunkHeader

def riffName : Bytes := [0x52, 0x49, 0x46, 0x46]

def waveName : Bytes := [0x57, 0x41, 0x56, 0x45]

def formatName : Bytes := [0x66, 0x6d, 0x74, 0x20]

def dataName : Bytes := [0x64, 0x61, 0x74, 0x61]

structure Header where
  format : Format
  /-- Bytes of sample data. -/
  dataSize : UInt32
  /-- The position at which they start. -/
  dataStart : Nat

namespace Header

/-- Samples per channel. -/
def sampleCount (h : Header) : Nat :=
  h.dataSize.toNat / h.format.blockAlign.toNat

def seconds (h : Header) : Float :=
  Float.ofNat h.sampleCount / h.format.rate.toFloat

/-- The data size that counts: a size of zero, or of all ones, stands for what is left of the file.
To find out, the reader goes to the end of the file and back. -/
def settleSize (stated : UInt32) (r : Reader) : UInt32 × Reader :=
  if stated = 0 ∨ stated = 0xFFFFFFFF then
    let ending := r.seekEnd
    (.ofNat (min (ending.position - r.position) 0xFFFFFFFF), ending.seek r.position)
  else (stated, r)

/-- Reads chunks up to the data chunk. The last format chunk before it counts. -/
def readChunks (format : Option Format) (r : Reader) : Except Failure (Header × Reader) :=
  match _name : r.read ChunkHeader.length with
  | (none, _) => .error .noDataChunk
  | (some bytes, r') =>
    match ChunkHeader.ofBytes? bytes with
    | none => .error .noDataChunk
    | some chunk =>
      if chunk.name = formatName then
        match _body : r'.read chunk.size.toNat with
        | (none, _) => .error (.formatChunkUnread .shortRead)
        | (some body, r'') =>
          match Format.ofBytes body with
          | .error failure => .error failure
          | .ok found =>
            match found.check with
            | .error failure => .error failure
            | .ok () => readChunks (some found) (r''.seek (r''.position + chunk.size.toNat % 2))
      else if chunk.name = dataName then
        match format with
        | none => .error .dataBeforeFormat
        | some format =>
          let (dataSize, ready) := settleSize chunk.size r'
          .ok ({ format, dataSize, dataStart := r'.position }, ready)
      else readChunks format (r'.seek (r'.position + chunk.paddedSize))
termination_by r.remaining
decreasing_by
  · have fewer := Reader.remaining_lt_of_read (by decide) _name
    have noMore := Reader.remaining_le_of_read _body
    exact Nat.lt_of_le_of_lt (Reader.remaining_seek_le (Nat.le_add_right ..))
      (Nat.lt_of_le_of_lt noMore fewer)
  · have fewer := Reader.remaining_lt_of_read (by decide) _name
    exact Nat.lt_of_le_of_lt (Reader.remaining_seek_le (Nat.le_add_right ..)) fewer

/-- Reads the header from the start of a file. The reader that comes with it stands at the start of
the sample data. -/
def read (bytes : Bytes) : Except Failure (Header × Reader) :=
  match Reader.read { bytes } 12 with
  | (none, _) => .error (.riffHeaderUnread .shortRead)
  | (some start, r) =>
    if start.take 4 ≠ riffName then .error .notRiff
    else if start.drop 8 ≠ waveName then .error .notWave
    else readChunks none r

end Header

end VorbisTrack.Wav
