import VorbisTrack.Command.Tuning
import VorbisTrack.Encoder
import VorbisTrack.Frame.Singles
import VorbisTrack.Matroska.Muxer
import VorbisTrack.Wav.Demuxer

/-!
# Encoding WAVE files

The samples of a WAVE file go through the encoder packet by packet, and after each of them all
compressed packets that have become ready are written. `Job` is the state of this, apart from the
reader of the WAVE file. That file may be the one that is written; it is then read as it has become.
-/

set_option autoImplicit false

namespace VorbisTrack.Command

variable {σ : Type} {lib : Library σ}

/-- Counts of what has been encoded. They have no bound of their own, but none is more than the
bytes of the files. -/
structure Tally where
  /-- Samples per channel. -/
  samples : Nat := 0
  packets : Nat := 0
  /-- Bytes of all packets. -/
  bytes : Nat := 0
  deriving DecidableEq

namespace Tally

def count (t : Tally) (packet : Packet) : Tally :=
  { t with packets := t.packets + 1, bytes := t.bytes + packet.size }

def kilobitRate (t : Tally) (rate : UInt32) : Float :=
  let seconds := Float.ofNat t.samples / rate.toFloat
  if 0 < seconds then Float.ofNat t.bytes * 8 / seconds / 1000 else 0

end Tally

structure Job {σ : Type} (lib : Library σ) where
  /-- The file that is read. -/
  input : Path
  encoder : Encoder lib
  muxer : Matroska.Muxer
  files : FileTree
  tally : Tally := {}

namespace Job

/-- Writes packets as they are received, up to one that cannot be written. Otherwise the answer is
the failure that receiving ends with. -/
def drain (job : Job lib) : Except Failure Failure × Job lib :=
  match _received : job.encoder.receive with
  | (.error failure, encoder) => (.ok failure, { job with encoder })
  | (.ok packet, encoder) =>
    match job.muxer.writePacket packet job.files with
    | (.error failure, muxer, files) =>
      (.error failure, { job with encoder, muxer, files, tally := job.tally.count packet })
    | (.ok (), muxer, files) =>
      drain { job with encoder, muxer, files, tally := job.tally.count packet }
termination_by job.encoder.remaining
decreasing_by exact Encoder.remaining_receive job.encoder packet encoder _received

/-- Writes packets as they are received, and fails unless receiving ends in the expected way. -/
def drainUntil (expected : FailureKind) (job : Job lib) : Except Failure Unit × Job lib :=
  match job.drain with
  | (.error failure, job) => (.error failure, job)
  | (.ok failure, job) => (if failure.kind = expected then .ok () else .error failure, job)

def encode (job : Job lib) (frame : Frame) : Except Failure Unit × Job lib :=
  match job.encoder.send frame with
  | (.error failure, encoder) => (.error failure, { job with encoder })
  | (.ok (), encoder) =>
    let tally := { job.tally with samples := job.tally.samples + frame.sampleCount }
    drainUntil .tryAgain { job with encoder, tally }

def inputBytes (job : Job lib) : Bytes :=
  match job.files.read job.input with
  | .ok (.file bytes) => bytes
  | _ => []

/-- Encodes all that is left to read of a file. -/
def encodeAll (demuxer : Wav.Demuxer) (job : Job lib) : Except Failure Unit × Job lib :=
  match _read : (demuxer.refresh job.inputBytes).read with
  | (.error failure, _) =>
    (if failure.kind = .endOfStream then .ok () else .error failure, job)
  | (.ok packet, demuxer') =>
    match (demuxer'.frameOf packet).bind Frame.toSingles with
    | .error failure => (.error failure, job)
    | .ok frame =>
      match job.encode frame with
      | (.error failure, job) => (.error failure, job)
      | (.ok (), job) => encodeAll demuxer' job
termination_by demuxer.samplesLeft
decreasing_by simpa using Wav.Demuxer.samplesLeft_read _read

/-- Ends the stream: writes the packets that are left, and the trailer. -/
def finish (job : Job lib) : Except Failure Unit × Job lib :=
  match job.encoder.flush with
  | (.error failure, encoder) => (.error failure, { job with encoder })
  | (.ok (), encoder) =>
    match drainUntil .endOfStream { job with encoder } with
    | (.error failure, job) => (.error failure, job)
    | (.ok (), job) =>
      match job.muxer.writeTrailer job.files with
      | (result, muxer, files) => (result, { job with muxer, files })

def run (demuxer : Wav.Demuxer) (job : Job lib) : Except Failure Unit × Job lib :=
  match job.encodeAll demuxer with
  | (.error failure, job) => (.error failure, job)
  | (.ok (), job) => job.finish

def release (job : Job lib) : FileTree :=
  job.muxer.release job.files

end Job

def openInput (input : String) (files : FileTree) : Except Fault Wav.Source :=
  (Wav.Demuxer.openNode (files.read (.ofText input))).mapError (.inputNotOpened input)

def prepare (tuning : Tuning) (input : String) (files : FileTree) :
    Except Fault (Wav.Source × Settings) := do
  let source ← openInput input files
  let settings ← tuning.settings source.header.format.rate source.header.format.channels
  return (source, settings)

/-- The format in which an output file is written: the one that its name asks for, WebM if it asks
for none. -/
def formatOf (output : String) : String :=
  ((FormatInfo.ofPath? output).map FormatInfo.name).getD "webm"

def streamOf (encoder : Encoder lib) (settings : Settings) : Stream :=
  { Stream.ofAudio 0 "vorbis"
      { rate := settings.rate
        channels := settings.channels
        bitRate := if settings.bitRate = 0 then none else some settings.bitRate } with
    extradata := some encoder.extradata }

def begin (muxer : Matroska.Muxer) (stream : Stream) (files : FileTree) :
    Matroska.Muxer.Outcome Unit :=
  match muxer.addStream stream with
  | (.error failure, muxer) => (.error failure, muxer, files)
  | (.ok _, muxer) => muxer.writeHeader files

def openOutput (output : String) (stream : Stream) (files : FileTree) :
    Except Fault Matroska.Muxer × FileTree :=
  match Matroska.Muxer.ofFormat (formatOf output) with
  | .error failure => (.error (.failed failure), files)
  | .ok muxer =>
    match muxer.create (.ofText output) files with
    | (.error failure, _, files) => (.error (.outputNotCreated output failure), files)
    | (.ok (), muxer, files) =>
      match begin muxer stream files with
      | (.error failure, muxer, files) => (.error (.failed failure), muxer.release files)
      | (.ok (), muxer, files) => (.ok muxer, files)

/-- What the encoding of one file leaves behind. -/
structure Encoding where
  /-- What has been encoded and its sample rate, or why it was not. -/
  result : Except Fault (Tally × UInt32)
  /-- The calls of the library, the earliest first. -/
  calls : List Event := []
  files : FileTree

/-- Encodes one file. The output is created only after the encoder could be opened. -/
def encodeFile (lib : Library σ) (tuning : Tuning) (input output : String) (files : FileTree) :
    Encoding :=
  match prepare tuning input files with
  | .error fault => { result := .error fault, files }
  | .ok (source, settings) =>
    match Encoder.open lib settings with
    | (.error failure, calls) => { result := .error (.failed failure), calls, files }
    | (.ok encoder, _) =>
      match openOutput output (streamOf encoder settings) files with
      | (.error fault, files) => { result := .error fault, calls := encoder.close.trace, files }
      | (.ok muxer, files) =>
        let (result, job) :=
          Job.run (.holding {} source) { input := .ofText input, encoder, muxer, files }
        { result := (result.map fun () => (job.tally, settings.rate)).mapError .failed
          calls := job.encoder.close.trace
          files := job.release }

/-! ## Several files -/

def outputIn (directory input : String) : Except Fault String :=
  match (Path.ofText input).fileStem? with
  | some stem => .ok (Path.join directory (stem ++ ".webm"))
  | none => .error (.inputUnnamed input)

/-- The output file of every input. An output that names a file of a format that can be written is
for one input only; any other output is a directory, which is made if need be. -/
def outputPaths (inputs : List String) (output : String) (files : FileTree) :
    Except Fault (List String) × FileTree :=
  if (FormatInfo.ofPath? output).any FormatInfo.mux then
    (if 1 < inputs.length then .error (.outputShared inputs.length output) else .ok [output],
      files)
  else
    match files.ensureDirectories (.ofText output) with
    | .error fault => (.error (.directoryNotMade output fault), files)
    | .ok files => (inputs.mapM (outputIn output), files)

def encodeEach (lib : Library σ) (tuning : Tuning) :
    List (String × String) → FileTree →
      List ((String × String) × Except Fault (Tally × UInt32)) × FileTree
  | [], files => ([], files)
  | (input, output) :: rest, files =>
    let encoding := encodeFile lib tuning input output files
    let (results, files) := encodeEach lib tuning rest encoding.files
    (((input, output), encoding.result) :: results, files)

def tallyLine (input output : String) (tally : Tally) (rate : UInt32) : String :=
  s!"{input} -> {output}: {tally.samples} samples, {tally.packets} packets, " ++
    s!"{tally.bytes} bytes ({floatFixed 1 (tally.kilobitRate rate)} kbps)\n"

end VorbisTrack.Command
