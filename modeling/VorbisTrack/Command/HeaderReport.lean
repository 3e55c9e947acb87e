import VorbisTrack.Command.Encode
import VorbisTrack.Command.Json

/-!
# Telling of header packets
-/

set_option autoImplicit false

namespace VorbisTrack.Command

structure HeaderReport where
  file : String
  rate : UInt32
  channels : UInt16
  rateControl : RateControl
  headers : HeaderPackets

namespace HeaderReport

/-- The rate control in words. Qualities are told on the scale that callers use. -/
def describe : RateControl → String
  | .vbr quality => "vbr quality " ++ float32Fixed 2 (quality * 10)
  | .managed nominal min max =>
    let limit : Option Int64 → String
      | some rate => toString rate.toInt
      | none => "unset"
    s!"managed nominal {nominal.toInt} min {limit min} max {limit max}"

def layout (h : HeaderPackets) : List String :=
  let identification := h.identification.length
  let comment := h.comment.length
  let lacing :=
    Lacing.packedSize identification - identification + (Lacing.packedSize comment - comment)
  [ "count: 1", s!"lacing: {lacing}", s!"identification: {identification}",
    s!"comment: {comment}", s!"setup: {h.setup.length}" ]

def text (r : HeaderReport) : String :=
  let lines :=
    [ s!"File: {r.file}",
      s!"  Sample Rate: {r.rate.toNat} Hz",
      s!"  Channels: {r.channels.toNat}",
      s!"  Rate Control: {describe r.rateControl}",
      s!"  Frame Size: {Encoder.frameSize}",
      "Headers:",
      s!"  Identification: {r.headers.identification.length} bytes",
      s!"  Comment: {r.headers.comment.length} bytes",
      s!"  Setup: {r.headers.setup.length} bytes",
      s!"Extradata: {r.headers.extradataSize} bytes" ]
  String.join ((lines ++ (layout r.headers).map ("  " ++ ·)).map (· ++ "\n"))

def json (r : HeaderReport) : String :=
  Json.object 0
    [ ("file", Json.quoted r.file),
      ("sample_rate", toString r.rate.toNat),
      ("channels", toString r.channels.toNat),
      ("rate_control", Json.quoted (describe r.rateControl)),
      ("frame_size", toString Encoder.frameSize),
      ("identification_bytes", toString r.headers.identification.length),
      ("comment_bytes", toString r.headers.comment.length),
      ("setup_bytes", toString r.headers.setup.length),
      ("extradata_bytes", toString r.headers.extradataSize),
      ("extradata_layout", Json.array 1 ((layout r.headers).map Json.quoted)) ] ++ "\n"

def ofInput {σ : Type} (lib : Library σ) (tuning : Tuning) (input : String) (files : FileTree) :
    Except Fault HeaderReport := do
  let source ← openInput input files
  let format := source.header.format
  let settings ← tuning.settings format.rate format.channels
  let encoder ← (Encoder.open lib settings).1.mapError Fault.failed
  return {
    file := input
    rate := format.rate
    channels := format.channels
    rateControl := encoder.options.rateControl
    headers := encoder.headers }

end HeaderReport

end VorbisTrack.Command
