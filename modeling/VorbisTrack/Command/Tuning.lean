import VorbisTrack.Command.Arguments
import VorbisTrack.Command.Bitrate
import VorbisTrack.EncodingOptions
import VorbisTrack.Numeric.Shortest

/-!
# Tuning of the encoder on the command line
-/

set_option autoImplicit false

namespace VorbisTrack.Command

/-- The wishes for the encoder that both commands take. Bitrates are read when they are used. -/
structure Tuning where
  quality : Option Float32 := none
  bitrate : Option String := none
  minRate : Option String := none
  maxRate : Option String := none
  cutoff : Option UInt32 := none
  blockBias : Option Float := none
  comments : List String := []

namespace Tuning

def options : List OptionName :=
  [.quality, .bitrate, .minRate, .maxRate, .cutoff, .blockBias, .comment]

def ofScanned (s : Scanned) : Tuning :=
  { quality := (s.value? .quality).bind fun v => (readFloat32 v.toList).toOption
    bitrate := s.value? .bitrate
    minRate := s.value? .minRate
    maxRate := s.value? .maxRate
    cutoff := (s.value? .cutoff).bind readCutoff
    blockBias := (s.value? .blockBias).bind fun v => (readFloat v.toList).toOption
    comments := s.values .comment }

/-- Name and value of a tag, which are separated by the first equals sign. -/
def readComment (comment : String) : Except Fault (String × String) :=
  match splitFirst? '=' comment.toList with
  | some (key, value) => .ok (String.ofList key, String.ofList value)
  | none => .error (.malformedComment comment)

def settings (t : Tuning) (rate : UInt32) (channels : UInt16) : Except Fault Settings := do
  let bitRate ← t.bitrate.mapM Bitrate.read
  let minRate ← t.minRate.mapM Bitrate.read
  let maxRate ← t.maxRate.mapM Bitrate.read
  let comments ← t.comments.mapM readComment
  return {
    codec := "vorbis"
    rate
    channels
    bitRate := bitRate.getD 0
    quality := t.quality
    minRate
    maxRate
    cutoff := t.cutoff
    comments
    options := t.blockBias.toList.map fun bias => (EncodingOptions.blockBiasName, floatText bias) }

end Tuning

end VorbisTrack.Command
