import VorbisTrack.Bytes
import VorbisTrack.Rational
import VorbisTrack.SampleFormat

/-!
# Streams
-/

set_option autoImplicit false

namespace VorbisTrack

structure AudioInfo where
  rate : UInt32
  channels : UInt16
  /-- Unknown for compressed streams. -/
  format : SampleFormat := .unknown
  bitRate : Option UInt64 := none

structure Stream where
  /-- The number by which packets name the stream. -/
  index : Nat
  media : MediaType
  codec : String
  timeBase : Rational
  /-- In ticks of the time base. -/
  duration : Int64 := 0
  /-- Texts by name, sorted by name. -/
  metadata : List (String × String) := []
  audio : Option AudioInfo := none
  /-- The codec's private data. -/
  extradata : Option Bytes := none

namespace Stream

/-- A stream of which only the medium and the codec are known, ticking in milliseconds. -/
def ofMedia (index : Nat) (media : MediaType) (codec : String) : Stream :=
  { index, media, codec, timeBase := .reduced 1 1000 }

/-- An audio stream that ticks once for every sample. -/
def ofAudio (index : Nat) (codec : String) (audio : AudioInfo) : Stream :=
  { index, media := .audio, codec, timeBase := .perSample audio.rate, audio := some audio }

def seconds (stream : Stream) : Float :=
  stream.duration.toFloat * stream.timeBase.toFloat

end Stream

end VorbisTrack
