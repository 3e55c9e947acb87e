import VorbisTrack.Rational

/-!
# Encoder settings

The generic knobs of an audio encoder, as a caller sets them. What a codec makes of them is
decided when its options are resolved.
-/

set_option autoImplicit false

namespace VorbisTrack

/-- A caller's wishes for an encoder. -/
structure Settings where
  codec : String
  rate : UInt32
  channels : UInt16
  /-- The wanted bits per second; zero asks for a quality instead. -/
  bitRate : UInt64 := 0
  /-- The wanted quality on the codec's own scale. -/
  quality : Option Float32 := none
  minRate : Option UInt64 := none
  maxRate : Option UInt64 := none
  /-- The lowpass frequency in hertz. -/
  cutoff : Option UInt32 := none
  /-- The time base of the packets, if it is not one tick per sample. -/
  chosenTimeBase : Option Rational := none
  streamIndex : Nat := 0
  /-- Tags for the comment header, in order. -/
  comments : List (String × String) := []
  /-- The codec's private options, sorted by name, each name once. -/
  options : List (String × String) := []

namespace Settings

def timeBase (s : Settings) : Rational :=
  s.chosenTimeBase.getD (.perSample s.rate)

/-- Puts an entry in its place among sorted ones. An entry of the same name is replaced. -/
def insertSorted (name value : String) : List (String × String) → List (String × String)
  | [] => [(name, value)]
  | (n, v) :: rest =>
    if name = n then (name, value) :: rest
    else if name < n then (name, value) :: (n, v) :: rest
    else (n, v) :: insertSorted name value rest

def withOption (s : Settings) (name value : String) : Settings :=
  { s with options := insertSorted name value s.options }

def option? (s : Settings) (name : String) : Option String :=
  s.options.lookup name

end Settings

end VorbisTrack
