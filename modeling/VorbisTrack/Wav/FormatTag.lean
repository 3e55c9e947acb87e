/-!
# Format tags of a WAVE file
-/

set_option autoImplicit false

namespace VorbisTrack.Wav

inductive FormatTag
  | pcm
  | ieeeFloat
  | extensible
  | unknown (value : UInt16)
  deriving DecidableEq

namespace FormatTag

def ofWord (value : UInt16) : FormatTag :=
  if value = 0x0001 then .pcm
  else if value = 0x0003 then .ieeeFloat
  else if value = 0xFFFE then .extensible
  else .unknown value

def word : FormatTag → UInt16
  | .pcm => 0x0001
  | .ieeeFloat => 0x0003
  | .extensible => 0xFFFE
  | .unknown value => value

def name : FormatTag → String
  | .pcm => "Pcm"
  | .ieeeFloat => "IeeeFloat"
  | .extensible => "Extensible"
  | .unknown value => "Unknown(" ++ toString value.toNat ++ ")"

end FormatTag

end VorbisTrack.Wav
