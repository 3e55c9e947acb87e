/-!
# Sample formats
-/

set_option autoImplicit false

namespace VorbisTrack

/-- How the samples of a frame are laid out. In the planar formats every channel has a plane of
its own; otherwise the channels alternate in one plane. -/
inductive SampleFormat
  | u8 | s16 | s32 | flt | dbl
  | u8p | s16p | s32p | fltp | dblp
  | unknown
  deriving DecidableEq

namespace SampleFormat

def size : SampleFormat → Nat
  | .u8 | .u8p => 1
  | .s16 | .s16p => 2
  | .s32 | .s32p | .flt | .fltp => 4
  | .dbl | .dblp => 8
  | .unknown => 0

def isPlanar : SampleFormat → Bool
  | .u8p | .s16p | .s32p | .fltp | .dblp => true
  | _ => false

def isFloat : SampleFormat → Bool
  | .flt | .dbl | .fltp | .dblp => true
  | _ => false

def name : SampleFormat → String
  | .u8 => "u8"
  | .s16 => "s16"
  | .s32 => "s32"
  | .flt => "flt"
  | .dbl => "dbl"
  | .u8p => "u8p"
  | .s16p => "s16p"
  | .s32p => "s32p"
  | .fltp => "fltp"
  | .dblp => "dblp"
  | .unknown => "unknown"

def known : List SampleFormat :=
  [.u8, .s16, .s32, .flt, .dbl, .u8p, .s16p, .s32p, .fltp, .dblp]

def ofName (name : String) : SampleFormat :=
  (known.find? fun f => f.name == name).getD .unknown

end SampleFormat

inductive MediaType
  | video | audio | unknown
  deriving DecidableEq

def MediaType.name : MediaType → String
  | .video => "video"
  | .audio => "audio"
  | .unknown => "unknown"

end VorbisTrack
