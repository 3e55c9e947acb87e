/-!
# Channel order

Input frames order their channels front left, front right, front centre, low frequency, back left,
back right, side left, side right. A Vorbis stream of up to eight channels places the centre
between the fronts and the low-frequency channel last. Streams with more channels have no defined
order and keep that of the input.
-/

set_option autoImplicit false

namespace VorbisTrack

namespace ChannelLayout

/-- For a channel count from one to eight, the input channel that feeds each Vorbis channel. -/
def order? : Nat → Option (List Nat)
  | 1 => some [0]
  | 2 => some [0, 1]
  | 3 => some [0, 2, 1]
  | 4 => some [0, 1, 2, 3]
  | 5 => some [0, 2, 1, 3, 4]
  | 6 => some [0, 2, 1, 4, 5, 3]
  | 7 => some [0, 2, 1, 5, 6, 4, 3]
  | 8 => some [0, 2, 1, 6, 7, 4, 5, 3]
  | _ => none

/-- The input channel that feeds a Vorbis channel. -/
def source (channels channel : Nat) : Nat :=
  match order? channels with
  | some order => order.getD channel channel
  | none => channel

def sources (channels : Nat) : List Nat :=
  (List.range channels).map (source channels)

def name : Nat → String
  | 1 => "mono"
  | 2 => "stereo"
  | 3 => "3.0"
  | 4 => "quad"
  | 5 => "5.0"
  | 6 => "5.1"
  | 7 => "6.1"
  | 8 => "7.1"
  | _ => "unknown"

end ChannelLayout

end VorbisTrack
