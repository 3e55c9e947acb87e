import VorbisTrack.Frame

/-!
# Conversion of samples to 32-bit floating point

Integer samples are scaled to the range from -1 up to 1, floating-point samples keep their value.
The result is the nearest 32-bit word; a 32-bit sample passes bit for bit.
-/

set_option autoImplicit false

namespace VorbisTrack

/-- The word nearest to `value · 2 ^ exponent`. -/
def Sample.ofInteger (value : Int) (exponent : Int) : Sample :=
  .ofNat (BinaryFormat.single.ofScaled (value < 0) value.natAbs exponent)

/-- The integer whose two's complement form in `bits` bits this is. -/
def signedValue (bits word : Nat) : Int :=
  Int.bmod word (2 ^ bits)

def Sample.decode (format : SampleFormat) (bytes : Bytes) : Sample :=
  let word := Bytes.littleValue bytes
  match format with
  | .u8 | .u8p => .ofInteger (word - 128) (-7)
  | .s16 | .s16p => .ofInteger (signedValue 16 word) (-15)
  | .s32 | .s32p => .ofInteger (signedValue 32 word) (-31)
  | .flt | .fltp => .ofNat word
  | .dbl | .dblp => .ofNat (BinaryFormat.single.ofValue (BinaryFormat.double.decode word))
  | .unknown => 0

namespace Frame

def sampleAt (plane : Array UInt8) (size position : Nat) : Bytes :=
  (plane.extract (position * size) (position * size + size)).toList

/-- The samples of a frame in 32-bit floating point, channels alternating. -/
def singles (frame : Frame) : Except Failure (List Sample) :=
  if frame.format = .unknown then .error .unknownSampleFormat
  else
    match frame.check with
    | .error failure => .error failure
    | .ok () =>
      let decode (plane : Array UInt8) (position : Nat) : Sample :=
        .decode frame.format (sampleAt plane frame.format.size position)
      if frame.format.isPlanar then
        let planes := (frame.planes.take frame.channels.toNat).map List.toArray
        .ok ((List.range frame.sampleCount).flatMap fun i => planes.map fun p => decode p i)
      else
        let plane := (frame.planes.headD []).toArray
        .ok ((List.range frame.totalSamples).map fun i => decode plane i)

/-- The frame in packed 32-bit floating point, with its timing and layout. A frame that already
has this format is handed back as it is. -/
def toSingles (frame : Frame) : Except Failure Frame :=
  if frame.format = .flt then .ok frame
  else
    frame.singles.map fun samples =>
      { frame with planes := [sampleBytes samples], format := .flt }

end Frame

end VorbisTrack
