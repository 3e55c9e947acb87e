import VorbisTrack.Bytes
import VorbisTrack.Failure

/-!
# The format of a WAVE file
-/

set_option autoImplicit false

namespace VorbisTrack.Wav

/-- What the format chunk of a WAVE file says of its samples. -/
structure Format where
  /-- The encoding; for an extensible chunk the one it refers to. -/
  tag : FormatTag
  channels : UInt16
  rate : UInt32
  /-- Bytes per second, as stated. -/
  byteRate : UInt32
  /-- Bytes of one sample over all channels, as stated. -/
  blockAlign : UInt16
  /-- Bits of one sample of one channel. -/
  sampleBits : UInt16
  /-- The speakers that an extensible chunk names. -/
  channelMask : Option UInt32

namespace Format

def half (bytes : Bytes) (offset : Nat) : UInt16 :=
  .ofNat (Bytes.littleValue ((bytes.drop offset).take 2))

def word (bytes : Bytes) (offset : Nat) : UInt32 :=
  .ofNat (Bytes.littleValue ((bytes.drop offset).take 4))

/-- Reads the body of a format chunk. An extensible one holds a speaker mask and the tag of the
encoding further on. -/
def ofBytes (bytes : Bytes) : Except Failure Format :=
  if bytes.length < 16 then .error .formatChunkTooSmall
  else
    let stated : Format :=
      { tag := .ofWord (half bytes 0)
        channels := half bytes 2
        rate := word bytes 4
        byteRate := word bytes 8
        blockAlign := half bytes 12
        sampleBits := half bytes 14
        channelMask := none }
    if stated.tag ≠ .extensible then .ok stated
    else if bytes.length < 40 then .error .extensibleChunkTooSmall
    else .ok { stated with tag := .ofWord (half bytes 24), channelMask := some (word bytes 20) }

def samples (f : Format) : SampleFormat :=
  match f.tag with
  | .pcm =>
    if f.sampleBits = 8 then .u8
    else if f.sampleBits = 16 then .s16
    else if f.sampleBits = 32 then .s32
    else .unknown
  | .ieeeFloat =>
    if f.sampleBits = 32 then .flt
    else if f.sampleBits = 64 then .dbl
    else .unknown
  | _ => .unknown

/-- The bytes that one sample over all channels takes. They have to fit into their 16-bit field. -/
def expectedBlockAlign (f : Format) : Except Failure UInt16 :=
  let bytes := f.channels.toNat * (f.sampleBits.toNat / 8)
  if bytes < 2 ^ 16 then .ok (.ofNat bytes)
  else .error (.blockAlignOverflow f.channels f.sampleBits)

def check (f : Format) : Except Failure Unit :=
  if f.channels = 0 then .error .noChannels
  else if f.rate = 0 then .error .noSampleRate
  else if f.sampleBits = 0 ∨ f.sampleBits % 8 ≠ 0 then .error (.invalidSampleBits f.sampleBits)
  else
    match f.expectedBlockAlign with
    | .error failure => .error failure
    | .ok expected =>
      if f.blockAlign ≠ expected then .error (.blockAlignMismatch expected f.blockAlign)
      else .ok ()

end Format

end VorbisTrack.Wav
