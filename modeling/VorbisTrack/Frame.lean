import VorbisTrack.Bytes
import VorbisTrack.Failure
import VorbisTrack.Timestamp

/-!
# Frames of uncompressed audio

A frame holds its samples in planes: one plane with alternating channels for the packed formats,
one plane for every channel for the planar ones. Nothing ties the planes to the counts beside
them; `Frame.check` tells whether they hold enough bytes.
-/

set_option autoImplicit false

namespace VorbisTrack

/-- A sample as the word of a 32-bit floating-point number. Samples are carried as words, so every
one of them, NaNs included, arrives bit for bit. -/
abbrev Sample := UInt32

structure Frame where
  planes : List Bytes := []
  /-- Samples per channel. -/
  sampleCount : Nat
  rate : UInt32
  channels : UInt16
  format : SampleFormat
  pts : Timestamp := .unknown
  duration : Int64 := 0

namespace Frame

def planeCount (frame : Frame) : Nat :=
  if frame.format.isPlanar then frame.channels.toNat else 1

/-- Samples over all channels. Counts of samples and bytes have no bound here; a frame with more
than a word can tell of does not pass its check, as no planes are that long. -/
def totalSamples (frame : Frame) : Nat :=
  frame.sampleCount * frame.channels.toNat

def planeBytes (frame : Frame) : Nat :=
  (if frame.format.isPlanar then frame.sampleCount else frame.totalSamples) * frame.format.size

/-- The first plane of a list that holds fewer than `need` bytes, with its position and size. -/
def firstShort? (need : Nat) : Nat → List Bytes → Option (Nat × Nat)
  | _, [] => none
  | index, plane :: rest =>
    if plane.length < need then some (index, plane.length) else firstShort? need (index + 1) rest

/-- Checks that the planes are there and hold enough bytes. Further planes and bytes do not
matter. -/
def check (frame : Frame) : Except Failure Unit :=
  if frame.planes.length < frame.planeCount then
    .error (.missingPlanes frame.planes.length frame.format frame.channels frame.planeCount)
  else
    match firstShort? frame.planeBytes 0 (frame.planes.take frame.planeCount) with
    | some (index, bytes) =>
      .error (.shortPlane index bytes frame.sampleCount frame.planeBytes)
    | none => .ok ()

def sampleBytes (samples : List Sample) : Bytes :=
  samples.flatMap fun s => Bytes.littleEndian 4 s.toNat

/-- A packed frame of samples with alternating channels. An incomplete last sample stays in the
plane but is not counted. -/
def ofInterleaved (samples : List Sample) (rate : UInt32) (channels : UInt16) : Frame :=
  let count := samples.length / channels.toNat
  { planes := [sampleBytes samples]
    sampleCount := count
    rate
    channels
    format := .flt
    duration := Int64.ofNat count }

end Frame

end VorbisTrack
