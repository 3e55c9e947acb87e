import VorbisTrack.Matroska.Element
import VorbisTrack.Packet

/-!
# Blocks

A block holds one packet with the number of its track and its time relative to the cluster. All
times are in milliseconds.
-/

set_option autoImplicit false

namespace VorbisTrack.Matroska

structure Block where
  track : Nat
  /-- Milliseconds from the time of the cluster. -/
  offset : Nat
  data : Bytes
  deriving DecidableEq

/-- The number of a track as it stands in a block, in the fewest bytes that have room for it. All
bits set are kept free in every width; a number too large for eight bytes is written as zero. -/
def trackBytes (number : Nat) : Bytes :=
  match (List.range' 1 8).find? fun width => number + 1 < 2 ^ (7 * width) with
  | some width => markedInteger width number
  | none => markedInteger 8 0

namespace Block

def keyFlag : UInt8 := 0x80

/-- What stands in a block: the number of the track, the time in a signed word of 16 bits, the flag
and the packet. -/
def layOut (track : Nat) (time : Int16) (data : Bytes) : Bytes :=
  trackBytes track ++ Bytes.bigEndian 2 time.toUInt16.toNat ++ keyFlag :: data

/-- The body of a block. Of the offset it keeps 16 bits. -/
def body (b : Block) : Bytes :=
  layOut b.track (Int16.ofNat b.offset) b.data

theorem body_eq (b : Block) :
    b.body = trackBytes b.track ++ Bytes.bigEndian 2 b.offset ++ keyFlag :: b.data := by
  have word : (Int16.ofNat b.offset).toUInt16.toNat = b.offset % 256 ^ 2 := UInt16.toNat_ofNat'
  rw [body, layOut, word, Bytes.bigEndian_mod]

def encode (b : Block) : Bytes :=
  element 0xA3 b.body

end Block

/-- A time in whole milliseconds, rounded down. Times that are not positive, and times without a
valid base, count as zero. The product is a 128-bit word, and the result keeps its low 64 bits. -/
def milliseconds (base : Rational) (time : Timestamp) : Nat :=
  if base.isTimeBase ∧ 0 < time.ticks then
    let product := wrap128 (time.ticks.toInt * base.num.toInt * 1000000000)
    (((product.tdiv base.den.toInt).tdiv 1000000) % 2 ^ 64).toNat
  else 0

end VorbisTrack.Matroska
