import VorbisTrack.Bytes
import VorbisTrack.Failure

/-!
# Header packets and their laced form

A Vorbis stream starts with an identification, a comment and a setup packet. Outside of Ogg they
are stored as one string:

`2 ++ lacing of the first length ++ lacing of the second ++ the three packets`

The leading byte is the packet count less one, and the length of the last packet is what remains.
A length is laced as a run of bytes 255 that ends with a smaller byte; their sum is the length.
-/

set_option autoImplicit false

namespace VorbisTrack

namespace Lacing

def encode (length : Nat) : Bytes :=
  List.replicate (length / 255) 255 ++ [UInt8.ofNat (length % 255)]

/-- Bytes of a laced length together with the packet it belongs to. -/
def packedSize (length : Nat) : Nat :=
  1 + length / 255 + length

/-- Reads a laced length off the front of a string. -/
def decode : Bytes → Option (Nat × Bytes)
  | [] => none
  | b :: rest =>
    if b = 255 then (decode rest).map fun (length, rest) => (255 + length, rest)
    else some (b.toNat, rest)

end Lacing

structure HeaderPackets where
  identification : Bytes
  comment : Bytes
  setup : Bytes
  deriving DecidableEq

namespace HeaderPackets

/-- The letters `vorbis`, which follow the type byte of each header packet. -/
def magic : Bytes := [0x76, 0x6f, 0x72, 0x62, 0x69, 0x73]

def hasType (type : UInt8) (packet : Bytes) : Bool :=
  packet.take 7 == type :: magic

def check (h : HeaderPackets) : Except Failure Unit :=
  if ¬ hasType 1 h.identification then .error (.malformedHeader "identification")
  else if ¬ hasType 3 h.comment then .error (.malformedHeader "comment")
  else if ¬ hasType 5 h.setup then .error (.malformedHeader "setup")
  else .ok ()

def extradataSize (h : HeaderPackets) : Nat :=
  1 + Lacing.packedSize h.identification.length + Lacing.packedSize h.comment.length
    + h.setup.length

def toExtradata (h : HeaderPackets) : Bytes :=
  2 :: Lacing.encode h.identification.length ++ Lacing.encode h.comment.length
    ++ h.identification ++ h.comment ++ h.setup

def ofExtradata : Bytes → Except Failure HeaderPackets
  | [] => .error .emptyExtradata
  | count :: data =>
    if count ≠ 2 then .error (.headerCount (count.toNat + 1))
    else
      match Lacing.decode data with
      | none => .error .truncatedLacing
      | some (identificationLength, data) =>
        match Lacing.decode data with
        | none => .error .truncatedLacing
        | some (commentLength, body) =>
          if body.length < identificationLength + commentLength then
            .error (.headerOverrun identificationLength commentLength body.length)
          else
            let rest := body.drop identificationLength
            .ok
              { identification := body.take identificationLength
                comment := rest.take commentLength
                setup := rest.drop commentLength }

end HeaderPackets

end VorbisTrack
