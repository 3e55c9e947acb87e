import VorbisTrack.Catalogue
import VorbisTrack.Failure
import VorbisTrack.Matroska.Element
import VorbisTrack.Stream

/-!
# The head of a file

A file starts with the document type, then the segment of unknown size, in which the general
information and the list of tracks come first.
-/

set_option autoImplicit false

namespace VorbisTrack.Matroska

structure Track where
  number : Nat
  stream : Stream

def encodeDocument (docType : DocType) : Bytes :=
  master 0x1A45DFA3
    [ unsigned 0x42F2 4, unsigned 0x42F3 8, text 0x4282 docType.name, unsigned 0x4287 4,
      unsigned 0x4285 2 ]

/-- Identifier and size of the segment. All bits of the size are set, so it is unknown. -/
def segmentStart : Bytes :=
  Bytes.bigEndian 4 0x18538067 ++ markedInteger 8 (2 ^ 56 - 1)

/-- The general information: ticks of a million nanoseconds, and the name of the program that
writes. -/
def encodeInfo (program : String) : Bytes :=
  master 0x1549A966 [unsigned 0x2AD7B1 1000000, text 0x4D80 program, text 0x5741 program]

namespace Track

def codec : String := "A_VORBIS"

/-- The entry of a track. It needs the layout of the samples and the laced header packets. -/
def entry (t : Track) : Except Failure Bytes :=
  match t.stream.audio, t.stream.extradata with
  | none, _ => .error .noAudioInfo
  | some _, none => .error .noExtradata
  | some audio, some extradata =>
    .ok <| master 0xAE
      [ unsigned 0xD7 t.number, unsigned 0x73C5 t.number, unsigned 0x83 2, unsigned 0xB9 1,
        unsigned 0x88 1, unsigned 0x55AA 0, unsigned 0x9C 0, unsigned 0x55EE 0,
        text 0x22B59C "und", text 0x86 codec, unsigned 0x56AA 0, unsigned 0x56BB 0,
        element 0x63A2 extradata,
        master 0xE1
          [ float 0xB5 audio.rate.toNat, unsigned 0x9F audio.channels.toNat,
            unsigned 0x52F1 0 ] ]

end Track

def encodeTracks (tracks : List Track) : Except Failure Bytes :=
  (tracks.mapM Track.entry).map (master 0x1654AE6B)

end VorbisTrack.Matroska
