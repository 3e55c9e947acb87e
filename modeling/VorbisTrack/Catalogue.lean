import VorbisTrack.SampleFormat
import VorbisTrack.Text

/-!
# Codecs and file formats
-/

set_option autoImplicit false

namespace VorbisTrack

structure CodecInfo where
  id : String
  name : String
  longName : String
  media : MediaType
  /-- The sample formats that its encoder takes. -/
  formats : List SampleFormat
  lossy : Bool
  lossless : Bool
  /-- The encoder holds input back and has to be flushed. -/
  delay : Bool

def CodecInfo.find? (id : String) : Option CodecInfo :=
  if id = "vorbis" ∨ id = "libvorbis" then
    some {
      id := "vorbis"
      name := "libvorbis"
      longName := "libvorbis Vorbis"
      media := .audio
      formats := [.flt, .fltp]
      lossy := true
      lossless := false
      delay := true }
  else none

structure FormatInfo where
  name : String
  longName : String
  extensions : List String
  /-- Files of the format can be read. -/
  demux : Bool
  /-- Files of the format can be written. -/
  mux : Bool
  seekable : Bool

namespace FormatInfo

def all : List FormatInfo :=
  [ { name := "wav", longName := "WAV / WAVE (Waveform Audio)", extensions := ["wav"],
      demux := true, mux := false, seekable := true },
    { name := "webm", longName := "WebM", extensions := ["webm"],
      demux := false, mux := true, seekable := true },
    { name := "matroska", longName := "Matroska", extensions := ["mka", "mkv"],
      demux := false, mux := true, seekable := true } ]

def find? (name : String) : Option FormatInfo :=
  all.find? fun info => info.name == name

/-- The file format that the extension of a path names. The extension is all that follows the last
point of the whole path, and its case does not matter. -/
def ofPath? (path : String) : Option FormatInfo :=
  (splitLast? '.' path.toList).bind fun (_, extension) =>
    let folded := String.ofList (extension.map foldCase)
    all.find? fun info => info.extensions.contains folded

end FormatInfo

inductive DocType
  | webm
  | matroska
  deriving DecidableEq

namespace DocType

def name : DocType → String
  | .webm => "webm"
  | .matroska => "matroska"

def ofName? (name : String) : Option DocType :=
  if name = "webm" then some .webm
  else if name = "matroska" then some .matroska
  else none

end DocType

end VorbisTrack
