import VorbisTrack.Encoder
import VorbisTrack.Matroska.Cluster
import VorbisTrack.Matroska.Registry
import VorbisTrack.Storage.OutputFile

/-!
# Writing Matroska files

A muxer is given a file, then streams, then the packets of these streams, and writes them in
clusters. A cluster is written when the next packet does not belong to it, or with the trailer,
which also writes a cue for every cluster and lets go of the file.

Files are part of a tree of files, which every operation that writes takes and gives back.
-/

set_option autoImplicit false

namespace VorbisTrack.Matroska

structure Muxer where
  docType : DocType
  output : Option OutputFile := none
  registry : Registry := .empty
  headerWritten : Bool := false
  /-- The position in the file at which the content of the segment starts. -/
  segmentPosition : Nat := 0
  /-- The cluster that is being filled. -/
  cluster : Cluster := {}
  /-- The cues of the clusters that have been written. -/
  cues : List Cue := []
  /-- Packets that have been taken. -/
  blocksWritten : Nat := 0

namespace Muxer

def ofFormat (format : String) : Except Failure Muxer :=
  match DocType.ofName? format with
  | some docType => .ok { docType }
  | none => .error (.noMuxer format)

/-- What an operation gives back: its result, the muxer and the files after it. -/
abbrev Outcome (α : Type) := Except Failure α × Muxer × FileTree

/-- Lets go of the file. What was held back for it is written, a cluster that is being filled is
not. -/
def release (m : Muxer) (tree : FileTree) : FileTree :=
  match m.output with
  | some file => (file.flush tree).2
  | none => tree

/-- Creates a file and writes to it from now on. A file that was open is let go of afterwards. -/
def create (m : Muxer) (path : Path) (tree : FileTree) : Outcome Unit :=
  match tree.create path with
  | .error fault => (.error (.fileNotCreated fault), m, tree)
  | .ok (location, tree) => (.ok (), { m with output := some { location } }, m.release tree)

def addStream (m : Muxer) (stream : Stream) : Except Failure Nat × Muxer :=
  if m.headerWritten then (.error .streamsAfterHeader, m)
  else if stream.media ≠ .audio ∨ stream.codec ≠ "vorbis" then
    (.error (.notVorbisAudio stream.media stream.codec), m)
  else
    match m.registry.add? stream with
    | none => (.error (.duplicateStream stream.index), m)
    | some registry => (.ok m.registry.streams.length, { m with registry })

def writeHeader (m : Muxer) (tree : FileTree) : Outcome Unit :=
  if m.headerWritten then (.error .headerTwice, m, tree)
  else if m.registry.streams.isEmpty then (.error .noStreams, m, tree)
  else
    match m.registry.encode, m.output with
    | .error failure, _ => (.error failure, m, tree)
    | .ok _, none => (.error .noOutput, m, tree)
    | .ok tracks, some file =>
      let (file, tree) := file.write (encodeDocument m.docType) tree
      let (file, tree) := file.write segmentStart tree
      let (file, tree) := file.flush tree
      let segmentPosition := file.position
      let (file, tree) := file.write (encodeInfo Encoder.ident) tree
      let (file, tree) := file.write tracks tree
      (.ok (), { m with output := some file, segmentPosition, headerWritten := true }, tree)

/-- The cue of the cluster that is being filled, if it starts at a position of the file. -/
def cueAt (m : Muxer) (position : Nat) : Cue :=
  { time := m.cluster.time
    track := (m.registry.numbers.map Prod.snd).min?.getD 1
    position := position - m.segmentPosition }

/-- Writes the cluster that is being filled, if there is one. Without a file its blocks are
lost. -/
def flushCluster (m : Muxer) (tree : FileTree) : Outcome Unit :=
  if m.cluster.blocks.isEmpty then (.ok (), m, tree)
  else
    let emptied := { m with cluster := { m.cluster with blocks := [] } }
    match m.output with
    | none => (.error .noOutput, emptied, tree)
    | some file =>
      let (file, tree) := file.flush tree
      let cue := m.cueAt file.position
      let (file, tree) := file.write m.cluster.encode tree
      (.ok (), { emptied with output := some file, cues := m.cues ++ [cue] }, tree)

def push (m : Muxer) (track time : Nat) (data : Bytes) : Muxer :=
  { m with cluster := m.cluster.push track time data, blocksWritten := m.blocksWritten + 1 }

def writePacket (m : Muxer) (packet : Packet) (tree : FileTree) : Outcome Unit :=
  if ¬ m.headerWritten then (.error .headerNotWritten, m, tree)
  else
    match m.registry.number? packet.stream, m.registry.stream? packet.stream with
    | none, _ => (.error (.unknownStream packet.stream), m, tree)
    | some _, none => (.error .streamNotFound, m, tree)
    | some number, some stream =>
      let time := milliseconds stream.timeBase packet.pts
      if m.cluster.isClosedTo time then
        match m.flushCluster tree with
        | (.error failure, m, tree) => (.error failure, m, tree)
        | (.ok (), m, tree) => (.ok (), m.push number time packet.data, tree)
      else (.ok (), m.push number time packet.data, tree)

/-- Writes the last cluster and the cues, and lets go of the file. -/
def writeTrailer (m : Muxer) (tree : FileTree) : Outcome Unit :=
  match m.flushCluster tree with
  | (.error failure, m, tree) => (.error failure, m, tree)
  | (.ok (), m, tree) =>
    let cleared := { m with cues := [] }
    match m.output with
    | none => (.error .noOutput, cleared, tree)
    | some file =>
      let (file, tree) :=
        if m.cues.isEmpty then (file, tree) else file.write (encodeCues m.cues) tree
      (.ok (), { cleared with output := none }, (file.flush tree).2)

end Muxer

end VorbisTrack.Matroska
