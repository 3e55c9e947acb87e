import VorbisTrack.Matroska.Block

/-!
# Clusters and cues

A cluster is a row of blocks that share a time. A cue tells where a cluster stands in its segment.
-/

set_option autoImplicit false

namespace VorbisTrack.Matroska

/-- Blocks with a common time. -/
structure Cluster where
  /-- In milliseconds. -/
  time : Nat := 0
  blocks : List Block := []

namespace Cluster

def maxBlocks : Nat := 256

/-- Milliseconds that the offset of a block may reach. -/
def maxSpan : Nat := 5000

/-- Whether a block of a given time has to start another cluster. -/
def isClosedTo (c : Cluster) (time : Nat) : Bool :=
  !c.blocks.isEmpty && (maxSpan < time - c.time || maxBlocks ≤ c.blocks.length)

/-- The cluster with a further block. The first block gives it its time; a block that comes before
this time is put at it. -/
def push (c : Cluster) (track time : Nat) (data : Bytes) : Cluster :=
  let start := if c.blocks.isEmpty then time else c.time
  { time := start, blocks := c.blocks ++ [{ track, offset := time - start, data }] }

def encode (c : Cluster) : Bytes :=
  master 0x1F43B675 (unsigned 0xE7 c.time :: c.blocks.map Block.encode)

end Cluster

structure Cue where
  /-- In milliseconds. -/
  time : Nat
  track : Nat
  /-- Counted from the start of the segment's content. -/
  position : Nat
  deriving DecidableEq

def Cue.encode (c : Cue) : Bytes :=
  master 0xBB
    [ unsigned 0xB3 c.time,
      master 0xB7 [unsigned 0xF7 c.track, unsigned 0xF1 c.position, unsigned 0xEA 0] ]

def encodeCues (cues : List Cue) : Bytes :=
  master 0x1C53BB6B (cues.map Cue.encode)

end VorbisTrack.Matroska
