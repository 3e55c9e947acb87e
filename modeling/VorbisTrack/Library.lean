import VorbisTrack.Frame
import VorbisTrack.HeaderPackets

/-!
# The encoding library

Compression itself is left to a library that is asked call by call. `Call` lists what can be
asked, `Call.Answer` what comes back, and a `Library` is any way of answering, with a state that
the caller never looks into. Nothing is assumed of the answers, apart from one thing: between two
calls that hand over samples or end the input, a library runs out of blocks, and out of packets
of a block. So analysis always comes to an end.
-/

set_option autoImplicit false

namespace VorbisTrack

structure RawPacket where
  data : Bytes := []
  /-- The sample at which the packet ends. -/
  granule : Int64 := 0
  /-- The packet is the last of its stream. -/
  isLast : Bool := false
  deriving DecidableEq

inductive SetupStep
  /-- Fixed quality. -/
  | vbr (channels : UInt16) (rate : UInt32) (quality : Float32)
  /-- Managed rate; a limit of -1 is none. -/
  | managed (channels : UInt16) (rate : UInt32) (max nominal min : Int64)
  | rateManagementOff
  /-- A lowpass frequency in kilohertz. -/
  | lowpass (frequency : Float)
  /-- An impulse block bias. -/
  | blockBias (bias : Float)
  /-- The end of the setup. -/
  | finish

inductive Call
  | infoInit
  | setup (step : SetupStep)
  | analysisInit
  | blockInit
  | commentInit
  | commentAdd (key value : String)
  | headerOut
  | commentClear
  /-- Asks for memory for this many samples of every channel. -/
  | buffer (count : Nat)
  /-- Tells that the memory now holds these planes; a count of zero ends the input. -/
  | wrote (count : Nat) (planes : List (List Sample))
  /-- Asks whether a block of samples is complete. -/
  | blockOut
  | analysis
  | addBlock
  | flushPacket
  | blockClear
  | dspClear
  | infoClear

abbrev Call.Answer : Call → Type
  | .setup _ | .analysisInit | .blockInit | .wrote .. | .blockOut | .analysis | .addBlock => Int32
  | .headerOut => Int32 × HeaderPackets
  -- The samples found in the memory by channel and position, or no memory.
  | .buffer _ => Option (Nat → Nat → Sample)
  | .flushPacket => Int32 × RawPacket
  | .infoInit | .commentInit | .commentAdd .. | .commentClear | .blockClear | .dspClear
  | .infoClear => Unit

structure Event where
  call : Call
  answer : call.Answer

/-- A library with states of type `σ`. -/
structure Library (σ : Type) where
  /-- The state before the first call. -/
  start : σ
  /-- The answer to a call, and the state after it. -/
  answer : (call : Call) → σ → call.Answer × σ
  /-- A bound on the blocks that can be handed out before more input. -/
  blocksLeft : σ → Nat
  /-- A bound on the packets that can be released before the next block. -/
  packetsLeft : σ → Nat
  /-- Asking for a block makes no new ones. -/
  blocksLeft_blockOut_le : ∀ s, blocksLeft (answer .blockOut s).2 ≤ blocksLeft s
  /-- Handing a block out uses one up. -/
  blocksLeft_blockOut : ∀ s, (answer .blockOut s).1 = 1 →
    blocksLeft (answer .blockOut s).2 < blocksLeft s
  /-- Work on a block makes no new ones. -/
  blocksLeft_analysis : ∀ s, blocksLeft (answer .analysis s).2 ≤ blocksLeft s
  blocksLeft_addBlock : ∀ s, blocksLeft (answer .addBlock s).2 ≤ blocksLeft s
  blocksLeft_flushPacket : ∀ s, blocksLeft (answer .flushPacket s).2 ≤ blocksLeft s
  /-- Releasing a packet uses one up. -/
  packetsLeft_flushPacket : ∀ s, (answer .flushPacket s).1.1 = 1 →
    packetsLeft (answer .flushPacket s).2 < packetsLeft s

end VorbisTrack
