import VorbisTrack.EncodingOptions
import VorbisTrack.Library.Trace

/-!
# Sessions with the encoding library

A session owns what has been acquired from the library and makes every call to it, so that the
calls come in an order the library accepts. It keeps a log of the calls and their answers.

Opening a session sets the encoder up step by step. `Session.drain` runs analysis on complete
blocks and hands the packets to a `Sink`; every packet of a block is handed over before the sink
is asked whether it wants another block. `Session.release` gives back what was acquired.
-/

set_option autoImplicit false

namespace VorbisTrack

structure Session {σ : Type} (lib : Library σ) where
  /-- The library's own state. -/
  native : σ
  /-- The calls so far, the latest first. -/
  log : List Event := []
  channels : UInt16
  /-- The stream information has been acquired. -/
  hasInfo : Bool := false
  /-- The analysis state has been acquired. -/
  hasAnalysis : Bool := false
  /-- The block has been acquired. -/
  hasBlock : Bool := false
  /-- The library has accepted the end of the input. -/
  ended : Bool := false

structure Sink (τ : Type) where
  /-- Takes a packet. -/
  put : RawPacket → τ → τ
  /-- Whether another block is wanted, asked after a packet. -/
  wantsMore : τ → Bool

variable {σ τ : Type} {lib : Library σ}

namespace Session

def trace (s : Session lib) : List Event :=
  s.log.reverse

def perform (s : Session lib) (call : Call) : call.Answer × Session lib :=
  let (answer, native) := lib.answer call s.native
  (answer, { s with native, log := ⟨call, answer⟩ :: s.log })

def performs (s : Session lib) (call : Call) : Session lib :=
  (s.perform call).2

/-- Makes a call for its effect, where there is a reason for it. -/
def performsIf (s : Session lib) (reason : Bool) (call : Call) : Session lib :=
  if reason then s.performs call else s

/-! ## Setting up -/

/-- Acquires the stream information, which is not refused. -/
def acquireInfo (s : Session lib) : Session lib :=
  { s.performs .infoInit with hasInfo := true }

def setupSteps (options : EncodingOptions) : List SetupStep :=
  (match options.rateControl with
    | .vbr quality => [.vbr options.channels options.rate quality]
    | .managed nominal min max =>
      .managed options.channels options.rate (max.getD (-1)) nominal (min.getD (-1)) ::
        if options.rateControl.disablesRateManagement then [.rateManagementOff] else [])
  ++ (match options.lowpass with
    | some frequency => [.lowpass frequency]
    | none => [])
  ++ (if options.blockBias != 0 then [.blockBias options.blockBias] else [])
  ++ [.finish]

/-- Takes setup steps up to the first that answers another code than zero. -/
def configure : List SetupStep → Session lib → Except Failure Unit × Session lib
  | [], s => (.ok (), s)
  | step :: rest, s =>
    let (code, s) := s.perform (.setup step)
    if code = 0 then configure rest s else (.error (.library step.name code), s)

/-- Starts analysis: acquires the analysis state, then the block. -/
def startAnalysis (s : Session lib) : Except Failure Unit × Session lib :=
  let (code, s) := s.perform .analysisInit
  if code ≠ 0 then (.error (.library Routine.analysisInit.name code), s)
  else
    let (code, s) := { s with hasAnalysis := true }.perform .blockInit
    if code ≠ 0 then (.error (.library Routine.blockInit.name code), s)
    else (.ok (), { s with hasBlock := true })

/-- Gives back what was acquired. An analysis that is running is told first that its input ends,
unless the library has accepted that before. -/
def release (s : Session lib) : Session lib :=
  (((s.performsIf (s.hasAnalysis && !s.ended) (.wrote 0 [])).performsIf s.hasBlock
    .blockClear).performsIf s.hasAnalysis .dspClear).performsIf s.hasInfo .infoClear

/-- Opens a session. If a step fails, what was acquired is given back; the session is then only
good for its trace. -/
def «open» (lib : Library σ) (options : EncodingOptions) : Except Failure Unit × Session lib :=
  let s : Session lib := { native := lib.start, channels := options.channels }
  match s.acquireInfo.configure (setupSteps options) with
  | (.error failure, s) => (.error failure, s.release)
  | (.ok (), s) =>
    match s.startAnalysis with
    | (.error failure, s) => (.error failure, s.release)
    | (.ok (), s) => (.ok (), s)

/-! ## Headers -/

/-- The first text of a list of tags that the library cannot be handed, since its texts end at a
NUL. -/
def nulFault? : List (String × String) → Option Failure
  | [] => none
  | (key, value) :: rest =>
    if key.toList.contains '\x00' then some (.nulInCommentKey key)
    else if value.toList.contains '\x00' then some (.nulInCommentValue value)
    else nulFault? rest

def addComments (comments : List (String × String)) (s : Session lib) : Session lib :=
  comments.foldl (fun s (key, value) => s.performs (.commentAdd key value)) s

def headerPackets (s : Session lib) (comments : List (String × String)) :
    Except Failure HeaderPackets × Session lib :=
  match nulFault? comments with
  | some failure => (.error failure, s)
  | none =>
    let ((code, headers), s) := ((s.performs .commentInit).addComments comments).perform .headerOut
    let s := s.performs .commentClear
    if code = 0 then (.ok headers, s)
    else (.error (.library Routine.analysisHeaderOut.name code), s)

/-! ## Input -/

/-- The largest count of samples that one call can take. -/
def maxCount : Nat := 2 ^ 31 - 1

/-- What a plane of `count` samples holds after its first samples have been overwritten. -/
def overwrite (count : Nat) (samples : List Sample) (memory : Nat → Sample) : List Sample :=
  samples.take count ++
    (List.range (count - samples.length)).map fun i => memory (samples.length + i)

/-- Hands `count` samples of every channel to the library. `fill` gives the samples of a Vorbis
channel; a plane it does not fill keeps what the memory held. -/
def write (s : Session lib) (count : Nat) (fill : Nat → List Sample) :
    Except Failure Unit × Session lib :=
  if s.ended then (.error .samplesAfterEnd, s)
  else if maxCount < count then (.error (.tooManySamples count), s)
  else
    match s.perform (.buffer count) with
    | (none, s) => (.error .noAnalysisBuffer, s)
    | (some memory, s) =>
      let planes :=
        if count = 0 then []
        else (List.range s.channels.toNat).map fun c => overwrite count (fill c) (memory c)
      let (code, s) := s.perform (.wrote count planes)
      if code < 0 then (.error (.library Routine.analysisWrote.name code), s) else (.ok (), s)

/-- Tells the library that no more samples follow. Once that is accepted, it is not said again. -/
def signalEnd (s : Session lib) : Except Failure Unit × Session lib :=
  if s.ended then (.ok (), s)
  else
    let (code, s) := s.perform (.wrote 0 [])
    if code < 0 then (.error (.library Routine.analysisWrote.name code), s)
    else (.ok (), { s with ended := true })

/-! ## Output -/

/-- Hands every packet of the block in progress to the sink. The answer is whether the sink wants
another block; a block without packets leaves that as it was. -/
def takePackets (sink : Sink τ) (wantsMore : Bool) (t : τ) (s : Session lib) :
    Except Failure Bool × τ × Session lib :=
  let reply : (Int32 × RawPacket) × Session lib := s.perform .flushPacket
  if _released : reply.1.1 = 1 then
    let taken := sink.put reply.1.2 t
    takePackets sink (sink.wantsMore taken) taken reply.2
  else if reply.1.1 < 0 then
    (.error (.library Routine.bitrateFlushPacket.name reply.1.1), t, reply.2)
  else (.ok wantsMore, t, reply.2)
termination_by lib.packetsLeft s.native
decreasing_by exact lib.packetsLeft_flushPacket s.native _released

/-- Work on the block that was just handed out. -/
def analyseBlock (sink : Sink τ) (t : τ) (s : Session lib) :
    Except Failure Bool × τ × Session lib :=
  let (code, s) := s.perform .analysis
  if code < 0 then (.error (.library Routine.analysis.name code), t, s)
  else
    let (code, s) := s.perform .addBlock
    if code < 0 then (.error (.library Routine.bitrateAddBlock.name code), t, s)
    else takePackets sink true t s

/-- Releasing the packets of a block makes no new blocks. -/
theorem blocksLeft_takePackets (sink : Sink τ) (wantsMore : Bool) (t : τ) (s : Session lib) :
    lib.blocksLeft (takePackets sink wantsMore t s).2.2.native ≤ lib.blocksLeft s.native := by
  fun_induction takePackets sink wantsMore t s with
  | case1 wantsMore t s _ _ _ ih => exact Nat.le_trans ih (lib.blocksLeft_flushPacket s.native)
  | case2 wantsMore t s => exact lib.blocksLeft_flushPacket s.native
  | case3 wantsMore t s => exact lib.blocksLeft_flushPacket s.native

/-- Working on a block makes no new blocks. -/
theorem blocksLeft_analyseBlock (sink : Sink τ) (t : τ) (s : Session lib) :
    lib.blocksLeft (analyseBlock sink t s).2.2.native ≤ lib.blocksLeft s.native := by
  have analysed := lib.blocksLeft_analysis s.native
  have added := lib.blocksLeft_addBlock (s.performs .analysis).native
  simp only [analyseBlock]
  split
  · exact analysed
  · split
    · exact Nat.le_trans added analysed
    · exact Nat.le_trans (blocksLeft_takePackets ..) (Nat.le_trans added analysed)

/-- Runs analysis on complete blocks for as long as the sink wants more. What is left stays with
the library for the next time. -/
def drain (sink : Sink τ) (t : τ) (s : Session lib) : Except Failure Unit × τ × Session lib :=
  let reply : Int32 × Session lib := s.perform .blockOut
  if _complete : reply.1 = 1 then
    match _worked : analyseBlock sink t reply.2 with
    | (.error failure, t', s') => (.error failure, t', s')
    | (.ok false, t', s') => (.ok (), t', s')
    | (.ok true, t', s') => drain sink t' s'
  else if reply.1 < 0 then
    (.error (.library Routine.analysisBlockOut.name reply.1), t, reply.2)
  else (.ok (), t, reply.2)
termination_by lib.blocksLeft s.native
decreasing_by
  have analysed := blocksLeft_analyseBlock sink t reply.2
  rw [_worked] at analysed
  exact Nat.lt_of_le_of_lt analysed (lib.blocksLeft_blockOut s.native _complete)

/-- Draining makes no new blocks. -/
theorem blocksLeft_drain (sink : Sink τ) (t : τ) (s : Session lib) :
    lib.blocksLeft (drain sink t s).2.2.native ≤ lib.blocksLeft s.native := by
  fun_induction drain sink t s with
  | case1 t s reply complete failure t' s' worked =>
    have analysed := blocksLeft_analyseBlock sink t reply.2
    rw [worked] at analysed
    exact Nat.le_trans analysed (Nat.le_of_lt (lib.blocksLeft_blockOut s.native complete))
  | case2 t s reply complete t' s' worked =>
    have analysed := blocksLeft_analyseBlock sink t reply.2
    rw [worked] at analysed
    exact Nat.le_trans analysed (Nat.le_of_lt (lib.blocksLeft_blockOut s.native complete))
  | case3 t s reply complete t' s' worked ih =>
    have analysed := blocksLeft_analyseBlock sink t reply.2
    rw [worked] at analysed
    exact Nat.le_trans ih
      (Nat.le_trans analysed (Nat.le_of_lt (lib.blocksLeft_blockOut s.native complete)))
  | case4 t s => exact lib.blocksLeft_blockOut_le s.native
  | case5 t s => exact lib.blocksLeft_blockOut_le s.native

/-- Draining either uses a block up or leaves the sink's state alone. -/
theorem drain_eq_or_blocksLeft_lt (sink : Sink τ) (t : τ) (s : Session lib) :
    (drain sink t s).2.1 = t ∨
      lib.blocksLeft (drain sink t s).2.2.native < lib.blocksLeft s.native := by
  by_cases complete : (s.perform .blockOut).1 = (1 : Int32)
  · right
    have used : lib.blocksLeft (s.perform .blockOut).2.native < lib.blocksLeft s.native :=
      lib.blocksLeft_blockOut s.native complete
    have analysed := blocksLeft_analyseBlock sink t (s.perform .blockOut).2
    rw [drain]
    simp only [complete, dite_true]
    split
    · next h => rw [h] at analysed; exact Nat.lt_of_le_of_lt analysed used
    · next h => rw [h] at analysed; exact Nat.lt_of_le_of_lt analysed used
    · next h =>
      rw [h] at analysed
      exact Nat.lt_of_le_of_lt (Nat.le_trans (blocksLeft_drain ..) analysed) used
  · left
    rw [drain]
    simp only [complete, dite_false]
    split <;> rfl

end Session

end VorbisTrack
