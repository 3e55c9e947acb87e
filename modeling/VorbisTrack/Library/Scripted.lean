import VorbisTrack.Library.Trace

/-!
# A scripted library

A library without any compression. It collects samples into blocks of a fixed count, answers each
block with packets of scripted sizes, and can be told to answer single calls with other codes.
-/

set_option autoImplicit false

namespace VorbisTrack

/-- A packet of a block: its size, and its end and end mark where they are not to follow from the
samples. -/
structure PacketPlan where
  size : Nat
  granule : Option Int64 := none
  isLast : Option Bool := none

/-- An answer that is laid down in advance: the call of the routine that comes after `skip` others
gets this code and has no effect. -/
structure ForcedAnswer where
  routine : Routine
  skip : Nat
  code : Int32

structure Script where
  forced : List ForcedAnswer := []
  /-- Samples per block. -/
  block : Nat := 1024
  /-- Packet sizes, used in turn by the blocks. -/
  sizes : List Nat := [32]
  /-- The packets of the first blocks. -/
  blocks : List (List PacketPlan) := []
  /-- Bytes of the setup header after its start. -/
  setupSize : Nat := 25
  /-- Header packets that replace the usual ones. -/
  headers : List (Option Bytes) := []

/-- A packet whose end has been settled. -/
structure PlannedPacket where
  size : Nat
  granule : Int64
  isLast : Bool

structure ScriptState where
  /-- The answers that are still to come. -/
  forced : List ForcedAnswer
  channels : UInt16 := 0
  rate : UInt32 := 0
  maxRate : Int64 := 0
  nominalRate : Int64 := 0
  minRate : Int64 := 0
  tags : List String := []
  /-- Samples that are in no block yet. -/
  buffered : Nat := 0
  /-- Samples that are in blocks. -/
  consumed : Nat := 0
  inputEnded : Bool := false
  /-- The last block has been made. -/
  finished : Bool := false
  blocksMade : Nat := 0
  /-- The packets of the block in progress. -/
  current : List PlannedPacket := []
  /-- The packets that wait to be released. -/
  queue : List PlannedPacket := []
  released : Nat := 0

namespace Script

variable (script : Script)

def plan (index consumed : Nat) (isLast : Bool) : List PlannedPacket :=
  let plans := script.blocks.getD index
    [{ size := script.sizes.getD (index % script.sizes.length) 0 }]
  plans.map fun p =>
    { size := p.size
      granule := p.granule.getD (Int64.ofNat consumed)
      isLast := p.isLast.getD isLast }

def packetData (index size : Nat) : Bytes :=
  (List.range size).map fun j => UInt8.ofNat (index * 7 + j * 13)

def lengthPrefixed (text : String) : Bytes :=
  let bytes := Bytes.ofText text
  Bytes.littleEndian 4 bytes.length ++ bytes

def rateBytes (rate : Int64) : Bytes :=
  Bytes.littleEndian 4 (rate.toInt % 2 ^ 32).toNat

/-- The header packets, if the script does not replace them. -/
def usualHeaders (s : ScriptState) : HeaderPackets where
  identification :=
    1 :: HeaderPackets.magic ++ [0, 0, 0, 0] ++ Bytes.littleEndian 1 s.channels.toNat
      ++ Bytes.littleEndian 4 s.rate.toNat ++ rateBytes s.maxRate ++ rateBytes s.nominalRate
      ++ rateBytes s.minRate ++ [0xb8, 1]
  comment :=
    3 :: HeaderPackets.magic ++ lengthPrefixed "stand-in"
      ++ Bytes.littleEndian 4 s.tags.length ++ s.tags.flatMap lengthPrefixed ++ [1]
  setup :=
    5 :: HeaderPackets.magic ++ (List.range script.setupSize).map UInt8.ofNat

def headerPackets (s : ScriptState) : HeaderPackets :=
  let usual := script.usualHeaders s
  let replaced (index : Nat) (packet : Bytes) := ((script.headers.getD index none).getD packet)
  { identification := replaced 0 usual.identification
    comment := replaced 1 usual.comment
    setup := replaced 2 usual.setup }

def makeBlock (s : ScriptState) (samples : Nat) (isLast : Bool) : ScriptState :=
  let consumed := s.consumed + samples
  { s with
    buffered := s.buffered - samples
    consumed
    finished := s.finished || isLast
    current := script.plan s.blocksMade consumed isLast
    blocksMade := s.blocksMade + 1 }

def blockOut (s : ScriptState) : Int32 × ScriptState :=
  if 0 < script.block ∧ script.block ≤ s.buffered then (1, script.makeBlock s script.block false)
  else if s.inputEnded ∧ ¬ s.finished then (1, script.makeBlock s s.buffered true)
  else (0, s)

def flushPacket (s : ScriptState) : (Int32 × RawPacket) × ScriptState :=
  match s.queue with
  | [] => ((0, {}), s)
  | p :: rest =>
    ((1, { data := packetData s.released p.size, granule := p.granule, isLast := p.isLast }),
      { s with queue := rest, released := s.released + 1 })

def setUp (step : SetupStep) (s : ScriptState) : ScriptState :=
  match step with
  | .vbr channels rate _ => { s with channels, rate }
  | .managed channels rate max nominal min =>
    { s with channels, rate, maxRate := max, nominalRate := nominal, minRate := min }
  | _ => s

/-- Takes note of a call of a routine: the code laid down for it, if any, and the answers that
remain. -/
def takeForced (routine : Routine) : List ForcedAnswer → Option Int32 × List ForcedAnswer
  | [] => (none, [])
  | entry :: rest =>
    let (later, rest) := takeForced routine rest
    if entry.routine = routine then
      match entry.skip with
      | 0 => (some entry.code, rest)
      | skip + 1 => (later, { entry with skip } :: rest)
    else (later, entry :: rest)

def freeAnswer : (call : Call) → ScriptState → call.Answer × ScriptState
  | .setup step, s => (0, setUp step s)
  | .analysisInit, s | .blockInit, s | .analysis, s => (0, s)
  | .headerOut, s => ((0, script.headerPackets s), s)
  | .commentAdd key value, s => ((), { s with tags := s.tags ++ [key ++ "=" ++ value] })
  | .commentInit, s | .commentClear, s => ((), { s with tags := [] })
  | .buffer _, s => (some fun _ _ => 0, s)
  | .wrote count _, s =>
    if count = 0 then (0, { s with inputEnded := true })
    else (0, { s with buffered := s.buffered + count })
  | .blockOut, s => script.blockOut s
  | .addBlock, s => (0, { s with current := [], queue := s.queue ++ s.current })
  | .flushPacket, s => flushPacket s
  | .infoInit, s | .blockClear, s | .dspClear, s | .infoClear, s => ((), s)

/-- The answer to a call for which a code is laid down. Calls that answer nothing take effect all
the same. -/
def forcedAnswer (code : Int32) : (call : Call) → ScriptState → call.Answer × ScriptState
  | .setup step, s => (code, setUp step s)
  | .analysisInit, s | .blockInit, s | .analysis, s | .wrote .., s | .blockOut, s
  | .addBlock, s => (code, s)
  | .headerOut, s => ((code, ⟨[], [], []⟩), s)
  | .buffer _, s => (none, s)
  | .flushPacket, s => ((code, {}), s)
  | .commentAdd key value, s => script.freeAnswer (.commentAdd key value) s
  | .commentInit, s => script.freeAnswer .commentInit s
  | .commentClear, s => script.freeAnswer .commentClear s
  | .infoInit, s => script.freeAnswer .infoInit s
  | .blockClear, s => script.freeAnswer .blockClear s
  | .dspClear, s => script.freeAnswer .dspClear s
  | .infoClear, s => script.freeAnswer .infoClear s

def answer (call : Call) (s : ScriptState) : call.Answer × ScriptState :=
  let (forced, rest) := takeForced call.routine s.forced
  let s := { s with forced := rest }
  match forced with
  | some code => script.forcedAnswer code call s
  | none => script.freeAnswer call s

/-! ## A scripted library comes to an end -/

def countForced (routine : Routine) (forced : List ForcedAnswer) : Nat :=
  forced.countP fun entry => entry.routine = routine

theorem countForced_takeForced_le (r routine : Routine) (forced : List ForcedAnswer) :
    countForced r (takeForced routine forced).2 ≤ countForced r forced := by
  induction forced with
  | nil => simp [takeForced]
  | cons entry rest ih =>
    obtain ⟨entryRoutine, skip, code⟩ := entry
    simp only [countForced, List.countP_cons] at ih ⊢
    by_cases h : entryRoutine = routine
    · cases skip with
      | zero => simp [takeForced, h]; omega
      | succ skip => simp [takeForced, h, List.countP_cons]; omega
    · simp [takeForced, h, List.countP_cons]; omega

theorem countForced_takeForced_lt (routine : Routine) (forced : List ForcedAnswer) (code : Int32)
    (h : (takeForced routine forced).1 = some code) :
    countForced routine (takeForced routine forced).2 < countForced routine forced := by
  induction forced with
  | nil => simp [takeForced] at h
  | cons entry rest ih =>
    have le := countForced_takeForced_le routine routine rest
    obtain ⟨entryRoutine, skip, entryCode⟩ := entry
    simp only [countForced, List.countP_cons] at ih le ⊢
    by_cases hr : entryRoutine = routine
    · cases skip with
      | zero => simp [takeForced, hr]; omega
      | succ skip =>
        have := ih (by simpa [takeForced, hr] using h)
        simp [takeForced, hr]; omega
    · have := ih (by simpa [takeForced, hr] using h)
      simp [takeForced, hr]; omega

/-- A bound on the blocks to come: those that are buffered, the last one, and those laid down. -/
def blocksLeft (s : ScriptState) : Nat :=
  s.buffered / script.block + (!s.finished).toNat
    + countForced .analysisBlockOut s.forced

/-- A bound on the packets to come: those in the queue and those laid down. -/
def packetsLeft (s : ScriptState) : Nat :=
  s.queue.length + countForced .bitrateFlushPacket s.forced

theorem blocksLeft_blockOut (s : ScriptState) (h : (script.answer .blockOut s).1 = (1 : Int32)) :
    script.blocksLeft (script.answer .blockOut s).2 < script.blocksLeft s := by
  have le := countForced_takeForced_le .analysisBlockOut .analysisBlockOut s.forced
  have lt := countForced_takeForced_lt .analysisBlockOut s.forced
  revert h
  simp only [answer, Call.routine]
  cases hf : (takeForced .analysisBlockOut s.forced).1 with
  | some code =>
    have := lt code hf
    simp only [forcedAnswer, blocksLeft]
    omega
  | none =>
    simp only [freeAnswer, blockOut]
    -- A block is made of samples that wait, or it is the last one after the end of the input.
    split
    · next hb =>
      intro _
      obtain ⟨hpos, hle⟩ := hb
      have : (s.buffered - script.block) / script.block + 1 = s.buffered / script.block := by
        rw [Nat.div_eq s.buffered, if_pos ⟨hpos, hle⟩]
      simp only [blocksLeft, makeBlock, Bool.or_false]
      omega
    · split
      · next hl =>
        intro _
        obtain ⟨_, hfin⟩ := hl
        simp only [Bool.not_eq_true] at hfin
        simp only [blocksLeft, makeBlock, Bool.or_true, Nat.sub_self, Nat.zero_div, hfin]
        generalize s.buffered / script.block = q
        simp
        omega
      · intro h
        simp at h

theorem blocksLeft_blockOut_le (s : ScriptState) :
    script.blocksLeft (script.answer .blockOut s).2 ≤ script.blocksLeft s := by
  have le := countForced_takeForced_le .analysisBlockOut .analysisBlockOut s.forced
  by_cases h : (script.answer .blockOut s).1 = (1 : Int32)
  · exact Nat.le_of_lt (script.blocksLeft_blockOut s h)
  · revert h
    simp only [answer, Call.routine]
    cases (takeForced .analysisBlockOut s.forced).1 with
    | some code =>
      intro _
      simp only [forcedAnswer, blocksLeft]
      omega
    | none =>
      simp only [freeAnswer, blockOut]
      split
      · simp
      · split
        · simp
        · intro _
          simp only [blocksLeft]
          omega

theorem blocksLeft_analysis (s : ScriptState) :
    script.blocksLeft (script.answer .analysis s).2 ≤ script.blocksLeft s := by
  have le := countForced_takeForced_le .analysisBlockOut .analysis s.forced
  simp only [answer, Call.routine]
  cases (takeForced .analysis s.forced).1 <;>
    simp only [forcedAnswer, freeAnswer, blocksLeft] <;> omega

theorem blocksLeft_addBlock (s : ScriptState) :
    script.blocksLeft (script.answer .addBlock s).2 ≤ script.blocksLeft s := by
  have le := countForced_takeForced_le .analysisBlockOut .bitrateAddBlock s.forced
  simp only [answer, Call.routine]
  cases (takeForced .bitrateAddBlock s.forced).1 <;>
    simp only [forcedAnswer, freeAnswer, blocksLeft] <;> omega

theorem blocksLeft_flushPacket (s : ScriptState) :
    script.blocksLeft (script.answer .flushPacket s).2 ≤ script.blocksLeft s := by
  have le := countForced_takeForced_le .analysisBlockOut .bitrateFlushPacket s.forced
  simp only [answer, Call.routine]
  cases (takeForced .bitrateFlushPacket s.forced).1 with
  | some code =>
    simp only [forcedAnswer, blocksLeft]
    omega
  | none =>
    simp only [freeAnswer, flushPacket]
    split <;> simp only [blocksLeft] <;> omega

theorem packetsLeft_flushPacket (s : ScriptState)
    (h : (script.answer .flushPacket s).1.1 = (1 : Int32)) :
    packetsLeft (script.answer .flushPacket s).2 < packetsLeft s := by
  have le := countForced_takeForced_le .bitrateFlushPacket .bitrateFlushPacket s.forced
  have lt := countForced_takeForced_lt .bitrateFlushPacket s.forced
  revert h
  simp only [answer, Call.routine]
  cases hf : (takeForced .bitrateFlushPacket s.forced).1 with
  | some code =>
    have := lt code hf
    simp only [forcedAnswer, packetsLeft]
    omega
  | none =>
    simp only [freeAnswer, flushPacket]
    split
    · intro h
      simp at h
    · next hq =>
      simp only [packetsLeft, hq, List.length_cons]
      omega

def library : Library ScriptState where
  start := { forced := script.forced }
  answer := script.answer
  blocksLeft := script.blocksLeft
  packetsLeft
  blocksLeft_blockOut_le := script.blocksLeft_blockOut_le
  blocksLeft_blockOut := script.blocksLeft_blockOut
  blocksLeft_analysis := script.blocksLeft_analysis
  blocksLeft_addBlock := script.blocksLeft_addBlock
  blocksLeft_flushPacket := script.blocksLeft_flushPacket
  packetsLeft_flushPacket := script.packetsLeft_flushPacket

end Script

end VorbisTrack
