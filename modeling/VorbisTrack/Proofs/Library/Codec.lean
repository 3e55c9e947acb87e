import VorbisTrack.Proofs.Session.Protocol

/-!
# Libraries that work like a codec

A codec is a function: what has been put in determines which blocks there are and which packets
they have. More input adds blocks and leaves alone those that were there. A library works like a
codec (`Library.Follows`) if its answers can be told from a `View` of it: the input so far, how many
blocks it has handed out, the block that is being worked on, and the packets that wait to be
released. Nothing is asked of a library that is called out of order.

`Codec.library` is the library that keeps nothing but its view.
-/

set_option autoImplicit false

namespace VorbisTrack

/-- What a library has been given so far. -/
@[ext] structure Input where
  /-- The samples of each channel. -/
  samples : Nat → List Sample := fun _ => []
  ended : Bool := false

namespace Input

def append (input : Input) (planes : List (List Sample)) : Input :=
  { input with samples := fun c => input.samples c ++ planes.getD c [] }

def finish (input : Input) : Input :=
  { input with ended := true }

end Input

/-- What matters of a packet: its data and the sample at which it ends. -/
structure Content where
  data : Bytes
  granule : Int64
  deriving DecidableEq

namespace RawPacket

def content (raw : RawPacket) : Content :=
  ⟨raw.data, raw.granule⟩

end RawPacket

structure Codec where
  /-- The blocks that are complete after an input, each with its packets. -/
  blocks : Input → List (List Content)
  /-- More samples leave the blocks that are complete alone. -/
  blocks_append : ∀ input planes, input.ended = false →
    blocks input <+: blocks (input.append planes)
  /-- So does the end of the input. -/
  blocks_finish : ∀ input, blocks input <+: blocks input.finish

/-- How far a library is with its input. -/
structure View where
  input : Input := {}
  /-- Blocks that have been handed out. -/
  handed : Nat := 0
  /-- The packets of the block that is being worked on. -/
  working : Option (List Content) := none
  /-- The packets that wait to be released. -/
  queue : List Content := []

/-- A call is in order. -/
def View.Allows (v : View) : Call → Prop
  | .buffer _ => v.input.ended = false ∧ v.working = none ∧ v.queue = []
  | .wrote count planes =>
    v.input.ended = false ∧ v.working = none ∧ v.queue = [] ∧ ∀ plane ∈ planes, plane.length = count
  | .blockOut => v.working = none ∧ v.queue = []
  | .analysis | .addBlock => v.working.isSome ∧ v.queue = []
  | .flushPacket => v.working = none
  | _ => False

namespace Codec

variable (codec : Codec)

/-- How far a library is after a call. -/
def next (v : View) : Call → View
  | .wrote count planes =>
    { v with input := if count = 0 then v.input.finish else v.input.append planes }
  | .blockOut =>
    match (codec.blocks v.input)[v.handed]? with
    | some block => { v with handed := v.handed + 1, working := some block }
    | none => v
  | .addBlock => { v with working := none, queue := v.working.getD [] }
  | .flushPacket => { v with queue := v.queue.tail }
  | _ => v

/-- An answer is the one that a library gives which has got this far. No call fails. -/
def Fits (v : View) : Event → Prop
  | ⟨.buffer _, memory⟩ => memory.isSome
  | ⟨.wrote .., code⟩ | ⟨.analysis, code⟩ | ⟨.addBlock, code⟩ => 0 ≤ code
  | ⟨.blockOut, code⟩ => 0 ≤ code ∧ (code = 1 ↔ v.handed < (codec.blocks v.input).length)
  | ⟨.flushPacket, code, packet⟩ =>
    match v.queue with
    | [] => 0 ≤ code ∧ code ≠ 1
    | content :: _ => code = 1 ∧ packet.content = content
  | _ => True

/-- A library in a state that is related to a view answers a call that is in order as it should, and
comes to a state that is related to the next view. -/
structure Simulates {σ : Type} (lib : Library σ) (rel : σ → View → Prop) : Prop where
  fits : ∀ {s v} (call : Call), rel s v → v.Allows call →
    codec.Fits v ⟨call, (lib.answer call s).1⟩
  next : ∀ {s v} (call : Call), rel s v → v.Allows call →
    rel (lib.answer call s).2 (codec.next v call)

end Codec

/-- From this state on a library that has been given nothing works like the codec. -/
def Library.Follows {σ : Type} (lib : Library σ) (codec : Codec) (s : σ) : Prop :=
  ∃ rel : σ → View → Prop, rel s {} ∧ codec.Simulates lib rel

namespace Codec

variable (codec : Codec)

/-! ## The library of a codec -/

/-- What the library of a codec answers. -/
def reply (v : View) : (call : Call) → call.Answer
  | .setup _ | .analysisInit | .blockInit | .wrote .. | .analysis | .addBlock => (0 : Int32)
  | .headerOut => ((0 : Int32), ⟨[], [], []⟩)
  | .buffer _ => some fun _ _ => 0
  | .blockOut => if v.handed < (codec.blocks v.input).length then (1 : Int32) else 0
  | .flushPacket =>
    match v.queue with
    | [] => ((0 : Int32), {})
    | content :: _ => ((1 : Int32), { data := content.data, granule := content.granule })
  | .infoInit | .commentInit | .commentAdd .. | .commentClear | .blockClear | .dspClear
  | .infoClear => ()

theorem blockOut_next (v : View) (complete : v.handed < (codec.blocks v.input).length) :
    codec.next v .blockOut =
      { v with
        handed := v.handed + 1, working := some ((codec.blocks v.input)[v.handed]) } := by
  simp only [next, List.getElem?_eq_getElem complete]

theorem blockOut_next_of_le (v : View) (none : (codec.blocks v.input).length ≤ v.handed) :
    codec.next v .blockOut = v := by
  simp only [next, List.getElem?_eq_none none]

def library : Library View where
  start := {}
  answer call v := (codec.reply v call, codec.next v call)
  blocksLeft v := (codec.blocks v.input).length - v.handed
  packetsLeft v := v.queue.length
  blocksLeft_blockOut_le := by
    intro v
    by_cases complete : v.handed < (codec.blocks v.input).length
    · rw [blockOut_next codec v complete]
      show (codec.blocks v.input).length - (v.handed + 1) ≤ _
      omega
    · exact Nat.le_of_eq (by rw [blockOut_next_of_le codec v (by omega)])
  blocksLeft_blockOut := by
    intro v handed
    by_cases complete : v.handed < (codec.blocks v.input).length
    · rw [blockOut_next codec v complete]
      show (codec.blocks v.input).length - (v.handed + 1) < _
      omega
    · simp [reply, complete] at handed
  blocksLeft_analysis _ := Nat.le_refl _
  blocksLeft_addBlock _ := Nat.le_refl _
  blocksLeft_flushPacket _ := Nat.le_refl _
  packetsLeft_flushPacket := by
    intro v released
    cases queue : v.queue with
    | nil => simp [reply, queue] at released
    | cons content rest => simp [next, queue]

theorem follows_library : codec.library.Follows codec {} := by
  refine ⟨Eq, rfl, ?_, ?_⟩
  · rintro s _ call rfl allowed
    cases call with
    | flushPacket =>
      show codec.Fits s ⟨.flushPacket, codec.reply s .flushPacket⟩
      cases queue : s.queue with
      | nil => simp [Fits, reply, queue]
      | cons content rest => simp [Fits, reply, queue, RawPacket.content]
    | blockOut =>
      show codec.Fits s ⟨.blockOut, codec.reply s .blockOut⟩
      by_cases complete : s.handed < (codec.blocks s.input).length
      · simp [Fits, reply, complete]
      · simp [Fits, reply, complete]
    | buffer count => rfl
    | wrote count planes => exact Int32.le_refl 0
    | analysis => exact Int32.le_refl 0
    | addBlock => exact Int32.le_refl 0
    | _ => trivial
  · rintro s _ call rfl -
    rfl

end Codec

end VorbisTrack
