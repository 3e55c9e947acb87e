import VorbisTrack.Library.Scripted
import VorbisTrack.Proofs.Encoder.Run

/-!
# No packet is lost, made twice or put out of order

Packets come into the queue from three sides (sending, flushing, and receiving when the queue is
empty) and leave it by two (receiving, and receiving into a buffer). Each operation may be cut
short by a failure between any two calls of the library. Whatever happens, what an operation takes
from the queue, followed by the queue after it, is the queue before it, followed by the packets
released meanwhile (`Conserves`). Over a whole run this gives `handedOutAll_append_staged`: the data
handed out, then the data still staged, is the data released by the library.
-/

set_option autoImplicit false

namespace VorbisTrack

variable {σ : Type} {lib : Library σ}

namespace Encoder

/-! ## One operation -/

/-- From `e` to `e'` the packets `taken` have left the queue at its front, and those that the
library has released have joined it at its end. -/
def Conserves (e e' : Encoder lib) (taken : List RawPacket) : Prop :=
  ∃ released, e'.session.released = e.session.released ++ released ∧
    taken ++ e'.staging.packets = e.staging.packets ++ released

/-- The queue holds packets that the library has released. -/
def HoldsReleased (e : Encoder lib) : Prop :=
  ∀ raw ∈ e.staging.packets, raw ∈ e.session.released

namespace Conserves

theorem refl (e : Encoder lib) : e.Conserves e [] :=
  ⟨[], (List.append_nil _).symm, (List.append_nil _).symm⟩

/-- Nothing matters but the log of the session and the queue. -/
theorem nothing {e e' : Encoder lib} (released : e'.session.released = e.session.released)
    (staged : e'.staging = e.staging) : e.Conserves e' [] :=
  ⟨[], by rw [released, List.append_nil], by rw [staged, List.append_nil, List.nil_append]⟩

theorem trans {e e' e'' : Encoder lib} {taken further : List RawPacket}
    (first : e.Conserves e' taken) (second : e'.Conserves e'' further) :
    e.Conserves e'' (taken ++ further) := by
  obtain ⟨released, earlier, balance⟩ := first
  obtain ⟨released', later, balance'⟩ := second
  refine ⟨released ++ released', ?_, ?_⟩
  · rw [later, earlier, List.append_assoc]
  · calc taken ++ further ++ e''.staging.packets
        = taken ++ (e'.staging.packets ++ released') := by rw [List.append_assoc, balance']
      _ = e.staging.packets ++ (released ++ released') := by
          rw [← List.append_assoc, balance, List.append_assoc]

/-- What has left the queue and what is in it now has been released, if that held of the queue
before. -/
theorem mem_released {e e' : Encoder lib} {taken : List RawPacket} (h : e.Conserves e' taken)
    (holds : e.HoldsReleased) : ∀ raw ∈ taken ++ e'.staging.packets, raw ∈ e'.session.released := by
  obtain ⟨released, later, balance⟩ := h
  rw [balance, later]
  intro raw member
  rcases List.mem_append.mp member with before | new
  · exact List.mem_append_left _ (holds raw before)
  · exact List.mem_append_right _ new

/-- Handing out takes the packet at the front. -/
theorem handOut {e : Encoder lib} {raw : RawPacket} {rest : List RawPacket}
    (staged : e.staging.packets = raw :: rest) : e.Conserves (e.handOut raw rest) [raw] :=
  ⟨[], (List.append_nil _).symm, by rw [staged, List.append_nil]; rfl⟩

end Conserves

theorem conserves_drain (e : Encoder lib) : e.Conserves e.drain.2 [] := by
  cases full : e.staging.isFull with
  | true =>
    rw [drain_of_isFull full]
    exact .refl e
  | false =>
    rw [drain_of_not_isFull full]
    obtain ⟨packets, released, staged⟩ := Session.drain_released Staging.sink e.staging e.session
    refine ⟨packets, released, ?_⟩
    rw [List.nil_append, ← Staging.packets_putAll, ← staged]

theorem conserves_anchor (e : Encoder lib) (time : Timestamp) :
    e.Conserves (e.anchor time) [] := by
  unfold anchor
  split <;> exact .nothing rfl rfl

theorem conserves_refill (e : Encoder lib) : e.Conserves e.refill.2 [] := by
  by_cases empty : e.staging.packets = []
  · rw [refill_of_empty empty]
    exact conserves_drain e
  · rw [refill_of_ne empty]
    exact .refl e

theorem conserves_send (e : Encoder lib) (frame : Frame) :
    e.Conserves (e.send frame).2 [] := by
  have written :=
    (Session.makes_write e.session frame.sampleCount (vorbisSamples frame)).released (by decide)
  -- Only the drain after a write can put anything into the queue.
  rcases send_cases e frame with
    ⟨_, -, sent⟩ | ⟨-, -, sent⟩ | ⟨_, session, -, -, write, sent⟩ | ⟨session, -, -, write, sent⟩
  · rw [sent]
    exact .refl e
  · rw [sent]
    exact conserves_anchor e frame.pts
  · rw [write] at written
    rw [sent]
    exact .nothing written (staging_anchor ..)
  · rw [write] at written
    rw [sent]
    have first : e.Conserves
        { e.anchor frame.pts with session, samplesSent := e.samplesSent + frame.sampleCount } [] :=
      .nothing written (staging_anchor ..)
    exact first.trans (conserves_drain _)

theorem conserves_flush (e : Encoder lib) : e.Conserves e.flush.2 [] := by
  have told := Session.released_signalEnd e.session
  rcases flush_cases e with
    ⟨-, flushed⟩ | ⟨_, session, -, signal, flushed⟩ | ⟨session, -, signal, flushed⟩
  · rw [flushed]
    exact conserves_drain e
  · rw [signal] at told
    rw [flushed]
    exact .nothing told rfl
  · rw [signal] at told
    rw [flushed]
    have first : e.Conserves { e with session, ended := true } [] := .nothing told rfl
    exact first.trans (conserves_drain _)

/-! ## What is handed out -/

def handedOutAll (e : Encoder lib) : List Operation → List Bytes
  | [] => []
  | operation :: rest => e.handedOut operation ++ (e.after operation).handedOutAll rest

theorem Receives.conserves {e : Encoder lib} {operation : Operation} (h : e.Receives operation) :
    ∃ taken, taken.map RawPacket.data = e.handedOut operation ∧
      e.refill.2.Conserves (e.after operation) taken := by
  cases h with
  | nothing after data =>
    rw [after]
    exact ⟨[], data.symm, .refl e.refill.2⟩
  | @front raw rest staged after data =>
    rw [after]
    exact ⟨[raw], data.symm, .handOut staged⟩

/-- What an operation hands out are the packets that it takes from the queue. -/
theorem conserves_after (e : Encoder lib) (operation : Operation) :
    ∃ taken, taken.map RawPacket.data = e.handedOut operation ∧
      e.Conserves (e.after operation) taken := by
  have receiving {operation : Operation} (receives : e.Receives operation) :
      ∃ taken, taken.map RawPacket.data = e.handedOut operation ∧
        e.Conserves (e.after operation) taken := by
    obtain ⟨taken, data, received⟩ := receives.conserves
    exact ⟨taken, data, (conserves_refill e).trans received⟩
  cases operation with
  | send frame => exact ⟨[], rfl, conserves_send e frame⟩
  | flush => exact ⟨[], rfl, conserves_flush e⟩
  | receive => exact receiving (receives_receive e)
  | receiveInto buffer => exact receiving (receives_receiveInto e buffer)

/-! ## Whole runs -/

theorem conserves_afterAll (operations : List Operation) (e : Encoder lib) :
    ∃ taken, taken.map RawPacket.data = e.handedOutAll operations ∧
      e.Conserves (e.afterAll operations) taken := by
  -- By induction on the operations: what the first takes comes before what the others take.
  induction operations generalizing e with
  | nil => exact ⟨[], rfl, .refl e⟩
  | cons operation rest ih =>
    obtain ⟨taken, data, first⟩ := conserves_after e operation
    obtain ⟨further, data', second⟩ := ih (e.after operation)
    refine ⟨taken ++ further, ?_, first.trans second⟩
    rw [List.map_append, data, data', handedOutAll]

/-- An encoder that has just been opened has nothing staged, and nothing has been released. -/
theorem staged_released_of_open {settings : Settings} {e : Encoder lib} {trace : List Event}
    (opened : Encoder.open lib settings = (.ok e, trace)) :
    e.staging.packets = [] ∧ e.session.released = [] := by
  have silent := (makes_of_open opened).released (by decide)
  obtain ⟨-, options, started, headers, session, -, -, -, rfl, -⟩ := open_eq_ok_iff.mp opened
  exact ⟨rfl, silent⟩

theorem holdsReleased_afterAll {settings : Settings} {e : Encoder lib} {trace : List Event}
    (opened : Encoder.open lib settings = (.ok e, trace)) (operations : List Operation) :
    (e.afterAll operations).HoldsReleased := by
  obtain ⟨empty, -⟩ := staged_released_of_open opened
  obtain ⟨taken, -, conserves⟩ := conserves_afterAll operations e
  have start : e.HoldsReleased := by
    rw [HoldsReleased, empty]
    exact fun _ member => absurd member List.not_mem_nil
  exact fun raw member => conserves.mem_released start raw (List.mem_append_right _ member)

/-- **Packets are conserved.** After any operations on an encoder that has been opened, whatever the
library answered and whether they succeeded or not, the data handed out followed by the data that
is still staged is the data of the packets that the library released, in order. -/
theorem handedOutAll_append_staged {settings : Settings} {e : Encoder lib} {trace : List Event}
    (opened : Encoder.open lib settings = (.ok e, trace)) (operations : List Operation) :
    e.handedOutAll operations ++ (e.afterAll operations).staging.packets.map RawPacket.data
      = (e.afterAll operations).session.released.map RawPacket.data := by
  obtain ⟨empty, silent⟩ := staged_released_of_open opened
  obtain ⟨taken, data, released, all, balance⟩ := conserves_afterAll operations e
  rw [empty, List.nil_append] at balance
  rw [silent, List.nil_append] at all
  calc e.handedOutAll operations ++ (e.afterAll operations).staging.packets.map RawPacket.data
      = (taken ++ (e.afterAll operations).staging.packets).map RawPacket.data := by
        rw [List.map_append, data]
    _ = (e.afterAll operations).session.released.map RawPacket.data := by rw [balance, all]

/-- A library that makes blocks of two packets and fails in the middle of the second. -/
def interruptedScript : Script :=
  { forced := [{ routine := .bitrateFlushPacket, skip := 4, code := -1 }]
    block := 4
    blocks := [[{ size := 3 }, { size := 5 }], [{ size := 2 }, { size := 4 }]] }

theorem handedOutAll_append_staged_interrupted :
    ∃ (e : Encoder interruptedScript.library) (trace : List Event),
      Encoder.open interruptedScript.library monoSettings = (.ok e, trace) ∧
        e.handedOutAll [.send (monoFrame 8), .receive, .receiveInto [0], .flush]
            ++ (e.afterAll [.send (monoFrame 8), .receive, .receiveInto [0],
              .flush]).staging.packets.map RawPacket.data
          = (e.afterAll [.send (monoFrame 8), .receive, .receiveInto [0],
              .flush]).session.released.map RawPacket.data :=
  ⟨_, _, rfl, handedOutAll_append_staged (show Encoder.open _ monoSettings = _ from rfl) _⟩

end Encoder

end VorbisTrack
