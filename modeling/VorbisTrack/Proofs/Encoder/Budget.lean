import VorbisTrack.Proofs.Encoder.Backpressure
import VorbisTrack.Proofs.Encoder.Conservation
import VorbisTrack.Proofs.Session.Pausing

/-!
# The budget stops analysis between blocks

An encoder asks its library for a block only while the queue has room. The packets of the block are
staged even if the queue is full by then, so the budget is overshot by the packets of one block at
most, and no other block is asked for until packets have been received. `Encoder.Asks` tells of the
moments at which a block is asked for: it names the encoder as it is then, in the middle of an
operation. `blockOut_keepsBudget` says all this of any run.
-/

set_option autoImplicit false

namespace VorbisTrack

variable {σ : Type} {lib : Library σ}

namespace Staging

/-- A queue has room while it is charged with less than the budget. -/
theorem lt_budget_of_room {s : Staging} (room : s.isFull = false) : s.bytes < 65536 :=
  Nat.lt_of_not_le (of_decide_eq_false room)

theorem bytes_putAll (packets : List RawPacket) (s : Staging) :
    (sink.putAll packets s).bytes = s.bytes + totalCost packets := by
  induction packets generalizing s with
  | nil => rfl
  | cons packet rest ih =>
    show (sink.putAll rest (s.push packet)).bytes = _
    rw [ih, push, totalCost_cons, Nat.add_assoc]

end Staging

namespace Encoder

/-! ## The moments at which a block is asked for -/

/-- An operation on an encoder comes to drain it. By then a frame has been written or the input has
ended, or nothing was staged. -/
inductive Drains (e : Encoder lib) : Operation → Encoder lib → Prop
  | send {frame : Frame} {session : Session lib} (taken : e.refusal? frame = none)
      (some_ : frame.sampleCount ≠ 0)
      (written : e.session.write frame.sampleCount (vorbisSamples frame) = (.ok (), session)) :
      Drains e (.send frame)
        { e.anchor frame.pts with session, samplesSent := e.samplesSent + frame.sampleCount }
  | flush {session : Session lib} (going : e.ended = false)
      (told : e.session.signalEnd = (.ok (), session)) :
      Drains e .flush { e with session, ended := true }
  | flushAgain (ended : e.ended = true) : Drains e .flush e
  | receive (empty : e.staging.packets = []) : Drains e .receive e
  | receiveInto (buffer : Bytes) (empty : e.staging.packets = []) :
      Drains e (.receiveInto buffer) e

/-- In the course of an operation on `e` a block is asked for, and the encoder is `m` then. -/
def Asks (e : Encoder lib) (operation : Operation) (m : Encoder lib) : Prop :=
  ∃ d, e.Drains operation d ∧ d.staging.isFull = false ∧
    ∃ staging session,
      Session.ComesRound Staging.sink d.staging d.session staging session ∧
        m = { d with staging, session }

/-- There is room whenever a block is asked for. -/
theorem Asks.room {e m : Encoder lib} {operation : Operation} (h : e.Asks operation m) :
    m.staging.isFull = false := by
  obtain ⟨d, -, room, staging, session, comes, rfl⟩ := h
  rcases comes.wantsMore with same | more
  · show staging.isFull = false
    rw [same]
    exact room
  · simpa [Staging.sink] using more

/-- When an operation has drained the encoder, all it still does is to hand out. -/
theorem Drains.after {e d : Encoder lib} {operation : Operation} (h : e.Drains operation d) :
    (e.after operation).session = d.drain.2.session ∧
      ∃ taken, taken.map RawPacket.data = e.handedOut operation ∧
        d.drain.2.Conserves (e.after operation) taken := by
  cases h with
  | @send frame session taken some_ written =>
    have sent : (e.send frame).2 = (drain { e.anchor frame.pts with
        session, samplesSent := e.samplesSent + frame.sampleCount }).2 := by
      simp only [Encoder.send, taken, some_, if_false, session_anchor, samplesSent_anchor, written]
    rw [Encoder.after, sent]
    exact ⟨rfl, [], rfl, .refl _⟩
  | @flush session going told =>
    have flushed : e.flush.2 = (drain { e with session, ended := true }).2 := by
      simp only [Encoder.flush, going, Bool.false_eq_true, if_false, told]
    rw [Encoder.after, flushed]
    exact ⟨rfl, [], rfl, .refl _⟩
  | flushAgain ended =>
    have flushed : e.flush.2 = e.drain.2 := by
      rw [Encoder.flush, if_pos ended]
    rw [Encoder.after, flushed]
    exact ⟨rfl, [], rfl, .refl _⟩
  | receive empty =>
    rw [← refill_of_empty empty]
    exact ⟨(receives_receive e).session, (receives_receive e).conserves⟩
  | receiveInto buffer empty =>
    rw [← refill_of_empty empty]
    have receives := receives_receiveInto e buffer
    exact ⟨receives.session, receives.conserves⟩

/-- An operation asks for no block until it drains the encoder, and it need not come to that. -/
theorem asksForNone_or_drains (e : Encoder lib) (operation : Operation) :
    e.session.AsksForNone (e.after operation).session ∨
      ∃ d, e.Drains operation d ∧ e.session.AsksForNone d.session := by
  cases operation with
  | send frame =>
    have input := (Session.makes_write e.session frame.sampleCount
      (vorbisSamples frame)).asksForNone (by decide)
    rw [Encoder.after]
    rcases send_cases e frame with
      ⟨_, -, sent⟩ | ⟨-, -, sent⟩ | ⟨_, session, -, -, written, sent⟩ |
      ⟨session, taken, some_, written, -⟩
    · left
      rw [sent]
      exact .refl e.session
    · left
      rw [sent, session_anchor]
      exact .refl e.session
    · left
      rw [written] at input
      rw [sent]
      exact input
    · right
      rw [written] at input
      exact ⟨_, .send taken some_ written, input⟩
  | flush =>
    have told := Session.asksForNone_signalEnd e.session
    rw [Encoder.after]
    rcases flush_cases e with
      ⟨ended, -⟩ | ⟨_, session, -, signal, flushed⟩ | ⟨session, going, signal, -⟩
    · exact .inr ⟨e, .flushAgain ended, .refl e.session⟩
    · left
      rw [signal] at told
      rw [flushed]
      exact told
    · right
      rw [signal] at told
      exact ⟨_, .flush going signal, told⟩
  | receive =>
    by_cases empty : e.staging.packets = []
    · exact .inr ⟨e, .receive empty, .refl e.session⟩
    · left
      rw [(receives_receive e).session, refill_of_ne empty]
      exact .refl e.session
  | receiveInto buffer =>
    by_cases empty : e.staging.packets = []
    · exact .inr ⟨e, .receiveInto buffer empty, .refl e.session⟩
    · left
      rw [(receives_receiveInto e buffer).session, refill_of_ne empty]
      exact .refl e.session

/-- Every request for a block that an operation adds to the log is one that it `Asks`. -/
theorem asks_of_log {e : Encoder lib} {operation : Operation} {code : Int32} {older : List Event}
    (made : ⟨.blockOut, code⟩ :: older <:+ (e.after operation).session.log)
    (new : ¬ ⟨.blockOut, code⟩ :: older <:+ e.session.log) :
    ∃ m, e.Asks operation m ∧ m.session.log = older := by
  rcases asksForNone_or_drains e operation with none | ⟨d, drains, none⟩
  · exact absurd (none.suffix_of_blockOut made) new
  · rw [drains.after.1] at made
    have since : ¬ ⟨.blockOut, code⟩ :: older <:+ d.session.log :=
      fun old => new (none.suffix_of_blockOut old)
    cases full : d.staging.isFull with
    | true =>
      rw [drain_of_isFull full] at made
      exact absurd made since
    | false =>
      rw [drain_of_not_isFull full] at made
      obtain ⟨staging, session, comes, log⟩ := Session.comesRound_of_log made since
      exact ⟨_, ⟨d, drains, full, staging, session, comes, rfl⟩, log⟩

theorem Drains.staging {e d : Encoder lib} {operation : Operation} (h : e.Drains operation d) :
    d.staging = e.staging ∧ d.session.released = e.session.released := by
  cases h with
  | @send frame session taken some_ written =>
    have input := (Session.makes_write e.session frame.sampleCount (vorbisSamples frame)).released
      (by decide)
    rw [written] at input
    exact ⟨staging_anchor .., input⟩
  | @flush session _ told =>
    have input := Session.released_signalEnd e.session
    rw [told] at input
    exact ⟨rfl, input⟩
  | flushAgain ended => exact ⟨rfl, rfl⟩
  | receive empty => exact ⟨rfl, rfl⟩
  | receiveInto buffer empty => exact ⟨rfl, rfl⟩

/-- By the time a block is asked for, all packets released so far have been staged. -/
theorem Asks.staged {e m : Encoder lib} {operation : Operation} (h : e.Asks operation m) :
    e.Conserves m [] ∧ (e.staging.Charged → m.staging.Charged) := by
  obtain ⟨d, drains, -, staging, session, comes, rfl⟩ := h
  obtain ⟨packets, released, put⟩ := comes.handsOver
  obtain ⟨same, none⟩ := drains.staging
  rw [none] at released
  rw [same] at put
  refine ⟨⟨packets, released, ?_⟩, ?_⟩
  · show [] ++ staging.packets = _
    rw [put, Staging.packets_putAll, List.nil_append]
  · intro charged
    show staging.Charged
    rw [put]
    exact charged.putAll packets

/-- All packets released after a block has been asked for are staged, however many they are. -/
theorem Asks.conserves {e m : Encoder lib} {operation : Operation} (h : e.Asks operation m) :
    ∃ taken, taken.map RawPacket.data = e.handedOut operation ∧
      m.Conserves (e.after operation) taken := by
  have roomNow := h.room
  obtain ⟨d, drains, room, staging, session, comes, rfl⟩ := h
  -- What is left to be done is what draining from here on does.
  have rest : (drain { d with staging, session }).2 = d.drain.2 := by
    rw [drain_of_not_isFull room, drain_of_not_isFull roomNow, comes.drain_eq]
  have staged := conserves_drain { d with staging, session }
  rw [rest] at staged
  obtain ⟨-, taken, data, left⟩ := drains.after
  exact ⟨taken, data, staged.trans left⟩

/-! ## How far the budget is overshot -/

/-- The queue overshoots its budget by the packets of the latest block at most. -/
def Overshoots (e : Encoder lib) : Prop :=
  e.staging.bytes < 65536 + Staging.totalCost (sinceBlock e.session.log)

/-- Calls that ask for no block leave the packets of the latest block with it. -/
theorem Overshoots.of_session {e : Encoder lib} (h : e.Overshoots) {session : Session lib}
    (none : e.session.AsksForNone session) (released : session.released = e.session.released)
    (ended : Bool) : Overshoots { e with session, ended } := by
  have same : sinceBlock session.log = sinceBlock e.session.log ++ [] :=
    none.sinceBlock (by rw [released, List.append_nil])
  rw [List.append_nil] at same
  show e.staging.bytes < 65536 + Staging.totalCost (sinceBlock session.log)
  rw [same]
  exact h

theorem overshoots_drain {e : Encoder lib} (h : e.Overshoots) : e.drain.2.Overshoots := by
  cases full : e.staging.isFull with
  | true => rwa [drain_of_isFull full]
  | false =>
    rw [drain_of_not_isFull full]
    rcases Session.drain_lastBlock Staging.sink e.staging e.session with
      ⟨same, since⟩ | ⟨staging, more, put⟩
    · show (e.session.drain Staging.sink e.staging).2.1.bytes < _
      rw [same, since]
      exact h
    · -- The latest block was asked for while there was room.
      have room : staging.isFull = false := by
        rcases more with rfl | more
        · exact full
        · simpa [Staging.sink] using more
      show (e.session.drain Staging.sink e.staging).2.1.bytes < _
      rw [put, Staging.bytes_putAll]
      exact Nat.add_lt_add_right (Staging.lt_budget_of_room room) _

theorem overshoots_after {e : Encoder lib} (h : e.Overshoots) (operation : Operation) :
    (e.after operation).Overshoots := by
  apply after_keeps (P := Overshoots) ?_ ?_ ?_ ?_ ?_ ?_ h operation
  · intro e time _ kept
    rwa [Overshoots, staging_anchor, session_anchor]
  · intro e count fill _ _ kept
    have input := Session.makes_write e.session count fill
    exact kept.of_session (input.asksForNone (by decide)) (input.released (by decide)) e.ended
  · intro _ _ kept
    exact kept
  · intro e _ kept
    exact kept.of_session (Session.asksForNone_signalEnd e.session)
      (Session.released_signalEnd e.session) _
  · intro _ kept
    exact overshoots_drain kept
  · intro e raw rest _ kept
    exact Nat.lt_of_le_of_lt (Nat.sub_le _ _) kept

/-! ## While the queue is full -/

/-- While the queue is full, all an encoder asks of its library is to end the input. -/
theorem log_after_of_isFull {e : Encoder lib} (charged : e.staging.Charged)
    (full : e.staging.isFull = true) (operation : Operation) :
    ∃ events, (e.after operation).session.log = events ++ e.session.log ∧
      ∀ event ∈ events, event.call.purpose = .input := by
  have staged : e.staging.packets ≠ [] := by
    intro empty
    rw [charged.isFull_of_nil empty] at full
    cases full
  have unchanged := (Session.Makes.refl .input e.session).log
  cases operation with
  | send frame =>
    rw [after]
    cases refused : e.refusal? frame with
    | some failure => simpa only [send, refused] using unchanged
    | none =>
      have room := (refusal?_eq_none_iff.mp refused).room
      rw [full] at room
      cases room
  | flush =>
    have told := Session.log_signalEnd e.session
    rw [after]
    rcases flush_cases e with
      ⟨-, flushed⟩ | ⟨_, session, -, signal, flushed⟩ | ⟨session, -, signal, flushed⟩
    · rw [flushed, drain_of_isFull full]
      exact unchanged
    · rw [signal] at told
      rwa [flushed]
    · rw [signal] at told
      rw [flushed, drain_of_isFull (e := { e with session, ended := true }) full]
      exact told
  | receive =>
    rw [(receives_receive e).session, refill_of_ne staged]
    exact unchanged
  | receiveInto buffer =>
    rw [(receives_receiveInto e buffer).session, refill_of_ne staged]
    exact unchanged

/-! ## Runs -/

/-- After operations `before`, the encoder `m` asks for a block in the course of another operation.
What has been released by then has been handed out or is staged, there is room in the queue, and all
packets released in the rest of the operation are staged. -/
structure AsksWithRoom (e : Encoder lib) (before : List Operation) (operation : Operation)
    (m : Encoder lib) : Prop where
  asks : (e.afterAll before).Asks operation m
  balance : e.handedOutAll before ++ m.staging.packets.map RawPacket.data =
    m.session.released.map RawPacket.data
  bytes : m.staging.bytes = Staging.totalCost m.staging.packets
  room : m.staging.bytes < 65536
  staged : ∃ taken, taken.map RawPacket.data = (e.afterAll before).handedOut operation ∧
    m.Conserves ((e.afterAll before).after operation) taken

theorem Asks.withRoom {settings : Settings} {e m : Encoder lib} {trace : List Event}
    {before : List Operation} {operation : Operation}
    (opened : Encoder.open lib settings = (.ok e, trace))
    (asks : (e.afterAll before).Asks operation m) : e.AsksWithRoom before operation m := by
  obtain ⟨empty, silent⟩ := staged_released_of_open opened
  obtain ⟨taken, data, run⟩ := conserves_afterAll before e
  obtain ⟨since, charged⟩ := asks.staged
  obtain ⟨released, all, balance⟩ := run.trans since
  rw [empty, List.nil_append, List.append_nil] at balance
  rw [silent, List.nil_append] at all
  refine ⟨asks, ?_, ?_, Staging.lt_budget_of_room asks.room, asks.conserves⟩
  · rw [← data, all, ← balance, List.map_append]
  · exact charged (charged_afterAll before (charged_of_open opened))

/-- The encoder keeps to its budget in a run. -/
structure KeepsBudget (e : Encoder lib) (operations : List Operation) : Prop where
  /-- Each request for a block in the log is made in the course of an operation, with room in the
  queue. -/
  asked : ∀ newer code older,
    (e.afterAll operations).session.log = newer ++ ⟨.blockOut, code⟩ :: older →
      ∃ before operation later m, operations = before ++ operation :: later ∧
        e.AsksWithRoom before operation m ∧ m.session.log = older
  overshoot : (e.afterAll operations).staging.bytes <
    65536 + Staging.totalCost (sinceBlock (e.afterAll operations).session.log)
  /-- While the queue is full, no block is asked for, and none is analysed. -/
  paused : 65536 ≤ (e.afterAll operations).staging.bytes → ∀ operation, ∃ events,
    ((e.afterAll operations).after operation).session.log =
        events ++ (e.afterAll operations).session.log ∧
      ∀ event ∈ events, event.call.purpose = .input

/-- A request for a block that is in the log after a run was there before it, or some operation
asked for it. -/
theorem asks_of_log_afterAll {code : Int32} {older : List Event} (operations : List Operation)
    {e : Encoder lib}
    (made : ⟨.blockOut, code⟩ :: older <:+ (e.afterAll operations).session.log) :
    ⟨.blockOut, code⟩ :: older <:+ e.session.log ∨
      ∃ before operation later m, operations = before ++ operation :: later ∧
        (e.afterAll before).Asks operation m ∧ m.session.log = older := by
  induction operations generalizing e with
  | nil => exact .inl made
  | cons operation rest ih =>
    rcases ih made with made | ⟨before, other, later, m, rfl, asks, log⟩
    · by_cases old : ⟨.blockOut, code⟩ :: older <:+ e.session.log
      · exact .inl old
      · obtain ⟨m, asks, log⟩ := asks_of_log made old
        exact .inr ⟨[], operation, rest, m, rfl, asks, log⟩
    · exact .inr ⟨operation :: before, other, later, m, rfl, asks, log⟩

/-- **The budget stops analysis between blocks.** In every run of an encoder that has been opened,
whatever the library answers, a block is asked for only while there is room in the queue, and all
its packets are staged. So the budget is overshot by the packets of one block at most, and while it
is, no other block is analysed. -/
theorem blockOut_keepsBudget {settings : Settings} {e : Encoder lib} {trace : List Event}
    (opened : Encoder.open lib settings = (.ok e, trace)) (operations : List Operation) :
    e.KeepsBudget operations := by
  have charged := charged_of_open opened
  refine ⟨?_, ?_, ?_⟩
  · intro newer code older log
    rcases asks_of_log_afterAll operations ⟨newer, log.symm⟩ with
      early | ⟨before, operation, later, m, rfl, asks, log⟩
    · -- Opening asks for no block.
      have none := ((makes_of_open opened).asksForNone (by decide)).suffix_of_blockOut early
      cases List.suffix_nil.mp none
    · exact ⟨before, operation, later, m, rfl, asks.withRoom opened, log⟩
  · apply afterAll_keeps (P := Overshoots) (fun _ h => overshoots_after h)
    show e.staging.bytes < _
    rw [charged, (staged_released_of_open opened).1]
    exact Nat.lt_of_lt_of_le (by decide) (Nat.le_add_right ..)
  · intro full operation
    exact log_after_of_isFull (charged_afterAll operations charged) (decide_eq_true full) operation

/-- One packet can fill the queue, and then no other block is analysed. -/
theorem blockOut_keepsBudget_bulky :
    ∃ (e : Encoder bulkyCodec.library) (trace : List Event),
      Encoder.open bulkyCodec.library monoSettings = (.ok e, trace) ∧
        65536 ≤ (e.afterAll [.receive]).staging.bytes ∧ e.KeepsBudget [.receive] := by
  obtain ⟨e, trace, opened, full, -⟩ := full_bulky
  exact ⟨e, trace, opened, of_decide_eq_true full, blockOut_keepsBudget opened [.receive]⟩

end Encoder

end VorbisTrack
