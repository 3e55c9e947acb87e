import VorbisTrack.Proofs.Session.Calls

/-!
# The order in which the library may be called

The library prescribes an order of calls. Samples are told of right after the memory for them was
asked for, nothing is put in after the end of the input, and a block is worked on step by step:
handed out, analysed, added, and then claimed packet by packet until there is none left. Only then
the next block may be asked for.

`Call.MayFollow` says whether a call may come after the events of a log, and `Legal` that every call
of a log might. What that comes to for a whole trace is `FollowsProtocol`. Every operation of a
session keeps its log legal, but for a write of no samples that succeeds. What an operation needs
for that from those before it is in `Orderly`: the session knows when its input has ended, and it
leaves no block half claimed unless the library has failed.

Logs have their latest event first throughout.
-/

set_option autoImplicit false

namespace VorbisTrack

variable {σ τ : Type} {lib : Library σ}

namespace Event

def endsInput : Event → Bool
  | ⟨.wrote 0 _, code⟩ => 0 ≤ code
  | _ => false

def isInput : Event → Bool
  | ⟨.buffer _, _⟩ | ⟨.wrote .., _⟩ => true
  | _ => false

def isFailure : Event → Bool
  | ⟨.wrote .., code⟩ | ⟨.blockOut, code⟩ | ⟨.analysis, code⟩ | ⟨.addBlock, code⟩ => code < 0
  | ⟨.flushPacket, code, _⟩ => code < 0
  | _ => false

end Event

/-- No block is half claimed: after the latest block that was handed out, packets have been asked
for until there was none left. -/
def Claimed : List Event → Prop
  | [] => True
  | ⟨.flushPacket, code, _⟩ :: _ => code ≠ 1
  | ⟨.blockOut, code⟩ :: log => code ≠ 1 ∧ Claimed log
  | _ :: log => Claimed log

/-- A call may come after these events. -/
def Call.MayFollow (log : List Event) : Call → Prop
  | .buffer _ => ∀ event ∈ log, event.endsInput = false
  | .wrote count _ =>
    (∀ event ∈ log, event.endsInput = false) ∧
      (count ≠ 0 → ∃ memory, log.head? = some ⟨.buffer count, some memory⟩)
  | .blockOut => (∀ event ∈ log, event.isFailure = false) → Claimed log
  | .analysis => log.head? = some ⟨.blockOut, (1 : Int32)⟩
  | .addBlock => ∃ code : Int32, 0 ≤ code ∧ log.head? = some ⟨.analysis, code⟩
  | .flushPacket =>
    (∃ code : Int32, 0 ≤ code ∧ log.head? = some ⟨.addBlock, code⟩) ∨
      ∃ packet, log.head? = some ⟨.flushPacket, (1 : Int32), packet⟩
  | _ => True

/-- Every call of a log might follow what came before it. -/
def Legal : List Event → Prop
  | [] => True
  | event :: log => Legal log ∧ event.call.MayFollow log

/-- A legal log was legal at any time before. -/
theorem Legal.of_append {later log : List Event} (h : Legal (later ++ log)) : Legal log := by
  induction later with
  | nil => exact h
  | cons event rest ih => exact ih h.1

theorem Legal.mayFollow {later log : List Event} {event : Event}
    (h : Legal (later ++ event :: log)) : event.call.MayFollow log :=
  (Legal.of_append h).2

/-- If no block is half claimed, then after every block that was handed out the latest request for
a packet found none left. -/
theorem Claimed.exists_last {recent log : List Event}
    (h : Claimed (recent ++ ⟨.blockOut, (1 : Int32)⟩ :: log)) :
    ∃ newer packet older, ∃ code : Int32,
      recent = newer ++ ⟨.flushPacket, code, packet⟩ :: older ∧ code ≠ 1 ∧
        ∀ event ∈ newer, event.call ≠ .flushPacket := by
  -- By induction on the events since the block, the latest first. The first request for a packet
  -- that is met is the latest, and it decides whether the block is claimed.
  induction recent with
  | nil => exact absurd rfl h.1
  | cons event rest ih =>
    -- Anything but a request for a packet is passed over.
    have pass (other : event.call ≠ .flushPacket)
        (before : Claimed (rest ++ ⟨.blockOut, (1 : Int32)⟩ :: log)) :
        ∃ newer packet older, ∃ code : Int32,
          event :: rest = newer ++ ⟨.flushPacket, code, packet⟩ :: older ∧ code ≠ 1 ∧
            ∀ event ∈ newer, event.call ≠ .flushPacket := by
      obtain ⟨newer, packet, older, code, rfl, last, none⟩ := ih before
      refine ⟨event :: newer, packet, older, code, rfl, last, ?_⟩
      intro e he
      rcases List.mem_cons.mp he with rfl | he
      · exact other
      · exact none e he
    obtain ⟨call, answer⟩ := event
    cases call with
    | flushPacket => exact ⟨[], answer.2, rest, answer.1, rfl, h, by simp⟩
    | blockOut => exact pass (by simp) h.2
    | _ => exact pass (by simp) h

/-! ## Legal traces -/

/-- The calls of a trace come in the order that the library prescribes. In every field `before` are
the calls up to the one in question, and `after` those that follow. -/
structure FollowsProtocol (trace : List Event) : Prop where
  /-- Samples are told of right after memory for as many was asked for and given. -/
  wrote : ∀ (before after : List Event) (count : Nat) (planes : List (List Sample)) (code : Int32),
    trace = before ++ ⟨.wrote count planes, code⟩ :: after → count ≠ 0 →
      ∃ memory, before.getLast? = some ⟨.buffer count, some memory⟩
  /-- After the end of the input has been accepted nothing is put in. -/
  ended : ∀ before after event, trace = before ++ event :: after → event.endsInput = true →
    ∀ later ∈ after, later.isInput = false
  /-- The end of the input is accepted once at most. -/
  endedOnce : trace.countP Event.endsInput ≤ 1
  /-- A block is analysed right after it was handed out. -/
  analysis : ∀ (before after : List Event) (code : Int32),
    trace = before ++ ⟨.analysis, code⟩ :: after →
      before.getLast? = some ⟨.blockOut, (1 : Int32)⟩
  /-- A block is added right after it was analysed. -/
  addBlock : ∀ (before after : List Event) (code : Int32),
    trace = before ++ ⟨.addBlock, code⟩ :: after →
      ∃ analysed : Int32, 0 ≤ analysed ∧ before.getLast? = some ⟨.analysis, analysed⟩
  /-- A packet is asked for right after the block was added or another packet was released. -/
  flushPacket : ∀ (before after : List Event) (answer : Int32 × RawPacket),
    trace = before ++ ⟨.flushPacket, answer⟩ :: after →
      (∃ added : Int32, 0 ≤ added ∧ before.getLast? = some ⟨.addBlock, added⟩) ∨
        ∃ packet, before.getLast? = some ⟨.flushPacket, (1 : Int32), packet⟩
  /-- While the library has not failed, a block is asked for only if since every block before it
  packets have been asked for, and the latest of these calls found none. -/
  blockOut : ∀ (before after : List Event) (code : Int32),
    trace = before ++ ⟨.blockOut, code⟩ :: after → (∀ event ∈ before, event.isFailure = false) →
      ∀ earlier since, before = earlier ++ ⟨.blockOut, (1 : Int32)⟩ :: since →
        ∃ (older newer : List Event) (answer : Int32 × RawPacket),
          since = older ++ ⟨.flushPacket, answer⟩ :: newer ∧ answer.1 ≠ 1 ∧
            ∀ event ∈ newer, event.call ≠ .flushPacket

/-- Before a call that puts something in, the end of the input has not been accepted. -/
theorem Call.MayFollow.endsInput {log : List Event} {event : Event}
    (allowed : event.call.MayFollow log) (input : event.isInput = true) :
    ∀ earlier ∈ log, earlier.endsInput = false := by
  obtain ⟨call, answer⟩ := event
  cases call with
  | buffer count => exact allowed
  | wrote count planes => exact allowed.1
  | _ => cases input

/-- The end of the input puts something in. -/
theorem Event.isInput_of_endsInput {event : Event} (ends : event.endsInput = true) :
    event.isInput = true := by
  obtain ⟨call, answer⟩ := event
  cases call with
  | wrote count planes => rfl
  | _ => cases ends

theorem Legal.countP_endsInput_le {log : List Event} (h : Legal log) :
    log.countP Event.endsInput ≤ 1 := by
  induction log with
  | nil => exact Nat.zero_le 1
  | cons event log ih =>
    cases ends : event.endsInput with
    | false =>
      rw [List.countP_cons_of_neg (by simp [ends])]
      exact ih h.1
    | true =>
      -- An end that is accepted puts something in, so none has been accepted before it.
      have none : log.countP Event.endsInput = 0 := by
        rw [List.countP_eq_zero]
        intro earlier he
        have := h.2.endsInput (Event.isInput_of_endsInput ends) earlier he
        simp [this]
      rw [List.countP_cons_of_pos ends]
      omega

/-- A legal log, read from its earliest event on, follows the protocol. -/
theorem Legal.followsProtocol {trace : List Event} (h : Legal trace.reverse) :
    FollowsProtocol trace := by
  -- The latest event of a log is the last of what came before in the trace.
  have allowed {before after : List Event} {event : Event}
      (split : trace = before ++ event :: after) : event.call.MayFollow before.reverse := by
    have whole : Legal (after.reverse ++ event :: before.reverse) := by
      simpa [split] using h
    exact whole.mayFollow
  constructor
  case wrote =>
    intro before after count planes code split some_
    obtain ⟨-, memory⟩ := allowed split
    rw [← List.head?_reverse]
    exact memory some_
  case ended =>
    intro before after event split ends later he
    obtain ⟨between, rest, rfl⟩ := List.append_of_mem he
    -- If the later call put something in, the end before it would not have been accepted.
    have follows : later.call.MayFollow (before ++ event :: between).reverse :=
      allowed (by rw [split, List.append_assoc, List.cons_append])
    cases input : later.isInput with
    | false => rfl
    | true =>
      have open_ := follows.endsInput input event (by simp)
      rw [ends] at open_
      cases open_
  case endedOnce =>
    rw [← List.countP_reverse]
    exact h.countP_endsInput_le
  case analysis =>
    intro before after code split
    rw [← List.head?_reverse]
    exact allowed split
  case addBlock =>
    intro before after code split
    rw [← List.head?_reverse]
    exact allowed split
  case flushPacket =>
    intro before after answer split
    rw [← List.head?_reverse]
    exact allowed split
  case blockOut =>
    intro before after code split good earlier since parts
    -- The log runs backwards, so the latest request since the block is the first that is met.
    have claimed : Claimed before.reverse :=
      allowed split fun event he => good event (List.mem_reverse.mp he)
    rw [parts, List.reverse_append, List.reverse_cons, List.append_assoc] at claimed
    obtain ⟨newer, packet, older, code, reversed, last, none⟩ := claimed.exists_last
    refine ⟨older.reverse, newer.reverse, (code, packet), ?_, last, ?_⟩
    · rw [← List.reverse_reverse since, reversed]
      simp
    · intro event he
      exact none event (List.mem_reverse.mp he)

namespace Session

/-- The calls were legal, and the session knows whether its input has ended. -/
structure Lawful (s : Session lib) : Prop where
  legal : Legal s.log
  ended : s.ended = false → ∀ event ∈ s.log, event.endsInput = false

/-- A lawful session in which no block is half claimed, unless the library has failed. This is how
every operation of a running session finds it and leaves it. -/
structure Orderly (s : Session lib) : Prop extends s.Lawful where
  claimed : (∀ event ∈ s.log, event.isFailure = false) → Claimed s.log

/-! ## One call -/

theorem Lawful.perform {s : Session lib} (h : s.Lawful) (call : Call)
    (allowed : call.MayFollow s.log)
    (open_ : Event.endsInput ⟨call, (s.perform call).1⟩ = false) :
    (s.perform call).2.Lawful where
  legal := ⟨h.legal, allowed⟩
  ended := by
    intro notEnded event he
    rcases List.mem_cons.mp he with rfl | he
    · exact open_
    · exact h.ended notEnded event he

/-- Once the library has failed, a block may stay half claimed. -/
theorem Lawful.orderly_of_isFailure {s : Session lib} {call : Call}
    (h : (s.perform call).2.Lawful)
    (failed : Event.isFailure ⟨call, (s.perform call).1⟩ = true) : (s.perform call).2.Orderly := by
  refine ⟨h, ?_⟩
  intro good
  have fine : Event.isFailure ⟨call, (s.perform call).1⟩ = false := good _ (List.mem_cons_self ..)
  rw [failed] at fine
  cases fine

/-- Calls that set up may come at any time. They change nothing about the running stream. -/
theorem Orderly.makes_setup {s s' : Session lib} (h : s.Orderly) (made : s.Makes .setup s') :
    s'.Orderly := by
  -- One call after the other. None of the three calls that matter to the order is for setting up.
  obtain ⟨events, log, setup⟩ := made.log
  suffices all : Legal s'.log ∧
      ((∀ event ∈ s.log, event.endsInput = false) → ∀ event ∈ s'.log, event.endsInput = false) ∧
      ((∀ event ∈ s'.log, event.isFailure = false) → Claimed s'.log) by
    exact ⟨⟨all.1, fun notEnded => all.2.1 (h.ended (made.ended.symm.trans notEnded))⟩, all.2.2⟩
  rw [log]
  clear log
  induction events with
  | nil => exact ⟨h.legal, id, h.claimed⟩
  | cons event rest ih =>
    obtain ⟨legal, ended, claimed⟩ := ih fun event he => setup event (List.mem_cons_of_mem _ he)
    have first : event.call.purpose = .setup := setup event (List.mem_cons_self ..)
    obtain ⟨call, answer⟩ := event
    have allowed : call.MayFollow (rest ++ s.log) := by
      cases call <;> trivial
    have open_ : Event.endsInput ⟨call, answer⟩ = false := by
      cases call <;> first | rfl | cases first
    refine ⟨⟨legal, allowed⟩, ?_, ?_⟩
    · intro before event he
      rcases List.mem_cons.mp he with rfl | he
      · exact open_
      · exact ended before event he
    · intro good
      have older : Claimed (rest ++ s.log) :=
        claimed fun event he => good event (List.mem_cons_of_mem _ he)
      cases call <;> first | exact older | cases first

/-! ## Setting up and tearing down -/

theorem orderly_unused (lib : Library σ) (options : EncodingOptions) :
    (unused lib options).Orderly :=
  ⟨⟨trivial, fun _ _ he => absurd he (by simp)⟩, fun _ => trivial⟩

theorem legal_performsIf {s : Session lib} (h : Legal s.log) (reason : Bool) (call : Call)
    (allowed : reason = true → call.MayFollow s.log) : Legal (s.performsIf reason call).log := by
  cases reason with
  | true => exact ⟨h, allowed rfl⟩
  | false => exact h

/-- What is given back may end the input as its first call; the calls after that do not belong to
the stream. -/
theorem legal_release {s : Session lib} (h : s.Lawful) : Legal s.release.log := by
  have told := legal_performsIf h.legal (s.hasAnalysis && !s.ended) (.wrote 0 []) fun running => by
    have notEnded : s.ended = false := by simpa using (Bool.and_eq_true_iff.mp running).2
    exact ⟨h.ended notEnded, fun nonzero => absurd rfl nonzero⟩
  have blockCleared := legal_performsIf told s.hasBlock .blockClear fun _ => trivial
  have analysisCleared := legal_performsIf blockCleared s.hasAnalysis .dspClear fun _ => trivial
  exact legal_performsIf analysisCleared s.hasInfo .infoClear fun _ => trivial

/-! ## Input -/

/-- A write keeps the order unless it is one of no samples that succeeds: that one has ended the
input, and the session does not know. -/
theorem orderly_write_of_empty {s : Session lib} (h : s.Orderly) {count : Nat}
    {fill : Nat → List Sample} (empty : count = 0 → (s.write count fill).1 ≠ .ok ()) :
    (s.write count fill).2.Orderly := by
  rcases write_cases s count fill with
    ⟨_, refused, -⟩ | ⟨notEnded, -, unfilled⟩ | ⟨notEnded, memory, told, asked, rfl, filled⟩
  · rwa [refused]
  · rw [unfilled]
    -- Asking for memory claims nothing, so what is claimed is seen in the older log.
    refine ⟨h.toLawful.perform (.buffer count) (h.ended notEnded) rfl, fun good => ?_⟩
    exact h.claimed fun event he => good event (List.mem_cons_of_mem _ he)
  · rw [filled]
    have lawful : (s.perform (.buffer count)).2.Lawful :=
      h.toLawful.perform (.buffer count) (h.ended notEnded) rfl
    refine ⟨lawful.perform (.wrote ..) ⟨lawful.ended notEnded, fun _ => ⟨memory, ?_⟩⟩ ?_,
      fun good => ?_⟩
    · rw [log_perform, List.head?_cons, asked]
    · cases count with
      | zero =>
        -- The library has refused, since otherwise the write had succeeded.
        refine decide_eq_false fun accepted => empty rfl ?_
        rw [filled]
        exact if_neg (Int32.not_lt.mpr accepted)
      | succ n => rfl
    · exact h.claimed fun event he =>
        good event (List.mem_cons_of_mem _ (List.mem_cons_of_mem _ he))

theorem orderly_write {s : Session lib} (h : s.Orderly) {count : Nat} (some_ : count ≠ 0)
    (fill : Nat → List Sample) : (s.write count fill).2.Orderly :=
  orderly_write_of_empty h fun zero => absurd zero some_

theorem orderly_signalEnd {s : Session lib} (h : s.Orderly) : s.signalEnd.2.Orderly := by
  have claimed (good : ∀ event ∈ (s.perform (.wrote 0 [])).2.log, event.isFailure = false) :
      Claimed s.log :=
    h.claimed fun event he => good event (List.mem_cons_of_mem _ he)
  have allowed (notEnded : s.ended = false) : Call.MayFollow s.log (.wrote 0 []) :=
    ⟨h.ended notEnded, fun nonzero => absurd rfl nonzero⟩
  rcases signalEnd_cases s with ⟨-, same⟩ | ⟨notEnded, failed, refused⟩ | ⟨notEnded, -, accepted⟩
  · rwa [same]
  · rw [refused]
    -- The library has refused, so the input goes on.
    have open_ : Event.endsInput ⟨.wrote 0 [], (s.perform (.wrote 0 [])).1⟩ = false :=
      decide_eq_false (Int32.not_le.mpr failed)
    exact ⟨h.toLawful.perform _ (allowed notEnded) open_, claimed⟩
  · rw [accepted]
    exact ⟨⟨⟨h.legal, allowed notEnded⟩, fun no => absurd no (by simp)⟩, claimed⟩

/-! ## Output -/

theorem orderly_takePackets (sink : Sink τ) (wantsMore : Bool) (t : τ) {s : Session lib}
    (h : s.Lawful) (allowed : Call.MayFollow s.log .flushPacket) :
    (takePackets sink wantsMore t s).2.2.Orderly := by
  fun_induction takePackets sink wantsMore t s with
  | case1 wantsMore t s reply released taken ih =>
    apply ih
    · exact h.perform _ allowed rfl
    · -- The packet that was released is the latest event, so the next may be asked for.
      refine .inr ⟨reply.1.2, ?_⟩
      rw [log_perform, List.head?_cons, ← released]
  | case2 wantsMore t s reply none failed =>
    exact (h.perform _ allowed rfl).orderly_of_isFailure (decide_eq_true failed)
  | case3 wantsMore t s reply none => exact ⟨h.perform _ allowed rfl, fun _ => none⟩

theorem orderly_analyseBlock (sink : Sink τ) (t : τ) {s : Session lib} (h : s.Lawful)
    (handed : Call.MayFollow s.log .analysis) : (analyseBlock sink t s).2.2.Orderly := by
  have analysed : (s.perform .analysis).2.Lawful := h.perform _ handed rfl
  simp only [analyseBlock]
  split
  · next failed =>
    exact analysed.orderly_of_isFailure (decide_eq_true failed)
  · next worked =>
    have allowed : Call.MayFollow (s.perform .analysis).2.log .addBlock :=
      ⟨_, Int32.not_lt.mp worked, rfl⟩
    have added : ((s.perform .analysis).2.perform .addBlock).2.Lawful :=
      analysed.perform _ allowed rfl
    split
    · next failed =>
      exact added.orderly_of_isFailure (decide_eq_true failed)
    · next worked =>
      exact orderly_takePackets sink true t added (.inl ⟨_, Int32.not_lt.mp worked, rfl⟩)

theorem orderly_drain (sink : Sink τ) (t : τ) {s : Session lib} (h : s.Orderly) :
    (drain sink t s).2.2.Orderly := by
  refine drain_keeps (P := fun _ s' => s'.Orderly) sink ?_ ?_ h
  · intro t s h complete
    -- A block that was handed out is worked on next.
    refine orderly_analyseBlock sink t (h.toLawful.perform .blockOut h.claimed rfl) ?_
    show (s.perform .blockOut).2.log.head? = _
    rw [log_perform, List.head?_cons, complete]
  · intro t s h none
    -- Without a block, nothing is claimed after those before.
    refine ⟨h.toLawful.perform .blockOut h.claimed rfl, fun good => ⟨none, ?_⟩⟩
    exact h.claimed fun event he => good event (List.mem_cons_of_mem _ he)

end Session

end VorbisTrack
