import VorbisTrack.Proofs.Session.Protocol

/-!
# The parts of the library that a session holds

The library has three parts that are acquired and given back: the stream information, the analysis
state and the block. A session keeps no list of them. It notes of each whether it has been acquired,
and whether its input has ended. `Session.Accounts` says that these notes are right: a part has been
acquired exactly if that is noted, none has been given back, and the input has ended exactly if the
library has accepted the end. Every operation of a session keeps its account, whatever it is
answered. So giving back what is noted gives back what was acquired, the latest part first
(`Session.trace_release`).

The comment block is acquired and given back within one operation. The account lists the calls for
it, which are none or the two in their order.
-/

set_option autoImplicit false

namespace VorbisTrack

variable {σ τ : Type} {lib : Library σ}

/-- A part of the library that is acquired and given back. -/
inductive Part
  | info | analysis | block

namespace Part

/-- An event acquires the part. The analysis state and the block may be refused. -/
def acquiredBy : Part → Event → Bool
  | .info, ⟨.infoInit, _⟩ => true
  | .analysis, ⟨.analysisInit, code⟩ | .block, ⟨.blockInit, code⟩ => code = 0
  | _, _ => false

def returnedBy : Part → Event → Bool
  | .info, ⟨.infoClear, _⟩ | .analysis, ⟨.dspClear, _⟩ | .block, ⟨.blockClear, _⟩ => true
  | _, _ => false

def giveBack : Part → Event
  | .info => ⟨.infoClear, ()⟩
  | .analysis => ⟨.dspClear, ()⟩
  | .block => ⟨.blockClear, ()⟩

end Part

namespace Event

def isForComments : Event → Bool
  | ⟨.commentInit, _⟩ | ⟨.commentClear, _⟩ => true
  | _ => false

/-- The event changes nothing about the parts that are held, and does not end the input. -/
structure IsNeutral (event : Event) : Prop where
  acquires : ∀ part : Part, part.acquiredBy event = false
  returns : ∀ part : Part, part.returnedBy event = false
  continues : event.endsInput = false

end Event

/-- Whatever it is answered, the call changes nothing about the parts that are held, and it does not
end the input. -/
def Call.isNeutral : Call → Bool
  | .infoInit | .analysisInit | .blockInit | .blockClear | .dspClear | .infoClear => false
  | .wrote count _ => count ≠ 0
  | _ => true

theorem Event.isNeutral_of_call {event : Event} (neutral : event.call.isNeutral = true) :
    event.IsNeutral := by
  obtain ⟨call, answer⟩ := event
  cases call with
  | wrote count planes =>
    refine ⟨?_, ?_, ?_⟩
    · intro part
      cases part <;> rfl
    · intro part
      cases part <;> rfl
    · cases count with
      | zero => cases neutral
      | succ n => rfl
  | infoInit | analysisInit | blockInit | blockClear | dspClear | infoClear => cases neutral
  | _ =>
    refine ⟨?_, ?_, rfl⟩
    · intro part
      cases part <;> rfl
    · intro part
      cases part <;> rfl

namespace Session

/-- The session has noted that it holds a part. -/
def holds (s : Session lib) : Part → Bool
  | .info => s.hasInfo
  | .analysis => s.hasAnalysis
  | .block => s.hasBlock

/-- The notes of a session agree with its log, and nothing has been given back. The stream
information is there from the start. The last argument lists the calls for the comment block so far,
the latest first. -/
structure Accounts (s : Session lib) (comments : List Event) : Prop where
  held : ∀ part : Part, s.log.any part.acquiredBy = s.holds part
  hasInfo : s.hasInfo = true
  unreturned : ∀ part : Part, s.log.any part.returnedBy = false
  ended : s.log.any Event.endsInput = s.ended
  comments : s.log.filter Event.isForComments = comments

variable {s s' : Session lib} {comments : List Event}

/-- The account is kept by a call whose answer the session takes due note of. -/
theorem Accounts.step (h : s.Accounts comments) (event : Event) (log : s'.log = event :: s.log)
    (held : ∀ part : Part, s'.holds part = (part.acquiredBy event || s.holds part))
    (returns : ∀ part : Part, part.returnedBy event = false)
    (ended : s'.ended = (event.endsInput || s.ended)) :
    s'.Accounts ([event].filter Event.isForComments ++ comments) where
  held part := by rw [log, List.any_cons, h.held, held]
  hasInfo := by
    have kept : s'.hasInfo = (Part.info.acquiredBy event || s.hasInfo) := held .info
    rw [kept, h.hasInfo, Bool.or_true]
  unreturned part := by rw [log, List.any_cons, h.unreturned, returns, Bool.false_or]
  ended := by rw [log, List.any_cons, h.ended, ended]
  comments := by rw [log, ← List.singleton_append, List.filter_append, h.comments]

/-- A neutral call keeps the account. -/
theorem Accounts.perform (h : s.Accounts comments) {call : Call}
    (neutral : Event.IsNeutral ⟨call, (s.perform call).1⟩) :
    (s.perform call).2.Accounts
      ([⟨call, (s.perform call).1⟩].filter Event.isForComments ++ comments) := by
  apply h.step _ rfl
  · intro part
    rw [neutral.acquires, Bool.false_or]
    rfl
  · exact neutral.returns
  · rw [neutral.continues, Bool.false_or]
    rfl

/-- What a call keeps is seen from the call alone, unless it is told of the end. -/
theorem Accounts.performs (h : s.Accounts comments) (call : Call)
    (neutral : call.isNeutral = true) :
    (s.perform call).2.Accounts
      ([⟨call, (s.perform call).1⟩].filter Event.isForComments ++ comments) :=
  h.perform (Event.isNeutral_of_call neutral)

/-! ## Setting up -/

theorem accounts_acquireInfo (lib : Library σ) (options : EncodingOptions) :
    (unused lib options).acquireInfo.Accounts [] where
  held part := by cases part <;> rfl
  hasInfo := rfl
  unreturned part := by cases part <;> rfl
  ended := rfl
  comments := rfl

theorem accounts_configure (steps : List SetupStep) {s : Session lib} (h : s.Accounts comments) :
    (configure steps s).2.Accounts comments := by
  induction steps generalizing s with
  | nil => exact h
  | cons step rest ih =>
    have first := h.performs (.setup step) rfl
    simp only [configure]
    split
    · exact ih first
    · exact first

/-- A part that is given is held from then on. -/
theorem accounts_analysisInit (h : s.Accounts comments)
    (given : (s.perform .analysisInit).1 = (0 : Int32)) :
    ({ (s.perform .analysisInit).2 with hasAnalysis := true } : Session lib).Accounts comments := by
  have acquired : Part.analysis.acquiredBy ⟨.analysisInit, (s.perform .analysisInit).1⟩ = true :=
    decide_eq_true given
  apply h.step ⟨.analysisInit, (s.perform .analysisInit).1⟩ rfl
  · intro part
    cases part with
    | analysis =>
      rw [acquired]
      rfl
    | _ => rfl
  · intro part
    cases part <;> rfl
  · rfl

theorem accounts_blockInit (h : s.Accounts comments)
    (given : (s.perform .blockInit).1 = (0 : Int32)) :
    ({ (s.perform .blockInit).2 with hasBlock := true } : Session lib).Accounts comments := by
  have acquired : Part.block.acquiredBy ⟨.blockInit, (s.perform .blockInit).1⟩ = true :=
    decide_eq_true given
  apply h.step ⟨.blockInit, (s.perform .blockInit).1⟩ rfl
  · intro part
    cases part with
    | block =>
      rw [acquired]
      rfl
    | _ => rfl
  · intro part
    cases part <;> rfl
  · rfl

theorem accounts_startAnalysis (h : s.Accounts comments) :
    s.startAnalysis.2.Accounts comments := by
  -- A part that is refused is not acquired, and nothing is noted.
  simp only [startAnalysis]
  split
  · next refused =>
    refine h.perform ⟨?_, ?_, rfl⟩
    · intro part
      cases part with
      | analysis => exact decide_eq_false refused
      | _ => rfl
    · intro part
      cases part <;> rfl
  · next given =>
    have running := accounts_analysisInit h (Decidable.not_not.mp given)
    split
    · next refused =>
      refine running.perform ⟨?_, ?_, rfl⟩
      · intro part
        cases part with
        | block => exact decide_eq_false refused
        | _ => rfl
      · intro part
        cases part <;> rfl
    · next given' => exact accounts_blockInit running (Decidable.not_not.mp given')

/-- A session keeps its account while it is opened. If it cannot be opened, what it holds is given
back. -/
theorem accounts_open (lib : Library σ) (options : EncodingOptions) :
    ∃ s : Session lib, s.Accounts [] ∧
      (Session.open lib options = (.ok (), s) ∨
        ∃ failure, Session.open lib options = (.error failure, s.release)) := by
  have first := accounts_configure (setupSteps options) (accounts_acquireInfo lib options)
  cases configured : configure (setupSteps options) (unused lib options).acquireInfo with
  | mk result ready =>
    rw [configured] at first
    cases result with
    | error failure =>
      exact ⟨ready, first, .inr ⟨failure, by simp only [«open», configured]⟩⟩
    | ok =>
      have second := accounts_startAnalysis first
      cases started : ready.startAnalysis with
      | mk result s =>
        rw [started] at second
        refine ⟨s, second, ?_⟩
        cases result with
        | error failure =>
          exact .inr ⟨failure, by simp only [«open», configured, started]⟩
        | ok => exact .inl (by simp only [«open», configured, started])

theorem accounts_addComments (tags : List (String × String)) {s : Session lib}
    (h : s.Accounts comments) : (s.addComments tags).Accounts comments := by
  induction tags generalizing s with
  | nil => exact h
  | cons tag rest ih => exact ih (h.performs (.commentAdd ..) rfl)

def Cleared (comments : List Event) : Prop :=
  comments = [] ∨ comments = [⟨.commentClear, ()⟩, ⟨.commentInit, ()⟩]

/-- The comments are cleared whether the library has made the headers or not. -/
theorem accounts_headerPackets (h : s.Accounts []) (tags : List (String × String)) :
    ∃ comments, Cleared comments ∧ (s.headerPackets tags).2.Accounts comments := by
  simp only [headerPackets]
  split
  · exact ⟨[], .inl rfl, h⟩
  · have acquired := accounts_addComments tags (h.performs .commentInit rfl)
    have returned := (acquired.performs .headerOut rfl).performs .commentClear rfl
    refine ⟨[⟨.commentClear, ()⟩, ⟨.commentInit, ()⟩], .inr rfl, ?_⟩
    split
    · exact returned
    · exact returned

/-! ## Input -/

theorem accounts_write (h : s.Accounts comments) {count : Nat} (some_ : count ≠ 0)
    (fill : Nat → List Sample) : (s.write count fill).2.Accounts comments := by
  have asked := h.performs (.buffer count) rfl
  rcases write_cases s count fill with
    ⟨_, refused, -⟩ | ⟨-, -, unfilled⟩ | ⟨-, _, _, -, rfl, filled⟩
  · rwa [refused]
  · rwa [unfilled]
  · rw [filled]
    exact asked.performs (.wrote count _) (decide_eq_true some_)

theorem accounts_signalEnd (h : s.Accounts comments) : s.signalEnd.2.Accounts comments := by
  rcases signalEnd_cases s with ⟨-, same⟩ | ⟨-, failed, refused⟩ | ⟨-, good, accepted⟩
  · rwa [same]
  · -- The library has refused, so the input goes on.
    rw [refused]
    refine h.perform ⟨?_, ?_, decide_eq_false (Int32.not_le.mpr failed)⟩
    · intro part
      cases part <;> rfl
    · intro part
      cases part <;> rfl
  · rw [accepted]
    have ends : Event.endsInput ⟨.wrote 0 [], (s.perform (.wrote 0 [])).1⟩ = true :=
      decide_eq_true good
    apply h.step ⟨.wrote 0 [], (s.perform (.wrote 0 [])).1⟩ rfl
    · intro part
      cases part <;> rfl
    · intro part
      cases part <;> rfl
    · rw [ends]
      rfl

/-! ## Output -/

theorem accounts_takePackets (sink : Sink τ) (wantsMore : Bool) (t : τ) {s : Session lib}
    (h : s.Accounts comments) : (takePackets sink wantsMore t s).2.2.Accounts comments := by
  fun_induction takePackets sink wantsMore t s with
  | case1 wantsMore t s _ _ _ ih => exact ih (h.performs .flushPacket rfl)
  | case2 wantsMore t s => exact h.performs .flushPacket rfl
  | case3 wantsMore t s => exact h.performs .flushPacket rfl

theorem accounts_analyseBlock (sink : Sink τ) (t : τ) (h : s.Accounts comments) :
    (analyseBlock sink t s).2.2.Accounts comments := by
  have analysed := h.performs .analysis rfl
  have added := analysed.performs .addBlock rfl
  simp only [analyseBlock]
  split
  · exact analysed
  · split
    · exact added
    · exact accounts_takePackets sink true t added

theorem accounts_drain (sink : Sink τ) (t : τ) (h : s.Accounts comments) :
    (drain sink t s).2.2.Accounts comments := by
  refine drain_keeps (P := fun _ s' => s'.Accounts comments) sink ?_ ?_ h
  · intro t s h _
    exact accounts_analyseBlock sink t (h.performs .blockOut rfl)
  · intro t s h _
    exact h.performs .blockOut rfl

/-! ## Giving back -/

/-- The calls that give back what the events before them have acquired. An analysis that is running
is told first that its input ends, and answers this code. -/
def givingBack (before : List Event) (code : Int32) : List Event :=
  (if before.any Part.analysis.acquiredBy && !before.any Event.endsInput then
    [⟨.wrote 0 [], code⟩] else []) ++
  [Part.block, .analysis, .info].flatMap fun part =>
    if before.any part.acquiredBy then [part.giveBack] else []

theorem trace_performsIf (s : Session lib) (reason : Bool) (call : Call) :
    (s.performsIf reason call).trace =
      s.trace ++ if reason then [⟨call, (s.perform call).1⟩] else [] := by
  cases reason with
  | true => exact trace_perform s call
  | false => exact (List.append_nil _).symm

/-- A session that keeps its account gives back what it has acquired. -/
theorem trace_release (h : s.Accounts comments) :
    ∃ code, s.release.trace = s.trace ++ givingBack s.trace code := by
  have held (part : Part) : s.trace.any part.acquiredBy = s.holds part := by
    rw [trace, List.any_reverse, h.held]
  have ended : s.trace.any Event.endsInput = s.ended := by
    rw [trace, List.any_reverse, h.ended]
  refine ⟨(s.perform (.wrote 0 [])).1, ?_⟩
  simp only [release, trace_performsIf, givingBack, List.flatMap_cons, List.flatMap_nil, held,
    ended, holds, Part.giveBack, List.append_assoc, List.append_nil]

end Session

end VorbisTrack
