import VorbisTrack.Proofs.Session.Calls

/-!
# Calls that go by a plan

A session is opened by calls that follow one another up to the first that fails. `Attempt` says how
calls that go by a plan end: they are all of the plan and have all succeeded, or they break off at
the first that has not, its code is reported under its name, and nothing follows but giving back.
Attempts compose (`Attempt.append`, `Attempt.extend`), so the plan of the whole opening is put
together from those of its parts (`Session.attempts_open`, `Session.attempts_headerPackets`).
-/

set_option autoImplicit false

namespace VorbisTrack

variable {σ : Type} {lib : Library σ}

/-! ## Attempts -/

/-- The code by which a call of the opening tells whether it has succeeded. -/
def Event.openingCode? : Event → Option Int32
  | ⟨.setup _, code⟩ | ⟨.analysisInit, code⟩ | ⟨.blockInit, code⟩ => some code
  | ⟨.headerOut, code, _⟩ => some code
  | _ => none

/-- The call has not answered another code than zero. -/
def Event.Succeeds (event : Event) : Prop :=
  ∀ code, event.openingCode? = some code → code = 0

/-- The name under which a failure of the call is reported. -/
def Call.label : Call → String
  | .setup step => step.name
  | call => call.routine.name

/-- The call gives something back, or it ends the input. -/
def Call.isTeardown : Call → Bool
  | .commentClear | .blockClear | .dspClear | .infoClear => true
  | .wrote count _ => count = 0
  | _ => false

/-- How calls that go by a plan end, and what they are. -/
inductive Attempt (plan : List Call) : Option Failure → List Event → Prop
  /-- All calls of the plan have been made and have succeeded. -/
  | whole {events : List Event} (made : events.map Event.call = plan)
      (succeeded : ∀ event ∈ events, event.Succeeds) : Attempt plan none events
  /-- The plan was broken off at the first call that has failed. -/
  | brokenOff {before after : List Event} {last : Event} {code : Int32} {todo : List Call}
      (made : before.map Event.call ++ last.call :: todo = plan)
      (succeeded : ∀ event ∈ before, event.Succeeds)
      (failed : last.openingCode? = some code ∧ code ≠ 0)
      (teardown : ∀ event ∈ after, event.call.isTeardown = true) :
      Attempt plan (some (.library last.call.label code)) (before ++ last :: after)

namespace Attempt

variable {plan further : List Call} {failure : Failure} {end? : Option Failure}
  {events later : List Event}

theorem nil : Attempt [] none [] :=
  .whole rfl fun _ none => by cases none

/-- A plan that has been carried out is followed by another. -/
theorem append (first : Attempt plan none events) (second : Attempt further end? later) :
    Attempt (plan ++ further) end? (events ++ later) := by
  cases first with
  | whole made succeeded =>
    have both {first second : List Event} (good : ∀ event ∈ first, event.Succeeds)
        (good' : ∀ event ∈ second, event.Succeeds) : ∀ event ∈ first ++ second, event.Succeeds := by
      intro event member
      exact (List.mem_append.mp member).elim (good event) (good' event)
    cases second with
    | whole made' succeeded' =>
      exact .whole (by rw [List.map_append, made, made']) (both succeeded succeeded')
    | @brokenOff before after last _ todo made' succeeded' failed teardown =>
      have made : (events ++ before).map Event.call ++ last.call :: todo = plan ++ further := by
        rw [List.map_append, made, List.append_assoc, made']
      rw [← List.append_assoc]
      exact .brokenOff made (both succeeded succeeded') failed teardown

/-- A plan that was broken off may have been longer. -/
theorem extend (h : Attempt plan (some failure) events) (further : List Call) :
    Attempt (plan ++ further) (some failure) events := by
  cases h with
  | @brokenOff before _ last _ todo made succeeded failed teardown =>
    have made : before.map Event.call ++ last.call :: (todo ++ further) = plan ++ further := by
      rw [← made, List.append_assoc, List.cons_append]
    exact .brokenOff made succeeded failed teardown

/-- After a plan has been broken off, things are given back. -/
theorem giveBack (h : Attempt plan (some failure) events)
    (teardown : ∀ event ∈ later, event.call.isTeardown = true) :
    Attempt plan (some failure) (events ++ later) := by
  cases h with
  | brokenOff made succeeded failed teardown' =>
    rw [List.append_assoc, List.cons_append]
    refine .brokenOff made succeeded failed ?_
    intro event member
    exact (List.mem_append.mp member).elim (teardown' event) (teardown event)

end Attempt

def failure? {α : Type} : Except Failure α → Option Failure
  | .ok _ => none
  | .error failure => some failure

namespace Session

variable {s s' s'' : Session lib} {plan further : List Call} {failure : Failure}
  {end? : Option Failure}

/-- From `s` to `s'` calls have been made that go by a plan, and this is how they end. -/
def Attempts (s s' : Session lib) (plan : List Call) (end? : Option Failure) : Prop :=
  ∃ events, s'.trace = s.trace ++ events ∧ Attempt plan end? events

/-- From `s` to `s'` something may have been given back, and nothing else. -/
def OnlyTeardown (s s' : Session lib) : Prop :=
  ∃ later, s'.trace = s.trace ++ later ∧ ∀ event ∈ later, event.call.isTeardown = true

namespace Attempts

theorem append (first : s.Attempts s' plan none) (second : s'.Attempts s'' further end?) :
    s.Attempts s'' (plan ++ further) end? := by
  obtain ⟨events, trace, attempt⟩ := first
  obtain ⟨later, trace', attempt'⟩ := second
  exact ⟨events ++ later, by rw [trace', trace, List.append_assoc], attempt.append attempt'⟩

theorem extend (h : s.Attempts s' plan (some failure)) (further : List Call) :
    s.Attempts s' (plan ++ further) (some failure) := by
  obtain ⟨events, trace, attempt⟩ := h
  exact ⟨events, trace, attempt.extend further⟩

theorem giveBack (h : s.Attempts s' plan (some failure)) (h' : s'.OnlyTeardown s'') :
    s.Attempts s'' plan (some failure) := by
  obtain ⟨events, trace, attempt⟩ := h
  obtain ⟨later, trace', teardown⟩ := h'
  exact ⟨events ++ later, by rw [trace', trace, List.append_assoc], attempt.giveBack teardown⟩

/-- To note what has been acquired is no call. -/
theorem noting (h : s.Attempts s' plan end?) (info analysis block : Bool) :
    s.Attempts { s' with hasInfo := info, hasAnalysis := analysis, hasBlock := block } plan end? :=
  h

end Attempts

/-! ## One call -/

/-- A call that succeeds is a plan that has been carried out. -/
theorem attempts_of_succeeds (s : Session lib) (call : Call)
    (succeeds : Event.Succeeds ⟨call, (s.perform call).1⟩) :
    s.Attempts (s.perform call).2 [call] none := by
  refine ⟨_, trace_perform s call, .whole rfl ?_⟩
  intro event member
  rwa [List.mem_singleton.mp member]

theorem attempts_of_eq_zero (s : Session lib) (call : Call) {code : Int32}
    (answered : Event.openingCode? ⟨call, (s.perform call).1⟩ = some code) (zero : code = 0) :
    s.Attempts (s.perform call).2 [call] none := by
  refine attempts_of_succeeds s call ?_
  intro code' answered'
  rw [answered] at answered'
  cases answered'
  exact zero

/-- A call that fails is a plan that was broken off. -/
theorem attempts_of_ne_zero (s : Session lib) (call : Call) {code : Int32}
    (answered : Event.openingCode? ⟨call, (s.perform call).1⟩ = some code) (nonzero : code ≠ 0) :
    s.Attempts (s.perform call).2 [call] (some (.library call.label code)) := by
  have broken := @Attempt.brokenOff [call] [] [] ⟨call, (s.perform call).1⟩ code [] rfl
    (fun _ none => by cases none) ⟨answered, nonzero⟩ fun _ none => by cases none
  exact ⟨_, trace_perform s call, broken⟩

/-! ## Giving back -/

theorem OnlyTeardown.nothing (s : Session lib) : s.OnlyTeardown s :=
  ⟨[], (List.append_nil _).symm, fun _ none => by cases none⟩

theorem OnlyTeardown.performs (h : s.OnlyTeardown s') (call : Call)
    (teardown : call.isTeardown = true) : s.OnlyTeardown (s'.performs call) := by
  obtain ⟨later, trace, before⟩ := h
  refine ⟨later ++ [⟨call, (s'.perform call).1⟩], ?_, ?_⟩
  · rw [Session.performs, trace_perform, trace, List.append_assoc]
  · intro event member
    rcases List.mem_append.mp member with member | member
    · exact before event member
    · rw [List.mem_singleton.mp member]
      exact teardown

theorem OnlyTeardown.performsIf (h : s.OnlyTeardown s') (reason : Bool) (call : Call)
    (teardown : call.isTeardown = true) : s.OnlyTeardown (s'.performsIf reason call) := by
  cases reason with
  | true => exact h.performs call teardown
  | false => exact h

theorem onlyTeardown_release (s : Session lib) : s.OnlyTeardown s.release :=
  ((((OnlyTeardown.nothing s).performsIf _ (.wrote 0 []) rfl).performsIf _ .blockClear
    rfl).performsIf _ .dspClear rfl).performsIf _ .infoClear rfl

/-! ## The setup -/

theorem attempts_configure (steps : List SetupStep) (s : Session lib) :
    s.Attempts (configure steps s).2 (steps.map .setup) (failure? (configure steps s).1) := by
  induction steps generalizing s with
  | nil => exact ⟨[], by rw [List.append_nil]; rfl, .nil⟩
  | cons step rest ih =>
    simp only [configure]
    split
    · next zero => exact (attempts_of_eq_zero s _ rfl zero).append (ih _)
    · next nonzero => exact (attempts_of_ne_zero s _ rfl nonzero).extend _

theorem attempts_startAnalysis (s : Session lib) :
    s.Attempts s.startAnalysis.2 [.analysisInit, .blockInit] (failure? s.startAnalysis.1) := by
  simp only [startAnalysis]
  split
  · next nonzero => exact (attempts_of_ne_zero s .analysisInit rfl nonzero).extend _
  · next zero =>
    have first := attempts_of_eq_zero s .analysisInit rfl (Decidable.not_not.mp zero)
    have first := first.noting s.hasInfo true s.hasBlock
    split
    · next nonzero =>
      exact first.append (attempts_of_ne_zero _ .blockInit rfl nonzero)
    · next zero =>
      have second := attempts_of_eq_zero _ .blockInit rfl (Decidable.not_not.mp zero)
      exact (first.append second).noting _ _ true

def openingCalls (steps : List SetupStep) : List Call :=
  .infoInit :: steps.map .setup ++ [.analysisInit, .blockInit]

theorem attempts_open (lib : Library σ) (options : EncodingOptions) :
    (unused lib options).Attempts (Session.open lib options).2
      (openingCalls (setupSteps options)) (failure? (Session.open lib options).1) := by
  have first := attempts_of_succeeds (unused lib options) .infoInit fun _ none => by cases none
  have first := first.noting true false false
  have second := first.append
    (attempts_configure (setupSteps options) (unused lib options).acquireInfo)
  simp only [«open»]
  generalize configure (setupSteps options) (unused lib options).acquireInfo = reply
    at second ⊢
  obtain ⟨result, ready⟩ := reply
  cases result with
  | error failure => exact (second.extend _).giveBack (onlyTeardown_release ready)
  | ok =>
    have third := second.append (attempts_startAnalysis ready)
    simp only
    generalize ready.startAnalysis = reply at third ⊢
    obtain ⟨result, started⟩ := reply
    cases result with
    | error failure => exact third.giveBack (onlyTeardown_release started)
    | ok => exact third

/-! ## Headers -/

def headerCalls (comments : List (String × String)) : List Call :=
  .commentInit :: comments.map (fun comment => .commentAdd comment.1 comment.2) ++
    [.headerOut, .commentClear]

theorem attempts_addComments (comments : List (String × String)) (s : Session lib) :
    s.Attempts (s.addComments comments)
      (comments.map fun comment => .commentAdd comment.1 comment.2) none := by
  induction comments generalizing s with
  | nil => exact ⟨[], (List.append_nil _).symm, .nil⟩
  | cons comment rest ih =>
    have first := attempts_of_succeeds s (.commentAdd comment.1 comment.2)
      fun _ none => by cases none
    exact first.append (ih _)

/-- The comments are cleared after the plan has been broken off, too. -/
theorem attempts_headerPackets {comments : List (String × String)}
    (clean : nulFault? comments = none) (s : Session lib) :
    s.Attempts (s.headerPackets comments).2 (headerCalls comments)
      (failure? (s.headerPackets comments).1) := by
  have first : s.Attempts (s.performs .commentInit) [.commentInit] none :=
    attempts_of_succeeds s _ fun _ none => by cases none
  have tagged := first.append (attempts_addComments comments _)
  simp only [headerPackets, clean]
  generalize (s.performs .commentInit).addComments comments = ready at tagged ⊢
  by_cases zero : (ready.perform .headerOut).1.1 = (0 : Int32)
  · rw [if_pos zero]
    have made := tagged.append (attempts_of_eq_zero ready .headerOut rfl zero)
    have last := attempts_of_succeeds (ready.perform .headerOut).2 .commentClear
      fun _ none => by cases none
    have whole := made.append last
    rw [List.append_assoc] at whole
    exact whole
  · rw [if_neg zero]
    have failed := tagged.append (attempts_of_ne_zero ready .headerOut rfl zero)
    have cleared := (OnlyTeardown.nothing (ready.perform .headerOut).2).performs .commentClear rfl
    have failed := (failed.extend [.commentClear]).giveBack cleared
    rw [List.append_assoc] at failed
    exact failed

end Session

end VorbisTrack
