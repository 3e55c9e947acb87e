import VorbisTrack.Proofs.Encoder.Protocol
import VorbisTrack.Proofs.Session.Parts

/-!
# An encoder gives back what it has acquired

Opening an encoder may fail at any of its calls, and an encoder that is open may be closed after any
operations, whether they succeeded or not. Whichever way its lifetime ends, every part of the
library that was acquired is given back then, once and in the opposite order (`lifetime_givesBack`).
The session's account of what it holds is kept by every operation, so it is right when the session
is given back.
-/

set_option autoImplicit false

namespace VorbisTrack

variable {σ : Type} {lib : Library σ}

/-- What was acquired has been given back when these calls come to their end. -/
structure GivesBack (trace : List Event) : Prop where
  /-- A part is given back once if it has been acquired, and else it is not given back. -/
  once : ∀ part : Part,
    trace.countP part.returnedBy = if trace.any part.acquiredBy then 1 else 0
  /-- Nothing is given back before the end. Then come the end of the input, if analysis is running
  and the end has not been accepted, the block, the analysis state and the stream information, each
  if it has been acquired, and no call after them. -/
  atEnd : ∃ before code, trace = before ++ Session.givingBack before code ∧
    ∀ part : Part, before.any part.returnedBy = false
  /-- The comment block is given back once after it has been acquired, which happens once at most.
  -/
  comments : trace.filter Event.isForComments = [] ∨
    trace.filter Event.isForComments = [⟨.commentInit, ()⟩, ⟨.commentClear, ()⟩]

/-! ## Giving back -/

namespace Session

/-- Giving back is ending the input or giving a part back, and nothing else. -/
theorem of_mem_givingBack {before : List Event} {code : Int32} {event : Event}
    (member : event ∈ givingBack before code) :
    event = ⟨.wrote 0 [], code⟩ ∨ ∃ part : Part, event = part.giveBack := by
  rcases List.mem_append.mp member with ending | returning
  · split at ending
    · exact .inl (List.mem_singleton.mp ending)
    · cases ending
  · obtain ⟨part, -, returned⟩ := List.mem_flatMap.mp returning
    split at returned
    · exact .inr ⟨part, List.mem_singleton.mp returned⟩
    · cases returned

theorem any_acquiredBy_givingBack (before : List Event) (code : Int32) (part : Part) :
    (givingBack before code).any part.acquiredBy = false := by
  rw [List.any_eq_false]
  intro event member
  rcases of_mem_givingBack member with rfl | ⟨other, rfl⟩
  · cases part <;> simp [Part.acquiredBy]
  · cases part <;> cases other <;> simp [Part.acquiredBy, Part.giveBack]

theorem filter_isForComments_givingBack (before : List Event) (code : Int32) :
    (givingBack before code).filter Event.isForComments = [] := by
  rw [List.filter_eq_nil_iff]
  intro event member
  rcases of_mem_givingBack member with rfl | ⟨part, rfl⟩
  · simp [Event.isForComments]
  · cases part <;> simp [Event.isForComments, Part.giveBack]

theorem countP_returnedBy_givingBack (before : List Event) (code : Int32) (part : Part) :
    (givingBack before code).countP part.returnedBy =
      if before.any part.acquiredBy then 1 else 0 := by
  have ending : (if before.any Part.analysis.acquiredBy && !before.any Event.endsInput then
      [(⟨.wrote 0 [], code⟩ : Event)] else []).countP part.returnedBy = 0 := by
    split
    · cases part <;> rfl
    · rfl
  have returning (other : Part) :
      (if before.any other.acquiredBy then [other.giveBack] else []).countP part.returnedBy =
        if before.any other.acquiredBy then [other.giveBack].countP part.returnedBy else 0 := by
    split <;> rfl
  simp only [givingBack, List.flatMap_cons, List.flatMap_nil, List.countP_append, List.countP_nil,
    ending, returning]
  cases part <;> simp [Part.returnedBy, Part.giveBack]

/-- A session that keeps its account gives back what it has acquired. -/
theorem givesBack_release {s : Session lib} {comments : List Event} (h : s.Accounts comments)
    (cleared : Cleared comments) : GivesBack s.release.trace := by
  obtain ⟨code, ends⟩ := trace_release h
  have unreturned (part : Part) : s.trace.any part.returnedBy = false := by
    rw [trace, List.any_reverse, h.unreturned]
  rw [ends]
  refine ⟨?_, ⟨s.trace, code, rfl, unreturned⟩, ?_⟩
  · intro part
    have none : s.trace.countP part.returnedBy = 0 := by
      rw [List.countP_eq_zero]
      exact List.any_eq_false.mp (unreturned part)
    rw [List.countP_append, none, countP_returnedBy_givingBack, List.any_append,
      any_acquiredBy_givingBack, Bool.or_false, Nat.zero_add]
  · rw [List.filter_append, filter_isForComments_givingBack, List.append_nil, trace,
      List.filter_reverse, h.comments]
    rcases cleared with rfl | rfl
    · exact .inl rfl
    · exact .inr rfl

end Session

namespace Encoder

/-! ## Opening -/

/-- Settings are turned away before the library is called if their time base or their options are
not valid. -/
def TurnedAway (settings : Settings) : Prop :=
  settings.timeBase.isTimeBase = false ∨
    ∃ failure, EncodingOptions.resolve settings = .error failure

theorem open_of_turnedAway {settings : Settings} (turned : TurnedAway settings)
    (lib : Library σ) : ∃ failure, Encoder.open lib settings = (.error failure, []) := by
  unfold «open»
  rcases turned with invalid | ⟨failure, invalid⟩
  · simp only [invalid, Bool.false_eq_true, not_false_eq_true, if_true]
    exact ⟨_, rfl⟩
  · split
    · exact ⟨_, rfl⟩
    · exact ⟨failure, by rw [invalid]⟩

/-- Settings that are not turned away have a time base, and options that they are resolved to. -/
theorem exists_resolve_of_not_turnedAway {settings : Settings} (taken : ¬ TurnedAway settings) :
    settings.timeBase.isTimeBase = true ∧
      ∃ options, EncodingOptions.resolve settings = .ok options := by
  constructor
  · cases base : settings.timeBase.isTimeBase with
    | true => rfl
    | false => exact absurd (.inl base) taken
  · cases resolved : EncodingOptions.resolve settings with
    | ok options => exact ⟨options, rfl⟩
    | error failure => exact absurd (.inr ⟨failure, resolved⟩) taken

/-- With other settings a session is opened, and it keeps its account. If the encoder cannot be
opened, what the session holds is given back. -/
theorem accounts_open (lib : Library σ) {settings : Settings} (taken : ¬ TurnedAway settings) :
    ∃ (s : Session lib) (comments : List Event), s.Accounts comments ∧ Session.Cleared comments ∧
      ((∃ failure, Encoder.open lib settings = (.error failure, s.release.trace)) ∨
        ∃ e, Encoder.open lib settings = (.ok e, s.trace) ∧ e.session = s) := by
  obtain ⟨valid, options, resolved⟩ := exists_resolve_of_not_turnedAway taken
  unfold «open»
  simp only [valid, not_true, if_false, resolved]
  obtain ⟨s, account, opened | ⟨failure, opened⟩⟩ := Session.accounts_open lib options
  · obtain ⟨comments, cleared, later⟩ :=
      Session.accounts_headerPackets account (tags options)
    rw [opened]
    simp only
    split
    · next failure s' failed =>
      rw [failed] at later
      exact ⟨s', comments, later, cleared, .inl ⟨failure, rfl⟩⟩
    · next headers s' made =>
      rw [made] at later
      exact ⟨s', comments, later, cleared, .inr ⟨_, rfl, rfl⟩⟩
  · rw [opened]
    exact ⟨s, [], account, .inl rfl, .inl ⟨failure, rfl⟩⟩

/-- An encoder that has just been opened keeps its account. -/
theorem accounts_of_open {settings : Settings} {e : Encoder lib} {trace : List Event}
    (opened : Encoder.open lib settings = (.ok e, trace)) :
    ∃ comments, e.session.Accounts comments := by
  by_cases turned : TurnedAway settings
  · obtain ⟨failure, failed⟩ := open_of_turnedAway turned lib
    rw [opened] at failed
    cases failed
  · obtain ⟨s, comments, account, -, ⟨failure, failed⟩ | ⟨e', opened', rfl⟩⟩ :=
      accounts_open lib turned
    · rw [opened] at failed
      cases failed
    · rw [opened] at opened'
      cases opened'
      exact ⟨comments, account⟩

/-! ## One operation -/

theorem accounts_drain {e : Encoder lib} {comments : List Event}
    (h : e.session.Accounts comments) : e.drain.2.session.Accounts comments := by
  cases full : e.staging.isFull with
  | true => rwa [drain_of_isFull full]
  | false =>
    rw [drain_of_not_isFull full]
    exact Session.accounts_drain Staging.sink e.staging h

theorem accounts_after {e : Encoder lib} {comments : List Event}
    (h : e.session.Accounts comments) (operation : Operation) :
    (e.after operation).session.Accounts comments := by
  apply after_keeps (P := fun e => e.session.Accounts comments) ?_ ?_ ?_ ?_ ?_ ?_ h operation
  · intro e time _ account
    rwa [session_anchor]
  · intro _ _ fill some_ _ account
    exact Session.accounts_write account some_ fill
  · intro _ _ account
    exact account
  · intro _ _ account
    exact Session.accounts_signalEnd account
  · intro _ account
    exact accounts_drain account
  · intro _ _ _ _ account
    exact account

theorem accounts_afterAll (operations : List Operation) {e : Encoder lib} {comments : List Event}
    (h : e.session.Accounts comments) : (e.afterAll operations).session.Accounts comments :=
  afterAll_keeps (P := fun e => e.session.Accounts comments) (fun _ h => accounts_after h)
    operations h

/-! ## Whole lifetimes -/

/-- A lifetime that calls the library at all ends with giving a session back. -/
theorem exists_lifetime_eq_release (lib : Library σ) {settings : Settings}
    (taken : ¬ TurnedAway settings) (operations : List Operation) :
    ∃ (s : Session lib) (comments : List Event), s.Accounts comments ∧ Session.Cleared comments ∧
      lifetime lib settings operations = s.release.trace := by
  unfold lifetime
  obtain ⟨s, comments, account, cleared, ⟨failure, opened⟩ | ⟨e, opened, rfl⟩⟩ :=
    accounts_open lib taken
  · rw [opened]
    exact ⟨s, comments, account, cleared, rfl⟩
  · rw [opened]
    exact ⟨_, comments, accounts_afterAll operations account, cleared, rfl⟩

/-- **What was acquired is given back.** This holds of the lifetime of every encoder, whatever it is
opened with, whatever is done with it and whatever the library answers. The library is not called at
all exactly if the settings are turned away. -/
theorem lifetime_givesBack (lib : Library σ) (settings : Settings) (operations : List Operation) :
    GivesBack (lifetime lib settings operations) ∧
      (lifetime lib settings operations = [] ↔ TurnedAway settings) := by
  by_cases turned : TurnedAway settings
  · obtain ⟨failure, opened⟩ := open_of_turnedAway turned lib
    have none : lifetime lib settings operations = [] := by
      rw [lifetime, opened]
    rw [none]
    refine ⟨⟨?_, ⟨[], 0, rfl, ?_⟩, .inl rfl⟩, iff_of_true rfl turned⟩
    · intro part
      rfl
    · intro part
      rfl
  · obtain ⟨s, comments, account, cleared, ends⟩ :=
      exists_lifetime_eq_release lib turned operations
    have gives := Session.givesBack_release account cleared
    rw [ends]
    refine ⟨gives, iff_of_false ?_ turned⟩
    intro empty
    -- The stream information has been acquired, so its call is in the log.
    have held : s.log.any Part.info.acquiredBy = true := (account.held .info).trans account.hasInfo
    have log : s.log <:+ s.release.log := (Session.leadsTo_release s).log
    rw [List.reverse_eq_nil_iff.mp empty, List.suffix_nil] at log
    rw [log] at held
    cases held

/-- A library that does not make the header packets. -/
def headerlessScript : Script :=
  { forced := [{ routine := .analysisHeaderOut, skip := 0, code := -130 }] }

/-- The encoder cannot be opened then, and everything is given back in the attempt. -/
theorem lifetime_givesBack_headerless :
    GivesBack (lifetime headerlessScript.library monoSettings []) ∧
      (lifetime headerlessScript.library monoSettings []).map (fun event => event.call.routine) =
        [.infoInit, .setupManaged, .control, .setupInit, .analysisInit, .blockInit, .commentInit,
          .commentAddTag, .analysisHeaderOut, .commentClear, .analysisWrote, .blockClear, .dspClear,
          .infoClear] :=
  ⟨(lifetime_givesBack headerlessScript.library monoSettings []).1, rfl⟩

end Encoder

end VorbisTrack
