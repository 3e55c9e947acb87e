import VorbisTrack.Proofs.Encoder.Conservation
import VorbisTrack.Proofs.Encoder.Release
import VorbisTrack.Proofs.Session.Exhaustion

/-!
# When there is nothing to receive

Receiving answers `tryAgain` or `endOfStream` if nothing is staged after the refill. Analysis may
have been paused before by a full queue, but a queue without packets is not full. So the refill has
resumed analysis, and as it has staged nothing, the library has been asked until it had no further
block (`Encoder.FindsNothing`). Which of the two answers it is depends on nothing but the end of the
input, so after the end the answer is never `tryAgain`. An encoder that has come to the end of its
stream stays there for as long as the library has no block (`Encoder.Exhausted`).
-/

set_option autoImplicit false

namespace VorbisTrack

variable {σ : Type} {lib : Library σ}

namespace Encoder

variable {e : Encoder lib}

/-! ## Receiving once -/

theorem drain_isOfLibrary {failure : Failure} (failed : e.drain.1 = .error failure) :
    failure.IsOfLibrary := by
  cases full : e.staging.isFull with
  | true =>
    rw [drain_of_isFull full] at failed
    cases failed
  | false =>
    rw [drain_of_not_isFull full] at failed
    exact Session.drain_isOfLibrary failed

theorem refill_isOfLibrary {failure : Failure} (failed : e.refill.1 = .error failure) :
    failure.IsOfLibrary := by
  by_cases empty : e.staging.packets = []
  · rw [refill_of_empty empty] at failed
    exact drain_isOfLibrary failed
  · rw [refill_of_ne empty] at failed
    cases failed

/-- Receiving finds nothing: nothing was staged, the library has been asked for blocks until it had
none, it has released nothing meanwhile, and nothing is staged after that. -/
structure FindsNothing (e : Encoder lib) : Prop where
  before : e.staging.packets = []
  asked : e.session.FindsNone e.receive.2.session
  released : e.receive.2.session.released = e.session.released
  after : e.receive.2.staging.packets = []

theorem findsNothing_of_refill (charged : e.staging.Charged) (ok : e.refill.1 = .ok ())
    (none : e.refill.2.staging.packets = []) : e.FindsNothing := by
  -- What was staged before would still be there, and what was released meanwhile as well.
  obtain ⟨released, later, balance⟩ := conserves_refill e
  rw [none, List.append_nil, eq_comm, List.append_eq_nil_iff] at balance
  obtain ⟨before, silent⟩ := balance
  rw [silent, List.append_nil] at later
  have received : e.receive.2 = e.refill.2 := by rw [receive_of_nothing ok none]
  refine ⟨before, ?_, by rw [received]; exact later, by rw [received]; exact none⟩
  rw [received]
  rw [refill_of_empty before, drain_of_not_isFull (charged.isFull_of_nil before)] at ok later ⊢
  exact (Session.drain_nothing (Prod.ext ok rfl) later).2

/-- Receiving fails with the library, finds nothing, or gives a packet. -/
theorem receive_outcome (charged : e.staging.Charged) :
    (∃ failure, failure.IsOfLibrary ∧ e.receive.1 = .error failure) ∨
    (e.FindsNothing ∧ e.receive.1 = .error (if e.ended then .endOfStream else .tryAgain)) ∨
    ∃ packet, e.receive.1 = .ok packet := by
  rcases receive_cases e with
    ⟨failure, failed, received⟩ | ⟨ok, none, received⟩ | ⟨raw, rest, -, -, received⟩
  · exact .inl ⟨failure, refill_isOfLibrary failed, by rw [received]⟩
  · exact .inr (.inl ⟨findsNothing_of_refill charged ok none, by rw [received, ended_refill]⟩)
  · exact .inr (.inr ⟨_, by rw [received]⟩)

/-- There are two answers that say that there is nothing. Which it is depends on the end of the
input. -/
theorem findsNothing_of_receive (charged : e.staging.Charged) {failure : Failure}
    (received : e.receive.1 = .error failure)
    (nothing : failure = .tryAgain ∨ failure = .endOfStream) :
    e.FindsNothing ∧ failure = if e.ended then .endOfStream else .tryAgain := by
  rcases receive_outcome charged with ⟨_, ofLibrary, failed⟩ | ⟨finds, missing⟩ | ⟨packet, given⟩
  · rw [received] at failed
    cases failed
    exact absurd nothing ofLibrary.ne
  · rw [received] at missing
    exact ⟨finds, Except.error.inj missing⟩
  · rw [received] at given
    cases given

/-! ## The end of the stream -/

/-- The encoder notes exactly whether the library has accepted the end of the input. -/
theorem ended_iff_of_accounts {comments : List Event} (h : e.session.Accounts comments)
    (agrees : e.AgreesOnEnd) : e.ended = true ↔ ∃ event ∈ e.trace, event.endsInput = true := by
  rw [agrees, ← h.ended, List.any_eq_true]
  simp only [trace, Session.trace, List.mem_reverse]

/-- Flushing ends the input. -/
theorem ended_of_flush {e' : Encoder lib} (flushed : e.flush = (.ok (), e')) : e'.ended = true := by
  rcases flush_cases e with ⟨ended, drained⟩ | ⟨_, _, -, -, failed⟩ | ⟨session, -, -, drained⟩
  · have same := ended_drain e
    rwa [← drained, flushed, ended] at same
  · rw [flushed] at failed
    cases failed
  · have same := ended_drain { e with session, ended := true }
    rwa [← drained, flushed] at same

/-- The input does not begin again. -/
theorem ended_afterAll (operations : List Operation) (h : e.ended = true) :
    (e.afterAll operations).ended = true := by
  refine afterAll_keeps (P := fun e => e.ended = true) ?_ operations h
  intro e ended operation
  refine after_keeps (P := fun e => e.ended = true) ?_ ?_ ?_ ?_ ?_ ?_ ended operation
  · intro e time _ ended
    rwa [ended_anchor]
  · intro _ _ _ _ _ ended
    exact ended
  · intro _ _ ended
    exact ended
  · intro e going ended
    rw [going] at ended
    cases ended
  · intro e ended
    rwa [ended_drain]
  · intro _ _ _ _ ended
    exact ended

/-- An encoder that has handed out everything after the end of its input. -/
structure Exhausted (e : Encoder lib) : Prop where
  ended : e.ended = true
  empty : e.staging.packets = []
  charged : e.staging.Charged

namespace Exhausted

/-- If the library has no block, analysis finds none, and nothing else changes. -/
theorem drain (h : e.Exhausted) (none : e.session.HasNone e.drain.2.session) :
    e.drain.1 = .ok () ∧ e.drain.2.Exhausted := by
  rw [drain_of_not_isFull (h.charged.isFull_of_nil h.empty)] at none ⊢
  rw [Session.drain_of_hasNone none]
  exact ⟨rfl, h.ended, h.empty, h.charged⟩

theorem refill (h : e.Exhausted) (none : e.session.HasNone e.refill.2.session) :
    e.refill.1 = .ok () ∧ e.refill.2.Exhausted := by
  rw [refill_of_empty h.empty] at none ⊢
  exact h.drain none

theorem receive (h : e.Exhausted) (none : e.session.HasNone e.receive.2.session) :
    e.receive.1 = .error .endOfStream := by
  have same : e.receive.2.session = e.refill.2.session := (receives_receive e).session
  rw [same] at none
  obtain ⟨ok, exhausted⟩ := h.refill none
  rw [receive_of_nothing ok exhausted.empty, exhausted.ended, if_pos rfl]

/-- Whatever is done, nothing more can be received while the library has no block. -/
theorem after (h : e.Exhausted) (operation : Operation)
    (none : e.session.HasNone (e.after operation).session) : (e.after operation).Exhausted := by
  have receiving (receives : e.Receives operation) : (e.after operation).Exhausted := by
    rw [receives.session] at none
    obtain ⟨-, exhausted⟩ := h.refill none
    cases receives with
    | nothing after =>
      rw [after]
      exact exhausted
    | front staged =>
      rw [exhausted.empty] at staged
      cases staged
  cases operation with
  | send frame =>
    -- No frame is taken after the end.
    have refused : e.refusal? frame = some .alreadyFlushed := by rw [refusal?, if_pos h.ended]
    have same : e.after (.send frame) = e := by simp only [Encoder.after, send, refused]
    rw [same]
    exact h
  | flush =>
    have same : e.after .flush = e.drain.2 := by
      rw [Encoder.after, flush, if_pos h.ended]
    rw [same] at none ⊢
    exact (h.drain none).2
  | receive => exact receiving (receives_receive e)
  | receiveInto buffer => exact receiving (receives_receiveInto e buffer)

theorem afterAll (operations : List Operation) (h : e.Exhausted)
    (none : e.session.HasNone (e.afterAll operations).session) :
    (e.afterAll operations).Exhausted := by
  induction operations generalizing e with
  | nil => exact h
  | cons operation rest ih =>
    obtain ⟨first, others⟩ := none.split (leadsTo_after e operation).session
      (leadsTo_afterAll (e.after operation) rest).session
    exact ih (h.after operation first) others

end Exhausted

theorem exhausted_of_receive (charged : e.staging.Charged)
    (received : e.receive.1 = .error .endOfStream) : e.receive.2.Exhausted := by
  obtain ⟨finds, which⟩ := findsNothing_of_receive charged received (.inr rfl)
  have ended : e.ended = true := by
    cases ended : e.ended with
    | true => rfl
    | false =>
      rw [ended] at which
      cases which
  exact ⟨(ended_receive e).trans ended, finds.after, charged_after charged .receive⟩

/-! ## After the end of the input -/

theorem receive_ne_tryAgain (charged : e.staging.Charged) (ended : e.ended = true) :
    e.receive.1 ≠ .error .tryAgain := by
  intro received
  obtain ⟨-, which⟩ := findsNothing_of_receive charged received (.inl rfl)
  rw [ended] at which
  cases which

/-- After the end of the input, receiving fails with the end of the stream or with a failure of the
library. -/
theorem receive_of_ended (charged : e.staging.Charged) (ended : e.ended = true) {failure : Failure}
    (received : e.receive.1 = .error failure) :
    failure = .endOfStream ∨ failure.IsOfLibrary := by
  have last := receive_outcome charged
  rw [received, ended, if_pos rfl] at last
  rcases last with ⟨_, ofLibrary, failed⟩ | ⟨-, ending⟩ | ⟨packet, given⟩
  · cases failed
    exact .inr ofLibrary
  · cases ending
    exact .inl rfl
  · cases given

/-- A packet is one of the encoder's stream. -/
theorem stream_of_receive {packet : Packet} {e' : Encoder lib}
    (received : e.receive = (.ok packet, e')) : packet.stream = e.streamIndex := by
  rcases receive_cases e with ⟨_, -, failed⟩ | ⟨-, -, failed⟩ | ⟨raw, others, -, -, given⟩
  · rw [received] at failed
    cases failed
  · rw [received] at failed
    cases failed
  · rw [received] at given
    cases given
    exact (leadsTo_refill e).streamIndex

/-- Operations lead from one encoder to another. -/
def ComesTo (e e' : Encoder lib) : Prop :=
  ∃ operations, e' = e.afterAll operations

namespace ComesTo

theorem refl (e : Encoder lib) : e.ComesTo e :=
  ⟨[], rfl⟩

theorem after {e' : Encoder lib} (h : e.ComesTo e') (operation : Operation) :
    e.ComesTo (e'.after operation) := by
  obtain ⟨operations, rfl⟩ := h
  exact ⟨operations ++ [operation], by rw [afterAll, afterAll, List.foldl_append]; rfl⟩

end ComesTo

/-! ## Whole runs -/

/-- What receiving answers is true of an encoder that has handed out this data so far. -/
structure IsTruthful (e : Encoder lib) (handedOut : List Bytes) : Prop where
  /-- If there is nothing, the library has just been asked until it had no further block, and all
  that it has released has been handed out. It is the end of the stream exactly if the library has
  accepted the end of the input. -/
  nothing : ∀ failure, e.receive.1 = .error failure →
    (failure = .tryAgain ∨ failure = .endOfStream) →
      e.FindsNothing ∧ handedOut = e.receive.2.session.released.map RawPacket.data ∧
        (failure = .endOfStream ↔ ∃ event ∈ e.trace, event.endsInput = true)
  /-- After the end of the stream, it is the end again if the library has had no block since then.
  -/
  stays : e.receive.1 = .error .endOfStream → ∀ operations,
    e.receive.2.session.HasNone (e.receive.2.afterAll operations).receive.2.session →
      (e.receive.2.afterAll operations).receive.1 = .error .endOfStream
  /-- Once the end of the input has been accepted, receiving is never to be tried again. -/
  ends : (∃ event ∈ e.trace, event.endsInput = true) → ∀ operations,
    (e.afterAll operations).receive.1 ≠ .error .tryAgain

theorem isTruthful_afterAll {settings : Settings} {trace : List Event}
    (opened : Encoder.open lib settings = (.ok e, trace)) (operations : List Operation) :
    (e.afterAll operations).IsTruthful (e.handedOutAll operations) := by
  have charged := charged_afterAll operations (charged_of_open opened)
  obtain ⟨comments, account⟩ := accounts_of_open opened
  have noted := ended_iff_of_accounts (accounts_afterAll operations account)
    (agreesOnEnd_afterAll operations (agreesOnEnd_of_open opened))
  obtain ⟨empty, silent⟩ := staged_released_of_open opened
  obtain ⟨taken, data, released, all, balance⟩ := conserves_afterAll operations e
  refine ⟨?_, ?_, ?_⟩
  · intro failure received nothing
    obtain ⟨finds, which⟩ := findsNothing_of_receive charged received nothing
    refine ⟨finds, ?_, ?_⟩
    · rw [finds.before, List.append_nil, empty, List.nil_append] at balance
      rw [finds.released, all, silent, List.nil_append, ← balance, data]
    · rw [← noted, which]
      split
      · next ended => exact iff_of_true rfl ended
      · next running => exact iff_of_false (by simp) running
  · intro received further none
    have exhausted := exhausted_of_receive charged received
    obtain ⟨first, last⟩ := none.split
      (leadsTo_afterAll (e.afterAll operations).receive.2 further).session
      (makes_receive _).leadsTo
    exact (exhausted.afterAll further first).receive last
  · intro told further
    exact receive_ne_tryAgain (charged_afterAll further charged)
      (ended_afterAll further (noted.mpr told))

end Encoder

end VorbisTrack
