import VorbisTrack.Proofs.Session.Calls

/-!
# Sessions fail only if the library does

A session is unfailing if no answer in its log is a failure. Its log is all that came before, so if
a session is unfailing after an operation, it was so all along, and then the operation has
succeeded. What is left are the refusals of a write: samples after the end, and too many at once.
-/

set_option autoImplicit false

namespace VorbisTrack

variable {σ τ : Type} {lib : Library σ}

/-- The answer is a failure: a code of the setup other than zero, no memory, or a negative code of
the running stream. -/
def Event.fails : Event → Bool
  | ⟨.setup _, code⟩ | ⟨.analysisInit, code⟩ | ⟨.blockInit, code⟩ => code ≠ 0
  | ⟨.headerOut, code, _⟩ => code ≠ 0
  | ⟨.buffer _, memory⟩ => memory.isNone
  | ⟨.wrote .., code⟩ | ⟨.blockOut, code⟩ | ⟨.analysis, code⟩ | ⟨.addBlock, code⟩ => code < 0
  | ⟨.flushPacket, code, _⟩ => code < 0
  | _ => false

namespace Session

def Unfailing (s : Session lib) : Prop :=
  ∀ event ∈ s.log, event.fails = false

namespace Unfailing

/-- What came before was unfailing as well. -/
theorem earlier {s s' : Session lib} (h : s'.Unfailing) (led : s.LeadsTo s') : s.Unfailing := by
  obtain ⟨events, log⟩ := led.log
  intro event member
  apply h event
  rw [← log]
  exact List.mem_append_right _ member

/-- The latest answer was no failure. -/
theorem latest {s : Session lib} {call : Call} (h : (s.perform call).2.Unfailing) :
    Event.fails ⟨call, (s.perform call).1⟩ = false :=
  h _ (List.mem_cons_self ..)

end Unfailing

/-! ## Setting up -/

theorem configure_ok (steps : List SetupStep) {s : Session lib}
    (h : (configure steps s).2.Unfailing) : (configure steps s).1 = .ok () := by
  induction steps generalizing s with
  | nil => rfl
  | cons step rest ih =>
    simp only [configure] at h ⊢
    by_cases zero : (s.perform (.setup step)).1 = (0 : Int32)
    · rw [if_pos zero] at h ⊢
      exact ih h
    · rw [if_neg zero] at h
      exact absurd zero (of_decide_eq_false h.latest)

theorem startAnalysis_ok {s : Session lib} (h : s.startAnalysis.2.Unfailing) :
    s.startAnalysis.1 = .ok () := by
  simp only [startAnalysis] at h ⊢
  by_cases failed : (s.perform .analysisInit).1 ≠ (0 : Int32)
  · rw [if_pos failed] at h
    exact absurd failed (of_decide_eq_false h.latest)
  · rw [if_neg failed] at h ⊢
    split at h
    · next failed =>
      exact absurd failed (of_decide_eq_false h.latest)
    · next worked =>
      rw [if_neg worked]

/-- A session whose library does not fail can be opened. -/
theorem open_ok {options : EncodingOptions} (h : (Session.open lib options).2.Unfailing) :
    (Session.open lib options).1 = .ok () := by
  have set := configure_ok (setupSteps options) (s := (unused lib options).acquireInfo)
  simp only [«open»] at h ⊢
  -- What was acquired is given back after a failure, by calls that are logged after it. So the
  -- failure is still in the log.
  generalize configure (setupSteps options) (unused lib options).acquireInfo = reply
    at h set ⊢
  obtain ⟨result, ready⟩ := reply
  cases result with
  | error failure => cases set (h.earlier (leadsTo_release ready))
  | ok =>
    have started := startAnalysis_ok (s := ready)
    simp only at h ⊢
    generalize ready.startAnalysis = reply at h started ⊢
    obtain ⟨result, s⟩ := reply
    cases result with
    | error failure => cases started (h.earlier (leadsTo_release s))
    | ok => rfl

theorem headerPackets_ok {comments : List (String × String)} (clean : nulFault? comments = none)
    {s : Session lib} (h : (s.headerPackets comments).2.Unfailing) :
    ∃ headers, (s.headerPackets comments).1 = .ok headers := by
  simp only [headerPackets, clean] at h ⊢
  generalize ((s.performs .commentInit).addComments comments) = tagged at h ⊢
  -- The comments are cleared after the library has answered.
  have made : (tagged.perform .headerOut).2.LeadsTo
      ((tagged.perform .headerOut).2.performs .commentClear) :=
    (makes_perform _ .commentClear).leadsTo
  by_cases zero : (tagged.perform .headerOut).1.1 = (0 : Int32)
  · rw [if_pos zero]
    exact ⟨_, rfl⟩
  · rw [if_neg zero] at h
    exact absurd zero (of_decide_eq_false (h.earlier made).latest)

/-! ## Input -/

theorem write_ok {s : Session lib} (running : s.ended = false) {count : Nat}
    (few : count ≤ maxCount) {fill : Nat → List Sample}
    (h : (s.write count fill).2.Unfailing) : (s.write count fill).1 = .ok () := by
  rcases write_cases s count fill with
    ⟨_, -, ⟨ended, -⟩ | ⟨many, -⟩⟩ | ⟨-, none, unfilled⟩ | ⟨-, _, told, -, rfl, filled⟩
  · rw [running] at ended
    cases ended
  · omega
  · rw [unfilled] at h
    have good := h.latest
    simp only [Event.fails, none, Option.isNone_none] at good
    cases good
  · rw [filled] at h ⊢
    exact if_neg (of_decide_eq_false h.latest)

theorem signalEnd_ok {s : Session lib} (h : s.signalEnd.2.Unfailing) :
    s.signalEnd.1 = .ok () ∧ s.signalEnd.2.ended = true := by
  rcases signalEnd_cases s with ⟨ended, same⟩ | ⟨-, failed, refused⟩ | ⟨-, -, accepted⟩
  · rw [same]
    exact ⟨rfl, ended⟩
  · rw [refused] at h
    exact absurd failed (of_decide_eq_false h.latest)
  · rw [accepted]
    exact ⟨rfl, rfl⟩

/-! ## Output -/

theorem takePackets_ok (sink : Sink τ) (wantsMore : Bool) (t : τ) {s : Session lib}
    (h : (takePackets sink wantsMore t s).2.2.Unfailing) :
    ∃ more, (takePackets sink wantsMore t s).1 = .ok more := by
  fun_induction takePackets sink wantsMore t s with
  | case1 wantsMore t s _ _ _ ih => exact ih h
  | case2 wantsMore t s _ _ failed =>
    exact absurd failed (of_decide_eq_false h.latest)
  | case3 wantsMore t s => exact ⟨wantsMore, rfl⟩

theorem analyseBlock_ok (sink : Sink τ) (t : τ) {s : Session lib}
    (h : (analyseBlock sink t s).2.2.Unfailing) :
    ∃ more, (analyseBlock sink t s).1 = .ok more := by
  simp only [analyseBlock] at h ⊢
  by_cases failed : (s.perform .analysis).1 < (0 : Int32)
  · rw [if_pos failed] at h
    exact absurd failed (of_decide_eq_false h.latest)
  · rw [if_neg failed] at h ⊢
    by_cases failed : ((s.perform .analysis).2.perform .addBlock).1 < (0 : Int32)
    · rw [if_pos failed] at h
      exact absurd failed (of_decide_eq_false h.latest)
    · rw [if_neg failed] at h ⊢
      exact takePackets_ok sink true t h

theorem drain_ok (sink : Sink τ) (t : τ) {s : Session lib}
    (h : (drain sink t s).2.2.Unfailing) : (drain sink t s).1 = .ok () := by
  fun_induction drain sink t s with
  | case1 t s reply complete failure t' s' worked =>
    -- Work on the block that was handed out cannot have failed.
    obtain ⟨more, ok⟩ := analyseBlock_ok sink t (s := reply.2) (by rw [worked]; exact h)
    rw [worked] at ok
    cases ok
  | case2 t s => rfl
  | case3 t s _ _ t' s' _ ih => exact ih h
  | case4 t s _ _ failed =>
    exact absurd failed (of_decide_eq_false h.latest)
  | case5 t s => rfl

end Session

end VorbisTrack
