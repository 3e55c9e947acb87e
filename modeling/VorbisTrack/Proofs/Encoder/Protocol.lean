import VorbisTrack.Library.Scripted
import VorbisTrack.Proofs.Encoder.Run
import VorbisTrack.Proofs.Session.Protocol

/-!
# An encoder calls its library in order

The calls of an encoder's lifetime, from opening it over any operations to closing it, are those of
`Encoder.lifetime`. They follow the order that the library prescribes, whatever it answers
(`lifetime_followsProtocol`). An open encoder is kept orderly by every operation, so the invariant
of its session carries over from one to the next, and closing needs no more than that it is lawful.
-/

set_option autoImplicit false

namespace VorbisTrack

variable {σ : Type} {lib : Library σ}

namespace Encoder

/-! ## One operation -/

theorem orderly_drain {e : Encoder lib} (h : e.session.Orderly) : e.drain.2.session.Orderly := by
  cases full : e.staging.isFull with
  | true => rwa [drain_of_isFull full]
  | false =>
    rw [drain_of_not_isFull full]
    exact Session.orderly_drain Staging.sink e.staging h

theorem orderly_after {e : Encoder lib} (h : e.session.Orderly) (operation : Operation) :
    (e.after operation).session.Orderly := by
  apply after_keeps (P := fun e => e.session.Orderly) ?_ ?_ ?_ ?_ ?_ ?_ h operation
  · intro e time _ orderly
    rwa [session_anchor]
  · intro _ _ fill some_ _ orderly
    exact Session.orderly_write orderly some_ fill
  · intro _ _ orderly
    exact orderly
  · intro _ _ orderly
    exact Session.orderly_signalEnd orderly
  · intro _ orderly
    exact orderly_drain orderly
  · intro _ _ _ _ orderly
    exact orderly

/-! ## Whole lifetimes -/

theorem orderly_afterAll (operations : List Operation) {e : Encoder lib}
    (h : e.session.Orderly) : (e.afterAll operations).session.Orderly :=
  afterAll_keeps (P := fun e => e.session.Orderly) (fun _ h => orderly_after h) operations h

/-- All calls from opening an encoder over some operations to closing it. If it cannot be opened,
these are the calls made in the attempt. -/
def lifetime (lib : Library σ) (settings : Settings) (operations : List Operation) : List Event :=
  match Encoder.open lib settings with
  | (.error _, trace) => trace
  | (.ok e, _) => (e.afterAll operations).close.trace

theorem legal_lifetime (lib : Library σ) (settings : Settings) (operations : List Operation) :
    Legal (lifetime lib settings operations).reverse := by
  unfold lifetime
  rcases open_cases lib settings with
    ⟨_, opened⟩ | ⟨options, s, set, ⟨_, opened⟩ | ⟨e, opened, rfl⟩⟩
  · rw [opened]
    trivial
  · -- Opening has failed after some calls, and the session was given back there.
    rw [opened, Session.trace, List.reverse_reverse]
    exact Session.legal_release ((Session.orderly_unused lib options).makes_setup set).toLawful
  · have orderly := (Session.orderly_unused lib options).makes_setup set
    rw [opened]
    show Legal (e.afterAll operations).close.trace.reverse
    rw [close, Session.trace, List.reverse_reverse]
    exact Session.legal_release (orderly_afterAll operations orderly).toLawful

/-- **The library's order of calls is kept.** This holds of the whole lifetime of every encoder,
whatever it is opened with, whatever is done with it and whatever the library answers. A frame
without samples that is accepted makes no call at all. -/
theorem lifetime_followsProtocol (lib : Library σ) (settings : Settings)
    (operations : List Operation) :
    FollowsProtocol (lifetime lib settings operations) ∧
      ∀ (e : Encoder lib) (frame : Frame), frame.sampleCount = 0 → (e.send frame).1 = .ok () →
        (e.send frame).2.trace = e.trace := by
  constructor
  · exact (legal_lifetime lib settings operations).followsProtocol
  · intro e frame none accepted
    rcases send_cases e frame with
      ⟨_, -, sent⟩ | ⟨-, -, sent⟩ | ⟨_, _, -, some_, -, -⟩ | ⟨_, -, some_, -, -⟩
    · rw [sent] at accepted
      cases accepted
    · rw [sent, trace, trace, session_anchor]
    · exact absurd none some_
    · exact absurd none some_

/-- A library that does not accept the end of the input at first, and later fails in the middle of a
block. -/
def reluctantScript : Script :=
  { forced := [{ routine := .analysisWrote, skip := 1, code := -131 },
      { routine := .bitrateFlushPacket, skip := 1, code := -1 }]
    block := 4 }

theorem lifetime_followsProtocol_reluctant :
    ∃ (e : Encoder reluctantScript.library) (trace : List Event),
      Encoder.open reluctantScript.library monoSettings = (.ok e, trace) ∧
        FollowsProtocol (lifetime reluctantScript.library monoSettings
          [.send (monoFrame 0), .send (monoFrame 8), .flush, .receive, .flush]) ∧
        (e.send (monoFrame 0)).2.trace = e.trace :=
  ⟨_, _, show Encoder.open reluctantScript.library monoSettings = _ from rfl,
    (lifetime_followsProtocol ..).1,
    (lifetime_followsProtocol reluctantScript.library monoSettings []).2 _ (monoFrame 0) rfl rfl⟩

end Encoder

end VorbisTrack
