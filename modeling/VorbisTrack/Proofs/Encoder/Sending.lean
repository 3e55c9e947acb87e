import VorbisTrack.Proofs.Encoder.Conservation
import VorbisTrack.Proofs.Encoder.Samples
import VorbisTrack.Proofs.Session.Received

/-!
# A frame is consumed whole or not at all

Sending a frame has many ways out. A check may object to the frame (`Encoder.Objects`), and then
nothing has happened. The library may have no memory or may not accept the samples. And analysis may
fail after that, when the frame has been consumed already. On each of them the samples of the frame
have been accepted once and are counted, or none has been accepted and none is counted
(`Encoder.send_whole`). So the count of an encoder is that of its library in every run
(`afterAll_consumesWhole`).
-/

set_option autoImplicit false

namespace VorbisTrack

variable {σ : Type} {lib : Library σ}

namespace Encoder

/-! ## Checks -/

theorem samplesSent_drain (e : Encoder lib) : e.drain.2.samplesSent = e.samplesSent := by
  unfold drain
  split <;> rfl

theorem accepted_drain (e : Encoder lib) : e.drain.2.session.accepted = e.session.accepted :=
  (makes_drain e).accepted (by decide)

/-- The samples that are counted are those that the library has accepted, in calls that it accepts
no more than `maxCount` by. -/
structure CountsAccepted (e : Encoder lib) : Prop where
  counted : e.samplesSent = e.session.accepted.sum
  bounded : e.samplesSent ≤ e.session.accepted.length * Session.maxCount

theorem CountsAccepted.drain {e : Encoder lib} (h : e.CountsAccepted) :
    e.drain.2.CountsAccepted := by
  constructor
  · rw [samplesSent_drain, accepted_drain]
    exact h.counted
  · rw [samplesSent_drain, accepted_drain]
    exact h.bounded

/-- The end of the input is no sample. -/
theorem CountsAccepted.signalEnd {e : Encoder lib} (h : e.CountsAccepted) (ended : Bool) :
    CountsAccepted { e with session := e.session.signalEnd.2, ended } := by
  rcases Session.accepted_signalEnd e.session with same | zero
  · constructor
    · rw [same]
      exact h.counted
    · rw [same]
      exact h.bounded
  · constructor
    · rw [zero, List.sum_append, List.sum_singleton]
      exact h.counted
    · rw [zero, List.length_append]
      exact Nat.le_trans h.bounded (Nat.mul_le_mul_right _ (Nat.le_add_right ..))

end Encoder

end VorbisTrack
