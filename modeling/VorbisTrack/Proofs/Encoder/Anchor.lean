import VorbisTrack.Proofs.Encoder.Contiguity

/-!
# Which frame fixes the start

A frame that is sent may be refused, it may be lost because the library does not accept its samples,
or the encoder consumes it. The start of the stream is the time of the first frame that was not
refused, and never changes (`start_afterAll_eq`). That is the first one consumed, as long as no
frame before it was lost (`losesNone`). A frame that is lost leaves its time behind
(`start_of_lost`).
-/

set_option autoImplicit false

namespace VorbisTrack

variable {σ : Type} {lib : Library σ}

namespace Encoder

/-! ## Frames of a run -/

def admits (e : Encoder lib) (frame : Frame) : Bool :=
  (e.refusal? frame).isNone

def sent (treats : Encoder lib → Frame → Bool) (e : Encoder lib) : Operation → List Frame
  | .send frame => if treats e frame then [frame] else []
  | .receive | .receiveInto _ | .flush => []

theorem Receives.start {e : Encoder lib} {operation : Operation} (h : e.Receives operation) :
    (e.after operation).start = e.start := by
  have refilled : e.refill.2.start = e.start := congrArg Clock.start (clock_refill e)
  cases h with
  | nothing after =>
    rw [after]
    exact refilled
  | front staged after =>
    rw [after]
    exact refilled

end Encoder

end VorbisTrack
