import VorbisTrack.Encoder
import VorbisTrack.Proofs.Frame.Layout

/-!
# What a frame hands to the library

A frame that an encoder does not refuse holds a sample for every position of every channel, so the
planes that are written have the length that is announced, whatever the memory held before.
-/

set_option autoImplicit false

namespace VorbisTrack

variable {σ : Type} {lib : Library σ}

/-! ## Channel order -/

/-- The Vorbis order of channels is one of the channels there are. -/
theorem ChannelLayout.source_lt {channels channel : Nat} (h : channel < channels) :
    source channels channel < channels := by
  by_cases few : channels < 9
  · -- Up to eight channels have an order that is written down.
    have small : ∀ n < 9, ∀ c < n, source n c < n := by decide
    exact small channels few channel h
  · have undefined : order? channels = none := by
      unfold order?
      split <;> first | omega | rfl
    rw [source, undefined]
    exact h

namespace Encoder

/-- The samples of a channel are read from where the format puts them. -/
theorem channelSamples_eq {frame : Frame} (h : frame.check = .ok ())
    (format : frame.format = .flt ∨ frame.format = .fltp) {channel : Nat}
    (inRange : channel < frame.channels.toNat) :
    channelSamples frame channel = (List.range frame.sampleCount).map fun i =>
      Sample.decode frame.format (frame.bytesOf channel i) := by
  have long := Frame.planeBytes_le_planeOf h inRange
  -- Either way the plane holds as many samples as the frame tells of, and each is a word.
  rcases format with packed | planar
  · have count : frame.sampleCount
        ≤ (frame.planes.headD []).toArray.size / (4 * frame.channels.toNat) := by
      simp only [Frame.planeBytes, Frame.totalSamples, Frame.planeOf, packed,
        SampleFormat.isPlanar, SampleFormat.size, Bool.false_eq_true, if_false] at long
      rw [Nat.le_div_iff_mul_le (by omega), List.size_toArray, Nat.mul_comm 4, ← Nat.mul_assoc]
      exact long
    simp only [channelSamples, packed, Nat.min_eq_left count]
    apply List.map_congr_left
    intro i member
    have inside := Frame.placeOf_le_length h inRange (List.mem_range.mp member)
    simp only [Frame.bytesOf, Frame.planeOf, Frame.placeOf, packed, SampleFormat.isPlanar,
      SampleFormat.size, Bool.false_eq_true, if_false] at inside ⊢
    rw [wordAt_eq inside]
    rfl
  · have count : frame.sampleCount ≤ (frame.planes.getD channel []).toArray.size / 4 := by
      simp only [Frame.planeBytes, Frame.planeOf, planar, SampleFormat.isPlanar, SampleFormat.size,
        if_true] at long
      rw [Nat.le_div_iff_mul_le (by omega), List.size_toArray]
      exact long
    simp only [channelSamples, planar, Nat.min_eq_left count]
    apply List.map_congr_left
    intro i member
    have inside := Frame.placeOf_le_length h inRange (List.mem_range.mp member)
    simp only [Frame.bytesOf, Frame.planeOf, Frame.placeOf, planar, SampleFormat.isPlanar,
      SampleFormat.size, if_true] at inside ⊢
    rw [wordAt_eq inside]
    rfl

/-- There is a sample of each channel for every position of a frame that passes its check. -/
theorem length_channelSamples {frame : Frame} (h : frame.check = .ok ())
    (format : frame.format = .flt ∨ frame.format = .fltp) {channel : Nat}
    (inRange : channel < frame.channels.toNat) :
    (channelSamples frame channel).length = frame.sampleCount := by
  rw [channelSamples_eq h format inRange, List.length_map, List.length_range]

/-- A frame without samples gives none. -/
theorem channelSamples_of_sampleCount_eq_zero {frame : Frame} (none : frame.sampleCount = 0)
    (channel : Nat) : channelSamples frame channel = [] := by
  unfold channelSamples
  split <;> simp [none]

/-- The samples of a Vorbis channel in a converted frame are those of its channel, position by
position. -/
theorem vorbisSamples_of_converts {frame singles : Frame} {plane : Bytes}
    (h : frame.Converts singles plane) {channel : Nat}
    (inRange : channel < frame.channels.toNat) :
    vorbisSamples singles channel = (List.range frame.sampleCount).map fun i =>
      Sample.ofPlane frame.format plane
        (i * frame.channels.toNat + ChannelLayout.source frame.channels.toNat channel) := by
  obtain ⟨converted, planes, -, same⟩ := h.plane
  have from_ := ChannelLayout.source_lt inRange
  rw [vorbisSamples, h.channels]
  generalize ChannelLayout.source frame.channels.toNat channel = source at from_ ⊢
  rw [channelSamples_eq h.check (.inl h.format) (by rwa [h.channels]), h.sampleCount]
  apply List.map_congr_left
  intro i member
  rw [← same _ (Frame.position_lt (List.mem_range.mp member) from_)]
  simp only [Frame.bytesOf, Frame.planeOf, Frame.placeOf, h.format, h.channels, planes,
    SampleFormat.isPlanar, Bool.false_eq_true, if_false, List.headD_cons]
  rfl

/-- The encoder takes a frame as soon as there is room. -/
structure Admits (e : Encoder lib) (frame : Frame) : Prop where
  ended : e.ended = false
  rate : frame.rate = e.options.rate
  channels : frame.channels = e.options.channels
  format : frame.format = .flt ∨ frame.format = .fltp
  check : frame.check = .ok ()

/-- A frame that is admitted is refused only if the queue is full. -/
theorem Admits.refusal? {e : Encoder lib} {frame : Frame} (h : e.Admits frame) :
    e.refusal? frame = if e.staging.isFull then some .tryAgain else none := by
  have known : ¬ (frame.format ≠ .flt ∧ frame.format ≠ .fltp) := by
    rintro ⟨packed, planar⟩
    exact h.format.elim packed planar
  unfold Encoder.refusal?
  rw [if_neg (by simp [h.ended]), if_neg (not_not_intro h.rate), if_neg (not_not_intro h.channels),
    if_neg known]
  simp only [h.check]

/-- Any failure but the one for want of room means that the frame is not admitted. -/
theorem admits_of_refusal? {e : Encoder lib} {frame : Frame}
    (h : ∀ failure, e.refusal? frame = some failure → failure = .tryAgain) : e.Admits frame := by
  -- One check after the other. Each of the five has a failure of its own.
  unfold refusal? at h
  split at h
  · cases h _ rfl
  · next ended =>
    split at h
    · cases h _ rfl
    · next rate =>
      split at h
      · cases h _ rfl
      · next channels =>
        split at h
        · cases h _ rfl
        · next format =>
          split at h
          · next failure failed =>
            rw [h failure rfl] at failed
            exact absurd failed frame.check_ne_tryAgain
          · next check =>
            refine ⟨by simpa using ended, Decidable.not_not.mp rate, Decidable.not_not.mp channels,
              ?_, check⟩
            rwa [Decidable.not_and_iff_not_or_not, Decidable.not_not, Decidable.not_not] at format

structure Accepts (e : Encoder lib) (frame : Frame) : Prop where
  ended : e.ended = false
  rate : frame.rate = e.options.rate
  channels : frame.channels = e.options.channels
  format : frame.format = .flt ∨ frame.format = .fltp
  check : frame.check = .ok ()
  room : e.staging.isFull = false

theorem Admits.accepts {e : Encoder lib} {frame : Frame} (h : e.Admits frame)
    (room : e.staging.isFull = false) : e.Accepts frame :=
  ⟨h.ended, h.rate, h.channels, h.format, h.check, room⟩

theorem Accepts.admits {e : Encoder lib} {frame : Frame} (h : e.Accepts frame) :
    e.Admits frame :=
  ⟨h.ended, h.rate, h.channels, h.format, h.check⟩

/-- A frame is refused unless the encoder accepts it. -/
theorem refusal?_eq_none_iff {e : Encoder lib} {frame : Frame} :
    e.refusal? frame = none ↔ e.Accepts frame := by
  constructor
  · intro h
    have admits : e.Admits frame := by
      apply admits_of_refusal?
      intro failure refused
      rw [h] at refused
      cases refused
    refine admits.accepts ?_
    rw [admits.refusal?] at h
    split at h
    · cases h
    · next room => simpa using room
  · intro h
    rw [h.admits.refusal?, h.room]
    rfl

/-- A frame is refused for want of room if it is admitted and the queue is full. -/
theorem refusal?_eq_tryAgain_iff {e : Encoder lib} {frame : Frame} :
    e.refusal? frame = some .tryAgain ↔ e.Admits frame ∧ e.staging.isFull = true := by
  constructor
  · intro h
    have admits : e.Admits frame := by
      apply admits_of_refusal?
      intro failure refused
      rw [h] at refused
      cases refused
      rfl
    refine ⟨admits, ?_⟩
    rw [admits.refusal?] at h
    split at h
    · next full => exact full
    · cases h
  · rintro ⟨admits, full⟩
    rw [admits.refusal?, if_pos full]

/-- The samples that an accepted frame has for a Vorbis channel are as many as it says. -/
theorem Accepts.length_vorbisSamples {e : Encoder lib} {frame : Frame} (h : e.Accepts frame)
    {channel : Nat} (inRange : channel < e.options.channels.toNat) :
    (vorbisSamples frame channel).length = frame.sampleCount := by
  rw [← h.channels] at inRange
  exact length_channelSamples h.check h.format (ChannelLayout.source_lt inRange)

end Encoder

end VorbisTrack
