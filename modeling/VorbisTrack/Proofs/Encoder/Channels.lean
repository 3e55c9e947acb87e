import VorbisTrack.Proofs.Encoder.Sending

/-!
# Channels reach the library whole and in Vorbis order

What the library is told of a frame are its channels, each of them sample by sample and bit for bit
(`Frame.IsChannel`), in the order of the format (`Frame.IsOrdered`). That order takes every channel
once, so nothing of the frame is lost. How the frame lays its samples out cannot be seen any more.
Frames with the same samples, packed or planar, are sent with the same calls and leave the same
encoder behind (`send_eq_of_agrees`).
-/

set_option autoImplicit false

namespace VorbisTrack

variable {σ : Type} {lib : Library σ}

/-! ## Channel order -/

namespace ChannelLayout

/-- The Vorbis order takes every channel once. -/
theorem sources_perm (channels : Nat) : (sources channels).Perm (List.range channels) := by
  by_cases few : channels < 9
  · have small : ∀ n < 9, (sources n).Perm (List.range n) := by decide
    exact small channels few
  · -- Without a defined order the channels keep that of the input.
    have undefined : order? channels = none := by
      unfold order?
      split <;> first | omega | rfl
    have same : sources channels = List.range channels := by
      unfold sources
      rw [show source channels = id from funext fun c => by rw [source, undefined]; rfl,
        List.map_id]
    rw [same]

def target (channels channel : Nat) : Nat :=
  (sources channels).idxOf channel

/-- Every input channel is found again. -/
theorem source_target {channels channel : Nat} (inRange : channel < channels) :
    target channels channel < channels ∧ source channels (target channels channel) = channel := by
  have member : channel ∈ sources channels :=
    (sources_perm channels).mem_iff.mpr (List.mem_range.mpr inRange)
  have place : target channels channel < (sources channels).length :=
    List.idxOf_lt_length_of_mem member
  have found : (sources channels)[target channels channel] = channel := List.getElem_idxOf place
  rw [sources, List.length_map, List.length_range] at place
  refine ⟨place, ?_⟩
  simpa only [sources, List.getElem_map, List.getElem_range] using found

end ChannelLayout

/-! ## Frames -/

namespace Frame

/-- The values are those of a channel of the frame: as many, in order, and bit for bit. -/
structure IsChannel (frame : Frame) (channel : Nat) (values : List Sample) : Prop where
  length : values.length = frame.sampleCount
  bits : ∀ i < frame.sampleCount,
    Bytes.littleEndian 4 (values.getD i 0).toNat = frame.bytesOf channel i

/-- The planes are the channels of the frame in Vorbis order. Every channel is one of them, in a
place that depends on the count of channels alone. -/
structure IsOrdered (frame : Frame) (planes : List (List Sample)) : Prop where
  count : planes.length = frame.channels.toNat
  order : (ChannelLayout.sources frame.channels.toNat).Perm (List.range frame.channels.toNat)
  plane : ∀ c < frame.channels.toNat,
    frame.IsChannel (ChannelLayout.source frame.channels.toNat c) (planes.getD c [])
  channel : ∀ channel < frame.channels.toNat,
    frame.IsChannel channel
      (planes.getD (ChannelLayout.target frame.channels.toNat channel) [])

/-- Two frames of 32-bit floating point hold the same samples for the same time, however they lay
them out and whatever else is in their planes. -/
structure Agrees (frame other : Frame) : Prop where
  format : (frame.format = .flt ∨ frame.format = .fltp) ∧
    (other.format = .flt ∨ other.format = .fltp)
  check : frame.check = .ok () ∧ other.check = .ok ()
  sampleCount : other.sampleCount = frame.sampleCount
  rate : other.rate = frame.rate
  channels : other.channels = frame.channels
  pts : other.pts = frame.pts
  samples : ∀ channel < frame.channels.toNat, ∀ i < frame.sampleCount,
    other.bytesOf channel i = frame.bytesOf channel i

end Frame

namespace Encoder

theorem isChannel_channelSamples {frame : Frame} (h : frame.check = .ok ())
    (format : frame.format = .flt ∨ frame.format = .fltp) {channel : Nat}
    (inRange : channel < frame.channels.toNat) :
    frame.IsChannel channel (channelSamples frame channel) := by
  have size : frame.format.size = 4 := by
    rcases format with packed | planar
    · rw [packed]
      rfl
    · rw [planar]
      rfl
  refine ⟨length_channelSamples h format inRange, ?_⟩
  intro i inside
  have four : (frame.bytesOf channel i).length = 4 := by
    rw [Frame.length_bytesOf h inRange inside, size]
  rw [channelSamples_eq h format inRange, List.getD_eq_getElem?_getD, List.getElem?_map,
    List.getElem?_range inside, Option.map_some, Option.getD_some,
    Sample.littleEndian_decode format four]

/-- The planes that are written for a frame are its channels in Vorbis order. -/
theorem isOrdered_vorbisSamples {frame : Frame} (h : frame.check = .ok ())
    (format : frame.format = .flt ∨ frame.format = .fltp) :
    frame.IsOrdered ((List.range frame.channels.toNat).map (vorbisSamples frame)) := by
  have plane : ∀ c < frame.channels.toNat,
      frame.IsChannel (ChannelLayout.source frame.channels.toNat c)
        (((List.range frame.channels.toNat).map (vorbisSamples frame)).getD c []) := by
    intro c inRange
    rw [List.getD_eq_getElem?_getD, List.getElem?_map, List.getElem?_range inRange, Option.map_some,
      Option.getD_some]
    exact isChannel_channelSamples h format (ChannelLayout.source_lt inRange)
  refine ⟨by rw [List.length_map, List.length_range], ChannelLayout.sources_perm _, plane, ?_⟩
  intro channel inRange
  obtain ⟨place, found⟩ := ChannelLayout.source_target inRange
  have there := plane _ place
  rwa [found] at there

/-! ## Sending -/

/-- Sending a frame tells the library of its channels, or it tells of nothing, and then it only
succeeds if there is nothing in the frame. -/
theorem told_send {e : Encoder lib} (channels : e.session.channels = e.options.channels)
    (frame : Frame) :
    (∃ planes, (e.send frame).2.session.told = e.session.told ++ [(frame.sampleCount, planes)] ∧
      frame.channels = e.options.channels ∧ frame.IsOrdered planes) ∨
    ((e.send frame).2.session.told = e.session.told ∧
      ((e.send frame).1 = .ok () → frame.sampleCount = 0)) := by
  have write := Session.told_write e.session frame.sampleCount (vorbisSamples frame)
  -- An accepted frame fills the memory, so its samples are all that the library is told of.
  have ordered (accepts : e.Accepts frame) (some_ : frame.sampleCount ≠ 0)
      (memory : Nat → Nat → Sample) :
      frame.IsOrdered
        (e.session.writtenPlanes frame.sampleCount (vorbisSamples frame) memory) := by
    have full : ∀ c < e.session.channels.toNat,
        (vorbisSamples frame c).length = frame.sampleCount := by
      rw [channels]
      exact fun c inRange => accepts.length_vorbisSamples inRange
    rw [Session.writtenPlanes_of_full some_ full, channels, ← accepts.channels]
    exact isOrdered_vorbisSamples accepts.check accepts.format
  rcases send_cases e frame with
    ⟨_, -, sent⟩ | ⟨-, none, sent⟩ | ⟨_, session, taken, some_, failed, sent⟩ |
    ⟨session, taken, some_, written, sent⟩
  · exact .inr (by rw [sent]; exact ⟨rfl, fun ok => by cases ok⟩)
  · exact .inr (by rw [sent, session_anchor]; exact ⟨rfl, fun _ => none⟩)
  · have accepts := refusal?_eq_none_iff.mp taken
    rw [failed] at write
    rw [sent]
    rcases write with ⟨same, -⟩ | ⟨memory, told⟩
    · exact .inr ⟨same, fun ok => by cases ok⟩
    · exact .inl ⟨_, told, accepts.channels, ordered accepts some_ memory⟩
  · have accepts := refusal?_eq_none_iff.mp taken
    rw [written] at write
    rw [sent]
    rcases write with ⟨-, failed⟩ | ⟨memory, told⟩
    · cases failed
    · exact .inl ⟨_, ((makes_drain _).told (by decide)).trans told, accepts.channels,
        ordered accepts some_ memory⟩

theorem channelSamples_eq_of_agrees {frame other : Frame} (h : frame.Agrees other) {channel : Nat}
    (inRange : channel < frame.channels.toNat) :
    channelSamples frame channel = channelSamples other channel := by
  rw [channelSamples_eq h.check.1 h.format.1 inRange,
    channelSamples_eq h.check.2 h.format.2 (by rwa [h.channels]), h.sampleCount]
  apply List.map_congr_left
  intro i member
  rw [Sample.decode_of_float h.format.1, Sample.decode_of_float h.format.2,
    h.samples channel inRange i (List.mem_range.mp member)]

theorem refusal?_eq_of_agrees (e : Encoder lib) {frame other : Frame} (h : frame.Agrees other) :
    e.refusal? frame = e.refusal? other := by
  have known (frame : Frame) (float : frame.format = .flt ∨ frame.format = .fltp) :
      ¬ (frame.format ≠ .flt ∧ frame.format ≠ .fltp) :=
    fun neither => float.elim neither.1 neither.2
  unfold refusal?
  rw [if_neg (known frame h.format.1), if_neg (known other h.format.2), h.check.1, h.check.2,
    h.rate, h.channels]

/-- How a frame lays its samples out makes no difference. -/
theorem send_eq_of_agrees {e : Encoder lib} (channels : e.session.channels = e.options.channels)
    {frame other : Frame} (h : frame.Agrees other) : e.send frame = e.send other := by
  have refusal := refusal?_eq_of_agrees e h
  cases refused : e.refusal? frame with
  | some failure =>
    rw [refused] at refusal
    simp only [send, refused, ← refusal]
  | none =>
    have accepts := refusal?_eq_none_iff.mp refused
    have write : e.session.write frame.sampleCount (vorbisSamples frame) =
        e.session.write frame.sampleCount (vorbisSamples other) := by
      apply Session.write_congr
      intro c inRange
      rw [channels, ← accepts.channels] at inRange
      rw [vorbisSamples, vorbisSamples, h.channels]
      exact channelSamples_eq_of_agrees h (ChannelLayout.source_lt inRange)
    rw [refused] at refusal
    simp only [send, refused, ← refusal, session_anchor, write, h.sampleCount, h.pts]

/-! ## Whole runs -/

/-- An encoder makes nothing of a frame but its samples. -/
structure DeliversChannels (e : Encoder lib) : Prop where
  /-- The library is told of the frame once, and of its channels, whole and in Vorbis order.
  Otherwise it is told of nothing, and the call only succeeds if there is nothing in the frame. -/
  whole : ∀ frame : Frame,
    (∃ planes, (e.send frame).2.session.told = e.session.told ++ [(frame.sampleCount, planes)] ∧
      frame.channels = e.options.channels ∧ frame.IsOrdered planes) ∨
    ((e.send frame).2.session.told = e.session.told ∧
      ((e.send frame).1 = .ok () → frame.sampleCount = 0))
  /-- Frames with the same samples have the same result and the same calls, and leave the same
  encoder. -/
  same : ∀ frame other : Frame, frame.Agrees other → e.send frame = e.send other

/-- **Channels reach the library whole, bit for bit and in Vorbis order, from packed and planar
frames alike.** This holds after any operations on an encoder that has been opened, over every
library. -/
theorem afterAll_deliversChannels {settings : Settings} {e : Encoder lib} {trace : List Event}
    (opened : Encoder.open lib settings = (.ok e, trace)) (operations : List Operation) :
    (e.afterAll operations).DeliversChannels := by
  have led := leadsTo_afterAll e operations
  have channels :
      (e.afterAll operations).session.channels = (e.afterAll operations).options.channels := by
    rw [led.session.channels, led.options, (running_of_open opened).2]
  exact ⟨told_send channels, fun _ _ => send_eq_of_agrees channels⟩

def packedTrio : Frame :=
  Frame.ofInterleaved [1, 2, 3, 4, 5, 6] 8000 3

/-- The same samples in planes. The first is longer than it has to be, and there is one too many. -/
def planarTrio : Frame :=
  { packedTrio with
    planes := [Frame.sampleBytes [1, 4] ++ [255], Frame.sampleBytes [2, 5],
      Frame.sampleBytes [3, 6], [7]]
    format := .fltp }

theorem afterAll_deliversChannels_trio :
    ∃ (e : Encoder ({} : Script).library) (trace : List Event),
      Encoder.open ({} : Script).library { monoSettings with channels := 3 } = (.ok e, trace) ∧
        packedTrio.Agrees planarTrio ∧
        (e.afterAll [.flush, .send packedTrio]).session.told = [(0, [])] ∧
        (e.afterAll [.send planarTrio]).session.told = [(2, [[1, 4], [3, 6], [2, 5]])] ∧
        (e.afterAll [.send planarTrio]).DeliversChannels :=
  ⟨_, _, rfl, ⟨by decide, ⟨rfl, rfl⟩, rfl, rfl, rfl, rfl, by decide +kernel⟩, by decide +kernel,
    by decide +kernel,
    afterAll_deliversChannels (show Encoder.open _ { monoSettings with channels := 3 } = _ from rfl)
      _⟩

end Encoder

end VorbisTrack
