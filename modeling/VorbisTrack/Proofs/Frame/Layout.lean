import Mathlib.Algebra.GroupWithZero.Nat
import Mathlib.Algebra.Order.BigOperators.Group.List
import Mathlib.Algebra.Order.Group.Nat
import VorbisTrack.Proofs.Frame.Singles

/-!
# Where the samples of a frame lie

A planar format gives every channel a plane of its own, in the others the channels alternate in the
first plane. `Frame.bytesOf` are the bytes of one sample by channel and position. A frame that
passes its check has them for every channel and position that it tells of, whatever follows in its
planes and whatever further planes there are.
-/

set_option autoImplicit false

namespace VorbisTrack

/-- In the formats of 32-bit floating point a sample is the word of its bytes. -/
theorem Sample.decode_of_float {format : SampleFormat} (float : format = .flt ∨ format = .fltp)
    (bytes : Bytes) : decode format bytes = UInt32.ofNat (Bytes.littleValue bytes) := by
  rcases float with rfl | rfl
  · rfl
  · rfl

/-- The word keeps all of its bytes. -/
theorem Sample.littleEndian_decode {format : SampleFormat} (float : format = .flt ∨ format = .fltp)
    {bytes : Bytes} (four : bytes.length = 4) :
    Bytes.littleEndian 4 (decode format bytes).toNat = bytes := by
  have fits : Bytes.littleValue bytes < UInt32.size := by
    have bound := Bytes.littleValue_lt bytes
    rwa [four] at bound
  have back := Bytes.littleEndian_littleValue bytes
  rw [four] at back
  rw [decode_of_float float, UInt32.toNat_ofNat_of_lt' fits, back]

namespace Frame

variable {frame : Frame}

def planeOf (frame : Frame) (channel : Nat) : Bytes :=
  if frame.format.isPlanar then frame.planes.getD channel [] else frame.planes.headD []

/-- The place of a sample among all samples of its plane. -/
def placeOf (frame : Frame) (channel position : Nat) : Nat :=
  if frame.format.isPlanar then position else position * frame.channels.toNat + channel

def bytesOf (frame : Frame) (channel position : Nat) : Bytes :=
  ((frame.planeOf channel).drop (frame.placeOf channel position * frame.format.size)).take
    frame.format.size

/-! ## Room -/

/-- `planeBytes` by arithmetic of words, which lose what they have no room for. -/
def planeWord (frame : Frame) : UInt64 :=
  let samples := UInt64.ofNat frame.sampleCount
  (if frame.format.isPlanar then samples else samples * frame.channels.toUInt64) *
    UInt64.ofNat frame.format.size

theorem toNat_planeWord (frame : Frame) : frame.planeWord.toNat = frame.planeBytes % 2 ^ 64 := by
  have channels : frame.channels.toUInt64.toNat = frame.channels.toNat := rfl
  unfold planeWord planeBytes totalSamples
  split
  · rw [UInt64.toNat_mul, UInt64.toNat_ofNat', UInt64.toNat_ofNat', ← Nat.mul_mod]
  · rw [UInt64.toNat_mul, UInt64.toNat_mul, UInt64.toNat_ofNat', UInt64.toNat_ofNat', channels,
      Nat.mod_mul_mod, Nat.mul_mod_mod, Nat.mul_assoc, Nat.mod_mul_mod, ← Nat.mul_assoc]

/-- The planes that a format asks for have room for all samples, and for no more. -/
theorem planeCount_mul_planeBytes (frame : Frame) :
    frame.planeCount * frame.planeBytes = frame.totalSamples * frame.format.size := by
  rw [planeCount, planeBytes, totalSamples]
  split
  · rw [← Nat.mul_assoc, Nat.mul_comm frame.channels.toNat]
  · exact Nat.one_mul _

/-! ## What a check guarantees -/

/-- Where channels alternate, each of them has its sample before the next position starts. -/
theorem position_lt {channels count i source : Nat} (inside : i < count)
    (there : source < channels) : i * channels + source < count * channels :=
  calc i * channels + source
      < i * channels + channels := Nat.add_lt_add_left there _
    _ = (i + 1) * channels := (Nat.succ_mul ..).symm
    _ ≤ count * channels := Nat.mul_le_mul_right _ inside

theorem le_length_of_firstShort? {need index : Nat} {planes : List Bytes}
    (h : firstShort? need index planes = none) : ∀ plane ∈ planes, need ≤ plane.length := by
  induction planes generalizing index with
  | nil => intro plane member; cases member
  | cons first rest ih =>
    unfold firstShort? at h
    split at h
    · cases h
    · next enough =>
      intro plane member
      rcases List.mem_cons.mp member with rfl | member
      · omega
      · exact ih h plane member

/-- A frame that passes its check has the planes it needs, and they are long enough. -/
theorem le_length_of_check (h : frame.check = .ok ()) :
    frame.planeCount ≤ frame.planes.length ∧
      ∀ plane ∈ frame.planes.take frame.planeCount, frame.planeBytes ≤ plane.length := by
  unfold check at h
  split at h
  · cases h
  · next enough =>
    split at h
    · cases h
    · next long => exact ⟨by omega, le_length_of_firstShort? long⟩

/-- The samples of a frame that passes its check take no more bytes than its planes. -/
theorem totalBytes_le_of_check (h : frame.check = .ok ()) :
    frame.totalSamples * frame.format.size ≤ (frame.planes.map List.length).sum := by
  obtain ⟨planes, long⟩ := le_length_of_check h
  have count : (frame.planes.take frame.planeCount).length = frame.planeCount := by
    rw [List.length_take, Nat.min_eq_left planes]
  have needed := List.card_nsmul_le_sum ((frame.planes.take frame.planeCount).map List.length)
    frame.planeBytes fun bytes member => by
      obtain ⟨plane, needed, rfl⟩ := List.mem_map.mp member
      exact long plane needed
  rw [List.length_map, count, Nat.nsmul_eq_mul, planeCount_mul_planeBytes] at needed
  exact Nat.le_trans needed (((List.take_sublist ..).map _).sum_le_sum fun _ _ => Nat.zero_le _)

/-- Checking a frame does not fail for want of room. -/
theorem check_ne_tryAgain (frame : Frame) : frame.check ≠ .error .tryAgain := by
  unfold check
  split
  · simp
  · split
    · simp
    · simp

/-- A frame that passes its check has a plane for every channel, and it is long enough. -/
theorem planeBytes_le_planeOf (h : frame.check = .ok ()) {channel : Nat}
    (inRange : channel < frame.channels.toNat) :
    frame.planeBytes ≤ (frame.planeOf channel).length := by
  obtain ⟨planes, long⟩ := le_length_of_check h
  -- The plane of the channel is one of those that the format asks for.
  have plane {index : Nat} (needed : index < frame.planeCount) :
      frame.planeBytes ≤ (frame.planes.getD index []).length := by
    have there : index < frame.planes.length := Nat.lt_of_lt_of_le needed planes
    rw [List.getD_eq_getElem?_getD, List.getElem?_eq_getElem there, Option.getD_some]
    apply long
    rw [List.mem_take_iff_getElem]
    exact ⟨index, by omega, rfl⟩
  unfold planeOf
  split
  · next planar => exact plane (by rwa [planeCount, if_pos planar])
  · next packed =>
    rw [List.headD_eq_head?_getD, List.head?_eq_getElem?, ← List.getD_eq_getElem?_getD]
    exact plane (by rw [planeCount, if_neg packed]; exact Nat.one_pos)

/-- The samples that a frame tells of lie within the bytes that its planes have to hold. -/
theorem placeOf_le_planeBytes {channel position : Nat} (inRange : channel < frame.channels.toNat)
    (inside : position < frame.sampleCount) :
    frame.placeOf channel position * frame.format.size + frame.format.size ≤ frame.planeBytes := by
  have place : frame.placeOf channel position <
      if frame.format.isPlanar then frame.sampleCount else frame.totalSamples := by
    unfold placeOf
    split
    · exact inside
    · exact position_lt inside inRange
  rw [planeBytes, ← Nat.succ_mul]
  exact Nat.mul_le_mul_right _ place

theorem placeOf_le_length (h : frame.check = .ok ()) {channel position : Nat}
    (inRange : channel < frame.channels.toNat) (inside : position < frame.sampleCount) :
    frame.placeOf channel position * frame.format.size + frame.format.size ≤
      (frame.planeOf channel).length :=
  Nat.le_trans (placeOf_le_planeBytes inRange inside) (planeBytes_le_planeOf h inRange)

/-- Every sample that a frame tells of has all its bytes. -/
theorem length_bytesOf (h : frame.check = .ok ()) {channel position : Nat}
    (inRange : channel < frame.channels.toNat) (inside : position < frame.sampleCount) :
    (frame.bytesOf channel position).length = frame.format.size := by
  have room := placeOf_le_length h inRange inside
  rw [bytesOf, List.length_take, List.length_drop]
  omega

end Frame

end VorbisTrack
