import VorbisTrack.Frame.Singles

/-!
# The samples of a packed plane

`Sample.ofPlane` is the sample at a position of a packed plane, converted to 32-bit floating point.
Converting a packed frame converts every position of its plane, and its plane is then read back
position by position.
-/

set_option autoImplicit false

namespace VorbisTrack

/-! ## Words -/

/-- Four bytes side by side are the word of their little-endian value. -/
theorem word_of_bytes (a b c d : UInt8) :
    a.toUInt32 ||| b.toUInt32 <<< 8 ||| c.toUInt32 <<< 16 ||| d.toUInt32 <<< 24 =
      UInt32.ofNat (Bytes.littleValue [a, b, c, d]) := by
  have ha := a.toNat_lt
  have hb := b.toNat_lt
  have hc := c.toNat_lt
  have hd := d.toNat_lt
  -- A byte that is shifted to its place loses no bits there.
  have second : b.toNat <<< ((8 : UInt32).toNat % 32) % 2 ^ 32 = 2 ^ 8 * b.toNat := by
    rw [show (8 : UInt32).toNat % 32 = 8 from rfl, Nat.shiftLeft_eq]
    omega
  have third : c.toNat <<< ((16 : UInt32).toNat % 32) % 2 ^ 32 = 2 ^ 16 * c.toNat := by
    rw [show (16 : UInt32).toNat % 32 = 16 from rfl, Nat.shiftLeft_eq]
    omega
  have fourth : d.toNat <<< ((24 : UInt32).toNat % 32) % 2 ^ 32 = 2 ^ 24 * d.toNat := by
    rw [show (24 : UInt32).toNat % 32 = 24 from rfl, Nat.shiftLeft_eq]
    omega
  have value : Bytes.littleValue [a, b, c, d] =
      a.toNat + 2 ^ 8 * b.toNat + 2 ^ 16 * c.toNat + 2 ^ 24 * d.toNat := by
    simp only [Bytes.littleValue]
    omega
  have fits : Bytes.littleValue [a, b, c, d] < UInt32.size := by
    rw [value, show UInt32.size = 2 ^ 32 from rfl]
    omega
  apply UInt32.toNat_inj.mp
  rw [UInt32.toNat_ofNat_of_lt' fits, value, UInt32.toNat_or, UInt32.toNat_or, UInt32.toNat_or,
    UInt32.toNat_shiftLeft, UInt32.toNat_shiftLeft, UInt32.toNat_shiftLeft]
  simp only [UInt8.toNat_toUInt32]
  -- Each byte lies above all bits of the bytes before it.
  rw [second, third, fourth, Nat.or_comm a.toNat, ← Nat.two_pow_add_eq_or_of_lt (by omega),
    Nat.or_comm _ (2 ^ 16 * c.toNat), ← Nat.two_pow_add_eq_or_of_lt (by omega),
    Nat.or_comm _ (2 ^ 24 * d.toNat), ← Nat.two_pow_add_eq_or_of_lt (by omega)]
  omega

/-- A word that lies in the bytes is the value of four of them. -/
theorem wordAt_eq {bytes : Bytes} {offset : Nat} (inside : offset + 4 ≤ bytes.length) :
    wordAt bytes.toArray offset =
      UInt32.ofNat (Bytes.littleValue ((bytes.drop offset).take 4)) := by
  have byte (k : Nat) : bytes.toArray.getD (offset + k) 0 = ((bytes.drop offset)[k]?).getD 0 := by
    rw [Array.getD_eq_getD_getElem?, List.getElem?_toArray, List.getElem?_drop]
  have long : 4 ≤ (bytes.drop offset).length := by
    rw [List.length_drop]
    omega
  rw [wordAt, byte 1, byte 2, byte 3, ← Nat.add_zero offset, byte 0]
  generalize bytes.drop offset = behind at long ⊢
  match behind, long with
  | a :: b :: c :: d :: _, _ => exact word_of_bytes a b c d

/-! ## Positions of a plane -/

def Sample.ofPlane (format : SampleFormat) (plane : Bytes) (position : Nat) : Sample :=
  .decode format ((plane.drop (position * format.size)).take format.size)

/-- A part of a plane holds the samples from its start on. -/
theorem Sample.ofPlane_take_drop (format : SampleFormat) (plane : Bytes) {start count k : Nat}
    (inside : k < count) :
    ofPlane format ((plane.drop (start * format.size)).take (count * format.size)) k =
      ofPlane format plane (start + k) := by
  have room : k * format.size + format.size ≤ count * format.size := by
    rw [← Nat.succ_mul]
    exact Nat.mul_le_mul_right _ inside
  rw [ofPlane, ofPlane, List.drop_take, List.take_take, List.drop_drop, Nat.add_mul,
    Nat.min_eq_left (by omega)]

namespace Frame

theorem decode_sampleAt (format : SampleFormat) (plane : Bytes) (position : Nat) :
    .decode format (sampleAt plane.toArray format.size position) =
      Sample.ofPlane format plane position := by
  rw [sampleAt, Sample.ofPlane, Array.toList_extract, List.extract_eq_take_drop,
    Nat.add_sub_cancel_left]

@[simp] theorem sampleBytes_cons (sample : Sample) (rest : List Sample) :
    sampleBytes (sample :: rest) = Bytes.littleEndian 4 sample.toNat ++ sampleBytes rest := rfl

theorem length_sampleBytes (samples : List Sample) :
    (sampleBytes samples).length = samples.length * 4 := by
  induction samples with
  | nil => rfl
  | cons sample rest ih =>
    rw [sampleBytes_cons, List.length_append, Bytes.length_littleEndian, ih, List.length_cons]
    omega

/-- Samples that have been laid out are read back. -/
theorem ofPlane_sampleBytes {samples : List Sample} {k : Nat} {sample : Sample}
    (there : samples[k]? = some sample) :
    Sample.ofPlane .flt (sampleBytes samples) k = sample := by
  induction samples generalizing k with
  | nil => cases there
  | cons first rest ih =>
    cases k with
    | zero =>
      cases there
      have width : (Bytes.littleEndian 4 sample.toNat).length = 4 := Bytes.length_littleEndian ..
      show UInt32.ofNat
        (Bytes.littleValue (((sampleBytes (sample :: rest)).drop (0 * 4)).take 4)) = _
      rw [Nat.zero_mul, List.drop_zero, sampleBytes_cons, List.take_left' width,
        Bytes.littleValue_littleEndian,
        Nat.mod_eq_of_lt (show sample.toNat < 256 ^ 4 from sample.toNat_lt), UInt32.ofNat_toNat]
    | succ k =>
      have width : (Bytes.littleEndian 4 first.toNat).length = 4 := Bytes.length_littleEndian ..
      have behind : (sampleBytes (first :: rest)).drop ((k + 1) * 4) =
          (sampleBytes rest).drop (k * 4) := by
        rw [sampleBytes_cons, Nat.succ_mul, Nat.add_comm, ← List.drop_drop, List.drop_left' width]
      rw [← ih there]
      show Sample.decode .flt (((sampleBytes (first :: rest)).drop ((k + 1) * 4)).take 4) = _
      rw [behind]
      rfl

/-! ## Conversion -/

/-- A packed frame with one plane is checked by the length of that plane. -/
theorem check_of_packed {frame : Frame} {plane : Bytes} (packed : frame.format.isPlanar = false)
    (planes : frame.planes = [plane])
    (long : frame.totalSamples * frame.format.size ≤ plane.length) : frame.check = .ok () := by
  have count : frame.planeCount = 1 := by rw [planeCount, packed]; rfl
  have bytes : frame.planeBytes = frame.totalSamples * frame.format.size := by
    rw [planeBytes, packed]
    rfl
  unfold check
  rw [count, bytes, planes, if_neg (by simp)]
  have none : firstShort? (frame.totalSamples * frame.format.size) 0 ([plane].take 1) = none := by
    show (if plane.length < _ then _ else _) = _
    rw [if_neg (by omega)]
    rfl
  rw [none]

/-- The frame of a packed plane in 32-bit floating point: every position has been converted, and
everything else is as it was. -/
structure Converts (frame singles : Frame) (plane : Bytes) : Prop where
  sampleCount : singles.sampleCount = frame.sampleCount
  rate : singles.rate = frame.rate
  channels : singles.channels = frame.channels
  pts : singles.pts = frame.pts
  format : singles.format = .flt
  plane : ∃ converted, singles.planes = [converted] ∧
    singles.totalSamples * 4 ≤ converted.length ∧
    ∀ k < frame.totalSamples, Sample.ofPlane .flt converted k = Sample.ofPlane frame.format plane k

/-- A converted frame passes its check. -/
theorem Converts.check {frame singles : Frame} {plane : Bytes}
    (h : frame.Converts singles plane) : singles.check = .ok () := by
  obtain ⟨converted, planes, long, -⟩ := h.plane
  refine check_of_packed ?_ planes ?_
  · rw [h.format]
    rfl
  · rw [h.format]
    exact long

/-- A packed frame of a known format whose plane is long enough can be converted. -/
theorem toSingles_of_packed {frame : Frame} {plane : Bytes} (known : frame.format ≠ .unknown)
    (packed : frame.format.isPlanar = false) (planes : frame.planes = [plane])
    (long : frame.totalSamples * frame.format.size ≤ plane.length) :
    ∃ singles, frame.toSingles = .ok singles ∧ frame.Converts singles plane := by
  by_cases already : frame.format = .flt
  · -- The frame is its own conversion.
    refine ⟨frame, by rw [toSingles, if_pos already], rfl, rfl, rfl, rfl, already, plane, planes,
      ?_, ?_⟩
    · rw [already] at long
      exact long
    · intro k _
      rw [already]
  · -- Every position is decoded on its own.
    have converted : frame.singles =
        .ok ((List.range frame.totalSamples).map (Sample.ofPlane frame.format plane)) := by
      unfold singles
      rw [if_neg known]
      simp only [check_of_packed packed planes long, packed, Bool.false_eq_true, if_false, planes,
        List.headD_cons, decode_sampleAt]
    refine ⟨
      { frame with
        planes := [sampleBytes
          ((List.range frame.totalSamples).map (Sample.ofPlane frame.format plane))]
        format := .flt },
      ?_, rfl, rfl, rfl, rfl, rfl, _, rfl, ?_, ?_⟩
    · rw [toSingles, if_neg already, converted]
      rfl
    · rw [length_sampleBytes, List.length_map, List.length_range]
      exact Nat.le_refl _
    · intro k inside
      apply ofPlane_sampleBytes
      rw [List.getElem?_map, List.getElem?_range inside]
      rfl

end Frame

end VorbisTrack
