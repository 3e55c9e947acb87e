import VorbisTrack.Proofs.Frame.Layout

/-!
# Conversion interleaves the channels

A conversion to 32-bit floating point goes from position to position and, at each of them, from
channel to channel (`Frame.order`). A frame of a known format is converted exactly if it passes its
check, and then the result has one sample for every channel at every position, each decoded from the
bytes that lie there (`Frame.ConvertsWhole`). So frames that hold the same samples are converted to
the same list, however they lay them out.

Converting to a frame comes down to this, except for packed 32-bit floating point: such a frame is
handed back without a check, so it may not be one that could be converted (`Frame.Packs`).
-/

set_option autoImplicit false

namespace VorbisTrack

def SampleFormat.packed : SampleFormat → SampleFormat
  | .u8p => .u8
  | .s16p => .s16
  | .s32p => .s32
  | .fltp => .flt
  | .dblp => .dbl
  | format => format

theorem SampleFormat.packed_eq_unknown_iff {format : SampleFormat} :
    format.packed = .unknown ↔ format = .unknown := by
  cases format <;> decide

/-- What a sample is decoded to does not depend on where it lies. -/
theorem Sample.decode_packed (format : SampleFormat) : decode format.packed = decode format := by
  cases format <;> rfl

/-- Going through rows of one width is going through all places in order. -/
theorem map_range_mul {α : Type} (f : Nat → α) (rows width : Nat) :
    (List.range (rows * width)).map f =
      (List.range rows).flatMap fun i => (List.range width).map fun c => f (i * width + c) := by
  induction rows with
  | zero => rw [Nat.zero_mul]; rfl
  | succ rows ih =>
    rw [Nat.succ_mul, List.range_add, List.map_append, ih, List.range_succ, List.flatMap_append,
      List.flatMap_singleton, List.map_map]
    rfl

/-- The first items of a list are found at the first places. -/
theorem take_eq_map_getD {α : Type} {items : List α} {count : Nat} (enough : count ≤ items.length)
    (default : α) : items.take count = (List.range count).map fun k => items.getD k default := by
  apply List.ext_getElem
  · rw [List.length_take, List.length_map, List.length_range, Nat.min_eq_left enough]
  · intro k there _
    rw [List.length_take] at there
    rw [List.getElem_take, List.getElem_map, List.getElem_range, List.getD_eq_getElem?_getD,
      List.getElem?_eq_getElem (by omega), Option.getD_some]

/-- A walk in which every step finds its item collects these items. -/
theorem mapM_eq_some_map {α β : Type} {find : α → Option β} {item : α → β} {places : List α}
    (found : ∀ place ∈ places, find place = some (item place)) :
    places.mapM find = some (places.map item) := by
  induction places with
  | nil => rfl
  | cons place rest ih =>
    rw [List.mapM_cons, found place (List.mem_cons_self ..),
      ih fun other member => found other (List.mem_cons_of_mem _ member)]
    rfl

namespace Frame

variable {frame : Frame}

/-- The channels and positions of a frame in the order in which samples are converted. -/
def order (frame : Frame) : List (Nat × Nat) :=
  (List.range frame.sampleCount).flatMap fun i =>
    (List.range frame.channels.toNat).map fun channel => (channel, i)

/-- The sample of a channel at a position, if the plane is there and the bytes lie inside of it. -/
def sample? (frame : Frame) (channel position : Nat) : Option Sample :=
  match frame.planes[if frame.format.isPlanar then channel else 0]? with
  | none => none
  | some plane =>
    if (frame.placeOf channel position + 1) * frame.format.size ≤ plane.length then
      some (.ofPlane frame.format plane (frame.placeOf channel position))
    else none

/-- The samples of all channels, position by position. -/
structure IsInterleaved (frame : Frame) (samples : List Sample) : Prop where
  length : samples.length = frame.sampleCount * frame.channels.toNat
  sample : ∀ i < frame.sampleCount, ∀ channel < frame.channels.toNat,
    (frame.bytesOf channel i).length = frame.format.size ∧
      samples[i * frame.channels.toNat + channel]? =
        some (.decode frame.format (frame.bytesOf channel i))

/-- Two frames hold the same samples of the same width, however they lay them out and whatever else
is in their planes. -/
structure HoldsSame (frame other : Frame) : Prop where
  format : other.format.packed = frame.format.packed
  check : frame.check = .ok () ∧ other.check = .ok ()
  sampleCount : other.sampleCount = frame.sampleCount
  channels : other.channels = frame.channels
  samples : ∀ channel < frame.channels.toNat, ∀ i < frame.sampleCount,
    other.bytesOf channel i = frame.bytesOf channel i

/-! ## The order of a conversion -/

def decoded (frame : Frame) : List Sample :=
  frame.order.map fun place => .decode frame.format (frame.bytesOf place.1 place.2)

theorem mem_order {channel position : Nat} :
    (channel, position) ∈ frame.order ↔
      channel < frame.channels.toNat ∧ position < frame.sampleCount := by
  simp only [order, List.mem_flatMap, List.mem_map, List.mem_range, Prod.mk.injEq]
  constructor
  · rintro ⟨i, inside, c, inRange, rfl, rfl⟩
    exact ⟨inRange, inside⟩
  · rintro ⟨inRange, inside⟩
    exact ⟨position, inside, channel, inRange, rfl, rfl⟩

/-- The order is that of the places of a packed frame. -/
theorem order_eq (frame : Frame) :
    frame.order = (List.range frame.totalSamples).map fun k =>
      (k % frame.channels.toNat, k / frame.channels.toNat) := by
  rw [totalSamples, map_range_mul, order, List.flatMap_def, List.flatMap_def]
  congr 1
  apply List.map_congr_left
  intro i _
  apply List.map_congr_left
  intro channel member
  have inRange := List.mem_range.mp member
  rw [Nat.mul_add_mod_self_right, Nat.mod_eq_of_lt inRange, Nat.mul_comm,
    Nat.mul_add_div (by omega), Nat.div_eq_of_lt inRange, Nat.add_zero]

theorem length_decoded (frame : Frame) : frame.decoded.length = frame.totalSamples := by
  rw [decoded, List.length_map, order_eq, List.length_map, List.length_range]

theorem getElem?_decoded {channel i : Nat} (inRange : channel < frame.channels.toNat)
    (inside : i < frame.sampleCount) :
    frame.decoded[i * frame.channels.toNat + channel]? =
      some (.decode frame.format (frame.bytesOf channel i)) := by
  rw [decoded, List.getElem?_map, order_eq, List.getElem?_map,
    List.getElem?_range (show _ < frame.totalSamples from position_lt inside inRange),
    Option.map_some, Option.map_some,
    Nat.mul_add_mod_self_right, Nat.mod_eq_of_lt inRange, Nat.mul_comm,
    Nat.mul_add_div (by omega), Nat.div_eq_of_lt inRange, Nat.add_zero]

theorem decoded_congr {other : Frame} (h : frame.HoldsSame other) :
    other.decoded = frame.decoded := by
  have order : other.order = frame.order := by
    rw [order, order, h.sampleCount, h.channels]
  have decode : Sample.decode other.format = Sample.decode frame.format := by
    rw [← Sample.decode_packed, h.format, Sample.decode_packed]
  rw [decoded, decoded, order, decode]
  apply List.map_congr_left
  rintro ⟨channel, i⟩ member
  obtain ⟨inRange, inside⟩ := mem_order.mp member
  rw [h.samples channel inRange i inside]

/-! ## Conversion -/

/-- A frame of a known format that passes its check is converted in order. -/
theorem singles_eq (known : frame.format ≠ .unknown) (h : frame.check = .ok ()) :
    frame.singles = .ok frame.decoded := by
  obtain ⟨planes, -⟩ := le_length_of_check h
  unfold singles
  rw [if_neg known]
  simp only [h]
  split
  · next planar =>
    rw [planeCount, if_pos planar] at planes
    have row (i : Nat) :
        ((frame.planes.take frame.channels.toNat).map List.toArray).map
            (fun plane => Sample.decode frame.format (sampleAt plane frame.format.size i)) =
          (List.range frame.channels.toNat).map
            fun channel => Sample.decode frame.format (frame.bytesOf channel i) := by
      rw [take_eq_map_getD planes [], List.map_map, List.map_map]
      apply List.map_congr_left
      intro channel _
      simp only [Function.comp_apply, decode_sampleAt, bytesOf, planeOf, placeOf, if_pos planar]
      rfl
    simp only [row, decoded, order, List.map_flatMap, List.map_map]
    rfl
  · next packed =>
    simp only [decode_sampleAt, decoded, order_eq, List.map_map]
    congr 1
    apply List.map_congr_left
    intro k _
    simp only [Function.comp_apply, bytesOf, planeOf, placeOf, if_neg packed, Nat.div_add_mod']
    rfl

theorem singles_of_unknown (unknown : frame.format = .unknown) :
    frame.singles = .error .unknownSampleFormat := by
  rw [singles, if_pos unknown]

theorem singles_of_error {failure : Failure} (known : frame.format ≠ .unknown)
    (h : frame.check = .error failure) : frame.singles = .error failure := by
  unfold singles
  rw [if_neg known]
  simp only [h]

/-- Exactly the frames that pass their check are converted. -/
theorem singles_eq_ok_iff (known : frame.format ≠ .unknown) :
    (∃ samples, frame.singles = .ok samples) ↔ frame.check = .ok () := by
  constructor
  · rintro ⟨samples, converted⟩
    cases checked : frame.check with
    | ok => rfl
    | error failure =>
      rw [singles_of_error known checked] at converted
      cases converted
  · intro checked
    exact ⟨_, singles_eq known checked⟩

/-- What is converted has been checked, and its samples have been decoded in order. -/
theorem of_singles {samples : List Sample} (converted : frame.singles = .ok samples) :
    frame.check = .ok () ∧ samples = frame.decoded := by
  by_cases unknown : frame.format = .unknown
  · rw [singles_of_unknown unknown] at converted
    cases converted
  · have checked := (singles_eq_ok_iff unknown).mp ⟨samples, converted⟩
    rw [singles_eq unknown checked] at converted
    cases converted
    exact ⟨checked, rfl⟩

/-- A frame that passes its check has every sample inside of its plane. -/
theorem sample?_eq (h : frame.check = .ok ()) {channel position : Nat}
    (inRange : channel < frame.channels.toNat) (inside : position < frame.sampleCount) :
    frame.sample? channel position =
      some (.decode frame.format (frame.bytesOf channel position)) := by
  have room := placeOf_le_length h inRange inside
  obtain ⟨planes, -⟩ := le_length_of_check h
  -- The plane is there, since the frame has as many as its format asks for.
  have there : frame.planes[if frame.format.isPlanar then channel else 0]? =
      some (frame.planeOf channel) := by
    rw [planeCount] at planes
    rw [planeOf]
    split
    · next planar =>
      rw [if_pos planar] at planes
      rw [List.getD_eq_getElem?_getD, List.getElem?_eq_getElem (by omega), Option.getD_some]
    · next packed =>
      rw [if_neg packed] at planes
      rw [List.headD_eq_head?_getD, List.head?_eq_getElem?,
        List.getElem?_eq_getElem (by omega), Option.getD_some]
  rw [sample?, there]
  simp only
  rw [if_pos (by rw [Nat.succ_mul]; exact room)]
  rfl

/-- Reading every sample at its place never goes outside of a plane, and finds what is converted. -/
theorem mapM_sample? (h : frame.check = .ok ()) :
    (frame.order.mapM fun place => frame.sample? place.1 place.2) = some frame.decoded := by
  apply mapM_eq_some_map
  rintro ⟨channel, position⟩ member
  obtain ⟨inRange, inside⟩ := mem_order.mp member
  exact sample?_eq h inRange inside

theorem isInterleaved_decoded (h : frame.check = .ok ()) : frame.IsInterleaved frame.decoded where
  length := length_decoded frame
  sample _ inside _ inRange := ⟨length_bytesOf h inRange inside, getElem?_decoded inRange inside⟩

theorem singles_eq_of_holdsSame {other : Frame} (h : frame.HoldsSame other) :
    other.singles = frame.singles := by
  by_cases unknown : frame.format = .unknown
  · have unknown' : other.format = .unknown := by
      rw [← SampleFormat.packed_eq_unknown_iff, h.format, unknown]
      rfl
    rw [singles_of_unknown unknown, singles_of_unknown unknown']
  · have known : other.format ≠ .unknown := by
      rwa [ne_eq, ← SampleFormat.packed_eq_unknown_iff, h.format,
        SampleFormat.packed_eq_unknown_iff]
    rw [singles_eq unknown h.check.1, singles_eq known h.check.2, decoded_congr h]

/-! ## Packed floating point -/

/-- A packed plane that samples have been laid out in is converted back to them, up to the last
position that is counted. -/
theorem singles_of_sampleBytes (frame : Frame) {samples : List Sample}
    (format : frame.format = .flt) (planes : frame.planes = [sampleBytes samples])
    (enough : frame.totalSamples ≤ samples.length) :
    frame.check = .ok () ∧ frame.singles = .ok (samples.take frame.totalSamples) := by
  have packed : frame.format.isPlanar = false := by rw [format]; rfl
  have checked : frame.check = .ok () := by
    apply check_of_packed packed planes
    rw [length_sampleBytes, format]
    exact Nat.mul_le_mul_right 4 enough
  refine ⟨checked, ?_⟩
  unfold singles
  rw [if_neg (by rw [format]; decide), take_eq_map_getD enough 0]
  simp only [checked, packed, Bool.false_eq_true, if_false, planes, List.headD_cons,
    decode_sampleAt]
  congr 1
  apply List.map_congr_left
  intro k member
  have inside := List.mem_range.mp member
  rw [format]
  apply ofPlane_sampleBytes
  rw [List.getD_eq_getElem?_getD, List.getElem?_eq_getElem (by omega), Option.getD_some]

/-- A beginning of samples that is as long as it can be with a multiple of `width` samples. -/
structure IsWholePart (width : Nat) (samples part : List Sample) : Prop where
  start : part <+: samples
  whole : width ∣ part.length
  longest : ∀ other : List Sample, other <+: samples → width ∣ other.length → other <+: part

theorem isWholePart_take {width : Nat} (positive : 0 < width) (samples : List Sample) :
    IsWholePart width samples (samples.take (samples.length / width * width)) := by
  have length : (samples.take (samples.length / width * width)).length =
      samples.length / width * width := by
    rw [List.length_take, Nat.min_eq_left (Nat.div_mul_le_self ..)]
  refine ⟨List.take_prefix .., by rw [length]; exact Nat.dvd_mul_left .., ?_⟩
  rintro other start ⟨rows, size⟩
  apply List.prefix_of_prefix_length_le start (List.take_prefix ..)
  have within := start.length_le
  rw [size, Nat.mul_comm, ← Nat.le_div_iff_mul_le positive] at within
  rw [length, size, Nat.mul_comm]
  exact Nat.mul_le_mul_right width within

structure ConvertsWhole (frame : Frame) : Prop where
  succeeds : (∃ samples, frame.singles = .ok samples) ↔ frame.check = .ok ()
  /-- What the check asks for is found by words, if there is a word for it. -/
  words : frame.planeBytes < 2 ^ 64 → frame.planeWord.toNat = frame.planeBytes
  bounded : frame.check = .ok () →
    frame.totalSamples * frame.format.size ≤ (frame.planes.map List.length).sum
  /-- Reading the samples one by one, every one of them lies inside of its plane. -/
  inside : frame.check = .ok () →
    (frame.order.mapM fun place => frame.sample? place.1 place.2) = frame.singles.toOption
  interleaved : ∀ samples, frame.singles = .ok samples → frame.IsInterleaved samples
  /-- How the samples are laid out cannot be seen any more. -/
  same : ∀ other, frame.HoldsSame other → other.singles = frame.singles

/-- **Conversion is complete and knows no layout.** Every frame of a known format is converted
exactly if it passes its check, from inside of its planes, and to the samples of all channels,
position by position. What is packed from samples with alternating channels is converted back to
them, bit for bit, up to an incomplete last position. -/
theorem singles_convertWhole :
    (∀ frame : Frame, frame.format ≠ .unknown → frame.ConvertsWhole) ∧
      ∀ (samples : List Sample) (rate : UInt32) (channels : UInt16), 0 < channels.toNat →
        ∃ whole, (ofInterleaved samples rate channels).singles = .ok whole ∧
          IsWholePart channels.toNat samples whole := by
  constructor
  · intro frame known
    refine ⟨singles_eq_ok_iff known, ?_, totalBytes_le_of_check, ?_, ?_,
      fun _ => singles_eq_of_holdsSame⟩
    · intro room
      rw [toNat_planeWord, Nat.mod_eq_of_lt room]
    · intro checked
      rw [mapM_sample? checked, singles_eq known checked]
      rfl
    · intro samples converted
      obtain ⟨checked, rfl⟩ := of_singles converted
      exact isInterleaved_decoded checked
  · intro samples rate channels positive
    refine ⟨_, ?_, isWholePart_take positive samples⟩
    exact (singles_of_sampleBytes (ofInterleaved samples rate channels) rfl rfl
      (Nat.div_mul_le_self ..)).2

/-- Two positions of two channels, packed, with a byte too many. -/
def packedPair : Frame :=
  { planes := [[0, 64, 0, 192, 255, 127, 0, 128, 9]]
    sampleCount := 2
    rate := 8000
    channels := 2
    format := .s16 }

/-- The same samples in planes, of which there is one too many. -/
def planarPair : Frame :=
  { packedPair with
    planes := [[0, 64, 255, 127, 1], [0, 192, 0, 128], [5]]
    format := .s16p }

theorem singles_convertWhole_pair :
    packedPair.ConvertsWhole ∧ packedPair.HoldsSame planarPair ∧
      planarPair.singles.toOption = some [0x3f000000, 0xbf000000, 0x3f7ffe00, 0xbf800000] ∧
      planarPair.singles = packedPair.singles ∧
      ∃ whole, (ofInterleaved [1, 2, 3, 4, 5] 8000 2).singles = .ok whole ∧
        IsWholePart 2 [1, 2, 3, 4, 5] whole := by
  have whole := singles_convertWhole.1 packedPair (by decide)
  have same : packedPair.HoldsSame planarPair :=
    ⟨rfl, ⟨rfl, rfl⟩, rfl, rfl, by decide +kernel⟩
  exact ⟨whole, same, by decide +kernel, whole.same _ same,
    singles_convertWhole.2 [1, 2, 3, 4, 5] 8000 2 (by decide)⟩

end Frame

end VorbisTrack
