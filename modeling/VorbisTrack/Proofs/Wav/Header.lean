import VorbisTrack.Proofs.Frame.Singles
import VorbisTrack.Wav.Demuxer

/-!
# What the header of a WAVE file guarantees

Every format chunk is checked when it is read, so a header that could be read has a format whose
numbers go together: a sample over all channels takes as many bytes as its channels take one by
one. Reading ends where the sample data starts.
-/

set_option autoImplicit false

namespace VorbisTrack

namespace Reader

/-! ## Standing at a position -/

/-- The reader stands at a place of a file with these bytes, and will read what follows there. -/
structure StandsAt (r : Reader) (content : Bytes) (place : Nat) : Prop where
  bytes : r.bytes = content
  position : r.position = place
  rest : r.rest = content.drop place

variable {r r' : Reader} {content : Bytes} {place count : Nat}

theorem standsAt_start (content : Bytes) : StandsAt { bytes := content } content 0 :=
  ⟨rfl, rfl, rfl⟩

theorem StandsAt.seek (h : r.StandsAt content place) (target : Nat) :
    (r.seek target).StandsAt content target :=
  ⟨h.bytes, rfl, by rw [rest_seek, h.bytes]⟩

/-- A read that succeeds gives the bytes at the place and moves past them. -/
theorem StandsAt.of_read (h : r.StandsAt content place) {got : Bytes}
    (reading : r.read count = (some got, r')) :
    got = (content.drop place).take count ∧ got.length = count ∧
      r'.StandsAt content (place + count) := by
  obtain ⟨next, full, moved⟩ := read_eq_some (congrArg Prod.fst reading)
  have behind := r.rest_read count
  rw [reading] at moved behind
  rw [h.rest] at next behind
  rw [List.drop_drop] at behind
  refine ⟨next, full, (position_le_of_read reading).1.trans h.bytes, ?_, behind⟩
  rw [moved, h.position]

end Reader

namespace Wav

namespace Format

structure IsSound (f : Format) : Prop where
  channels : 0 < f.channels.toNat
  rate : 0 < f.rate.toNat
  bits : 0 < f.sampleBits.toNat
  bytes : f.sampleBits.toNat % 8 = 0
  blockAlign : f.blockAlign.toNat = f.channels.toNat * (f.sampleBits.toNat / 8)

theorem isSound_of_check {f : Format} (checked : f.check = .ok ()) : f.IsSound := by
  -- One check after the other.
  unfold check at checked
  by_cases channels : f.channels = 0
  · rw [if_pos channels] at checked
    cases checked
  · rw [if_neg channels] at checked
    by_cases rate : f.rate = 0
    · rw [if_pos rate] at checked
      cases checked
    · rw [if_neg rate] at checked
      by_cases bits : f.sampleBits = 0 ∨ f.sampleBits % 8 ≠ 0
      · rw [if_pos bits] at checked
        cases checked
      · rw [if_neg bits] at checked
        unfold expectedBlockAlign at checked
        by_cases fits : f.channels.toNat * (f.sampleBits.toNat / 8) < 2 ^ 16
        · simp only [fits, if_true] at checked
          split at checked
          · cases checked
          · next same =>
            rw [not_or, Decidable.not_not] at bits
            rw [Decidable.not_not] at same
            have whole : (f.sampleBits % 8).toNat = 0 := by rw [bits.2]; rfl
            rw [UInt16.toNat_mod] at whole
            refine ⟨?_, ?_, ?_, whole, ?_⟩
            · exact Nat.pos_of_ne_zero fun none => channels (UInt16.toNat_inj.mp none)
            · exact Nat.pos_of_ne_zero fun none => rate (UInt32.toNat_inj.mp none)
            · exact Nat.pos_of_ne_zero fun none => bits.1 (UInt16.toNat_inj.mp none)
            · rw [same, UInt16.toNat_ofNat_of_lt' fits]
        · simp only [fits, if_false] at checked
          cases checked

/-- The samples of a format that can be decoded alternate in one plane, and one of them takes the
bytes that its bits need. -/
theorem samples_of_size_ne_zero {f : Format} (known : f.samples.size ≠ 0) :
    f.samples.isPlanar = false ∧ f.samples.size = f.sampleBits.toNat / 8 := by
  -- Only these widths have a known format. Any other has samples of size zero.
  unfold samples at known ⊢
  split
  · by_cases byte : f.sampleBits = 8
    · simp [byte, SampleFormat.isPlanar, SampleFormat.size]
    · by_cases short : f.sampleBits = 16
      · simp [short, SampleFormat.isPlanar, SampleFormat.size]
      · by_cases long : f.sampleBits = 32
        · simp [long, SampleFormat.isPlanar, SampleFormat.size]
        · simp_all [SampleFormat.size]
  · by_cases single : f.sampleBits = 32
    · simp [single, SampleFormat.isPlanar, SampleFormat.size]
    · by_cases double : f.sampleBits = 64
      · simp [double, SampleFormat.isPlanar, SampleFormat.size]
      · simp_all [SampleFormat.size]
  · simp_all [SampleFormat.size]

end Format

/-! ## Chunk headers -/

theorem Format.word_take {bytes : Bytes} {offset count : Nat} (inside : offset + 4 ≤ count) :
    word (bytes.take count) offset = word bytes offset := by
  rw [word, word, List.drop_take, List.take_take, Nat.min_eq_left (by omega)]

theorem ChunkHeader.of_ofBytes? {bytes : Bytes} {chunk : ChunkHeader}
    (found : ofBytes? bytes = some chunk) :
    chunk.name = bytes.take 4 ∧ chunk.size = Format.word bytes 4 := by
  unfold ofBytes? at found
  split at found
  · cases found
  · cases found
    exact ⟨rfl, rfl⟩

namespace Header

/-! ## Where reading stops -/

def statedSize (h : Header) (bytes : Bytes) : UInt32 :=
  Format.word (bytes.drop (h.dataStart - ChunkHeader.length)) 4

/-- The count of bytes that a stated data size stands for if so many are left of the file. -/
def settledSize (stated : UInt32) (left : Nat) : Nat :=
  if stated = 0 ∨ stated = 0xFFFFFFFF then min left 0xFFFFFFFF else stated.toNat

/-- Settling the size leaves the reader where it is, although it may go to the end of the file. -/
theorem settleSize_of_standsAt {r : Reader} {content : Bytes} {place : Nat}
    (stands : r.StandsAt content place) (stated : UInt32) :
    (settleSize stated r).1.toNat = settledSize stated (content.length - place) ∧
      (settleSize stated r).2.StandsAt content place := by
  unfold settleSize settledSize
  by_cases unset : stated = 0 ∨ stated = 0xFFFFFFFF
  · rw [if_pos unset, if_pos unset]
    constructor
    · show (UInt32.ofNat (min (r.bytes.length - r.position) 0xFFFFFFFF)).toNat = _
      rw [stands.bytes, stands.position]
      apply UInt32.toNat_ofNat_of_lt'
      rw [show UInt32.size = 2 ^ 32 from rfl]
      omega
    · have back := (stands.seek r.bytes.length).seek r.position
      rwa [stands.position] at back ⊢
  · rw [if_neg unset, if_neg unset]
    exact ⟨rfl, stands⟩

/-- What a header that could be read guarantees. -/
structure IsReadFrom (h : Header) (content : Bytes) (r : Reader) : Prop where
  checked : h.format.check = .ok ()
  stands : r.StandsAt content h.dataStart
  inside : h.dataStart ≤ content.length
  size : h.dataSize.toNat = settledSize (h.statedSize content) (content.length - h.dataStart)

/-- What reading the chunks up to the data chunk gives: a format that has been checked, the size
that the data chunk states, and a reader of the same file that stands where the sample data
starts. -/
theorem isReadFrom_of_readChunks {format : Option Format} {r r' : Reader} {h : Header}
    {content : Bytes} {place : Nat} (stands : r.StandsAt content place)
    (checked : ∀ f, format = some f → f.check = .ok ())
    (found : readChunks format r = .ok (h, r')) : h.IsReadFrom content r' := by
  -- Three cases give no failure: reading a format chunk, coming to the data, and passing another
  -- chunk over.
  fun_induction readChunks format r generalizing place with
  | case6 format r _ _ reading _ _ _ body _ following found' _ sound ih =>
    obtain ⟨-, -, further⟩ := stands.of_read reading
    obtain ⟨-, -, behind⟩ := further.of_read following
    exact ih (behind.seek _) (by rintro f ⟨⟩; exact sound) found
  | case8 r front r'' reading chunk headed _ _ format dataSize ready settled =>
    cases found
    obtain ⟨taken, full, further⟩ := stands.of_read reading
    obtain ⟨size, still⟩ := settleSize_of_standsAt further chunk.size
    rw [settled] at size still
    have stated : Format.word (content.drop (place + ChunkHeader.length - ChunkHeader.length)) 4 =
        chunk.size := by
      rw [(ChunkHeader.of_ofBytes? headed).2, taken, Format.word_take (by decide),
        Nat.add_sub_cancel]
    rw [further.position]
    refine ⟨checked _ rfl, still, ?_, ?_⟩
    · rw [taken, List.length_take, List.length_drop, ChunkHeader.length] at full
      show place + ChunkHeader.length ≤ _
      rw [ChunkHeader.length]
      omega
    · rw [statedSize, stated]
      exact size
  | case9 format r _ r'' reading _ _ _ _ ih =>
    obtain ⟨-, -, further⟩ := stands.of_read reading
    exact ih (further.seek _) checked found
  | _ => cases found

theorem isReadFrom_of_read {content : Bytes} {r : Reader} {h : Header}
    (found : read content = .ok (h, r)) : h.IsReadFrom content r := by
  unfold read at found
  split at found
  · cases found
  · next start r' reading =>
    split at found
    · cases found
    · split at found
      · cases found
      · obtain ⟨-, -, stands⟩ := (Reader.standsAt_start content).of_read reading
        exact isReadFrom_of_readChunks stands (fun _ none => by cases none) found

/-- The sample data is present if its size is unset or no more than what follows. -/
theorem IsReadFrom.present {h : Header} {content : Bytes} {r : Reader}
    (found : h.IsReadFrom content r)
    (complete : h.statedSize content = 0 ∨ h.statedSize content = 0xFFFFFFFF ∨
      h.dataStart + (h.statedSize content).toNat ≤ content.length) :
    h.dataStart + h.dataSize.toNat ≤ content.length := by
  have inside := found.inside
  rw [found.size, settledSize]
  split
  · omega
  · next set_ =>
    rw [not_or] at set_
    rcases complete with unset | unset | complete
    · exact absurd unset set_.1
    · exact absurd unset set_.2
    · exact complete

/-- The sample data of a file can be decoded: its samples alternate in one plane. -/
structure IsDecodable (h : Header) : Prop where
  channels : 0 < h.format.channels.toNat
  rate : 0 < h.format.rate.toNat
  known : h.format.samples ≠ .unknown
  packed : h.format.samples.isPlanar = false
  size : 0 < h.format.samples.size
  blockAlign : h.format.blockAlign.toNat = h.format.channels.toNat * h.format.samples.size

theorem IsDecodable.blockAlign_pos {h : Header} (decodable : h.IsDecodable) :
    0 < h.format.blockAlign.toNat := by
  rw [decodable.blockAlign]
  exact Nat.mul_pos decodable.channels decodable.size

theorem isDecodable_of_check {h : Header} (checked : h.format.check = .ok ())
    (supported : h.isSupported = true) : h.IsDecodable := by
  have sound := Format.isSound_of_check checked
  rw [isSupported, Bool.and_eq_true] at supported
  have known : h.format.samples.size ≠ 0 := by simpa using supported.2
  obtain ⟨packed, size⟩ := Format.samples_of_size_ne_zero known
  refine ⟨sound.channels, sound.rate, ?_, packed, Nat.pos_of_ne_zero known, ?_⟩
  · intro unknown
    rw [unknown] at known
    exact known rfl
  · rw [size]
    exact sound.blockAlign

theorem sampleCount_lt (h : Header) : h.sampleCount < 2 ^ 32 :=
  Nat.lt_of_le_of_lt (Nat.div_le_self ..) h.dataSize.toNat_lt

/-- All samples lie in the sample data. -/
theorem sampleCount_mul_le (h : Header) :
    h.sampleCount * h.format.blockAlign.toNat ≤ h.dataSize.toNat :=
  Nat.div_mul_le_self ..

/-- The sample data has no room for another sample. -/
theorem IsDecodable.lt_sampleCount_succ_mul {h : Header} (decodable : h.IsDecodable) :
    h.dataSize.toNat < (h.sampleCount + 1) * h.format.blockAlign.toNat :=
  (Nat.div_lt_iff_lt_mul decodable.blockAlign_pos).mp (Nat.lt_succ_self _)

def sample (h : Header) (bytes : Bytes) (channel i : Nat) : Sample :=
  .ofPlane h.format.samples (bytes.drop h.dataStart) (i * h.format.channels.toNat + channel)

end Header

end Wav

end VorbisTrack
