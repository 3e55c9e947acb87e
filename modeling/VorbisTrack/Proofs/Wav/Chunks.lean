import VorbisTrack.Proofs.Wav.Header

/-!
# Files made of chunks

A `Chunk` is laid out as its name, the size of its body, the body, and a byte of padding if the body
has an odd size. Reading the header of a file passes over any row of sound chunks, takes the format
from the last format chunk among them, and stops behind the header of the data chunk
(`read_fileBytes`). The argument follows the reader: over one chunk (`readChunks_chunk`), over a row
of them (`readChunks_chunks`), and up to the data (`readChunks_data`).
-/

set_option autoImplicit false

namespace VorbisTrack

/-! ## Passing over bytes -/

namespace Reader

variable {r : Reader} {content front more : Bytes} {place : Nat}

theorem StandsAt.of_front (h : r.StandsAt content place) (next : r.rest = front ++ more) :
    content.drop (place + front.length) = more := by
  rw [← List.drop_drop, ← h.rest, next, List.drop_left]

/-- A read of just the next bytes gives them. -/
theorem StandsAt.read_front (h : r.StandsAt content place) (next : r.rest = front ++ more) :
    ∃ r', r.read front.length = (some front, r') ∧
      r'.StandsAt content (place + front.length) ∧ r'.rest = more := by
  have enough : front.length ≤ r.rest.length := by
    rw [next, List.length_append]
    exact Nat.le_add_right ..
  have reading : r.read front.length = (some front, (r.read front.length).2) := by
    refine Prod.ext ?_ rfl
    rw [read_of_le_length enough, next, List.take_left]
  obtain ⟨-, -, further⟩ := h.of_read reading
  exact ⟨_, reading, further, further.rest.trans (h.of_front next)⟩

/-- Going on behind the next bytes leaves what follows them. -/
theorem StandsAt.pass (h : r.StandsAt content place) (next : r.rest = front ++ more) :
    (r.seek (r.position + front.length)).StandsAt content (place + front.length) ∧
      (r.seek (r.position + front.length)).rest = more := by
  have further := h.seek (r.position + front.length)
  rw [h.position] at further ⊢
  exact ⟨further, further.rest.trans (h.of_front next)⟩

end Reader

namespace Wav

/-! ## Chunks -/

namespace ChunkHeader

theorem length_toBytes {c : ChunkHeader} (named : c.name.length = 4) :
    c.toBytes.length = length := by
  rw [toBytes, List.length_append, named, Bytes.length_littleEndian]
  rfl

/-- A header that has been laid out is read back. -/
theorem ofBytes?_toBytes {c : ChunkHeader} (named : c.name.length = 4) :
    ofBytes? c.toBytes = some c := by
  have size : Format.word c.toBytes 4 = c.size := by
    have all : (Bytes.littleEndian 4 c.size.toNat).take 4 = Bytes.littleEndian 4 c.size.toNat :=
      List.take_of_length_le (Nat.le_of_eq (Bytes.length_littleEndian ..))
    rw [Format.word, toBytes, List.drop_left' named, all, Bytes.littleValue_littleEndian,
      Nat.mod_eq_of_lt (show c.size.toNat < 256 ^ 4 from c.size.toNat_lt), UInt32.ofNat_toNat]
  have name : c.toBytes.take 4 = c.name := by rw [toBytes, List.take_left' named]
  rw [ofBytes?, if_neg (by rw [length_toBytes named]; omega), size, name]

end ChunkHeader

structure Chunk where
  name : Bytes
  body : Bytes
  /-- The byte behind a body of odd size. -/
  padding : UInt8 := 0
  length_name : name.length = 4
  length_body : body.length < 2 ^ 32

namespace Chunk

def header (c : Chunk) : ChunkHeader :=
  ⟨c.name, .ofNat c.body.length⟩

def pad (c : Chunk) : Bytes :=
  if c.body.length % 2 = 0 then [] else [c.padding]

/-- What is left of a chunk behind its header. -/
def paddedBody (c : Chunk) : Bytes :=
  c.body ++ c.pad

def toBytes (c : Chunk) : Bytes :=
  c.header.toBytes ++ c.paddedBody

/-- The chunk may stand in front of the data. It is no data chunk, and if it is a format chunk, its
body can be read and its numbers go together. -/
structure IsSound (c : Chunk) : Prop where
  notData : c.name ≠ dataName
  format : c.name = formatName → ∃ f, Format.ofBytes c.body = .ok f ∧ f.check = .ok ()

/-- The format that counts behind a chunk. -/
def formatAfter (format : Option Format) (c : Chunk) : Option Format :=
  if c.name = formatName then (Format.ofBytes c.body).toOption else format

theorem size_header (c : Chunk) : c.header.size.toNat = c.body.length :=
  UInt32.toNat_ofNat_of_lt' c.length_body

theorem length_pad (c : Chunk) : c.pad.length = c.body.length % 2 := by
  unfold pad
  split
  · next even => rw [even, List.length_nil]
  · next odd =>
    rw [List.length_singleton]
    omega

theorem length_paddedBody (c : Chunk) : c.paddedBody.length = c.header.paddedSize := by
  rw [paddedBody, List.length_append, length_pad, ChunkHeader.paddedSize, size_header]

/-- The format that counts behind a row of chunks is that of the last format chunk. -/
theorem foldl_formatAfter (chunks : List Chunk) (format : Option Format) :
    chunks.foldl formatAfter format =
      match (chunks.filter (·.name = formatName)).getLast? with
      | some last => (Format.ofBytes last.body).toOption
      | none => format := by
  induction chunks generalizing format with
  | nil => rfl
  | cons c rest ih =>
    rw [List.foldl_cons, ih]
    by_cases named : c.name = formatName
    · rw [List.filter_cons_of_pos (by simpa using named), List.getLast?_cons, formatAfter,
        if_pos named]
      cases (rest.filter (·.name = formatName)).getLast? with
      | none => rfl
      | some last => rfl
    · rw [List.filter_cons_of_neg (by simpa using named), formatAfter, if_neg named]

end Chunk

namespace Header

variable {r : Reader} {content more : Bytes} {place : Nat}

/-- Reading passes over a chunk and keeps its format. -/
theorem readChunks_chunk (format : Option Format) (stands : r.StandsAt content place) {c : Chunk}
    (sound : c.IsSound) (next : r.rest = c.toBytes ++ more) :
    ∃ r', r'.StandsAt content (place + c.toBytes.length) ∧ r'.rest = more ∧
      readChunks format r = readChunks (c.formatAfter format) r' := by
  rw [Chunk.toBytes, List.append_assoc] at next
  obtain ⟨r₁, reading, headed, facing⟩ := stands.read_front next
  rw [ChunkHeader.length_toBytes c.length_name] at reading
  have long : place + c.toBytes.length =
      place + c.header.toBytes.length + c.paddedBody.length := by
    rw [Chunk.toBytes, List.length_append, Nat.add_assoc]
  rw [long, readChunks]
  split
  · next missing =>
    rw [reading] at missing
    cases missing
  · next bytes r₂ again =>
    rw [reading] at again
    cases again
    simp only [ChunkHeader.ofBytes?_toBytes (c := c.header) c.length_name]
    by_cases named : c.name = formatName
    · -- The body of a format chunk is read, then its padding is passed over.
      obtain ⟨f, parsed, checked⟩ := sound.format named
      rw [Chunk.paddedBody, List.append_assoc] at facing
      obtain ⟨r₃, bodyRead, behindBody, facingPad⟩ := headed.read_front facing
      obtain ⟨further, behind⟩ := behindBody.pass facingPad
      rw [Chunk.length_pad] at further behind
      rw [Chunk.paddedBody, List.length_append, Chunk.length_pad, ← Nat.add_assoc]
      refine ⟨_, further, behind, ?_⟩
      rw [if_pos (show c.header.name = formatName from named), c.size_header, Chunk.formatAfter,
        if_pos named, parsed]
      split
      · next missing =>
        rw [bodyRead] at missing
        cases missing
      · next body r₄ again =>
        rw [bodyRead] at again
        cases again
        simp only [parsed, checked]
        rfl
    · -- The body of any other chunk is not looked at.
      obtain ⟨further, behind⟩ := headed.pass facing
      rw [Chunk.length_paddedBody] at further behind ⊢
      refine ⟨_, further, behind, ?_⟩
      rw [if_neg (show c.header.name ≠ formatName from named),
        if_neg (show c.header.name ≠ dataName from sound.notData), Chunk.formatAfter, if_neg named]

/-- Reading passes over a row of chunks. -/
theorem readChunks_chunks (chunks : List Chunk) (format : Option Format)
    (stands : r.StandsAt content place) (sound : ∀ c ∈ chunks, c.IsSound)
    (next : r.rest = chunks.flatMap Chunk.toBytes ++ more) :
    ∃ r', r'.StandsAt content (place + (chunks.flatMap Chunk.toBytes).length) ∧ r'.rest = more ∧
      readChunks format r = readChunks (chunks.foldl Chunk.formatAfter format) r' := by
  induction chunks generalizing format r place with
  | nil => exact ⟨r, stands, next, rfl⟩
  | cons c rest ih =>
    rw [List.flatMap_cons, List.append_assoc] at next
    obtain ⟨r₁, behind, facing, passed⟩ :=
      readChunks_chunk format stands (sound c (List.mem_cons_self ..)) next
    obtain ⟨r₂, further, facing', passedAll⟩ :=
      ih _ behind (fun c member => sound c (List.mem_cons_of_mem _ member)) facing
    refine ⟨r₂, ?_, facing', passed.trans passedAll⟩
    rw [List.flatMap_cons, List.length_append, ← Nat.add_assoc]
    exact further

/-- At the data chunk reading stops. -/
theorem readChunks_data (stands : r.StandsAt content place) {stated : UInt32}
    (next : r.rest = (ChunkHeader.mk dataName stated).toBytes ++ more) (f : Format) :
    ∃ h r', readChunks (some f) r = .ok (h, r') ∧ h.format = f ∧
      h.dataStart = place + ChunkHeader.length ∧
      h.dataSize.toNat = settledSize stated (content.length - h.dataStart) ∧
      r'.StandsAt content h.dataStart ∧ r'.rest = more := by
  obtain ⟨r₁, reading, headed, facing⟩ := stands.read_front next
  rw [ChunkHeader.length_toBytes rfl] at reading headed
  obtain ⟨size, still⟩ := settleSize_of_standsAt headed stated
  rw [readChunks]
  split
  · next missing =>
    rw [reading] at missing
    cases missing
  · next bytes r₂ again =>
    rw [reading] at again
    cases again
    simp only [ChunkHeader.ofBytes?_toBytes (c := ⟨dataName, stated⟩) rfl]
    rw [if_neg (by decide), if_pos trivial, headed.position]
    exact ⟨_, _, rfl, rfl, rfl, size, still, still.rest.trans (headed.rest.symm.trans facing)⟩

/-- The bytes of a WAVE file: a size that is not looked at, chunks, the header of a data chunk, and
anything behind it. -/
def fileBytes (size : Bytes) (chunks : List Chunk) (stated : UInt32) (rest : Bytes) : Bytes :=
  riffName ++ size ++ waveName ++
    (chunks.flatMap Chunk.toBytes ++ ((ChunkHeader.mk dataName stated).toBytes ++ rest))

/-- **Every well-formed file is read.** Chunks of any kind and size may stand in front of the data,
as long as one of them is a format chunk and each format chunk holds a format. The last one counts.
Reading stops where the data starts. Its size is the stated one, or all there is if that is
unset. -/
theorem read_fileBytes {size : Bytes} (four : size.length = 4) {chunks : List Chunk}
    (sound : ∀ c ∈ chunks, c.IsSound) (formatted : ∃ c ∈ chunks, c.name = formatName)
    (stated : UInt32) (rest : Bytes) :
    ∃ (h : Header) (r : Reader) (last : Chunk),
      read (fileBytes size chunks stated rest) = .ok (h, r) ∧
      (chunks.filter (·.name = formatName)).getLast? = some last ∧
      Format.ofBytes last.body = .ok h.format ∧
      h.dataStart = 12 + (chunks.flatMap Chunk.toBytes).length + 8 ∧
      h.dataSize.toNat = (if stated = 0 ∨ stated = 0xFFFFFFFF then
        min ((fileBytes size chunks stated rest).length - h.dataStart) 0xFFFFFFFF
        else stated.toNat) ∧
      r.position = h.dataStart ∧ r.bytes = fileBytes size chunks stated rest ∧ r.rest = rest := by
  obtain ⟨content, made⟩ : ∃ content, content = fileBytes size chunks stated rest := ⟨_, rfl⟩
  have twelve : (riffName ++ size ++ waveName).length = 12 := by
    rw [List.length_append, List.length_append, four]
    rfl
  obtain ⟨r₁, reading, started, facing⟩ :=
    (Reader.standsAt_start content).read_front (made.trans rfl)
  rw [twelve] at reading started
  -- When the data chunk comes, the last of the format chunks has been read.
  obtain ⟨c, member, named⟩ := formatted
  have listed : c ∈ chunks.filter (·.name = formatName) :=
    List.mem_filter.mpr ⟨member, decide_eq_true named⟩
  obtain ⟨last, latest⟩ : ∃ last, (chunks.filter (·.name = formatName)).getLast? = some last :=
    ⟨_, List.getLast?_eq_some_getLast (List.ne_nil_of_mem listed)⟩
  obtain ⟨member', named'⟩ := List.mem_filter.mp (List.mem_of_getLast? latest)
  obtain ⟨f, parsed, -⟩ := (sound last member').format (of_decide_eq_true named')
  have counts : chunks.foldl Chunk.formatAfter none = some f := by
    rw [Chunk.foldl_formatAfter, latest]
    show (Format.ofBytes last.body).toOption = some f
    rw [parsed]
    rfl
  obtain ⟨r₂, behind, facing', passed⟩ :=
    readChunks_chunks chunks none started sound facing
  obtain ⟨h, r, found, format, start, settled, stands, left⟩ := readChunks_data behind facing' f
  rw [← made]
  refine ⟨h, r, last, ?_, latest, by rw [parsed, format], ?_, settled, stands.position,
    stands.bytes, left⟩
  · rw [read, reading]
    simp only
    rw [if_neg ?_, if_neg ?_, passed, counts, found]
    · have eight : (riffName ++ size).length = 8 := by
        rw [List.length_append, four]
        rfl
      rw [List.drop_left' eight]
      exact not_not_intro rfl
    · rw [List.append_assoc, List.take_left' (show riffName.length = 4 from rfl)]
      exact not_not_intro rfl
  · rw [start, Nat.zero_add]
    rfl

/-- The body of a format chunk for 16-bit samples at 8 kHz. -/
def shortBody (channels : Nat) : Bytes :=
  Bytes.littleEndian 2 1 ++ Bytes.littleEndian 2 channels ++ Bytes.littleEndian 4 8000 ++
    Bytes.littleEndian 4 (16000 * channels) ++ Bytes.littleEndian 2 (2 * channels) ++
    Bytes.littleEndian 2 16

/-- Two format chunks, the second of odd size, with other chunks around them. -/
def unevenChunks : List Chunk :=
  [{ name := [0x6a, 0x75, 0x6e, 0x6b], body := [1, 2, 3], padding := 0xff
     length_name := rfl, length_body := by decide },
   { name := formatName, body := shortBody 1, length_name := rfl, length_body := by decide },
   { name := [0x4c, 0x49, 0x53, 0x54], body := [], length_name := rfl
     length_body := by decide },
   { name := formatName, body := shortBody 2 ++ [9], padding := 0x64, length_name := rfl
     length_body := by decide },
   { name := [0x64, 0x61, 0x74, 0x62], body := [7], length_name := rfl
     length_body := by decide }]

theorem isSound_unevenChunks : ∀ c ∈ unevenChunks, c.IsSound := by
  intro c member
  simp only [unevenChunks, List.mem_cons, List.not_mem_nil, or_false] at member
  rcases member with rfl | rfl | rfl | rfl | rfl
  · exact ⟨by decide, fun named => absurd named (by decide)⟩
  · exact ⟨by decide, fun _ => ⟨_, rfl, by rfl⟩⟩
  · exact ⟨by decide, fun named => absurd named (by decide)⟩
  · exact ⟨by decide, fun _ => ⟨_, rfl, by rfl⟩⟩
  · exact ⟨by decide, fun named => absurd named (by decide)⟩

theorem read_fileBytes_uneven :
    (∀ c ∈ unevenChunks, c.IsSound) ∧ (∃ c ∈ unevenChunks, c.name = formatName) ∧
      ∃ (h : Header) (r : Reader),
        read (fileBytes [0, 0, 0, 0] unevenChunks 0xFFFFFFFF [1, 2, 3, 4, 5]) = .ok (h, r) ∧
          h.format.channels = 2 ∧ h.dataStart = 100 ∧ h.dataSize.toNat = 5 ∧
          r.rest = [1, 2, 3, 4, 5] := by
  have formatted : ∃ c ∈ unevenChunks, c.name = formatName := ⟨_, .tail _ (.head _), rfl⟩
  obtain ⟨h, r, last, found, latest, parsed, start, size, -, -, rest⟩ :=
    read_fileBytes (show ([0, 0, 0, 0] : Bytes).length = 4 from rfl) isSound_unevenChunks formatted
      0xFFFFFFFF [1, 2, 3, 4, 5]
  have length : (unevenChunks.flatMap Chunk.toBytes).length = 80 := by decide
  rw [length] at start
  refine ⟨isSound_unevenChunks, formatted, h, r, found, ?_, start, ?_, rest⟩
  · cases latest
    rw [← Except.ok.inj parsed]
    rfl
  · rw [size, start]
    decide

end Header

end Wav

end VorbisTrack
