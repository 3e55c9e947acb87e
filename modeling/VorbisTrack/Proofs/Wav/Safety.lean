import VorbisTrack.Proofs.Wav.Reading

/-!
# Reading the header of any file

Chunks are read in turns, and a `Turn` is what one of them comes to. A turn that goes on has moved
the reader on by eight bytes at least, and a turn that does not find eight bytes fails
(`turn_isOf`). So a file has room for so many turns only, and as many are enough for any file
(`walk_eq`).

Whatever a file holds, reading its header gives a failure of format or a header whose numbers can be
relied on (`read_isSafe`). A demuxer has no other headers than these, so it never divides by zero.
-/

set_option autoImplicit false

namespace VorbisTrack.Wav

namespace Format

theorem kind_of_ofBytes {bytes : Bytes} {failure : Failure}
    (failed : ofBytes bytes = .error failure) : failure.kind = .format := by
  simp only [ofBytes] at failed
  split at failed
  · cases failed
    rfl
  · split at failed
    · cases failed
    · split at failed
      · cases failed
        rfl
      · cases failed

theorem kind_of_check {f : Format} {failure : Failure} (failed : f.check = .error failure) :
    failure.kind = .format := by
  unfold check at failed
  split at failed
  · cases failed
    rfl
  · split at failed
    · cases failed
      rfl
    · split at failed
      · cases failed
        rfl
      · unfold expectedBlockAlign at failed
        by_cases fits : f.channels.toNat * (f.sampleBits.toNat / 8) < 2 ^ 16
        · simp only [fits, if_true] at failed
          split at failed
          · cases failed
            rfl
          · cases failed
        · simp only [fits, if_false] at failed
          cases failed
          rfl

end Format

namespace Header

/-! ## Turns -/

inductive Turn
  | fails (failure : Failure)
  /-- The data chunk has been reached. -/
  | ends (header : Header) (reader : Reader)
  /-- Another chunk has been passed. -/
  | goesOn (format : Option Format) (reader : Reader)

/-- One turn: reads the name and the size of a chunk, and goes to where the next one starts unless
it is the data chunk. -/
def turn (format : Option Format) (r : Reader) : Turn :=
  match r.read ChunkHeader.length with
  | (none, _) => .fails .noDataChunk
  | (some bytes, r') =>
    match ChunkHeader.ofBytes? bytes with
    | none => .fails .noDataChunk
    | some chunk =>
      if chunk.name = formatName then
        match r'.read chunk.size.toNat with
        | (none, _) => .fails (.formatChunkUnread .shortRead)
        | (some body, r'') =>
          match Format.ofBytes body with
          | .error failure => .fails failure
          | .ok found =>
            match found.check with
            | .error failure => .fails failure
            | .ok () => .goesOn (some found) (r''.seek (r''.position + chunk.size.toNat % 2))
      else if chunk.name = dataName then
        match format with
        | none => .fails .dataBeforeFormat
        | some format =>
          let (dataSize, ready) := settleSize chunk.size r'
          .ends { format, dataSize, dataStart := r'.position } ready
      else .goesOn format (r'.seek (r'.position + chunk.paddedSize))

/-- Reading chunks is one turn after the other. -/
theorem readChunks_eq (format : Option Format) (r : Reader) :
    readChunks format r = match turn format r with
      | .fails failure => .error failure
      | .ends h r' => .ok (h, r')
      | .goesOn format' r' => readChunks format' r' := by
  fun_cases readChunks format r <;> simp_all [turn]

/-- What a turn at a place of a file may come to. It has found eight bytes there unless it fails. -/
def Turn.IsOf (content : Bytes) (place : Nat) : Turn → Prop
  | .fails failure => failure.kind = .format
  | .ends h _ => place + 8 ≤ content.length ∧ h.dataStart = place + 8 ∧
      (content.drop place).take 4 = dataName
  | .goesOn _ r => place + 8 ≤ content.length ∧ ∃ next, place + 8 ≤ next ∧ r.StandsAt content next

variable {format : Option Format} {r r' : Reader} {content : Bytes} {place : Nat}

/-- A read that succeeds has stayed in the file. -/
theorem le_length_of_read (stands : r.StandsAt content place) {count : Nat} {got : Bytes}
    (some_ : 0 < count) (reading : r.read count = (some got, r')) :
    place + count ≤ content.length := by
  obtain ⟨taken, full, -⟩ := stands.of_read reading
  rw [taken, List.length_take, List.length_drop] at full
  omega

theorem turn_isOf (format : Option Format) (stands : r.StandsAt content place) :
    (turn format r).IsOf content place := by
  fun_cases turn format r with
  | case4 =>
    next failed =>
    exact Format.kind_of_ofBytes failed
  | case5 =>
    next failed =>
    exact Format.kind_of_check failed
  | case6 _ _ r' reading _ _ _ _ r'' following =>
    -- A format chunk is read, and the padding behind it passed over.
    obtain ⟨-, -, further⟩ := stands.of_read reading
    obtain ⟨-, -, behind⟩ := further.of_read following
    refine ⟨le_length_of_read stands (by decide) reading, _, ?_, behind.seek _⟩
    rw [behind.position, ChunkHeader.length]
    omega
  | case8 bytes r' reading chunk headed _ named =>
    obtain ⟨taken, -, further⟩ := stands.of_read reading
    refine ⟨le_length_of_read stands (by decide) reading, further.position, ?_⟩
    rw [← named, (ChunkHeader.of_ofBytes? headed).1, taken, List.take_take]
    rfl
  | case9 _ _ r' reading =>
    obtain ⟨-, -, further⟩ := stands.of_read reading
    refine ⟨le_length_of_read stands (by decide) reading, _, ?_, further.seek _⟩
    rw [further.position, ChunkHeader.length]
    omega
  | _ => rfl

/-- A turn that does not find eight bytes fails. -/
theorem turn_of_length_lt (format : Option Format) (stands : r.StandsAt content place)
    (short : content.length < place + 8) : turn format r = .fails .noDataChunk := by
  have few : r.rest.length < ChunkHeader.length := by
    rw [stands.rest, List.length_drop, ChunkHeader.length]
    omega
  obtain ⟨_, reading, -⟩ := Reader.read_of_length_lt few
  rw [turn, reading]

/-! ## The count of turns -/

/-- Reads chunks in so many turns at most. The answer is nothing if they are not enough. -/
def walk : Nat → Option Format → Reader → Option (Except Failure (Header × Reader))
  | 0, _, _ => none
  | turns + 1, format, r =>
    match turn format r with
    | .fails failure => some (.error failure)
    | .ends h r' => some (.ok (h, r'))
    | .goesOn format' r' => walk turns format' r'

/-- As many turns are enough as eight bytes go into what is left, and one more. -/
theorem walk_eq {turns : Nat} (stands : r.StandsAt content place)
    (enough : content.length - place < 8 * turns) :
    walk turns format r = some (readChunks format r) := by
  induction turns generalizing format r place with
  | zero => exact absurd enough (Nat.not_lt_zero _)
  | succ turns ih =>
    have outcome := turn_isOf format stands
    rw [readChunks_eq, walk]
    cases taken : turn format r with
    | fails failure => rfl
    | ends h r' => rfl
    | goesOn format' r' =>
      rw [taken] at outcome
      obtain ⟨found, next, ahead, stands'⟩ := outcome
      exact ih stands' (by omega)

/-- Reading chunks comes to what one of its turns comes to. -/
theorem readChunks_isOf (format : Option Format) (stands : r.StandsAt content place) :
    match readChunks format r with
    | .error failure => failure.kind = .format
    | .ok (h, _) => 8 ≤ h.dataStart ∧ (content.drop (h.dataStart - 8)).take 4 = dataName := by
  -- By induction on a count of turns that is enough.
  obtain ⟨turns, enough⟩ : ∃ turns, content.length - place < 8 * turns :=
    ⟨content.length - place + 1, by omega⟩
  induction turns generalizing format r place with
  | zero => exact absurd enough (Nat.not_lt_zero _)
  | succ turns ih =>
    have outcome := turn_isOf format stands
    rw [readChunks_eq]
    cases taken : turn format r with
    | fails failure =>
      rw [taken] at outcome
      exact outcome
    | ends h r' =>
      rw [taken] at outcome
      obtain ⟨-, start, named⟩ := outcome
      exact ⟨by omega, by rwa [start, Nat.add_sub_cancel]⟩
    | goesOn format' r' =>
      rw [taken] at outcome
      obtain ⟨found, next, ahead, stands'⟩ := outcome
      exact ih format' stands' (by omega)

/-! ## Headers that could be read -/

/-- What can be relied on in a header that was read from a file. -/
structure IsReliable (h : Header) (content : Bytes) : Prop where
  channels : 1 ≤ h.format.channels.toNat
  rate : 1 ≤ h.format.rate.toNat
  bits : 1 ≤ h.format.sampleBits.toNat ∧ h.format.sampleBits.toNat % 8 = 0
  /-- A sample over all channels takes just the bytes that its bits fill. Nothing has wrapped
  around, although the field has 16 bits only. -/
  blockAlign : 8 * h.format.blockAlign.toNat =
    h.format.channels.toNat * h.format.sampleBits.toNat
  blockAlign_pos : 1 ≤ h.format.blockAlign.toNat
  blockAlign_le : h.format.channels.toNat * h.format.sampleBits.toNat / 8 ≤ 65535
  /-- The sample data starts in the file, or at its end. -/
  inside : h.dataStart ≤ content.length
  /-- In front of it stand the name of a data chunk and the size that counts unless it is unset. -/
  front : ∃ stated : UInt32, 8 ≤ h.dataStart ∧
    (content.drop (h.dataStart - 8)).take 8 = dataName ++ Bytes.littleEndian 4 stated.toNat ∧
    h.dataSize.toNat = settledSize stated (content.length - h.dataStart)
  /-- The count of samples is a true quotient. -/
  sampleCount : h.sampleCount * h.format.blockAlign.toNat ≤ h.dataSize.toNat ∧
    h.dataSize.toNat < (h.sampleCount + 1) * h.format.blockAlign.toNat

/-- A size that was read is the one whose bytes are there. -/
theorem littleEndian_word {bytes : Bytes} {offset : Nat} (inside : offset + 4 ≤ bytes.length) :
    Bytes.littleEndian 4 (Format.word bytes offset).toNat = (bytes.drop offset).take 4 := by
  have four : ((bytes.drop offset).take 4).length = 4 := by
    rw [List.length_take, List.length_drop]
    omega
  have small := Bytes.littleValue_lt ((bytes.drop offset).take 4)
  have back := Bytes.littleEndian_littleValue ((bytes.drop offset).take 4)
  rw [four] at small back
  rw [Format.word, UInt32.toNat_ofNat_of_lt' small, back]

theorem isReliable_of_readChunks {h : Header} (stands : r.StandsAt content place)
    (found : readChunks none r = .ok (h, r')) : h.IsReliable content := by
  have read : h.IsReadFrom content r' :=
    isReadFrom_of_readChunks stands (fun _ none => by cases none) found
  have sound := Format.isSound_of_check read.checked
  have start := readChunks_isOf none stands
  rw [found] at start
  obtain ⟨ahead, named⟩ := start
  have aligned : 8 * h.format.blockAlign.toNat =
      h.format.channels.toNat * h.format.sampleBits.toNat := by
    have whole : 8 * (h.format.sampleBits.toNat / 8) = h.format.sampleBits.toNat :=
      Nat.mul_div_cancel' (Nat.dvd_of_mod_eq_zero sound.bytes)
    rw [sound.blockAlign, Nat.mul_left_comm, whole]
  have positive : 1 ≤ h.format.blockAlign.toNat := by
    rw [sound.blockAlign]
    have bits := sound.bits
    have bytes := sound.bytes
    exact Nat.mul_pos sound.channels (by omega)
  have inside := read.inside
  refine ⟨sound.channels, sound.rate, ⟨sound.bits, sound.bytes⟩, aligned, positive, ?_, inside,
    ⟨h.statedSize content, ahead, ?_, read.size⟩, h.sampleCount_mul_le, ?_⟩
  · have narrow := h.format.blockAlign.toNat_lt
    omega
  · have room : 4 + 4 ≤ (content.drop (h.dataStart - 8)).length := by
      rw [List.length_drop]
      omega
    rw [statedSize, ChunkHeader.length, littleEndian_word room, ← named]
    exact List.take_add (i := 4) (j := 4)
  · exact (Nat.div_lt_iff_lt_mul positive).mp (Nat.lt_succ_self _)

/-! ## Reading a file -/

structure ReadsSafely (content : Bytes) : Prop where
  /-- A turn that goes on moves the reader on by eight bytes at least. -/
  moves : ∀ format r place, r.StandsAt content place →
    ∀ format' r', turn format r = .goesOn format' r' →
      ∃ next, place + 8 ≤ next ∧ r'.StandsAt content next
  /-- A turn that starts with fewer than eight bytes ahead, or behind the end, fails. -/
  stops : ∀ format r place, r.StandsAt content place → content.length < place + 8 →
    turn format r = .fails .noDataChunk
  /-- So the turns come to an end. -/
  turns : ∀ format r place, r.StandsAt content place →
    walk ((content.length - place) / 8 + 1) format r = some (readChunks format r)
  failure : ∀ failure, read content = .error failure → failure.kind = .format
  header : ∀ h r, read content = .ok (h, r) →
    h.IsReliable content ∧ r.StandsAt content h.dataStart

/-- A file is refused at its first twelve bytes, or its chunks are read from there. -/
theorem read_cases (content : Bytes) :
    (∃ failure, read content = .error failure ∧ failure.kind = .format) ∨
      ∃ r, r.StandsAt content 12 ∧ read content = readChunks none r := by
  cases reading : Reader.read { bytes := content } 12 with
  | mk head r =>
    cases head with
    | none => exact .inl ⟨.riffHeaderUnread .shortRead, by simp only [read, reading], rfl⟩
    | some head =>
      by_cases riff : head.take 4 = riffName
      · by_cases wave : head.drop 8 = waveName
        · obtain ⟨-, -, stands⟩ := (Reader.standsAt_start content).of_read reading
          exact .inr ⟨r, stands,
            by simp only [read, reading, riff, wave, ne_eq, not_true, if_false]⟩
        · exact .inl ⟨.notWave,
            by simp only [read, reading, riff, wave, ne_eq, not_true, not_false_eq_true, if_false,
              if_true], rfl⟩
      · exact .inl ⟨.notRiff,
          by simp only [read, reading, riff, ne_eq, not_false_eq_true, if_true], rfl⟩

theorem readsSafely (content : Bytes) : ReadsSafely content := by
  constructor
  case moves =>
    intro format r place stands format' r' taken
    have outcome := turn_isOf format stands
    rw [taken] at outcome
    exact outcome.2
  case stops => exact fun format r place stands short => turn_of_length_lt format stands short
  case turns => exact fun format r place stands => walk_eq stands (by omega)
  case failure =>
    intro failure failed
    rcases read_cases content with ⟨failure', refused, kind⟩ | ⟨r, stands, same⟩
    · rw [refused] at failed
      cases failed
      exact kind
    · have outcome := readChunks_isOf none stands
      rwa [← same, failed] at outcome
  case header =>
    intro h r found
    refine ⟨?_, (isReadFrom_of_read found).stands⟩
    rcases read_cases content with ⟨failure, refused, -⟩ | ⟨r', stands, same⟩
    · rw [refused] at found
      cases found
    · exact isReliable_of_readChunks stands (same.symm.trans found)

end Header

namespace Demuxer

/-! ## Demuxers -/

/-- The demuxers that a caller can come to. Files may change from one call to the next. -/
inductive Reachable : Demuxer → Prop
  | unopened : Reachable {}
  | opened {d : Demuxer} (before : d.Reachable) (tree : FileTree) (path : Path) :
      Reachable (d.open tree path).2
  | operated {d : Demuxer} (before : d.Reachable) (operation : Operation) :
      Reachable (d.after operation)
  | refreshed {d : Demuxer} (before : d.Reachable) (bytes : Bytes) : Reachable (d.refresh bytes)
  | closed {d : Demuxer} (before : d.Reachable) : Reachable d.close

/-- Only opening a file gives a demuxer another header. -/
theorem header?_after (d : Demuxer) (operation : Operation) :
    (d.after operation).header? = d.header? := by
  cases operation with
  | read =>
    obtain ⟨reader, samplesRead, same⟩ := exists_read_eq d
    rw [after, same]
  | seek target =>
    obtain ⟨reader, samplesRead, same⟩ := exists_seek_eq d target
    rw [after, same]
  | resize samples => rfl

/-- The header that a demuxer holds was read from a file. -/
theorem exists_read_of_reachable {d : Demuxer} (reachable : d.Reachable) {h : Header}
    (held : d.header? = some h) : ∃ content r, Header.read content = .ok (h, r) := by
  induction reachable with
  | unopened => cases held
  | @opened d before tree path ih =>
    cases found : openNode (tree.read path) with
    | error failure =>
      simp only [Demuxer.open, found] at held
      exact ih held
    | ok s =>
      simp only [Demuxer.open, found] at held
      obtain ⟨content, r, -, read, -, -, -⟩ := openNode_eq_ok found
      cases held
      exact ⟨content, r, read⟩
  | operated before operation ih => exact ih ((header?_after ..).symm.trans held)
  | refreshed before bytes ih => exact ih held
  | closed before ih => cases held

/-- The demuxer divides only by numbers that are not zero. -/
structure DividesSafely (d : Demuxer) : Prop where
  header : ∀ h, d.header? = some h → ∃ content, h.IsReliable content
  /-- A frame has as many samples as its packet has room for. -/
  frame : ∀ packet frame, d.frameOf packet = .ok frame → ∃ h, d.header? = some h ∧
    1 ≤ h.format.blockAlign.toNat ∧
      frame.sampleCount * h.format.blockAlign.toNat = packet.size

theorem dividesSafely_of_reachable {d : Demuxer} (reachable : d.Reachable) :
    d.DividesSafely := by
  have reliable (h : Header) (held : d.header? = some h) : ∃ content, h.IsReliable content := by
    obtain ⟨content, r, read⟩ := exists_read_of_reachable reachable held
    exact ⟨content, ((Header.readsSafely content).header h r read).1⟩
  refine ⟨reliable, ?_⟩
  intro packet frame framed
  cases held : d.header? with
  | none =>
    simp only [frameOf, held] at framed
    cases framed
  | some h =>
    obtain ⟨content, sure⟩ := reliable h held
    simp only [frameOf, held] at framed
    split at framed
    · cases framed
    · next even =>
      cases framed
      exact ⟨h, rfl, sure.blockAlign_pos,
        Nat.div_mul_cancel (Nat.dvd_of_mod_eq_zero (Decidable.not_not.mp even))⟩

end Demuxer

namespace Header

/-- **Reading the header of a file is safe.** Whatever a file holds, the turns of reading its chunks
come to an end, a failure is one of format, and the numbers of a header that could be read go
together. So no demuxer that callers can come to divides by zero. -/
theorem read_isSafe (content : Bytes) :
    ReadsSafely content ∧ ∀ d : Demuxer, d.Reachable → d.DividesSafely :=
  ⟨readsSafely content, fun _ reachable => Demuxer.dividesSafely_of_reachable reachable⟩

/-- A file with a second chunk that points far behind its end. -/
def overrunWav : Bytes :=
  (Demuxer.monoWav 0 []).take 36 ++ Bytes.ofText "LIST" ++ Bytes.littleEndian 4 0xFFFFFFFF

/-- One file is refused, another one is opened. -/
theorem read_isSafe_overrun :
    (read overrunWav).toOption.isNone = true ∧ ReadsSafely overrunWav ∧
      ∃ d : Demuxer, d.Reachable ∧ d.header?.isSome = true ∧ d.DividesSafely :=
  ⟨by decide +kernel, (read_isSafe overrunWav).1,
    (Demuxer.open {} Demuxer.streamedFiles (.ofText "streamed.wav")).2,
    .opened .unopened _ _, by decide +kernel,
    (read_isSafe overrunWav).2 _ (.opened .unopened _ _)⟩

end Header

end VorbisTrack.Wav
