import VorbisTrack.Proofs.Wav.Demuxer

/-!
# What the reads of a run give

An `Operation` is one of the things a caller can do with a file that is open: read a packet, seek,
or ask for packets of another size. `Demuxer.readings` are the answers to the reads of a run.

Between two seeks, reads cut the sample data into packets, one behind the other (`Header.Delivers`).
They go on until all samples have been read, and then the stream has ended for ever; or they come to
samples that the file lacks, and then they fail until the next seek. Each single answer is read off
from that (`Delivers.answers`), and so is all data together (`Delivers.data`). If the sample data is
present, reading delivers it exactly once (`readings_deliverData`).
-/

set_option autoImplicit false

namespace VorbisTrack.Wav

namespace Demuxer

inductive Operation
  | read
  | seek (target : Int64)
  /-- Asking for another count of samples in each packet. -/
  | resize (samples : Nat)

def after (d : Demuxer) : Operation → Demuxer
  | .read => d.read.2
  | .seek target => (d.seek target).2
  | .resize samples => d.withPacketSamples samples

/-- The demuxer after operations, the first of the list first. -/
def afterAll (d : Demuxer) (operations : List Operation) : Demuxer :=
  operations.foldl after d

/-- The answer to a read, with the packet size that was in force. -/
structure Reading where
  packetSamples : Nat
  result : Except Failure Packet

def readings (d : Demuxer) : List Operation → List Reading
  | [] => []
  | .read :: rest => ⟨d.packetSamples, d.read.1⟩ :: (d.after .read).readings rest
  | .seek target :: rest => (d.after (.seek target)).readings rest
  | .resize samples :: rest => (d.after (.resize samples)).readings rest

def IsStraight (operations : List Operation) : Prop :=
  ∀ target, .seek target ∉ operations

theorem IsStraight.tail {operation : Operation} {rest : List Operation}
    (straight : IsStraight (operation :: rest)) : IsStraight rest :=
  fun target member => straight target (List.mem_cons_of_mem _ member)

/-! ## Packets among readings -/

def packetsOf (readings : List Reading) : List Packet :=
  readings.filterMap fun reading => reading.result.toOption

/-- Samples per channel that packets hold together, by their durations. -/
def samplesOf : List Packet → Nat
  | [] => 0
  | packet :: rest => packet.duration.toInt.toNat + samplesOf rest

def bytesOf (readings : List Reading) : Bytes :=
  (packetsOf readings).flatMap Packet.data

theorem packetsOf_cons_ok {reading : Reading} {packet : Packet}
    (result : reading.result = .ok packet) (rest : List Reading) :
    packetsOf (reading :: rest) = packet :: packetsOf rest := by
  rw [packetsOf, List.filterMap_cons_some (by rw [result]; rfl)]
  rfl

theorem samplesOf_cons (packet : Packet) (rest : List Packet) :
    samplesOf (packet :: rest) = packet.duration.toInt.toNat + samplesOf rest :=
  rfl

/-- Without a packet there is no data, of whatever samples. -/
theorem bytesOf_of_nil {readings : List Reading} (none_ : packetsOf readings = [])
    (content : Bytes) (align : Nat) :
    bytesOf readings = content.take (samplesOf (packetsOf readings) * align) := by
  rw [bytesOf, none_, show samplesOf [] = 0 from rfl, Nat.zero_mul, List.take_zero]
  rfl

/-- Readings that all failed hold no packets. -/
theorem packetsOf_of_failed {readings : List Reading} {failure : Failure}
    (failed : ∀ reading ∈ readings, reading.result = .error failure) : packetsOf readings = [] := by
  rw [packetsOf, List.filterMap_eq_nil_iff]
  intro reading member
  rw [failed reading member]
  rfl

theorem packetsOf_take_of_failed {readings : List Reading} {failure : Failure}
    (failed : ∀ reading ∈ readings, reading.result = .error failure) (k : Nat) :
    packetsOf (readings.take k) = [] :=
  packetsOf_of_failed fun reading member => failed reading (List.mem_of_mem_take member)

end Demuxer

open Demuxer

/-! ## Delivering samples in order -/

namespace Header

theorem toInt_ofNat_of_le {h : Header} {samples : Nat} (within : samples ≤ h.sampleCount) :
    (Int64.ofNat samples).toInt = samples := by
  have few := h.sampleCount_lt
  exact Int64.toInt_ofNat_of_lt (by omega)

/-- The packet that a read gives when the samples before a position have been read: it holds as many
of those that follow as it may. -/
structure Gives (h : Header) (content : Bytes) (position : Nat) (reading : Reading)
    (packet : Packet) : Prop where
  result : reading.result = .ok packet
  nonempty : packet.data ≠ []
  data : packet.data = (content.drop (h.dataStart + position * h.format.blockAlign.toNat)).take
    (packet.duration.toInt.toNat * h.format.blockAlign.toNat)
  whole : packet.size = packet.duration.toInt.toNat * h.format.blockAlign.toNat
  pts : packet.pts.ticks.toInt = position
  duration : packet.duration.toInt = min reading.packetSamples (h.sampleCount - position : Nat)

/-- The file lacks some of the samples that a read asks for at a position. -/
def Lacks (h : Header) (content : Bytes) (position : Nat) (reading : Reading) : Prop :=
  content.length < h.dataStart +
    (position + min reading.packetSamples (h.sampleCount - position)) * h.format.blockAlign.toNat

/-- If the sample data is present, no read asks for samples that the file lacks. -/
theorem not_lacks_of_present {h : Header} {content : Bytes} {position : Nat} {reading : Reading}
    (present : h.dataStart + h.dataSize.toNat ≤ content.length)
    (within : position < h.sampleCount) : ¬ h.Lacks content position reading := by
  have inside := h.le_length_of_present present
    (show position + min reading.packetSamples (h.sampleCount - position) ≤ h.sampleCount by omega)
  exact Nat.not_lt.mpr inside

/-- The readings deliver the samples of a file from a position on. Once one of them fails, all that
follow fail alike. -/
inductive Delivers (h : Header) (content : Bytes) : Nat → List Reading → Prop
  | nothing (position : Nat) : Delivers h content position []
  | packet {position count : Nat} {reading : Reading} {rest : List Reading} (some_ : 0 < count)
      (most : count = min reading.packetSamples (h.sampleCount - position))
      (present : h.dataStart + (position + count) * h.format.blockAlign.toNat ≤ content.length)
      (result : reading.result = .ok (h.packetAt content position count))
      (further : Delivers h content (position + count) rest) :
      Delivers h content position (reading :: rest)
  | ended {readings : List Reading}
      (all : ∀ reading ∈ readings, reading.result = .error .endOfStream) :
      Delivers h content h.sampleCount readings
  | short {position : Nat} {reading : Reading} {rest : List Reading}
      (more : position < h.sampleCount) (lacks : h.Lacks content position reading)
      (all : ∀ failed ∈ reading :: rest, failed.result = .error (.audioUnread .shortRead)) :
      Delivers h content position (reading :: rest)

variable {h : Header} {content : Bytes} {position count : Nat} {reading : Reading}
  {readings : List Reading}

theorem duration_packetAt (within : position + count ≤ h.sampleCount) :
    (h.packetAt content position count).duration.toInt = count :=
  toInt_ofNat_of_le (Nat.le_trans (Nat.le_add_left ..) within)

/-- A packet adds its samples to those of the packets behind it. -/
theorem samplesOf_packetAt (within : position + count ≤ h.sampleCount)
    (result : reading.result = .ok (h.packetAt content position count)) (rest : List Reading) :
    samplesOf (packetsOf (reading :: rest)) = count + samplesOf (packetsOf rest) := by
  rw [packetsOf_cons_ok result, samplesOf_cons, duration_packetAt within, Int.toNat_natCast]

theorem gives_packetAt (aligned : 0 < h.format.blockAlign.toNat) (some_ : 0 < count)
    (most : count = min reading.packetSamples (h.sampleCount - position))
    (present : h.dataStart + (position + count) * h.format.blockAlign.toNat ≤ content.length)
    (result : reading.result = .ok (h.packetAt content position count)) :
    h.Gives content position reading (h.packetAt content position count) := by
  have within : position + count ≤ h.sampleCount := by omega
  have holds := isPacket_packetAt present
  have lasts : (h.packetAt content position count).duration.toInt = count :=
    duration_packetAt within
  have size := Nat.mul_pos some_ aligned
  rw [← holds.whole] at size
  refine ⟨result, List.ne_nil_of_length_pos size, ?_, ?_, ?_, ?_⟩
  · rw [lasts, Int.toNat_natCast]
    exact holds.data
  · rw [lasts, Int.toNat_natCast]
    exact holds.whole
  · exact toInt_ofNat_of_le (h := h) (by omega)
  · rw [lasts]
    omega

namespace Delivers

/-- What is delivered is a part of the sample data. -/
theorem data (delivers : h.Delivers content position readings) :
    bytesOf readings = (content.drop (h.dataStart + position * h.format.blockAlign.toNat)).take
      (samplesOf (packetsOf readings) * h.format.blockAlign.toNat) := by
  induction delivers with
  | nothing position => exact bytesOf_of_nil rfl ..
  | @packet position count reading rest some_ most present result further ih =>
    -- The packet is the front of what is left, and the packets behind it go on from there.
    rw [samplesOf_packetAt (by omega) result]
    obtain ⟨left, here⟩ : ∃ left,
        left = content.drop (h.dataStart + position * h.format.blockAlign.toNat) := ⟨_, rfl⟩
    rw [Nat.add_mul position, ← Nat.add_assoc, ← List.drop_drop, ← here] at ih
    rw [← here]
    calc bytesOf (reading :: rest)
        = (h.packetAt content position count).data ++ bytesOf rest := by
          rw [bytesOf, packetsOf_cons_ok result, List.flatMap_cons, ← bytesOf]
      _ = left.take (count * h.format.blockAlign.toNat) ++
            (left.drop (count * h.format.blockAlign.toNat)).take
              (samplesOf (packetsOf rest) * h.format.blockAlign.toNat) := by
          rw [ih, here]
          rfl
      _ = left.take ((count + samplesOf (packetsOf rest)) * h.format.blockAlign.toNat) := by
          rw [Nat.add_mul, List.take_add]
  | ended all => exact bytesOf_of_nil (packetsOf_of_failed all) ..
  | short more lacks all => exact bytesOf_of_nil (packetsOf_of_failed all) ..

/-- What is delivered are samples of the file. -/
theorem within (delivers : h.Delivers content position readings)
    (within : position ≤ h.sampleCount) :
    position + samplesOf (packetsOf readings) ≤ h.sampleCount := by
  induction delivers with
  | nothing position => exact within
  | @packet position count reading rest some_ most present result further ih =>
    rw [samplesOf_packetAt (by omega) result, ← Nat.add_assoc]
    exact ih (by omega)
  | ended all =>
    rw [packetsOf_of_failed all]
    exact within
  | short more lacks all =>
    rw [packetsOf_of_failed all]
    exact within

/-- Each packet holds whole samples of the file. -/
theorem isPacket (delivers : h.Delivers content position readings) :
    ∀ packet ∈ packetsOf readings, ∃ start count, h.IsPacket content start count packet ∧
      packet.duration.toInt = count := by
  induction delivers with
  | nothing position => exact fun _ none_ => by cases none_
  | @packet position count reading rest some_ most present result further ih =>
    intro packet member
    rw [packetsOf_cons_ok result] at member
    rcases List.mem_cons.mp member with rfl | member
    · exact ⟨position, count, isPacket_packetAt present, duration_packetAt (by omega)⟩
    · exact ih packet member
  | ended all =>
    rw [packetsOf_of_failed all]
    exact fun _ none_ => by cases none_
  | short more lacks all =>
    rw [packetsOf_of_failed all]
    exact fun _ none_ => by cases none_

/-- Every single answer follows from the packets before it. If samples are left, it is a packet of
them, or a read so far has asked for samples that the file lacks. -/
theorem answers (delivers : h.Delivers content position readings)
    (aligned : 0 < h.format.blockAlign.toNat) {k : Nat} (found : readings[k]? = some reading)
    {reached : Nat} (reach : reached = position + samplesOf (packetsOf (readings.take k))) :
    (reached < h.sampleCount ∧ ∃ packet, h.Gives content reached reading packet) ∨
    (reached = h.sampleCount ∧ reading.result = .error .endOfStream) ∨
    (reached < h.sampleCount ∧ reading.result = .error (.audioUnread .shortRead) ∧
      ∃ j earlier, j ≤ k ∧ readings[j]? = some earlier ∧ h.Lacks content reached earlier) := by
  induction delivers generalizing k with
  | nothing position => cases found
  | @packet position count first rest some_ most present result further ih =>
    cases k with
    | zero =>
      cases found
      have here : reached = position := reach
      rw [here]
      exact .inl ⟨by omega, _, gives_packetAt aligned some_ most present result⟩
    | succ k =>
      rw [List.take_succ_cons, samplesOf_packetAt (by omega) result, ← Nat.add_assoc] at reach
      rw [List.getElem?_cons_succ] at found
      rcases ih found reach with next | ended | ⟨more, failed, j, earlier, before, asked, lacks⟩
      · exact .inl next
      · exact .inr (.inl ended)
      · refine .inr (.inr ⟨more, failed, j + 1, earlier, by omega, ?_, lacks⟩)
        rw [List.getElem?_cons_succ]
        exact asked
  | ended all =>
    rw [packetsOf_take_of_failed all] at reach
    exact .inr (.inl ⟨reach, all reading (List.mem_of_getElem? found)⟩)
  | short more lacks all =>
    rw [packetsOf_take_of_failed all] at reach
    cases reach
    exact .inr (.inr ⟨more, all reading (List.mem_of_getElem? found), 0, _, Nat.zero_le k, rfl,
      lacks⟩)

/-- If no read asked for samples that the file lacks, each read brought the end nearer. -/
theorem length_le (delivers : h.Delivers content position readings)
    (plenty : ∀ reading ∈ readings, reading.result ≠ .error (.audioUnread .shortRead)) :
    readings.length ≤ samplesOf (packetsOf readings) ∨
      position + samplesOf (packetsOf readings) = h.sampleCount := by
  induction delivers with
  | nothing position => exact .inl (Nat.zero_le _)
  | @packet position count reading rest some_ most present result further ih =>
    rw [samplesOf_packetAt (by omega) result, List.length_cons]
    rcases ih fun later member => plenty later (List.mem_cons_of_mem _ member) with fewer | all
    · exact .inl (by omega)
    · exact .inr (by omega)
  | ended all =>
    rw [packetsOf_of_failed all]
    exact .inr rfl
  | short more lacks all =>
    exact absurd (all _ (List.mem_cons_self ..)) (plenty _ (List.mem_cons_self ..))

/-- If the sample data is present, every read gives a packet until none is left. -/
theorem answers_of_present (delivers : h.Delivers content position readings)
    (aligned : 0 < h.format.blockAlign.toNat)
    (present : h.dataStart + h.dataSize.toNat ≤ content.length) {k : Nat}
    (found : readings[k]? = some reading) {reached : Nat}
    (reach : reached = position + samplesOf (packetsOf (readings.take k))) :
    (reached < h.sampleCount ∧ ∃ packet, h.Gives content reached reading packet) ∨
      (reached = h.sampleCount ∧ reading.result = .error .endOfStream) := by
  rcases delivers.answers aligned found reach with next | ended | ⟨more, -, j, earlier, -, -, lacks⟩
  · exact .inl next
  · exact .inr ended
  · exact absurd lacks (not_lacks_of_present present more)

/-- If the sample data is present, as many reads as there are samples read all of them. -/
theorem all_of_present (delivers : h.Delivers content position readings)
    (aligned : 0 < h.format.blockAlign.toNat)
    (present : h.dataStart + h.dataSize.toNat ≤ content.length)
    (within : position ≤ h.sampleCount) (enough : h.sampleCount ≤ position + readings.length) :
    position + samplesOf (packetsOf readings) = h.sampleCount := by
  have few := delivers.within within
  have plenty : ∀ reading ∈ readings, reading.result ≠ .error (.audioUnread .shortRead) := by
    intro reading member failed
    obtain ⟨k, found⟩ := List.mem_iff_getElem?.mp member
    rcases delivers.answers_of_present aligned present found rfl with
      ⟨-, packet, gives⟩ | ⟨-, ended⟩
    · cases failed.symm.trans gives.result
    · cases failed.symm.trans ended
  rcases delivers.length_le plenty with fewer | all
  · omega
  · exact all

end Delivers

end Header

/-! ## Runs -/

namespace Demuxer

def IsOpenOn (d : Demuxer) (h : Header) (content : Bytes) : Prop :=
  ∃ s, d.Reads s ∧ s.header = h ∧ s.reader.bytes = content

/-- The file stays open, whether operations succeed or not. -/
theorem IsOpenOn.after {d : Demuxer} {h : Header} {content : Bytes} (open_ : d.IsOpenOn h content)
    (operation : Operation) : (d.after operation).IsOpenOn h content := by
  obtain ⟨s, reads, header, bytes⟩ := open_
  cases operation with
  | read =>
    rw [Demuxer.after]
    by_cases all : s.header.sampleCount ≤ s.samplesRead
    · rw [read_of_sampleCount_le reads all]
      exact ⟨s, reads, header, bytes⟩
    · rw [read_of_more reads (Nat.lt_of_not_le all)]
      split
      · next reader reading =>
        exact ⟨_, reads_holding .., header, (Reader.position_le_of_read reading).1.trans bytes⟩
      · next reader reading =>
        exact ⟨_, reads_holding .., header, (Reader.position_le_of_read reading).1.trans bytes⟩
  | seek target =>
    rw [Demuxer.after, seek_of_reads reads]
    split
    · exact ⟨s, reads, header, bytes⟩
    · exact ⟨_, reads_holding .., header, bytes⟩
  | resize samples => exact ⟨s, reads.resized samples, header, bytes⟩

theorem IsOpenOn.afterAll {d : Demuxer} {h : Header} {content : Bytes}
    (open_ : d.IsOpenOn h content) (operations : List Operation) :
    (d.afterAll operations).IsOpenOn h content := by
  induction operations generalizing d with
  | nil => exact open_
  | cons operation rest ih => exact ih (open_.after operation)

theorem IsOpenOn.header? {d : Demuxer} {h : Header} {content : Bytes}
    (open_ : d.IsOpenOn h content) : d.header? = some h := by
  obtain ⟨s, reads, header, -⟩ := open_
  rw [reads.header, header]

/-- A demuxer that goes on failing to read gives failures only. -/
theorem readings_of_stuck {P : Demuxer → Prop} {failure : Failure}
    (fails : ∀ d, P d → d.read.1 = .error failure ∧ P d.read.2)
    (resized : ∀ d samples, P d → P (d.withPacketSamples samples)) (operations : List Operation)
    {d : Demuxer} (stuck : P d) (straight : IsStraight operations) :
    ∀ reading ∈ d.readings operations, reading.result = .error failure := by
  induction operations generalizing d with
  | nil => exact fun _ none_ => by cases none_
  | cons operation rest ih =>
    cases operation with
    | read =>
      obtain ⟨failed, still⟩ := fails d stuck
      intro reading member
      rcases List.mem_cons.mp member with rfl | member
      · exact failed
      · exact ih still straight.tail reading member
    | seek target => exact absurd (List.mem_cons_self ..) (straight target)
    | resize samples => exact ih (resized d samples stuck) straight.tail

variable {d : Demuxer} {s : Source} {content : Bytes}

/-- When all samples have been read, the stream has ended for ever. -/
theorem readings_of_sampleCount_le (operations : List Operation) (open_ : d.Reads s)
    (all : s.header.sampleCount ≤ s.samplesRead) (straight : IsStraight operations) :
    ∀ reading ∈ d.readings operations, reading.result = .error .endOfStream := by
  refine readings_of_stuck (P := fun d => d.Reads s) ?_ ?_ operations open_ straight
  · intro d open_
    rw [read_of_sampleCount_le open_ all]
    exact ⟨rfl, open_⟩
  · intro d samples open_
    exact open_.resized samples

/-- When a file has been used up before all samples have been read, reading fails until the next
seek. -/
theorem readings_of_usedUp (operations : List Operation) (open_ : d.Reads s)
    (aligned : 0 < s.header.format.blockAlign.toNat)
    (more : s.samplesRead < s.header.sampleCount) (empty : s.reader.rest = [])
    (straight : IsStraight operations) :
    ∀ reading ∈ d.readings operations, reading.result = .error (.audioUnread .shortRead) := by
  refine readings_of_stuck
    (P := fun d => ∃ reader : Reader, d.Reads { s with reader } ∧ reader.rest = [])
    ?_ ?_ operations ⟨s.reader, open_, empty⟩ straight
  · rintro d ⟨reader, open_, empty⟩
    have missing : reader.rest.length <
        d.nextCount { s with reader } * s.header.format.blockAlign.toNat := by
      rw [empty]
      exact Nat.mul_pos (d.nextCount_pos more) aligned
    obtain ⟨reader', reading, -, empty'⟩ := read_of_missing open_ more missing
    rw [reading]
    exact ⟨rfl, reader', reads_holding .., empty'⟩
  · rintro d samples ⟨reader, open_, empty⟩
    exact ⟨reader, open_.resized samples, empty⟩

/-- Reads without a seek between them deliver the samples from the position of the demuxer on. -/
theorem delivers_readings (operations : List Operation) (open_ : d.Reads s)
    (decodable : s.header.IsDecodable) (stands : s.StandsIn content)
    (within : s.samplesRead ≤ s.header.sampleCount) (straight : IsStraight operations) :
    s.header.Delivers content s.samplesRead (d.readings operations) := by
  induction operations generalizing d s with
  | nil => exact .nothing s.samplesRead
  | cons operation rest ih =>
    cases operation with
    | read =>
      by_cases all : s.header.sampleCount ≤ s.samplesRead
      · rw [Nat.le_antisymm within all]
        exact .ended (readings_of_sampleCount_le _ open_ all straight)
      · have more := Nat.lt_of_not_le all
        by_cases present : s.header.dataStart + (s.samplesRead + d.nextCount s)
            * s.header.format.blockAlign.toNat ≤ content.length
        · obtain ⟨s', reading, stands', header, further⟩ :=
            read_of_present open_ stands more present
          have last : s'.samplesRead ≤ s'.header.sampleCount := by
            rw [header, further, nextCount]
            omega
          have later := ih (reads_holding d s') (header ▸ decodable) stands' last straight.tail
          rw [header, further] at later
          refine .packet (d.nextCount_pos more) rfl present (congrArg Prod.fst reading) ?_
          rw [after, reading]
          exact later
        · have lacks : s.header.Lacks content s.samplesRead ⟨d.packetSamples, d.read.1⟩ :=
            Nat.lt_of_not_le present
          have missing := missing_of_absent stands decodable.blockAlign_pos more lacks
          obtain ⟨reader, reading, -, empty⟩ := read_of_missing open_ more missing
          have failed := readings_of_usedUp rest (reads_holding d { s with reader })
            decodable.blockAlign_pos more empty straight.tail
          refine .short more lacks ?_
          intro answer member
          rcases List.mem_cons.mp member with rfl | member
          · exact congrArg Prod.fst reading
          · rw [after, reading] at member
            exact failed answer member
    | seek target => exact absurd (List.mem_cons_self ..) (straight target)
    | resize samples =>
      exact ih (open_.resized samples) decodable stands within straight.tail

/-! ## A file that is present -/

/-- The reads of a run without seeks deliver the sample data of a file exactly once. -/
structure DeliversData (d : Demuxer) (h : Header) (content : Bytes)
    (operations : List Operation) : Prop where
  /-- While samples are left, a read gives a packet of those that follow the packets before it. When
  none are left, the stream has ended. -/
  reads : ∀ k reading reached, (d.readings operations)[k]? = some reading →
    reached = samplesOf (packetsOf ((d.readings operations).take k)) →
    (reached < h.sampleCount ∧ ∃ packet, h.Gives content reached reading packet) ∨
      (reached = h.sampleCount ∧ reading.result = .error .endOfStream)
  data : bytesOf (d.readings operations) = (content.drop h.dataStart).take
    (samplesOf (packetsOf (d.readings operations)) * h.format.blockAlign.toNat)
  /-- After as many reads as there are samples, all of them have been read. -/
  all : h.sampleCount ≤ (d.readings operations).length →
    samplesOf (packetsOf (d.readings operations)) = h.sampleCount
  frames : ∀ packet ∈ packetsOf (d.readings operations), ∃ frame,
    (d.afterAll operations).frameOf packet = .ok frame ∧
      (frame.sampleCount : Int) = packet.duration.toInt ∧ frame.check = .ok ()

/-- What opening a file leads to. -/
theorem of_open {d' : Demuxer} {tree : FileTree} {path : Path} {h : Header}
    (file : tree.read path = .ok (.file content)) (opened : d.open tree path = (.ok (), d'))
    (header : d'.header? = some h) :
    ∃ s r, d' = d.holding s ∧ s.header = h ∧ h.IsReadFrom content r ∧
      h.IsDecodable ∧ s.StandsIn content ∧ s.samplesRead = 0 := by
  obtain ⟨s, found, rfl⟩ := open_eq_ok opened
  cases header
  rw [file] at found
  obtain ⟨_, r, same, read, -, -, -⟩ := openNode_eq_ok found
  cases same
  obtain ⟨_, same, decodable, stands, start⟩ := of_openNode found
  cases same
  exact ⟨s, r, rfl, rfl, Header.isReadFrom_of_read read, decodable, stands, start⟩

variable {d' : Demuxer} {tree : FileTree} {path : Path} {h : Header} {operations : List Operation}

/-- A file that has been opened is open. -/
theorem isOpenOn_of_open (file : tree.read path = .ok (.file content))
    (opened : d.open tree path = (.ok (), d')) (header : d'.header? = some h) :
    d'.IsOpenOn h content := by
  obtain ⟨s, -, rfl, same, -, -, stands, -⟩ := of_open file opened header
  exact ⟨s, reads_holding .., same, stands.bytes⟩

/-- Reading a file that has been opened starts with its first sample. -/
theorem delivers_of_open (file : tree.read path = .ok (.file content))
    (opened : d.open tree path = (.ok (), d')) (header : d'.header? = some h)
    (straight : IsStraight operations) : h.Delivers content 0 (d'.readings operations) := by
  obtain ⟨s, -, rfl, rfl, -, decodable, stands, start⟩ := of_open file opened header
  rw [← start]
  exact delivers_readings operations (reads_holding ..) decodable stands (by omega) straight

/-- **The sample data is delivered exactly once.** If the data size that a file states is unset or
no more than what follows, reads in packets of any sizes give all samples of the file in order, each
of them once, and then the stream has ended for ever. Each packet can be taken as a frame. -/
theorem readings_deliverData {d d' : Demuxer} {tree : FileTree} {path : Path} {content : Bytes}
    {h : Header} (file : tree.read path = .ok (.file content))
    (opened : d.open tree path = (.ok (), d')) (header : d'.header? = some h)
    (complete : h.statedSize content = 0 ∨ h.statedSize content = 0xFFFFFFFF ∨
      h.dataStart + (h.statedSize content).toNat ≤ content.length)
    (operations : List Operation) (straight : IsStraight operations) :
    d'.DeliversData h content operations := by
  have delivers := delivers_of_open file opened header straight
  have still := (isOpenOn_of_open file opened header).afterAll operations
  obtain ⟨s, r, -, rfl, read, decodable, -, -⟩ := of_open file opened header
  have present := read.present complete
  refine ⟨?_, ?_, ?_, ?_⟩
  · intro k reading reached found reach
    exact delivers.answers_of_present decodable.blockAlign_pos present found
      (reach.trans (Nat.zero_add _).symm)
  · have data := delivers.data
    rwa [Nat.zero_mul, Nat.add_zero] at data
  · intro enough
    have all := delivers.all_of_present decodable.blockAlign_pos present (Nat.zero_le _)
      (by rwa [Nat.zero_add])
    rwa [Nat.zero_add] at all
  · intro packet member
    obtain ⟨position, count, holds, lasts⟩ := delivers.isPacket packet member
    obtain ⟨framed, long⟩ := frameOf_of_isPacket still.header? decodable holds
    exact ⟨_, framed, lasts.symm, Frame.check_of_packed decodable.packed rfl long⟩

/-- A mono file of 16-bit samples at 8 kHz. -/
def monoWav (stated : Nat) (data : Bytes) : Bytes :=
  Bytes.ofText "RIFF" ++ Bytes.littleEndian 4 (36 + stated) ++ Bytes.ofText "WAVEfmt " ++
    Bytes.littleEndian 4 16 ++ Bytes.littleEndian 2 1 ++ Bytes.littleEndian 2 1 ++
    Bytes.littleEndian 4 8000 ++ Bytes.littleEndian 4 16000 ++ Bytes.littleEndian 2 2 ++
    Bytes.littleEndian 2 16 ++ Bytes.ofText "data" ++ Bytes.littleEndian 4 stated ++ data

/-- A file that does not state its data size. Three samples and half of another one follow. -/
def streamedWav : Bytes :=
  monoWav 0xFFFFFFFF [1, 2, 3, 4, 5, 6, 7]

def streamedFiles : FileTree where
  entries := [(["streamed.wav"], .file streamedWav)]

/-- The third of these reads, and any behind it, is at the end. -/
def unevenReads : List Operation :=
  [.resize 2, .read, .resize 0, .read, .read, .resize 7, .read]

theorem readings_deliverData_streamed :
    ∃ (h : Header) (d : Demuxer),
      Demuxer.open {} streamedFiles (.ofText "streamed.wav") = (.ok (), d) ∧ d.header? = some h ∧
        h.statedSize streamedWav = 0xFFFFFFFF ∧ h.sampleCount = 3 ∧
        d.DeliversData h streamedWav unevenReads := by
  have ready : (openNode (.ok (.file streamedWav))).toOption.any (fun s =>
      s.header.statedSize streamedWav = 0xFFFFFFFF ∧ s.header.sampleCount = 3) = true := by
    decide +kernel
  obtain ⟨s, found, ready⟩ := (Option.any_eq_true ..).mp ready
  obtain ⟨stated, count⟩ := of_decide_eq_true ready
  have opened := open_of_toOption {} streamedFiles (.ofText "streamed.wav") found
  refine ⟨s.header, _, opened, rfl, stated, count, ?_⟩
  apply readings_deliverData rfl opened rfl (.inr (.inl stated))
  intro target member
  simp only [unevenReads, List.mem_cons, reduceCtorEq, List.not_mem_nil, or_false] at member

end Demuxer

end VorbisTrack.Wav
