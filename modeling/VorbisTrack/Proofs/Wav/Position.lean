import VorbisTrack.Proofs.Wav.Seeking

/-!
# Where the reader of a WAVE file stands

A demuxer has a reader and counts the samples that have been read. A packet moves both on and a seek
sets both, so the reader stands where the next sample starts (`Header.positionOf`). A read that asks
for samples which the file lacks moves the reader alone: it uses up what is left, and the count
stays. From then on the file has run dry (`isDry`), and every read fails however little it asks for,
until a seek brings reader and count together again.

One operation keeps the two as far apart as that and no further (`StandsByCount.after`), and so does
a run (`afterAll_keepsPlace`). A file that holds all the samples it states never runs dry.
-/

set_option autoImplicit false

namespace VorbisTrack

namespace Reader

variable {r r' : Reader} {content : Bytes} {place count : Nat}

/-- A read that fails goes to the end of the file, unless it has started behind that. -/
theorem StandsAt.of_failed (h : r.StandsAt content place) (failed : r.read count = (none, r')) :
    r'.StandsAt content (max content.length place) := by
  have short : r.rest.length < count := by
    rcases Nat.lt_or_ge r.rest.length count with short | enough
    · exact short
    · have got := read_of_le_length enough
      rw [failed] at got
      cases got
  have behind := r.rest_read count
  have moved : (r.read count).2.position = r.position + r.rest.length := by
    simp only [read, take_held_fetch, position_fetch]
    rw [List.take_of_length_le (Nat.le_of_lt short)]
  rw [failed] at behind moved
  refine ⟨(position_le_of_read failed).1.trans h.bytes, ?_, ?_⟩
  · rw [moved, h.position, h.rest, List.length_drop]
    omega
  · rw [behind, List.drop_eq_nil_of_le (Nat.le_of_lt short),
      List.drop_eq_nil_of_le (Nat.le_max_left ..)]

end Reader

namespace Wav

open Demuxer

/-- The position at which a sample starts. -/
def Header.positionOf (h : Header) (sample : Nat) : Nat :=
  h.dataStart + sample * h.format.blockAlign.toNat

theorem Header.positionOf_add (h : Header) (sample more : Nat) :
    h.positionOf (sample + more) = h.positionOf sample + more * h.format.blockAlign.toNat := by
  rw [positionOf, positionOf, Nat.add_mul, Nat.add_assoc]

/-- Where the reader of a file stands by a count of samples. If the file has run dry, that is behind
all there is. -/
def Header.standOf (h : Header) (content : Bytes) (dry : Bool) (sample : Nat) : Nat :=
  if dry then max content.length (h.positionOf sample) else h.positionOf sample

namespace Demuxer

variable {d : Demuxer} {s : Source} {h : Header} {content : Bytes} {dry : Bool}

/-! ## One operation -/

/-- Whether a file has run dry when an operation has been done. A read that lacks data uses the file
up, and a seek that is not refused makes up for it. -/
def dryAfter (d : Demuxer) (dry : Bool) : Operation → Bool
  | .read =>
    match d.read.1 with
    | .error (.audioUnread _) => true
    | _ => dry
  | .seek target =>
    match (d.seek target).1 with
    | .ok () => false
    | .error _ => dry
  | .resize _ => dry

/-- The reader of an open file stands by the count of samples. -/
structure StandsByCount (d : Demuxer) (h : Header) (content : Bytes) (dry : Bool) (s : Source) :
    Prop where
  reads : d.Reads s
  header : s.header = h
  within : s.samplesRead ≤ h.sampleCount
  reader : s.reader.StandsAt content (h.standOf content dry s.samplesRead)
  /-- A file runs dry only while samples are left. -/
  more : dry = true → s.samplesRead < h.sampleCount

/-- The next read lacks data: the file has run dry, or it ends before the samples that are asked
for do. -/
def NeedsMore (d : Demuxer) (h : Header) (content : Bytes) (dry : Bool) (s : Source) : Prop :=
  s.samplesRead < h.sampleCount ∧
    (dry = true ∨ content.length < h.positionOf (s.samplesRead + d.nextCount s))

/-- A read that needs more than there is fails and leaves the count as it was. -/
theorem StandsByCount.read_of_needsMore (stands : d.StandsByCount h content dry s)
    (aligned : 0 < h.format.blockAlign.toNat) (needs : d.NeedsMore h content dry s) :
    ∃ reader : Reader,
      d.read = (.error (.audioUnread .shortRead), d.holding { s with reader }) ∧
      reader.StandsAt content (h.standOf content true s.samplesRead) := by
  obtain ⟨open_, rfl, within, at_, more⟩ := stands
  obtain ⟨left, lacks⟩ := needs
  have asks : 0 < d.nextCount s * s.header.format.blockAlign.toNat :=
    Nat.mul_pos (d.nextCount_pos left) aligned
  -- Nothing is left of a file that has run dry, and too little of one that ends too early.
  have short : s.reader.rest.length < d.nextCount s * s.header.format.blockAlign.toNat := by
    rw [at_.rest, List.length_drop, Header.standOf]
    rw [Header.positionOf_add] at lacks
    cases dry with
    | true => rw [if_pos rfl]; omega
    | false =>
      have lacks := lacks.resolve_left Bool.false_ne_true
      rw [if_neg Bool.false_ne_true]
      omega
  obtain ⟨reader, failed, -⟩ := Reader.read_of_length_lt short
  have ending := at_.of_failed failed
  have same : max content.length (s.header.standOf content dry s.samplesRead) =
      s.header.standOf content true s.samplesRead := by
    cases dry with
    | true => exact Nat.max_eq_right (Nat.le_max_left ..)
    | false => rfl
  rw [same] at ending
  exact ⟨reader, by rw [read_of_more open_ left, failed], ending⟩

/-- A read that finds what it asks for gives the samples behind those that have been counted, and
moves reader and count. -/
theorem StandsByCount.read_of_not_needsMore (stands : d.StandsByCount h content dry s)
    (left : s.samplesRead < h.sampleCount) (enough : ¬ d.NeedsMore h content dry s) :
    ∃ s', d.read = (.ok (h.packetAt content s.samplesRead (d.nextCount s)),
        d.holding s') ∧
      (d.holding s').StandsByCount h content dry s' ∧
      s'.samplesRead = s.samplesRead + d.nextCount s := by
  obtain ⟨open_, rfl, within, at_, more⟩ := stands
  have wet : dry = false := by
    cases dry with
    | true => exact absurd ⟨left, .inl rfl⟩ enough
    | false => rfl
  subst wet
  have present := Nat.le_of_not_lt fun lacks => enough ⟨left, .inr lacks⟩
  rw [Header.positionOf_add] at present
  have long : d.nextCount s * s.header.format.blockAlign.toNat ≤ s.reader.rest.length := by
    rw [at_.rest, List.length_drop, Header.standOf, if_neg Bool.false_ne_true]
    omega
  obtain ⟨reader, taken⟩ : ∃ reader,
      s.reader.read (d.nextCount s * s.header.format.blockAlign.toNat) =
        (some (s.reader.rest.take (d.nextCount s * s.header.format.blockAlign.toNat)), reader) :=
    ⟨_, Prod.ext (Reader.read_of_le_length long) rfl⟩
  obtain ⟨-, -, further⟩ := at_.of_read taken
  refine ⟨{ s with reader, samplesRead := s.samplesRead + d.nextCount s }, ?_,
    ⟨reads_holding .., rfl, ?_, ?_, fun dry => absurd dry Bool.false_ne_true⟩, rfl⟩
  · rw [read_of_more open_ left, taken, at_.rest]
    rfl
  · show s.samplesRead + d.nextCount s ≤ s.header.sampleCount
    rw [nextCount]
    omega
  · show reader.StandsAt content (s.header.positionOf (s.samplesRead + d.nextCount s))
    rw [Header.positionOf_add]
    exact further

/-- Each operation leaves the reader where the count says. -/
theorem StandsByCount.after (stands : d.StandsByCount h content dry s)
    (aligned : 0 < h.format.blockAlign.toNat) (operation : Operation) :
    ∃ s', (d.after operation).StandsByCount h content (d.dryAfter dry operation) s' := by
  cases operation with
  | read =>
    by_cases left : s.samplesRead < h.sampleCount
    · by_cases needs : d.NeedsMore h content dry s
      · obtain ⟨reader, reading, ending⟩ := stands.read_of_needsMore aligned needs
        refine ⟨{ s with reader }, ?_⟩
        simp only [Demuxer.after, dryAfter, reading]
        exact ⟨reads_holding .., stands.header, stands.within, ending, fun _ => left⟩
      · obtain ⟨s', reading, stands', -⟩ := stands.read_of_not_needsMore left needs
        refine ⟨s', ?_⟩
        simp only [Demuxer.after, dryAfter, reading]
        exact stands'
    · have all : s.header.sampleCount ≤ s.samplesRead := by
        rw [stands.header]
        exact Nat.le_of_not_lt left
      refine ⟨s, ?_⟩
      simp only [Demuxer.after, dryAfter, read_of_sampleCount_le stands.reads all]
      exact stands
  | seek target =>
    have open_ : d.IsOpenOn h content := ⟨s, stands.reads, stands.header, stands.reader.bytes⟩
    by_cases inside : 0 ≤ target.toInt ∧ target.toInt ≤ h.sampleCount
    · refine ⟨.startingAt h content target.toInt.toNat, ?_⟩
      simp only [Demuxer.after, dryAfter, seek_of_inside open_ inside.1 inside.2]
      refine ⟨reads_holding .., rfl, ?_, ⟨rfl, rfl, rfl⟩, fun dry => absurd dry Bool.false_ne_true⟩
      show target.toInt.toNat ≤ h.sampleCount
      omega
    · have outside : target.toInt < 0 ∨ (h.sampleCount : Int) < target.toInt := by omega
      refine ⟨s, ?_⟩
      simp only [Demuxer.after, dryAfter, seek_of_outside open_ outside]
      exact stands
  | resize samples =>
    exact ⟨s, stands.reads.resized samples, stands.header, stands.within, stands.reader,
      stands.more⟩

/-! ## Runs -/

/-- Whether a file has run dry when operations have been done: a read has lacked data since the last
seek that was not refused. -/
def isDry (d : Demuxer) (dry : Bool) : List Operation → Bool
  | [] => dry
  | operation :: rest => (d.after operation).isDry (d.dryAfter dry operation) rest

theorem StandsByCount.afterAll (stands : d.StandsByCount h content dry s)
    (aligned : 0 < h.format.blockAlign.toNat) (operations : List Operation) :
    ∃ s', (d.afterAll operations).StandsByCount h content (d.isDry dry operations) s' := by
  induction operations generalizing d dry s with
  | nil => exact ⟨s, stands⟩
  | cons operation rest ih =>
    obtain ⟨s', stands'⟩ := stands.after aligned operation
    exact ih stands'

/-- If the sample data is present, an operation does not run the file dry. -/
theorem StandsByCount.dryAfter_of_present (stands : d.StandsByCount h content false s)
    (present : h.dataStart + h.dataSize.toNat ≤ content.length) (operation : Operation) :
    d.dryAfter false operation = false := by
  cases operation with
  | read =>
    by_cases left : s.samplesRead < h.sampleCount
    · have enough : ¬ d.NeedsMore h content false s := by
        rintro ⟨-, lacks⟩
        have within : s.samplesRead + d.nextCount s ≤ h.sampleCount := by
          rw [nextCount, stands.header]
          omega
        exact absurd (lacks.resolve_left Bool.false_ne_true)
          (Nat.not_lt.mpr (h.le_length_of_present present within))
      obtain ⟨s', reading, -⟩ := stands.read_of_not_needsMore left enough
      simp only [dryAfter, reading]
    · have all : s.header.sampleCount ≤ s.samplesRead := by
        rw [stands.header]
        exact Nat.le_of_not_lt left
      simp only [dryAfter, read_of_sampleCount_le stands.reads all]
  | seek target =>
    simp only [dryAfter]
    split <;> rfl
  | resize samples => rfl

/-- If the sample data is present, the file never runs dry. -/
theorem StandsByCount.isDry_of_present (stands : d.StandsByCount h content false s)
    (aligned : 0 < h.format.blockAlign.toNat)
    (present : h.dataStart + h.dataSize.toNat ≤ content.length) (operations : List Operation) :
    d.isDry false operations = false := by
  induction operations generalizing d s with
  | nil => rfl
  | cons operation rest ih =>
    have wet := stands.dryAfter_of_present present operation
    obtain ⟨s', stands'⟩ := stands.after aligned operation
    rw [isDry, wet]
    rw [wet] at stands'
    exact ih stands'

/-! ## What the count is good for -/

/-- What holds of an open file by the count of its samples, and whether it has run dry. -/
structure KeepsPlace (d : Demuxer) (h : Header) (content : Bytes) (dry : Bool) (s : Source) :
    Prop where
  stands : d.StandsByCount h content dry s
  /-- As long as samples are left and the read does not lack data, it gives those behind the
  count. -/
  gives : s.samplesRead < h.sampleCount → ¬ d.NeedsMore h content dry s →
    d.read.1 = .ok (h.packetAt content s.samplesRead (d.nextCount s))
  lacks : d.NeedsMore h content dry s → d.read.1 = .error (.audioUnread .shortRead)
  /-- At the end of the stream a read changes nothing. Where data is lacking it moves the reader to
  the end of the file and changes nothing else. -/
  fails : ∀ failure d', d.read = (.error failure, d') →
    (failure = .endOfStream ∧ s.samplesRead = h.sampleCount ∧ d' = d) ∨
    (failure = .audioUnread .shortRead ∧ d.NeedsMore h content dry s ∧ ∃ reader : Reader,
      d' = d.holding { s with reader } ∧
      reader.position = max content.length (h.positionOf s.samplesRead))
  /-- A read for samples that the file has gives those behind the count, unless it has run dry. -/
  lowered : ∀ samples, 0 < samples → s.samplesRead + samples ≤ h.sampleCount →
    h.positionOf (s.samplesRead + samples) ≤ content.length →
    (d.after (.resize samples)).read.1 =
      if dry then .error (.audioUnread .shortRead)
      else .ok (h.packetAt content s.samplesRead samples)
  /-- A seek to the count brings the reader back. Then they are given in any case. -/
  soughtBack : ∀ samples, 0 < samples → s.samplesRead + samples ≤ h.sampleCount →
    h.positionOf (s.samplesRead + samples) ≤ content.length →
    (d.afterAll [.seek (.ofNat s.samplesRead), .resize samples]).read.1 =
      .ok (h.packetAt content s.samplesRead samples)

theorem StandsByCount.read_of_resize (stands : d.StandsByCount h content dry s)
    (aligned : 0 < h.format.blockAlign.toNat) {samples : Nat} (some_ : 0 < samples)
    (within : s.samplesRead + samples ≤ h.sampleCount)
    (present : h.positionOf (s.samplesRead + samples) ≤ content.length) :
    (d.after (.resize samples)).read.1 =
      if dry then .error (.audioUnread .shortRead)
      else .ok (h.packetAt content s.samplesRead samples) := by
  have resized : (d.after (.resize samples)).StandsByCount h content dry s :=
    ⟨stands.reads.resized samples, stands.header, stands.within, stands.reader, stands.more⟩
  have asks : (d.after (.resize samples)).nextCount s = samples := by
    show min (max samples 1) (s.header.sampleCount - s.samplesRead) = samples
    rw [stands.header]
    omega
  have left : s.samplesRead < h.sampleCount := by omega
  cases dry with
  | true =>
    obtain ⟨reader, reading, -⟩ := resized.read_of_needsMore aligned ⟨left, .inl rfl⟩
    rw [reading]
    rfl
  | false =>
    have enough : ¬ (d.after (.resize samples)).NeedsMore h content false s := by
      rw [NeedsMore, asks]
      rintro ⟨-, lacks⟩
      exact absurd (lacks.resolve_left Bool.false_ne_true) (Nat.not_lt.mpr present)
    obtain ⟨s', reading, -⟩ := resized.read_of_not_needsMore left enough
    rw [reading, asks]
    rfl

theorem StandsByCount.keepsPlace (stands : d.StandsByCount h content dry s)
    (aligned : 0 < h.format.blockAlign.toNat) : d.KeepsPlace h content dry s := by
  constructor
  case stands => exact stands
  case gives =>
    intro left enough
    obtain ⟨s', reading, -⟩ := stands.read_of_not_needsMore left enough
    rw [reading]
  case lacks =>
    intro needs
    obtain ⟨reader, reading, -⟩ := stands.read_of_needsMore aligned needs
    rw [reading]
  case fails =>
    intro failure d' failed
    by_cases left : s.samplesRead < h.sampleCount
    · by_cases needs : d.NeedsMore h content dry s
      · obtain ⟨reader, reading, ending⟩ := stands.read_of_needsMore aligned needs
        rw [reading] at failed
        cases failed
        exact .inr ⟨rfl, needs, reader, rfl, ending.position⟩
      · obtain ⟨s', reading, -⟩ := stands.read_of_not_needsMore left needs
        rw [reading] at failed
        cases failed
    · have all := Nat.le_of_not_lt left
      rw [← stands.header] at all
      rw [read_of_sampleCount_le stands.reads all] at failed
      cases failed
      exact .inl ⟨rfl, Nat.le_antisymm stands.within (Nat.le_of_not_lt left), rfl⟩
  case lowered =>
    intro samples some_ within present
    exact stands.read_of_resize aligned some_ within present
  case soughtBack =>
    intro samples some_ within present
    have open_ : d.IsOpenOn h content := ⟨s, stands.reads, stands.header, stands.reader.bytes⟩
    have target : (Int64.ofNat s.samplesRead).toInt = s.samplesRead :=
      Header.toInt_ofNat_of_le stands.within
    have sought : d.seek (.ofNat s.samplesRead) =
        (.ok (), d.holding (.startingAt h content s.samplesRead)) := by
      rw [seek_of_inside open_ (by omega) (by rw [target]; exact Int.ofNat_le.mpr stands.within),
        target, Int.toNat_natCast]
    have back : (d.holding (.startingAt h content s.samplesRead)).StandsByCount h content false
        (.startingAt h content s.samplesRead) :=
      ⟨reads_holding .., rfl, stands.within, ⟨rfl, rfl, rfl⟩,
        fun dry => absurd dry Bool.false_ne_true⟩
    show ((d.seek (.ofNat s.samplesRead)).2.after (.resize samples)).read.1 = _
    rw [sought]
    exact back.read_of_resize aligned some_ within present

/-- **Reader and count keep together but for reads that lack data.** After any reads, seeks and
changes of the packet size on a file that was opened, no more samples have been counted than it
states. The reader stands where the next of them starts, unless a read has lacked data since the
last seek. Then it stands at the end of the file, and reads fail until a seek. A file that holds all
it states never gets there. -/
theorem afterAll_keepsPlace {d₀ d₁ : Demuxer} {tree : FileTree} {path : Path} {content : Bytes}
    {h : Header} (file : tree.read path = .ok (.file content))
    (opened : d₀.open tree path = (.ok (), d₁)) (header : d₁.header? = some h)
    (history : List Operation) :
    (∃ s, (d₁.afterAll history).KeepsPlace h content (d₁.isDry false history) s) ∧
      (h.dataStart + h.dataSize.toNat ≤ content.length → d₁.isDry false history = false) := by
  obtain ⟨s, found, rfl⟩ := open_eq_ok opened
  cases header
  rw [file] at found
  obtain ⟨_, r, same, read, -, reader, start⟩ := openNode_eq_ok found
  cases same
  obtain ⟨-, -, decodable, -, -⟩ := of_openNode found
  have aligned := decodable.blockAlign_pos
  have ready := (Header.isReadFrom_of_read read).stands.seek s.header.dataStart
  have begun : (d₀.holding s).StandsByCount s.header content false s := by
    refine ⟨reads_holding .., rfl, ?_, ?_, fun dry => absurd dry Bool.false_ne_true⟩
    · rw [start]
      exact Nat.zero_le _
    · show s.reader.StandsAt content (s.header.positionOf s.samplesRead)
      rw [reader, start, Header.positionOf, Nat.zero_mul, Nat.add_zero]
      exact ready
  obtain ⟨s', stands⟩ := begun.afterAll aligned history
  exact ⟨⟨s', stands.keepsPlace aligned⟩, fun present => begun.isDry_of_present aligned present _⟩

/-- The read of two samples gives them, and the read of two more lacks half a sample. The seek
behind the last sample is refused. -/
def overreach : List Operation :=
  [.resize 2, .read, .read, .seek 99]

/-- A file that holds the three samples it states. -/
def wholeFiles : FileTree where
  entries := [(["whole.wav"], .file (monoWav 6 [1, 2, 3, 4, 5, 6]))]

theorem afterAll_keepsPlace_cut :
    (∃ (h : Header) (d : Demuxer) (s : Source),
      Demuxer.open {} cutFiles (.ofText "cut.wav") = (.ok (), d) ∧ d.header? = some h ∧
        d.isDry false overreach = true ∧ d.isDry false (overreach ++ [.seek 2]) = false ∧
        (d.afterAll overreach).KeepsPlace h (monoWav 12 [1, 2, 3, 4, 5, 6, 7]) true s) ∧
      ∃ d : Demuxer, Demuxer.open {} wholeFiles (.ofText "whole.wav") = (.ok (), d) ∧
        d.isDry false overreach = false := by
  have ready : (openNode (.ok (.file (monoWav 12 [1, 2, 3, 4, 5, 6, 7])))).toOption.any (fun s =>
      isDry (holding {} s) false overreach = true ∧
        isDry (holding {} s) false (overreach ++ [.seek 2]) = false) = true := by
    decide +kernel
  obtain ⟨s, found, ready⟩ := (Option.any_eq_true ..).mp ready
  obtain ⟨dry, wet⟩ := of_decide_eq_true ready
  have opened := open_of_toOption {} cutFiles (.ofText "cut.wav") found
  obtain ⟨⟨s', keeps⟩, -⟩ := afterAll_keepsPlace rfl opened rfl overreach
  rw [dry] at keeps
  have whole : (openNode (.ok (.file (monoWav 6 [1, 2, 3, 4, 5, 6])))).toOption.any (fun s =>
      s.header.dataStart + s.header.dataSize.toNat ≤ (monoWav 6 [1, 2, 3, 4, 5, 6]).length) =
        true := by
    decide +kernel
  obtain ⟨w, found', present⟩ := (Option.any_eq_true ..).mp whole
  have opened' := open_of_toOption {} wholeFiles (.ofText "whole.wav") found'
  exact ⟨⟨s.header, _, s', opened, rfl, dry, wet, keeps⟩, _, opened',
    (afterAll_keepsPlace rfl opened' rfl overreach).2 (of_decide_eq_true present)⟩

/-- A read for four samples fails if the file has three and a half. No sample has been counted, but
the reader is at the end of the file, and a read for three samples fails as well. -/
theorem position_of_overread :
    ∃ (d : Demuxer) (s : Source),
      Demuxer.open {} cutFiles (.ofText "cut.wav") = (.ok (), d) ∧
        (d.afterAll [.resize 4, .read]).Reads s ∧ s.samplesRead = 0 ∧
        s.header.positionOf 0 = 44 ∧ s.reader.position = 51 ∧
        s.header.positionOf 3 ≤ (monoWav 12 [1, 2, 3, 4, 5, 6, 7]).length ∧
        (d.afterAll [.resize 4, .read, .resize 3]).read.1.toOption.isNone = true := by
  have ready : (openNode (.ok (.file (monoWav 12 [1, 2, 3, 4, 5, 6, 7])))).toOption.any (fun s =>
      s.header.positionOf 0 = 44 ∧
      s.header.positionOf 3 ≤ (monoWav 12 [1, 2, 3, 4, 5, 6, 7]).length ∧
      (afterAll (holding {} s) [.resize 4, .read]).samplesRead = 0 ∧
      (afterAll (holding {} s) [.resize 4, .read]).reader.map Reader.position = some 51 ∧
      (afterAll (holding {} s) [.resize 4, .read, .resize 3]).read.1.toOption.isNone =
        true) = true := by
    decide +kernel
  obtain ⟨s, found, ready⟩ := (Option.any_eq_true ..).mp ready
  obtain ⟨place, present, count, position, fails⟩ := of_decide_eq_true ready
  have opened := open_of_toOption {} cutFiles (.ofText "cut.wav") found
  obtain ⟨s', reads, header, -⟩ := (isOpenOn_of_open rfl opened rfl).afterAll [.resize 4, .read]
  rw [reads.samplesRead] at count
  rw [reads.reader] at position
  rw [← header] at place present
  exact ⟨_, s', opened, reads, count, place, Option.some.inj position, present, fails⟩

end Demuxer

end Wav

end VorbisTrack
