import VorbisTrack.Proofs.Command.Job

/-!
# Encoding a WAVE file conserves samples and packets

When a WAVE file is encoded, everything is conserved unless the library or a file fails: the
library receives all samples of the file, and the blocks of the file that is written are the
packets that the library has released (`encodeFile_conserves`). The time of a block is that at
which the packets before it end, in whole milliseconds.
-/

set_option autoImplicit false

namespace VorbisTrack

variable {σ : Type} {lib : Library σ}

namespace Command

/-! ## The parts -/

/-- What settings are made of when all texts of a tuning could be read. -/
theorem Tuning.settings_eq_ok {tuning : Tuning} {rate : UInt32} {channels : UInt16}
    {settings : Settings} (settled : tuning.settings rate channels = .ok settings) :
    ∃ bitRate minRate maxRate comments, tuning.bitrate.mapM Bitrate.read = .ok bitRate ∧
      tuning.minRate.mapM Bitrate.read = .ok minRate ∧
      tuning.maxRate.mapM Bitrate.read = .ok maxRate ∧
      tuning.comments.mapM readComment = .ok comments ∧
      settings =
        { codec := "vorbis"
          rate
          channels
          bitRate := bitRate.getD 0
          quality := tuning.quality
          minRate
          maxRate
          cutoff := tuning.cutoff
          comments
          options := tuning.blockBias.toList.map fun bias =>
            (EncodingOptions.blockBiasName, floatText bias) } := by
  simp only [Tuning.settings, bind, Except.bind] at settled
  split at settled
  · cases settled
  · next bitRate nominal =>
    split at settled
    · cases settled
    · next minRate lower =>
      split at settled
      · cases settled
      · next maxRate upper =>
        split at settled
        · cases settled
        · next comments tags =>
          cases settled
          exact ⟨bitRate, minRate, maxRate, comments, nominal, lower, upper, tags, rfl⟩

/-- The settings of the encoder are for the rate and the channels of the file, and its packets count
samples. -/
theorem Tuning.of_settings {tuning : Tuning} {rate : UInt32} {channels : UInt16}
    {settings : Settings} (settled : tuning.settings rate channels = .ok settings) :
    settings.rate = rate ∧ settings.channels = channels ∧
      settings.timeBase = .perSample rate ∧ settings.streamIndex = 0 := by
  obtain ⟨_, _, _, _, -, -, -, -, rfl⟩ := settings_eq_ok settled
  exact ⟨rfl, rfl, rfl, rfl⟩

def headOf (docType : DocType) (encoder : Encoder lib) (settings : Settings) : Matroska.Head where
  docType
  tracks := [{ number := 1, stream := streamOf encoder settings }]
  list := _
  encodes := rfl

/-- If the output can be created, its head is written. -/
theorem openOutput_ok {output : String} {docType : DocType} {location : Location}
    {files created : FileTree} (encoder : Encoder lib) (settings : Settings)
    (format : DocType.ofName? (formatOf output) = some docType)
    (made : files.create (.ofText output) = .ok (location, created)) :
    ∃ muxer files', openOutput output (streamOf encoder settings) files = (.ok muxer, files') ∧
      muxer.Holds files' location (headOf docType encoder settings) [] ∧
      muxer.cluster.blocks = [] ∧ files.ChangesOnly location files' := by
  obtain ⟨begun, empty⟩ := Matroska.Muxer.create_eq_ok (m := { docType }) rfl made
  obtain ⟨-, -, changed, -⟩ := FileTree.of_create made
  -- The stream of the encoder is the first one, so it gets the number of the head's only track.
  obtain ⟨registry, streams, added⟩ := @Matroska.Muxer.addStream_eq_ok
    { docType, output := some { location } } (streamOf encoder settings) rfl rfl rfl rfl
  have tracks : registry.tracks = (headOf docType encoder settings).tracks :=
    congrArg Matroska.tracksOf streams
  have tracked : registry.tracks ≠ [] := by
    rw [tracks]
    exact List.cons_ne_nil _ _
  obtain ⟨muxer, files', written, holds, fresh, changed'⟩ :=
    @Matroska.Muxer.holds_writeHeader { docType, output := some { location }, registry } created
      { location } (headOf docType encoder settings) rfl rfl tracks tracked rfl empty rfl rfl
  refine ⟨muxer, files', ?_, holds, fresh, changed.trans changed'⟩
  simp only [openOutput, Matroska.Muxer.ofFormat, format, begun, begin, added, written]

/-- With an encoder that has just been opened, and once the head of the output has been written, a
job stands at the first sample. -/
theorem Job.stands_of_open {task : Task} {settings : Settings} {encoder : Encoder lib}
    {trace : List Event} (opened : Encoder.open lib settings = (.ok encoder, trace))
    (rate : settings.rate = task.rate) (channels : settings.channels = task.header.format.channels)
    (timeBase : settings.timeBase = .perSample task.rate) (index : settings.streamIndex = 0)
    {input : Path} {muxer : Matroska.Muxer} {files : FileTree}
    (reaches : Reaches { input, encoder, muxer, files } task)
    (holds : muxer.Holds files task.location task.head []) (empty : muxer.cluster.blocks = []) :
    Stands { input, encoder, muxer, files } task false 0 [] := by
  obtain ⟨running, planes⟩ := Encoder.running_of_open opened
  have agrees := Encoder.agreesOnEnd_of_open opened
  obtain ⟨staged, released⟩ := Encoder.staged_released_of_open opened
  obtain ⟨resolved, sameBase, sameIndex, staging, start, position, received⟩ :=
    Encoder.fresh_of_open opened
  obtain ⟨sameRate, sameChannels, -⟩ := EncodingOptions.of_resolve resolved
  refine ⟨agrees.trans running, agrees, reaches, ⟨holds, .inl empty, rfl, rfl⟩,
    ⟨sameRate.trans rate, sameBase.trans timeBase, sameIndex.trans index, ?_, ?_⟩, fun _ => rfl,
    ?_, ?_, sameChannels.trans channels, planes, rfl, fun c _ => received c⟩
  · show encoder.start.getD 0 = 0
    rw [start]
    rfl
  · show encoder.position.toInt = 0
    rw [position]
    rfl
  · rw [staged]
    exact released
  · show encoder.staging.Charged
    rw [staging]
    rfl

/-! ## Libraries that do not fail -/

/-- All calls that the encoding of a file makes are answered by the library. -/
theorem isAnswerOf_of_mem_calls {tuning : Tuning} {input output : String} {files : FileTree}
    {event : Event} (member : event ∈ (encodeFile lib tuning input output files).calls) :
    event.IsAnswerOf lib := by
  have closed {s : Session lib} (h : s.IsAnswered) :
      ∀ event ∈ s.release.trace, event.IsAnswerOf lib := by
    intro event told
    exact (Session.leadsTo_release s).answered h event (List.mem_reverse.mp told)
  have unused (options : EncodingOptions) : (Session.unused lib options).IsAnswered :=
    fun event none => by cases none
  unfold encodeFile at member
  split at member
  · cases member
  · next source settings _ =>
    -- However far the encoding gets, its calls are those of one session, which is given back in
    -- the end.
    rcases Encoder.open_cases lib settings with
      ⟨_, opened⟩ | ⟨options, s, set, ⟨_, opened⟩ | ⟨encoder, opened, rfl⟩⟩
    · rw [opened] at member
      cases member
    · rw [opened] at member
      exact closed (set.answered (unused options)) event member
    · rw [opened] at member
      simp only at member
      split at member
      · exact closed (set.answered (unused options)) event member
      · next muxer files' _ =>
        have ran := Job.leadsTo_run (.holding {} source)
          { input := .ofText input, encoder, muxer, files := files' }
        exact closed (ran.answered (set.answered (unused options))) event member

/-- With a library that gives fine answers only, the encoding of a file gets no others. -/
theorem isFine_of_library (h : lib.IsFine) {tuning : Tuning} {input output : String}
    {files : FileTree} :
    ∀ event ∈ (encodeFile lib tuning input output files).calls, event.IsFine := by
  rintro ⟨call, answer⟩ member
  obtain ⟨state, same⟩ := isAnswerOf_of_mem_calls member
  have fine := h call state
  rwa [← same] at fine

/-! ## The whole -/

def Encoding.released (encoding : Encoding) : List RawPacket :=
  encoding.calls.filterMap Event.released?

/-- All samples of a WAVE file have reached the library, and the blocks of the output are the
packets that the library has released. The output has no other blocks. Its size bounds what is
counted of the packets. -/
structure Encoding.Conserves (encoding : Encoding) (header : Wav.Header) (content : Bytes)
    (output : Path) (head : Matroska.Head) : Prop where
  result : encoding.result = .ok
    ({ samples := header.sampleCount
       packets := encoding.released.length
       bytes := totalSize encoding.released },
      header.format.rate)
  received : ∀ c < header.format.channels.toNat, receivedIn encoding.calls c =
    (List.range header.sampleCount).map
      (header.sample content (ChannelLayout.source header.format.channels.toNat c))
  few : header.sampleCount < 2 ^ 32
  /-- Nothing is left of the sample data that another sample could be read from. -/
  all : header.sampleCount * header.format.blockAlign.toNat ≤ header.dataSize.toNat ∧
    header.dataSize.toNat < (header.sampleCount + 1) * header.format.blockAlign.toNat
  written : ∃ clusters file, encoding.files.read output = .ok (.file file) ∧
    head.IsFileOf clusters (blocksFrom header.format.rate 0 encoding.released) file ∧
    encoding.released.length + totalSize encoding.released ≤ file.length ∧
    ∀ tracks clusters' cues, Matroska.IsFile tracks clusters' cues file → clusters' = clusters

def Job.encoding (job : Job lib) (result : Except Failure Unit) (rate : UInt32) : Encoding where
  result := (result.map fun () => (job.tally, rate)).mapError .failed
  calls := job.encoder.close.trace
  files := job.release

/-- Closing the encoder of a completed job neither hands over samples nor releases packets. -/
theorem Job.Completes.conserves {job : Job lib} {task : Task} (complete : job.Completes task)
    (plain : task.output.endsInSlash = false) :
    (job.encoding (.ok ()) task.rate).Conserves task.header task.content task.output task.head := by
  have closed : job.encoder.session.Makes .setup job.encoder.close :=
    Session.makes_release complete.ended
  have released : (job.encoding (.ok ()) task.rate).released = job.encoder.session.released :=
    closed.released (by decide)
  obtain ⟨clusters, file, stands, laid⟩ := complete.written
  rw [← released] at laid
  refine ⟨?_, ?_, task.header.sampleCount_lt,
    ⟨task.header.sampleCount_mul_le, task.decodable.lt_sampleCount_succ_mul⟩, clusters, file, ?_,
    laid, ?_, ?_⟩
  · show Except.ok (job.tally, task.rate) = _
    rw [released, ← complete.samples, ← complete.packets, ← complete.bytes]
    rfl
  · intro c inRange
    exact (closed.received (by decide) c).trans (complete.received c inRange)
  · exact FileTree.read_eq_file complete.output stands plain
  · rw [← sum_room_blocksFrom]
    exact laid.room_le
  · intro tracks clusters' cues other
    refine laid.clusters_eq (fun block member => ?_) other
    rw [track_of_mem_blocksFrom member]
    decide

/-- A job that stands at the first sample and gets fine answers only conserves. -/
theorem Job.Stands.conserves {job : Job lib} {task : Task} {source : Wav.Source}
    (stands : job.Stands task false source.samplesRead [])
    (empty : job.encoder.staging.packets = []) (header : source.header = task.header)
    (within : source.StandsIn task.content) (start : source.samplesRead = 0)
    (plain : task.output.endsInSlash = false)
    (fine : ∀ event ∈ (job.run (.holding {} source)).2.encoder.close.trace, event.IsFine) :
    ((job.run (.holding {} source)).2.encoding (job.run (.holding {} source)).1
      task.rate).Conserves task.header task.content task.output task.head := by
  have good : (job.run (.holding {} source)).2.encoder.session.IsFine := by
    intro event member
    apply fine event
    exact List.mem_reverse.mpr ((Session.leadsTo_release _).log.mem member)
  obtain ⟨ok, complete⟩ := stands.run empty (Wav.Demuxer.reads_holding {} source) header within
    (show 1024 ≤ Session.maxCount by decide) (by rw [start]; exact Nat.zero_le _) good
  rw [ok]
  exact complete.conserves plain

def taskOf {header : Wav.Header} {content : Bytes} (decodable : header.IsDecodable)
    (present : header.dataStart + header.dataSize.toNat ≤ content.length) (output : Path)
    (location : Location) (docType : DocType) (encoder : Encoder lib) {settings : Settings}
    (rate : settings.rate = header.format.rate) : Task where
  header
  content
  decodable
  present
  output
  location
  head := headOf docType encoder settings
  stream := streamOf encoder settings
  tracks := rfl
  index := rfl
  timeBase := congrArg Rational.perSample rate

/-- **Encoding conserves.** A WAVE file whose sample data is present is encoded, if its settings are
valid, its output can be created as another file, and the library does not fail. -/
theorem encodeFile_conserves {tuning : Tuning} {input output : String} {files created : FileTree}
    {content : Bytes} {source : Wav.Source} {settings : Settings} {options : EncodingOptions}
    {docType : DocType} {location : Location}
    (read : files.read (.ofText input) = .ok (.file content))
    (accepted : Wav.Demuxer.openNode (.ok (.file content)) = .ok source)
    (present : source.header.dataStart + source.header.dataSize.toNat ≤ content.length)
    (settled : tuning.settings source.header.format.rate source.header.format.channels =
      .ok settings)
    (resolved : EncodingOptions.resolve settings = .ok options)
    (format : DocType.ofName? (formatOf output) = some docType)
    (made : files.create (.ofText output) = .ok (location, created))
    (apart : files.locate (.ofText input) ≠ .ok location)
    (fine : ∀ event ∈ (encodeFile lib tuning input output files).calls, event.IsFine) :
    ∃ encoder trace, Encoder.open lib settings = (.ok encoder, trace) ∧
      (encodeFile lib tuning input output files).Conserves source.header content
        (.ofText output) (headOf docType encoder settings) := by
  obtain ⟨_, node, decodable, within, start⟩ := Wav.Demuxer.of_openNode accepted
  cases node
  obtain ⟨rate, channels, timeBase, index⟩ := Tuning.of_settings settled
  obtain ⟨outputAt, plain, -, -⟩ := FileTree.of_create made
  have opened : openInput input files = .ok source := by
    rw [openInput, read, accepted]
    rfl
  have prepared : prepare tuning input files = .ok (source, settings) := by
    simp only [prepare, opened, settled, bind, Except.bind, pure, Except.pure]
  generalize encoded : encodeFile lib tuning input output files = encoding at fine ⊢
  simp only [encodeFile, prepared] at encoded
  generalize open_ : Encoder.open lib settings = reply at encoded ⊢
  obtain ⟨result, trace⟩ := reply
  cases result with
  | error failure =>
    -- The encoder can be opened, as none of the calls for that has failed.
    have base : settings.timeBase.isTimeBase = true := by
      rw [timeBase]
      exact Rational.isTimeBase_perSample decodable.rate
    obtain ⟨e, calls, ok⟩ := @Encoder.open_ok _ lib _ _ base resolved (by
      rw [open_]
      rw [← encoded] at fine
      exact fun event member => (fine event member).good)
    rw [open_] at ok
    cases ok
  | ok encoder =>
    obtain ⟨muxer, files', begun, holds, empty, changed⟩ :=
      openOutput_ok encoder settings format made
    -- From here on the encoding is the run of a job, which stands at the first sample.
    have stands : Job.Stands { input := .ofText input, encoder, muxer, files := files' }
        (taskOf decodable present (.ofText output) location docType encoder rate) false
        source.samplesRead [] := by
      obtain ⟨place, located⟩ := FileTree.locate_of_read read
      rw [start]
      refine Job.stands_of_open open_ ?_ ?_ ?_ index ?_ holds empty
      · exact rate
      · exact channels
      · exact timeBase
      · refine ⟨changed.read read apart, changed.locate outputAt, place, changed.locate located, ?_⟩
        rintro rfl
        exact apart located
    have unstaged : encoder.staging.packets = [] := (Encoder.staged_released_of_open open_).1
    simp only [begun, rate] at encoded
    rw [← encoded] at fine ⊢
    exact ⟨encoder, trace, rfl, stands.conserves unstaged rfl within start plain fine⟩

/-- A library that makes a block of all that is written, and two packets of every block. -/
def pairLibrary : Library (Nat × Nat) where
  start := (0, 0)
  answer
    | .setup _, s | .analysisInit, s | .blockInit, s | .analysis, s => (0, s)
    | .headerOut, s => ((0, ⟨[1], [3], [5]⟩), s)
    | .buffer _, s => (some fun _ _ => 0, s)
    | .wrote .., (blocks, packets) => (0, (blocks + 1, packets))
    | .blockOut, (0, packets) => (0, (0, packets))
    | .blockOut, (blocks + 1, packets) => (1, (blocks, packets))
    | .addBlock, (blocks, _) => (0, (blocks, 2))
    | .flushPacket, (blocks, 0) => ((0, {}), (blocks, 0))
    | .flushPacket, (blocks, packets + 1) =>
      ((1, { data := [7], granule := 64 }), (blocks, packets))
    | .infoInit, s | .commentInit, s | .commentAdd .., s | .commentClear, s | .blockClear, s
    | .dspClear, s | .infoClear, s => ((), s)
  blocksLeft := Prod.fst
  packetsLeft := Prod.snd
  blocksLeft_blockOut_le
    | (0, _) => Nat.le_refl _
    | (_ + 1, _) => Nat.le_succ _
  blocksLeft_blockOut
    | (0, _) => fun none => by cases none
    | (_ + 1, _) => fun _ => Nat.lt_succ_self _
  blocksLeft_analysis _ := Nat.le_refl _
  blocksLeft_addBlock _ := Nat.le_refl _
  blocksLeft_flushPacket
    | (_, 0) => Nat.le_refl _
    | (_, _ + 1) => Nat.le_refl _
  packetsLeft_flushPacket
    | (_, 0) => fun none => by cases none
    | (_, _ + 1) => fun _ => Nat.lt_succ_self _

theorem isFine_pairLibrary : pairLibrary.IsFine := by
  rintro call ⟨blocks, packets⟩
  constructor
  · cases call with
    | blockOut => cases blocks <;> rfl
    | flushPacket => cases packets <;> rfl
    | _ => rfl
  · intro raw released
    cases call with
    | flushPacket =>
      cases packets with
      | zero => cases released
      | succ packets =>
        cases released
        decide
    | _ => cases released

def rampWav : Bytes :=
  Bytes.ofText "RIFF" ++ Bytes.littleEndian 4 44 ++ Bytes.ofText "WAVEfmt " ++
    Bytes.littleEndian 4 16 ++ Bytes.littleEndian 2 1 ++ Bytes.littleEndian 2 1 ++
    Bytes.littleEndian 4 8000 ++ Bytes.littleEndian 4 16000 ++ Bytes.littleEndian 2 2 ++
    Bytes.littleEndian 2 16 ++ Bytes.ofText "data" ++ Bytes.littleEndian 4 8 ++
    [0, 0, 0, 16, 0, 32, 0, 48]

theorem ok_of_toOption {ε α : Type} {result : Except ε α} {value : α}
    (some_ : result.toOption = some value) : result = .ok value := by
  cases result with
  | error _ => cases some_
  | ok _ => exact congrArg _ (Option.some.inj some_)

def rampFiles : FileTree where
  entries := [(["ramp.wav"], .file rampWav)]

theorem encodeFile_conserves_ramp :
    ∃ (source : Wav.Source) (encoder : Encoder pairLibrary) (settings : Settings),
      Wav.Demuxer.openNode (.ok (.file rampWav)) = .ok source ∧
        (encodeFile pairLibrary { bitrate := some "32000" } "ramp.wav" "ramp.webm"
          rampFiles).Conserves source.header rampWav (.ofText "ramp.webm")
          (headOf .webm encoder settings) := by
  have ready : (Wav.Demuxer.openNode (.ok (.file rampWav))).toOption.any (fun source =>
      source.header.dataStart + source.header.dataSize.toNat ≤ rampWav.length ∧
        (({ bitrate := some "32000" } : Tuning).settings source.header.format.rate
          source.header.format.channels).toOption.any fun settings =>
            (EncodingOptions.resolve settings).toOption.isSome) = true := by
    decide +kernel
  obtain ⟨source, accepted, ready⟩ := (Option.any_eq_true ..).mp ready
  obtain ⟨present, ready⟩ := of_decide_eq_true ready
  obtain ⟨settings, settled, ready⟩ := (Option.any_eq_true ..).mp ready
  obtain ⟨options, resolved⟩ := Option.isSome_iff_exists.mp ready
  have read : rampFiles.read (.ofText "ramp.wav") = .ok (.file rampWav) := rfl
  have made : rampFiles.create (.ofText "ramp.webm") =
      .ok (["ramp.webm"], rampFiles.put ["ramp.webm"] (.file [])) := rfl
  have apart : rampFiles.locate (.ofText "ramp.wav") ≠ .ok ["ramp.webm"] := by
    intro same
    exact absurd (Except.ok.inj same : ["ramp.wav"] = ["ramp.webm"]) (by decide)
  obtain ⟨encoder, _, -, conserves⟩ := encodeFile_conserves read (ok_of_toOption accepted) present
    (ok_of_toOption settled) (ok_of_toOption resolved)
    (show DocType.ofName? (formatOf "ramp.webm") = some .webm from rfl) made apart
    (isFine_of_library isFine_pairLibrary)
  exact ⟨source, encoder, settings, ok_of_toOption accepted, conserves⟩

end Command

end VorbisTrack
