import VorbisTrack.Proofs.Command.Encode
import VorbisTrack.Proofs.Encoder.Exhaustion
import VorbisTrack.Proofs.Encoder.Schedule

/-!
# The final loop of an encoding

When all samples of a file have been sent, the input is ended, and a final loop writes what packets
remain. By then the encoder has come from the one that was opened by operations only, so what is
true of every run is true of it: as its input has ended, it is never to be tried again. Its packets
belong to the one stream of the output, which takes them all. So the loop ends with the end of the
stream or with a failure of the library (`ComesToEnd.drain`), and a file whose encoding succeeds is
not cut short (`encodeFile_comesToEnd`).
-/

set_option autoImplicit false

namespace VorbisTrack.Command

variable {σ : Type} {lib : Library σ}

/-! ## The output -/

theorem takesPackets_of_begin {m m' : Matroska.Muxer} {stream : Stream} {files files' : FileTree}
    (begun : begin m stream files = (.ok (), m', files')) : m'.TakesPackets stream.index := by
  unfold begin at begun
  split at begun
  · cases begun
  · next count m₁ added =>
    have member : { number := m.tracks.length + 1, stream } ∈ m₁.tracks := by
      rw [Matroska.Muxer.tracks_of_addStream added]
      exact List.mem_append_right _ (List.mem_singleton_self _)
    exact Matroska.Muxer.takesPackets_of_writeHeader begun member

/-- An output that could be opened takes all packets of its stream. -/
theorem takesPackets_of_openOutput {output : String} {stream : Stream} {files files' : FileTree}
    {muxer : Matroska.Muxer} (created : openOutput output stream files = (.ok muxer, files')) :
    muxer.TakesPackets stream.index := by
  unfold openOutput at created
  split at created
  · cases created
  · split at created
    · cases created
    · split at created
      · cases created
      · next begun =>
        cases created
        exact takesPackets_of_begin begun

namespace Job

/-- The job has come from an encoder by operations, and its output takes all packets of it. -/
structure ComesFrom (job : Job lib) (e : Encoder lib) : Prop where
  encoder : e.ComesTo job.encoder
  takes : job.muxer.TakesPackets e.streamIndex

variable {e : Encoder lib}

/-- A packet that is received is written, since it belongs to the stream of the output. -/
theorem ComesFrom.receive {job : Job lib} (h : job.ComesFrom e) {packet : Packet}
    {encoder : Encoder lib} (received : job.encoder.receive = (.ok packet, encoder)) :
    ∃ muxer files, job.muxer.writePacket packet job.files = (.ok (), muxer, files) ∧
      ComesFrom { job with encoder, muxer, files, tally := job.tally.count packet } e := by
  have comes := h.encoder.after .receive
  rw [Encoder.after, received] at comes
  have own : packet.stream = e.streamIndex := by
    obtain ⟨operations, same⟩ := h.encoder
    rw [Encoder.stream_of_receive received, same]
    exact (Encoder.leadsTo_afterAll e operations).streamIndex
  obtain ⟨muxer, files, written, takes⟩ := h.takes.writePacket own job.files
  exact ⟨muxer, files, written, comes, takes⟩

/-- Draining a job ends as receiving does, since all packets are written. -/
theorem ComesFrom.drain {job : Job lib} (h : job.ComesFrom e) :
    job.drain.2.ComesFrom e ∧ ∃ failure last, job.drain.1 = .ok failure ∧ e.ComesTo last ∧
      last.ended = job.encoder.ended ∧ last.receive.1 = .error failure := by
  fun_induction Job.drain job with
  | case1 job failure encoder received =>
    have comes := h.encoder.after .receive
    rw [Encoder.after, received] at comes
    exact ⟨⟨comes, h.takes⟩, failure, job.encoder, rfl, h.encoder, rfl, by rw [received]⟩
  | case2 job packet encoder received failure muxer files failed =>
    obtain ⟨_, _, written, -⟩ := h.receive received
    rw [failed] at written
    cases written
  | case3 job packet encoder received muxer files written ih =>
    obtain ⟨_, _, same, next⟩ := h.receive received
    rw [written] at same
    cases same
    obtain ⟨comes, failure, last, ending, before, ended, failed⟩ := ih next
    have first := Encoder.ended_receive job.encoder
    rw [received] at first
    exact ⟨comes, failure, last, ending, before, ended.trans first, failed⟩

theorem ComesFrom.encode {job : Job lib} (h : job.ComesFrom e) (frame : Frame) :
    (job.encode frame).2.ComesFrom e := by
  have sent := h.encoder.after (.send frame)
  rw [Encoder.after] at sent
  unfold Job.encode
  split
  · next failed =>
    rw [failed] at sent
    exact ⟨sent, h.takes⟩
  · next encoder taken =>
    rw [taken] at sent
    rw [job_drainUntil]
    have next : ComesFrom
        { job with
          encoder
          tally := { job.tally with samples := job.tally.samples + frame.sampleCount } } e :=
      ⟨sent, h.takes⟩
    exact next.drain.1

theorem ComesFrom.encodeAll (demuxer : Wav.Demuxer) {job : Job lib} (h : job.ComesFrom e) :
    (job.encodeAll demuxer).2.ComesFrom e := by
  fun_induction Job.encodeAll demuxer job with
  | case1 demuxer job => exact h
  | case2 demuxer job => exact h
  | case3 demuxer job _ _ _ frame _ failure job' encoded =>
    have one := h.encode frame
    rwa [encoded] at one
  | case4 demuxer job _ _ _ frame _ job' encoded ih =>
    have one := h.encode frame
    rw [encoded] at one
    exact ih one

end Job

/-! ## The final loop -/

/-- The encoding of a file comes to its final loop with this job: all has been read and sent, the
end of the input has been accepted, and what packets remain are to be written. -/
inductive ComesToEnd (lib : Library σ) (tuning : Tuning) (input output : String)
    (files : FileTree) : Job lib → Prop
  | flushed {source : Wav.Source} {settings : Settings} {e ended : Encoder lib}
      {trace : List Event} {muxer : Matroska.Muxer} {files' : FileTree} {job : Job lib}
      (prepared : prepare tuning input files = .ok (source, settings))
      (opened : Encoder.open lib settings = (.ok e, trace))
      (created : openOutput output (streamOf e settings) files = (.ok muxer, files'))
      (sent : Job.encodeAll (.holding {} source)
        { input := .ofText input, encoder := e, muxer, files := files' } = (.ok (), job))
      (told : job.encoder.flush = (.ok (), ended)) :
      ComesToEnd lib tuning input output files { job with encoder := ended }

variable {tuning : Tuning} {input output : String} {files : FileTree}

theorem streamIndex_of_prepare {source : Wav.Source} {settings : Settings}
    (prepared : prepare tuning input files = .ok (source, settings)) :
    settings.streamIndex = 0 := by
  simp only [prepare, bind, Except.bind] at prepared
  split at prepared
  · cases prepared
  · split at prepared
    · cases prepared
    · next settled =>
      cases prepared
      exact (Tuning.of_settings settled).2.2.2

/-- **The final loop ends with the end of the stream**, or else with a failure of the library. -/
theorem ComesToEnd.drain {job : Job lib} (h : ComesToEnd lib tuning input output files job) :
    job.drain.1 = .ok .endOfStream ∨
      ∃ failure, failure.IsOfLibrary ∧ job.drain.1 = .ok failure := by
  obtain ⟨prepared, opened, created, sent, told⟩ := h
  next source settings e ended trace muxer files' job =>
  -- The one stream of the output is that of the encoder.
  have stream : e.streamIndex = 0 := by
    obtain ⟨-, _, _, _, _, -, -, -, rfl, -⟩ := Encoder.open_eq_ok_iff.mp opened
    exact streamIndex_of_prepare prepared
  have start :
      Job.ComesFrom { input := .ofText input, encoder := e, muxer, files := files' } e := by
    refine ⟨.refl e, ?_⟩
    rw [stream]
    exact takesPackets_of_openOutput created
  have read := start.encodeAll (.holding {} source)
  rw [sent] at read
  have last : Job.ComesFrom { job with encoder := ended } e := by
    have comes := read.encoder.after .flush
    rw [Encoder.after, told] at comes
    exact ⟨comes, read.takes⟩
  obtain ⟨-, failure, final, ending, before, same, failed⟩ := last.drain
  have charged : final.staging.Charged := by
    obtain ⟨operations, rfl⟩ := before
    exact Encoder.charged_afterAll operations (Encoder.charged_of_open opened)
  have stopped : final.ended = true := same.trans (Encoder.ended_of_flush told)
  rw [ending]
  rcases Encoder.receive_of_ended charged stopped failed with rfl | ofLibrary
  · exact .inl rfl
  · exact .inr ⟨failure, ofLibrary, rfl⟩

/-- A drain that succeeds has ended in the expected way. -/
theorem Job.kind_of_drainUntil {job : Job lib} {expected : FailureKind} {failure : Failure}
    (ok : (job.drainUntil expected).1 = .ok ()) (ending : job.drain.1 = .ok failure) :
    failure.kind = expected := by
  unfold drainUntil at ok
  split at ok
  · cases ok
  · next drained =>
    rw [drained] at ending
    cases ending
    split at ok
    · assumption
    · cases ok

/-- A job that is run to the end has sent all, ended the input, and drained to the end of the
stream. -/
theorem Job.of_run {demuxer : Wav.Demuxer} {job : Job lib} (ran : (job.run demuxer).1 = .ok ()) :
    ∃ sent ended, job.encodeAll demuxer = (.ok (), sent) ∧
      sent.encoder.flush = (.ok (), ended) ∧
      (Job.drainUntil .endOfStream { sent with encoder := ended }).1 = .ok () := by
  unfold Job.run at ran
  split at ran
  · cases ran
  · next sent all =>
    refine ⟨sent, ?_⟩
    unfold Job.finish at ran
    split at ran
    · cases ran
    · next ended told =>
      refine ⟨ended, all, told, ?_⟩
      split at ran
      · cases ran
      · next drained => rw [drained]

/-- An encoding that succeeds has come to its final loop, and in that to the end of the stream. -/
theorem encodeFile_comesToEnd {tally : Tally} {rate : UInt32}
    (encoded : (encodeFile lib tuning input output files).result = .ok (tally, rate)) :
    ∃ job : Job lib, ComesToEnd lib tuning input output files job ∧
      job.drain.1 = .ok .endOfStream := by
  unfold encodeFile at encoded
  split at encoded
  · cases encoded
  · next source settings prepared =>
    split at encoded
    · cases encoded
    · next e trace opened =>
      split at encoded
      · cases encoded
      · next muxer files' created =>
        have ok : (Job.run (.holding {} source)
            { input := .ofText input, encoder := e, muxer, files := files' }).1 = .ok () := by
          generalize Job.run _ _ = reply at encoded
          obtain ⟨result, job⟩ := reply
          cases result with
          | error failure => cases encoded
          | ok => rfl
        obtain ⟨sent, ended, all, told, drained⟩ := Job.of_run ok
        have comes := ComesToEnd.flushed prepared opened created all told
        refine ⟨_, comes, ?_⟩
        rcases comes.drain with ending | ⟨failure, ofLibrary, ending⟩
        · exact ending
        · exact absurd (Job.kind_of_drainUntil drained ending) ofLibrary.kind_ne.2

/-! ## The whole -/

/-- **Receiving tells the truth.** After any operations on an encoder that has been opened, whatever
the library answered, the answer that there is nothing, or nothing any more, is true. So the final
loop of an encoding ends with the end of the stream, or else with a failure of the library. An
encoding that succeeds has come to its final loop, and in that to the end of the stream. -/
theorem receive_isTruthful (lib : Library σ) :
    (∀ (settings : Settings) (e : Encoder lib) (trace : List Event),
      Encoder.open lib settings = (.ok e, trace) → ∀ operations,
        (e.afterAll operations).IsTruthful (e.handedOutAll operations)) ∧
    (∀ (tuning : Tuning) (input output : String) (files : FileTree) (job : Job lib),
      ComesToEnd lib tuning input output files job →
        job.drain.1 = .ok .endOfStream ∨
          ∃ failure, failure.IsOfLibrary ∧ job.drain.1 = .ok failure) ∧
    ∀ (tuning : Tuning) (input output : String) (files : FileTree) (tally : Tally) (rate : UInt32),
      (encodeFile lib tuning input output files).result = .ok (tally, rate) →
        ∃ job : Job lib, ComesToEnd lib tuning input output files job ∧
          job.drain.1 = .ok .endOfStream := by
  refine ⟨?_, ?_, ?_⟩
  · intro settings e trace opened operations
    exact Encoder.isTruthful_afterAll opened operations
  · intro tuning input output files job comes
    exact comes.drain
  · intro tuning input output files tally rate encoded
    exact encodeFile_comesToEnd encoded

def silentWav : Bytes :=
  Bytes.ofText "RIFF" ++ Bytes.littleEndian 4 36 ++ Bytes.ofText "WAVEfmt " ++
    Bytes.littleEndian 4 16 ++ Bytes.littleEndian 2 1 ++ Bytes.littleEndian 2 1 ++
    Bytes.littleEndian 4 8000 ++ Bytes.littleEndian 4 16000 ++ Bytes.littleEndian 2 2 ++
    Bytes.littleEndian 2 16 ++ Bytes.ofText "data" ++ Bytes.littleEndian 4 0

def silentFiles : FileTree where
  entries := [(["silent.wav"], .file silentWav)]

def silentSettings : Settings where
  codec := "vorbis"
  rate := 8000
  channels := 1
  bitRate := 32000

/-- There is nothing to encode in a file without samples. -/
theorem Job.encodeAll_of_sampleCount_eq_zero {source : Wav.Source}
    (none : source.header.sampleCount = 0) (job : Job lib) :
    job.encodeAll (.holding {} source) = (.ok (), job) := by
  have all : source.header.sampleCount ≤ source.samplesRead := by
    rw [none]
    exact Nat.zero_le _
  have reads := (Wav.Demuxer.reads_holding {} source).refresh job.inputBytes
  have read := Wav.Demuxer.read_of_sampleCount_le reads all
  rw [Job.encodeAll]
  split
  · next failed =>
    rw [read] at failed
    cases failed
    rfl
  · next packet =>
    rw [read] at packet
    cases packet

theorem prepare_silent : ∃ source,
    prepare { bitrate := some "32000" } "silent.wav" silentFiles = .ok (source, silentSettings) ∧
      source.header.sampleCount = 0 := by
  have accepted : (Wav.Demuxer.openNode (.ok (.file silentWav))).toOption.any (fun source =>
      source.header.sampleCount = 0 ∧ source.header.format.rate = 8000 ∧
        source.header.format.channels = 1) = true := by
    decide +kernel
  obtain ⟨source, accepted, facts⟩ := (Option.any_eq_true ..).mp accepted
  obtain ⟨none, rate, channels⟩ := of_decide_eq_true facts
  have opened : openInput "silent.wav" silentFiles = .ok source := by
    rw [openInput, show silentFiles.read (.ofText "silent.wav") = .ok (.file silentWav) from rfl,
      ok_of_toOption accepted]
    rfl
  have settled : ({ bitrate := some "32000" } : Tuning).settings 8000 1 = .ok silentSettings := rfl
  refine ⟨source, ?_, none⟩
  simp only [prepare, opened, rate, channels, settled, bind, Except.bind, pure, Except.pure]

theorem comesToEnd_silent : ∃ job : Job Encoder.eagerCodec.library,
    ComesToEnd Encoder.eagerCodec.library { bitrate := some "32000" } "silent.wav" "silent.webm"
      silentFiles job := by
  obtain ⟨source, prepared, none⟩ := prepare_silent
  -- The library is not told of the time base, so the encoder is opened as for the mono settings.
  obtain ⟨_, _, mono, native, -⟩ := Encoder.open_monoSettings Encoder.eagerCodec
  obtain ⟨-, options, started, headers, session, resolved, first, made, rfl, -⟩ :=
    Encoder.open_eq_ok_iff.mp mono
  have same : EncodingOptions.resolve silentSettings = .ok options := resolved
  have base : silentSettings.timeBase.isTimeBase = true := by
    rw [show silentSettings.timeBase = .perSample 8000 from rfl]
    exact Rational.isTimeBase_perSample (by decide)
  have opened := Encoder.open_eq_ok_iff.mpr
    ⟨base, options, started, headers, session, same, first, made, rfl, rfl⟩
  obtain ⟨muxer, files, created, -⟩ := openOutput_ok _ silentSettings
    (show DocType.ofName? (formatOf "silent.webm") = some .webm from rfl)
    (show silentFiles.create (.ofText "silent.webm") =
      .ok (["silent.webm"], silentFiles.put ["silent.webm"] (.file [])) from rfl)
  obtain ⟨rel, start, sim⟩ := Encoder.eagerCodec.follows_library
  obtain ⟨-, told, -⟩ :=
    Encoder.tracks_flush sim (Encoder.tracks_of_open opened (by rw [native]; exact start))
  exact ⟨_, .flushed prepared opened created (Job.encodeAll_of_sampleCount_eq_zero none _)
    (Prod.ext told rfl)⟩

/-- The one packet of the codec is received after the flush. Then the stream is at its end. -/
theorem endOfStream_eager : ∃ (e : Encoder Encoder.eagerCodec.library) (trace : List Event),
    Encoder.open Encoder.eagerCodec.library Encoder.monoSettings = (.ok e, trace) ∧
      (e.afterAll [.flush, .receive]).receive.1 = .error .endOfStream := by
  obtain ⟨e, trace, opened, native, -⟩ := Encoder.open_monoSettings Encoder.eagerCodec
  obtain ⟨rel, start, sim⟩ := Encoder.eagerCodec.follows_library
  obtain ⟨_, -, flushed⟩ :=
    Encoder.tracks_flush sim (Encoder.tracks_of_open opened (by rw [native]; exact start))
  obtain ⟨_, ⟨content, e₁, received, -, -, one⟩ | ⟨_, -, -, -, -, -, all⟩⟩ :=
    Encoder.tracks_receive sim flushed
  case inr => cases all
  refine ⟨e, trace, opened, ?_⟩
  have same : e.afterAll [.flush, .receive] = e₁ := congrArg Prod.snd received
  rw [same]
  obtain ⟨handed, ⟨_, _, -, -, -, two⟩ | ⟨_, ending, -⟩⟩ := Encoder.tracks_receive sim one
  · have balance := congrArg List.length two.balance
    cases handed with
    | zero => simp at balance
    | succ n => simp [Encoder.eagerCodec] at balance
  · rw [ending]
    rfl

theorem receive_isTruthful_eager :
    (∃ (e : Encoder Encoder.eagerCodec.library) (trace : List Event),
      Encoder.open Encoder.eagerCodec.library Encoder.monoSettings = (.ok e, trace) ∧
        (e.afterAll [.flush, .receive]).receive.1 = .error .endOfStream ∧
        (e.afterAll [.flush, .receive]).IsTruthful (e.handedOutAll [.flush, .receive])) ∧
    ∃ job : Job Encoder.eagerCodec.library,
      ComesToEnd Encoder.eagerCodec.library { bitrate := some "32000" } "silent.wav" "silent.webm"
        silentFiles job ∧
      (job.drain.1 = .ok .endOfStream ∨
        ∃ failure, failure.IsOfLibrary ∧ job.drain.1 = .ok failure) := by
  obtain ⟨truthful, ends, -⟩ := receive_isTruthful Encoder.eagerCodec.library
  constructor
  · obtain ⟨e, trace, opened, received⟩ := endOfStream_eager
    exact ⟨e, trace, opened, received, truthful _ e trace opened [.flush, .receive]⟩
  · obtain ⟨job, comes⟩ := comesToEnd_silent
    exact ⟨job, comes, ends _ _ _ _ job comes⟩

end VorbisTrack.Command
