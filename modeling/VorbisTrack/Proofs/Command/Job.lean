import VorbisTrack.Proofs.Command.Written
import VorbisTrack.Proofs.Wav.Demuxer

/-!
# Encoding from the first sample to the last

`Job.Stands` says where a job stands: how many samples have been read and handed to the library,
which packets it has released, and that all of these have been written. Encoding a frame takes the
job on by the samples of the frame. So reading to the end takes it to all samples, provided that
the library does not fail.
-/

set_option autoImplicit false

namespace VorbisTrack

variable {σ : Type} {lib : Library σ}

/-- The answer is no failure, and a packet that comes with it ends before the sample 2^53. -/
structure Event.IsFine (event : Event) : Prop where
  good : event.fails = false
  early : ∀ raw, event.released? = some raw → raw.granule.toInt < 2 ^ 53

/-- The library gives fine answers only, whatever state it is in. -/
def Library.IsFine (lib : Library σ) : Prop :=
  ∀ call state, Event.IsFine ⟨call, (lib.answer call state).1⟩

namespace Session

def IsFine (s : Session lib) : Prop :=
  ∀ event ∈ s.log, event.IsFine

namespace IsFine

theorem earlier {s s' : Session lib} (h : s'.IsFine) (led : s.LeadsTo s') : s.IsFine :=
  fun event member => h event (led.log.mem member)

theorem unfailing {s : Session lib} (h : s.IsFine) : s.Unfailing :=
  fun event member => (h event member).good

theorem early {s : Session lib} (h : s.IsFine) :
    ∀ raw ∈ s.released, raw.granule.toInt < 2 ^ 53 := by
  intro raw member
  obtain ⟨event, logged, released⟩ := List.mem_filterMap.mp member
  exact (h event (List.mem_reverse.mp logged)).early raw released

end IsFine

end Session

namespace Command.Job

/-! ## What a job leaves behind -/

@[simp] theorem job_drainUntil (expected : FailureKind) (job : Job lib) :
    (job.drainUntil expected).2 = job.drain.2 := by
  unfold drainUntil
  split
  · next drained => rw [drained]
  · next drained => rw [drained]

theorem leadsTo_drain (job : Job lib) :
    job.encoder.session.LeadsTo job.drain.2.encoder.session := by
  have receives (e : Encoder lib) : e.session.LeadsTo e.receive.2.session :=
    (Encoder.leadsTo_after e .receive).session
  fun_induction drain job with
  | case1 job failure encoder received =>
    have one := receives job.encoder
    rwa [received] at one
  | case2 job packet encoder received =>
    have one := receives job.encoder
    rwa [received] at one
  | case3 job packet encoder received muxer files written ih =>
    have one := receives job.encoder
    rw [received] at one
    exact one.trans ih

theorem leadsTo_encode (job : Job lib) (frame : Frame) :
    job.encoder.session.LeadsTo (job.encode frame).2.encoder.session := by
  have sent : job.encoder.session.LeadsTo (job.encoder.send frame).2.session :=
    (Encoder.leadsTo_after job.encoder (.send frame)).session
  unfold encode
  split
  · next failed =>
    rw [failed] at sent
    exact sent
  · next encoder taken =>
    rw [taken] at sent
    rw [job_drainUntil]
    have drained := leadsTo_drain
      { job with
        encoder
        tally := { job.tally with samples := job.tally.samples + frame.sampleCount } }
    exact sent.trans drained

theorem leadsTo_encodeAll (demuxer : Wav.Demuxer) (job : Job lib) :
    job.encoder.session.LeadsTo (job.encodeAll demuxer).2.encoder.session := by
  fun_induction encodeAll demuxer job with
  | case1 demuxer job => exact .refl _
  | case2 demuxer job => exact .refl _
  | case3 demuxer job _ _ _ frame _ failure job' encoded =>
    have one := leadsTo_encode job frame
    rwa [encoded] at one
  | case4 demuxer job _ _ _ frame _ job' encoded ih =>
    have one := leadsTo_encode job frame
    rw [encoded] at one
    exact one.trans ih

/-- The trailer makes no calls. -/
theorem encoder_finish {job : Job lib} {encoder : Encoder lib}
    (flushed : job.encoder.flush = (.ok (), encoder)) :
    job.finish.2.encoder = ({ job with encoder } : Job lib).drain.2.encoder := by
  rw [← job_drainUntil .endOfStream]
  unfold finish
  rw [flushed]
  simp only
  split
  · next failed => rw [failed]
  · next done => rw [done]

theorem leadsTo_finish (job : Job lib) :
    job.encoder.session.LeadsTo job.finish.2.encoder.session := by
  have ended : job.encoder.session.LeadsTo job.encoder.flush.2.session :=
    (Encoder.leadsTo_after job.encoder .flush).session
  generalize flushed : job.encoder.flush = reply at ended
  obtain ⟨result, encoder⟩ := reply
  cases result with
  | error failure =>
    have failed : job.finish = (.error failure, { job with encoder }) := by
      simp only [finish, flushed]
    rw [failed]
    exact ended
  | ok =>
    rw [encoder_finish flushed]
    exact ended.trans (leadsTo_drain { job with encoder })

theorem drainUntil_ok {job : Job lib} {failure : Failure} {expected : FailureKind}
    (ending : job.drain.1 = .ok failure) (kind : failure.kind = expected) :
    (job.drainUntil expected).1 = .ok () := by
  unfold drainUntil
  split
  · next drained =>
    rw [drained] at ending
    cases ending
  · next drained =>
    rw [drained] at ending
    cases ending
    exact if_pos kind

/-! ## Where a job stands -/

/-- The input can be read, and the output path leads to another file. -/
structure Reaches (job : Job lib) (task : Task) : Prop where
  read : job.files.read job.input = .ok (.file task.content)
  output : job.files.locate task.output = .ok task.location
  apart : ∃ place, job.files.locate job.input = .ok place ∧ place ≠ task.location

/-- A job that has read and handed over so many samples, and perhaps ended the input. The packets
that the library has released since then have been written, or else they are staged. -/
structure Stands (job : Job lib) (task : Task) (ended : Bool) (count : Nat)
    (done : List RawPacket) : Prop where
  ended : job.encoder.ended = ended
  agrees : job.encoder.AgreesOnEnd
  reaches : job.Reaches task
  stores : job.Stores task done
  counts : Counts job.encoder.clock task.rate done
  /-- The first frame is the one that starts the stream. -/
  fresh : job.encoder.clock.start = none → count = 0
  released : job.encoder.session.released = done ++ job.encoder.staging.packets
  charged : job.encoder.staging.Charged
  channels : job.encoder.options.channels = task.header.format.channels
  planes : job.encoder.session.channels = job.encoder.options.channels
  samples : job.tally.samples = count
  received : ∀ c < task.channels, job.encoder.session.received c =
    (List.range count).map (task.sample c)

variable {task : Task} {ended : Bool} {count : Nat} {done : List RawPacket}

/-- Changes of the output leave the input as it is. -/
theorem Reaches.of_changesOnly {job job' : Job lib} (h : job.Reaches task)
    (input : job'.input = job.input) (changed : job.files.ChangesOnly task.location job'.files) :
    job'.Reaches task := by
  obtain ⟨place, located, apart⟩ := h.apart
  have other : job.files.locate job.input ≠ .ok task.location := by
    rw [located]
    rintro ⟨⟩
    exact apart rfl
  refine ⟨?_, changed.locate h.output, place, ?_, apart⟩
  · rw [input]
    exact changed.read h.read other
  · rw [input]
    exact changed.locate located

/-- Another encoder reaches the same files. -/
theorem Reaches.withEncoder {job : Job lib} (h : job.Reaches task) (encoder : Encoder lib)
    (samples : Nat) : Reaches { job with encoder, tally := { job.tally with samples } } task :=
  ⟨h.read, h.output, h.apart⟩

/-- Another encoder has written nothing yet. -/
theorem Stores.withEncoder {job : Job lib} (h : job.Stores task done) (encoder : Encoder lib)
    (samples : Nat) :
    Stores { job with encoder, tally := { job.tally with samples } } task done :=
  ⟨h.holds, h.inOrder, h.packets, h.bytes⟩

theorem Reaches.inputBytes {job : Job lib} (h : job.Reaches task) :
    job.inputBytes = task.content := by
  rw [Job.inputBytes, h.read]

theorem start_afterAll (clock : Clock) (taken : List Content) :
    (taken.foldl Clock.after clock).start = clock.start := by
  induction taken generalizing clock with
  | nil => rfl
  | cons content rest ih => exact ih (clock.after content)

/-- When packets have been handed out and written, the job stands behind them. -/
theorem Stands.handOut {job : Job lib} (stands : job.Stands task ended count done)
    {encoder : Encoder lib} {taken : List RawPacket} (handed : job.encoder.HandsOut encoder taken)
    {muxer : Matroska.Muxer} {files : FileTree} {tally : Tally}
    (stores : Stores { job with encoder, muxer, files, tally } task (done ++ taken))
    (samples : tally.samples = job.tally.samples)
    (changed : job.files.ChangesOnly task.location files) :
    Stands { job with encoder, muxer, files, tally } task ended count (done ++ taken) where
  ended := handed.ended.trans stands.ended
  agrees := handed.ended.trans (stands.agrees.trans handed.session.ended.symm)
  reaches := stands.reaches.of_changesOnly rfl changed
  stores := stores
  counts := by
    rw [handed.clock]
    exact stands.counts.afterAll taken
  fresh := by
    rw [handed.clock, start_afterAll]
    exact stands.fresh
  released := by
    -- What was staged or released meanwhile has been taken, or is staged now.
    obtain ⟨more, later, balance⟩ := handed.conserves
    rw [later, stands.released, List.append_assoc, List.append_assoc, balance]
  charged := handed.charged stands.charged
  channels := by
    rw [handed.options]
    exact stands.channels
  planes := by
    rw [handed.options, handed.session.channels]
    exact stands.planes
  samples := samples.trans stands.samples
  received c inRange := by
    rw [handed.session.received (by decide)]
    exact stands.received c inRange

/-- A packet that is received is written. -/
theorem Stands.receive {job : Job lib} (stands : job.Stands task ended count done)
    {packet : Packet} {encoder : Encoder lib}
    (received : job.encoder.receive = (.ok packet, encoder))
    (fine : encoder.session.IsFine) :
    ∃ raw muxer files, job.muxer.writePacket packet job.files = (.ok (), muxer, files) ∧
      Stands { job with encoder, muxer, files, tally := job.tally.count packet } task ended count
        (done ++ [raw]) := by
  have next := Encoder.receive_ok (e := job.encoder) (by rw [received]; exact fine.unfailing)
  rw [received] at next
  rcases next with ⟨raw, given, handed⟩ | ⟨none, -, -⟩
  · cases given
    -- The packets so far are among those that the library has released.
    have early : ∀ raw ∈ done, raw.granule.toInt < 2 ^ 53 := by
      intro raw member
      refine (fine.earlier handed.session.leadsTo).early raw ?_
      rw [stands.released]
      exact List.mem_append_left _ member
    obtain ⟨muxer, files, written, stores, changed⟩ :=
      stands.stores.writePacket stands.counts early raw
    exact ⟨raw, muxer, files, written, stands.handOut handed
      ⟨stores.holds, stores.inOrder, stores.packets, stores.bytes⟩ rfl changed⟩
  · cases none

/-- Draining writes the packets that are staged, and all that the library still releases. -/
theorem Stands.drain {job : Job lib} (stands : job.Stands task ended count done)
    (fine : job.drain.2.encoder.session.IsFine) :
    ∃ taken, job.drain.1 = .ok (if ended then .endOfStream else .tryAgain) ∧
      job.drain.2.Stands task ended count (done ++ taken) ∧
      job.drain.2.encoder.staging.packets = [] := by
  fun_induction Job.drain job generalizing done with
  | case1 job failure encoder received =>
    have last := Encoder.receive_ok (e := job.encoder) (by rw [received]; exact fine.unfailing)
    rw [received, stands.ended] at last
    rcases last with ⟨_, packet, -⟩ | ⟨ending, handed, empty⟩
    · cases packet
    · cases ending
      refine ⟨[], rfl, stands.handOut handed ?_ rfl (.refl ..), empty⟩
      rw [List.append_nil]
      exact stands.stores.withEncoder encoder job.tally.samples
  | case2 job packet encoder received failure muxer files failed =>
    obtain ⟨_, _, _, written, -⟩ := stands.receive received fine
    rw [failed] at written
    cases written
  | case3 job packet encoder received muxer files written ih =>
    -- Receiving the rest only adds to the log, so the answers before were fine as well.
    have led := leadsTo_drain
      { job with encoder, muxer, files, tally := job.tally.count packet }
    obtain ⟨raw, _, _, same, next⟩ := stands.receive received (fine.earlier led)
    rw [written] at same
    cases same
    obtain ⟨taken, ending, all, empty⟩ := ih next fine
    refine ⟨raw :: taken, ending, ?_, empty⟩
    rwa [List.append_assoc, List.singleton_append] at all

/-- A job that has nothing left to write accepts the frame that comes next. -/
theorem Stands.accepts {job : Job lib} (stands : job.Stands task false count done)
    (empty : job.encoder.staging.packets = []) {more : Nat} {frame : Frame}
    (frames : task.header.IsFrame task.content count more frame) :
    job.encoder.Accepts frame where
  ended := stands.ended
  rate := frames.rate.trans stands.counts.sampleRate.symm
  channels := frames.channels.trans stands.channels.symm
  format := .inl frames.format
  check := frames.check
  room := stands.charged.isFull_of_nil empty

/-- The first frame of a stream is at time zero, and later ones do not matter. -/
theorem counts_fixedBy {clock : Clock} {rate : UInt32} (counts : Counts clock rate done)
    (fresh : clock.start = none → count = 0) {frame : Frame}
    (pts : frame.pts = ⟨Int64.ofNat count⟩) : Counts (clock.fixedBy [frame]) rate done := by
  refine ⟨counts.sampleRate, counts.timeBase, counts.streamIndex, ?_, counts.position⟩
  show clock.start.getD (Clock.firstTime [frame]) = 0
  -- A start that is not fixed yet means that no sample has been sent.
  cases started : clock.start with
  | none =>
    have zero : frame.pts = ⟨0⟩ := by
      rw [pts, fresh started]
      rfl
    show (if frame.pts.isKnown then frame.pts.ticks else 0) = 0
    rw [zero]
    rfl
  | some time =>
    have same := counts.start
    rw [started] at same
    exact same

def afterFrame (job : Job lib) (encoder : Encoder lib) (frame : Frame) : Job lib :=
  { job with
    encoder
    tally := { job.tally with samples := job.tally.samples + frame.sampleCount } }

/-- Sending the frame that comes next takes the job on by its samples. -/
theorem Stands.send {job : Job lib} (stands : job.Stands task false count done)
    (empty : job.encoder.staging.packets = []) {more : Nat} {frame : Frame}
    (frames : task.header.IsFrame task.content count more frame) (some_ : 0 < more)
    (few : more ≤ Session.maxCount) (good : (job.encoder.send frame).2.session.Unfailing) :
    (job.encoder.send frame).1 = .ok () ∧
      (job.afterFrame (job.encoder.send frame).2 frame).Stands task false (count + more) done := by
  have led : job.encoder.LeadsTo (job.encoder.send frame).2 :=
    Encoder.leadsTo_after job.encoder (.send frame)
  have charged : (job.encoder.send frame).2.staging.Charged :=
    Encoder.charged_after stands.charged (.send frame)
  have agrees : (job.encoder.send frame).2.AgreesOnEnd :=
    Encoder.agreesOnEnd_after stands.agrees (.send frame)
  obtain ⟨sent, running, received⟩ := Encoder.send_ok (stands.accepts empty frames) stands.agrees
    (by rw [frames.sampleCount]; omega) (by rw [frames.sampleCount]; exact few) stands.planes good
  have clock := Encoder.clock_send (Prod.ext sent rfl) []
  obtain ⟨staged, released, balance⟩ := Encoder.conserves_send job.encoder frame
  refine ⟨sent, running, agrees, stands.reaches.withEncoder _ _, stands.stores.withEncoder _ _,
    ?_, ?_, ?_, charged, ?_, ?_, ?_, ?_⟩
  · show Counts (job.encoder.send frame).2.clock task.rate done
    rw [clock]
    exact counts_fixedBy stands.counts stands.fresh frames.pts
  · -- The frame has started the stream, if none before it had.
    show (job.encoder.send frame).2.clock.start = none → count + more = 0
    rw [clock]
    rintro ⟨⟩
  · show (job.encoder.send frame).2.session.released = _
    rw [released, stands.released, List.append_assoc, ← balance]
    rfl
  · exact (congrArg EncodingOptions.channels led.options).trans stands.channels
  · show (job.encoder.send frame).2.session.channels = (job.encoder.send frame).2.options.channels
    rw [led.options, led.session.channels]
    exact stands.planes
  · show job.tally.samples + frame.sampleCount = count + more
    rw [stands.samples, frames.sampleCount]
  · intro c inRange
    have inOptions : c < job.encoder.options.channels.toNat := by
      rw [stands.channels]
      exact inRange
    show (job.encoder.send frame).2.session.received c = _
    rw [received c inOptions, stands.received c inRange, frames.samples c inRange,
      List.range_add, List.map_append, List.map_map]
    rfl

/-- Encoding the frame that comes next takes the job on by its samples, and nothing is left to
write. -/
theorem Stands.encode {job : Job lib} (stands : job.Stands task false count done)
    (empty : job.encoder.staging.packets = []) {more : Nat} {frame : Frame}
    (frames : task.header.IsFrame task.content count more frame) (some_ : 0 < more)
    (few : more ≤ Session.maxCount) (fine : (job.encode frame).2.encoder.session.IsFine) :
    ∃ taken, (job.encode frame).1 = .ok () ∧
      (job.encode frame).2.Stands task false (count + more) (done ++ taken) ∧
      (job.encode frame).2.encoder.staging.packets = [] := by
  have send := stands.send empty frames some_ few
  generalize sent : job.encoder.send frame = reply at send
  obtain ⟨result, encoder⟩ := reply
  cases result with
  | error failure =>
    have failed : job.encode frame = (.error failure, { job with encoder }) := by
      simp only [Job.encode, sent]
    rw [failed] at fine
    cases (send fine.unfailing).1
  | ok =>
    have whole : job.encode frame = (job.afterFrame encoder frame).drainUntil .tryAgain := by
      simp only [Job.encode, sent, afterFrame]
    rw [whole, job_drainUntil] at fine
    -- Draining only adds to the log, so the answers to the send were fine as well.
    obtain ⟨-, next⟩ := send (fine.earlier (leadsTo_drain (job.afterFrame encoder frame))).unfailing
    obtain ⟨taken, ending, all, none⟩ := next.drain fine
    rw [whole, job_drainUntil]
    exact ⟨taken, drainUntil_ok ending rfl, all, none⟩

/-- If another packet can be read, it gives the frame that comes next. -/
theorem frame_of_read {demuxer demuxer' : Wav.Demuxer} {source : Wav.Source} {packet : Packet}
    (open_ : demuxer.Reads source) (header : source.header = task.header)
    (within : source.StandsIn task.content) (soFar : source.samplesRead ≤ task.header.sampleCount)
    (read : (demuxer.refresh task.content).read = (.ok packet, demuxer')) :
    ∃ (more : Nat) (source' : Wav.Source) (frame : Frame), 0 < more ∧
      more ≤ demuxer.packetSamples ∧ demuxer' = demuxer.holding source' ∧
      (demuxer'.frameOf packet).bind Frame.toSingles = .ok frame ∧
      task.header.IsFrame task.content source.samplesRead more frame ∧
      source'.StandsIn task.content ∧ source'.header = task.header ∧
      source'.samplesRead = source.samplesRead + more ∧
      source'.samplesRead ≤ task.header.sampleCount := by
  rcases Wav.Demuxer.next_of_standsIn open_ within (by rw [header]; exact task.decodable)
      (by rw [header]; exact task.present) (by rw [header]; exact soFar) with
    ⟨-, ending⟩ |
    ⟨more, _, source', frame, some_, fits, reading, converted, holds, within', same, further,
      soFar'⟩
  · rw [ending] at read
    cases read
  · rw [reading] at read
    cases read
    rw [header] at holds same soFar'
    exact ⟨more, source', frame, some_, fits, rfl, converted, holds, within', same, further, soFar'⟩

/-- If no packet can be read, all samples have been. -/
theorem sampleCount_of_read {demuxer demuxer' : Wav.Demuxer} {source : Wav.Source}
    {failure : Failure} (open_ : demuxer.Reads source)
    (header : source.header = task.header) (within : source.StandsIn task.content)
    (soFar : source.samplesRead ≤ task.header.sampleCount)
    (read : (demuxer.refresh task.content).read = (.error failure, demuxer')) :
    source.samplesRead = task.header.sampleCount ∧ failure = .endOfStream := by
  rcases Wav.Demuxer.next_of_standsIn open_ within (by rw [header]; exact task.decodable)
      (by rw [header]; exact task.present) (by rw [header]; exact soFar) with
    ⟨all, ending⟩ | ⟨_, _, _, _, -, -, reading, -⟩
  · rw [ending] at read
    cases read
    exact ⟨by rw [all, header], rfl⟩
  · rw [reading] at read
    cases read

/-- Reading on from where a job stands takes it to all samples of the file. -/
theorem Stands.encodeAll {demuxer : Wav.Demuxer} {source : Wav.Source} {job : Job lib}
    (stands : job.Stands task false source.samplesRead done)
    (empty : job.encoder.staging.packets = []) (open_ : demuxer.Reads source)
    (header : source.header = task.header) (within : source.StandsIn task.content)
    (few : demuxer.packetSamples ≤ Session.maxCount)
    (soFar : source.samplesRead ≤ task.header.sampleCount)
    (fine : (job.encodeAll demuxer).2.encoder.session.IsFine) :
    ∃ taken, (job.encodeAll demuxer).1 = .ok () ∧
      (job.encodeAll demuxer).2.Stands task false task.header.sampleCount (done ++ taken) := by
  -- By induction on the packets that are read. Each of them gives the frame that comes next, and
  -- nothing is left to write when it is read.
  fun_induction Job.encodeAll demuxer job generalizing source done with
  | case1 demuxer job failure _ read =>
    rw [stands.reaches.inputBytes] at read
    obtain ⟨all, rfl⟩ := sampleCount_of_read open_ header within soFar read
    rw [all] at stands
    refine ⟨[], rfl, ?_⟩
    rw [List.append_nil]
    exact stands
  | case2 demuxer job packet _ read failure failed =>
    rw [stands.reaches.inputBytes] at read
    obtain ⟨_, _, _, -, -, -, converted, -⟩ := frame_of_read open_ header within soFar read
    rw [converted] at failed
    cases failed
  | case3 demuxer job packet _ read frame framed failure job' encoded =>
    rw [stands.reaches.inputBytes] at read
    obtain ⟨_, _, _, some_, fits, -, converted, holds, -⟩ :=
      frame_of_read open_ header within soFar read
    rw [converted] at framed
    cases framed
    obtain ⟨taken, ok, -⟩ := stands.encode empty holds some_ (Nat.le_trans fits few)
      (by rw [encoded]; exact fine)
    rw [encoded] at ok
    cases ok
  | case4 demuxer job packet _ read frame framed job' encoded ih =>
    rw [stands.reaches.inputBytes] at read
    obtain ⟨_, source', _, some_, fits, rfl, converted, holds, within', header', further, soFar'⟩ :=
      frame_of_read open_ header within soFar read
    rw [converted] at framed
    cases framed
    obtain ⟨taken, -, stands', empty'⟩ := stands.encode empty holds some_ (Nat.le_trans fits few)
      (by rw [encoded]; exact fine.earlier (leadsTo_encodeAll ..))
    rw [encoded] at empty'
    rw [encoded, ← further] at stands'
    obtain ⟨more, ok, all⟩ :=
      ih stands' empty' (Wav.Demuxer.reads_holding ..) header' within' few soFar' fine
    rw [List.append_assoc] at all
    exact ⟨taken ++ more, ok, all⟩

/-! ## The end of a job -/

structure Completes (job : Job lib) (task : Task) : Prop where
  ended : job.encoder.session.ended = true
  samples : job.tally.samples = task.header.sampleCount
  packets : job.tally.packets = job.encoder.session.released.length
  bytes : job.tally.bytes = totalSize job.encoder.session.released
  received : ∀ c < task.channels, job.encoder.session.received c =
    (List.range task.header.sampleCount).map (task.sample c)
  output : job.release.locate task.output = .ok task.location
  written : ∃ clusters file, job.release.node? task.location = some (.file file) ∧
    task.head.IsFileOf clusters (blocksFrom task.rate 0 job.encoder.session.released) file

/-- Ending the input hands no samples over. -/
theorem Stands.flush {job : Job lib} (stands : job.Stands task false count done)
    (good : job.encoder.flush.2.session.Unfailing) :
    job.encoder.flush.1 = .ok () ∧
      Stands { job with encoder := job.encoder.flush.2 } task true count done := by
  have led : job.encoder.LeadsTo job.encoder.flush.2 := Encoder.leadsTo_after job.encoder .flush
  have charged : job.encoder.flush.2.staging.Charged := Encoder.charged_after stands.charged .flush
  obtain ⟨flushed, ended, received⟩ := Encoder.flush_ok good
  have clock := Encoder.clock_flush job.encoder
  obtain ⟨staged, released, balance⟩ := Encoder.conserves_flush job.encoder
  have agrees : job.encoder.flush.2.AgreesOnEnd := Encoder.agreesOnEnd_after stands.agrees .flush
  refine ⟨flushed, ended, agrees, stands.reaches.withEncoder _ _, stands.stores.withEncoder _ _,
    ?_, ?_, ?_, charged, ?_, ?_, stands.samples, ?_⟩
  · rw [clock]
    exact stands.counts
  · rw [clock]
    exact stands.fresh
  · show job.encoder.flush.2.session.released = _
    rw [released, stands.released, List.append_assoc, ← balance]
    rfl
  · exact (congrArg EncodingOptions.channels led.options).trans stands.channels
  · show job.encoder.flush.2.session.channels = job.encoder.flush.2.options.channels
    rw [led.options, led.session.channels]
    exact stands.planes
  · intro c inRange
    rw [received c]
    exact stands.received c inRange

/-- The trailer completes the file of a job that has nothing left to encode or to write. -/
theorem Stands.writeTrailer {job : Job lib}
    (stands : job.Stands task true task.header.sampleCount done)
    (empty : job.encoder.staging.packets = []) :
    ∃ muxer files, job.muxer.writeTrailer job.files = (.ok (), muxer, files) ∧
      Completes { job with muxer, files } task := by
  obtain ⟨muxer, files, clusters, file, trailer, unopened, stored, laid, changed⟩ :=
    stands.stores.holds.writeTrailer
  have released : job.encoder.session.released = done := by
    rw [stands.released, empty, List.append_nil]
  have release : ({ job with muxer, files } : Job lib).release = files := by
    rw [Job.release, Matroska.Muxer.release, unopened]
  refine ⟨muxer, files, trailer, stands.agrees.symm.trans stands.ended, stands.samples, ?_, ?_,
    stands.received, ?_, clusters, file, ?_, ?_⟩
  · rw [released]
    exact stands.stores.packets
  · rw [released]
    exact stands.stores.bytes
  · rw [release]
    exact changed.locate stands.reaches.output
  · rw [release]
    exact stored
  · rw [released]
    exact laid

/-- After all samples, ending the stream completes the file. -/
theorem Stands.finish {job : Job lib} (stands : job.Stands task false task.header.sampleCount done)
    (fine : job.finish.2.encoder.session.IsFine) :
    job.finish.1 = .ok () ∧ job.finish.2.Completes task := by
  have flush := stands.flush
  generalize flushed : job.encoder.flush = reply at flush
  obtain ⟨result, encoder⟩ := reply
  cases result with
  | error failure =>
    have failed : job.finish = (.error failure, { job with encoder }) := by
      simp only [Job.finish, flushed]
    rw [failed] at fine
    cases (flush fine.unfailing).1
  | ok =>
    -- The library has answered the flush and the drain after it. The trailer calls nothing.
    rw [encoder_finish flushed] at fine
    obtain ⟨-, next⟩ := flush (fine.earlier (leadsTo_drain { job with encoder })).unfailing
    obtain ⟨taken, ending, all, empty⟩ := next.drain fine
    have drained : drainUntil .endOfStream { job with encoder } =
        (.ok (), ({ job with encoder } : Job lib).drain.2) :=
      Prod.ext (drainUntil_ok ending rfl) (job_drainUntil ..)
    obtain ⟨muxer, files, trailer, complete⟩ := all.writeTrailer empty
    have whole : job.finish =
        (.ok (), { ({ job with encoder } : Job lib).drain.2 with muxer, files }) := by
      simp only [Job.finish, flushed, drained, trailer]
    rw [whole]
    exact ⟨rfl, complete⟩

theorem leadsTo_run (demuxer : Wav.Demuxer) (job : Job lib) :
    job.encoder.session.LeadsTo (job.run demuxer).2.encoder.session := by
  have read := leadsTo_encodeAll demuxer job
  unfold run
  split
  · next failed =>
    rw [failed] at read
    exact read
  · next done =>
    rw [done] at read
    exact read.trans (leadsTo_finish _)

/-- A job that stands at the first sample can be run to completion. -/
theorem Stands.run {demuxer : Wav.Demuxer} {source : Wav.Source} {job : Job lib}
    (stands : job.Stands task false source.samplesRead done)
    (empty : job.encoder.staging.packets = []) (open_ : demuxer.Reads source)
    (header : source.header = task.header) (within : source.StandsIn task.content)
    (few : demuxer.packetSamples ≤ Session.maxCount)
    (soFar : source.samplesRead ≤ task.header.sampleCount)
    (fine : (job.run demuxer).2.encoder.session.IsFine) :
    (job.run demuxer).1 = .ok () ∧ (job.run demuxer).2.Completes task := by
  have read (good : (job.encodeAll demuxer).2.encoder.session.IsFine) :=
    stands.encodeAll empty open_ header within few soFar good
  unfold Job.run at fine ⊢
  generalize job.encodeAll demuxer = reply at read fine ⊢
  obtain ⟨result, next⟩ := reply
  cases result with
  | error failure =>
    obtain ⟨_, ok, -⟩ := read fine
    cases ok
  | ok =>
    obtain ⟨_, -, all⟩ := read (fine.earlier (leadsTo_finish next))
    exact all.finish fine

end Command.Job

end VorbisTrack
