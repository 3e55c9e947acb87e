import VorbisTrack.Proofs.Encoder.Tracking

/-!
# The schedule of calls does not matter

Callers may receive as often as they like between two frames, and cut their samples into frames as
they like. `Encoder.Delivers` is a run of an encoder that sends all its frames, flushes, and
receives until the end of the stream. If the library works like a codec, the packets that a run
delivers can be told from the samples alone (`Delivers.packets_eq`), so that any two runs with the
same samples deliver the same packets. There is one reservation. A packet that is received before
the first frame was accepted cannot be stamped with that frame's time, which is not known yet.
-/

set_option autoImplicit false

namespace VorbisTrack

variable {σ : Type} {lib : Library σ} {codec : Codec} {rel : σ → View → Prop}

namespace Encoder

/-- A complete run: from here on these frames are sent, and these packets are received. A frame that
is refused because the queue is full is sent again. The number counts the packets that are received
before a frame has been accepted. -/
inductive Delivers : Encoder lib → List Frame → Nat → List Packet → Prop
  | sent {e e' frame rest early packets} :
    e.send frame = (.ok (), e') → Delivers e' rest early packets →
      Delivers e (frame :: rest) early packets
  | refused {e e' frame rest early packets} :
    e.send frame = (.error .tryAgain, e') → Delivers e' (frame :: rest) early packets →
      Delivers e (frame :: rest) early packets
  | received {e e' packet frames early packets} :
    e.receive = (.ok packet, e') → Delivers e' frames early packets →
      Delivers e frames (early + if e.start.isNone then 1 else 0) (packet :: packets)
  | nothing {e e' failure frames early packets} :
    e.receive = (.error failure, e') → Delivers e' frames early packets →
      Delivers e frames early packets
  | flushed {e early packets} :
    Delivers e.flush.2 [] early packets → Delivers e [] early packets
  | finished {e e'} : e.receive = (.error .endOfStream, e') → Delivers e [] 0 []

/-- Packets start where those before them end. They are counted from zero if they are received
early, from the time of the first frame after that. -/
def AreStamped (packets : List Packet) (early : Nat) (time : Int64) : Prop :=
  ∀ (k : Nat) (packet : Packet), packets[k]? = some packet →
    packet = packet.stamped
      ⟨((packets.take k).map Packet.duration).sum + if k < early then 0 else time⟩

/-- Packets are the ones for these contents, apart from the times of those that were received
early, which have no start. -/
structure Expected (clock : Clock) (frames : List Frame) (contents : List Content) (early : Nat)
    (packets : List Packet) : Prop where
  untimed : packets.map (·.stamped .unknown) = (clock.packets contents).map (·.stamped .unknown)
  started : clock.start.isSome = true → early = 0
  soon : packets.take early = (clock.packets contents).take early
  late : packets.drop early = ((clock.fixedBy frames).packets contents).drop early
  timed : clock.start.isSome = true ∨ Clock.firstTime frames = 0 →
    packets = (clock.fixedBy frames).packets contents

namespace Expected

theorem nil (clock : Clock) (frames : List Frame) : Expected clock frames [] 0 [] :=
  ⟨rfl, fun _ => rfl, rfl, rfl, fun _ => rfl⟩

/-- Accepting the first frame fixes the start. -/
theorem sent {clock : Clock} {frame : Frame} {rest : List Frame} {contents : List Content}
    {early : Nat} {packets : List Packet}
    (h : Expected (clock.fixedBy (frame :: rest)) rest contents early packets) :
    Expected clock (frame :: rest) contents early packets := by
  -- From here on the start is fixed, so all times are known.
  have all : packets = (clock.fixedBy (frame :: rest)).packets contents := by
    rw [h.timed (.inl rfl), Clock.packets_fixedBy_of_isSome contents rfl]
  refine ⟨?_, fun _ => h.started rfl, ?_, ?_, fun _ => all⟩
  · rw [all, Clock.untimed_packets_fixedBy]
  · rw [h.started rfl, List.take_zero, List.take_zero]
  · rw [← all]

/-- A packet is stamped by the clock at its time. -/
theorem received {clock : Clock} {frames : List Frame} {content : Content}
    {contents : List Content} {early : Nat} {packets : List Packet}
    (h : Expected (clock.after content) frames contents early packets) :
    Expected clock frames (content :: contents)
      (early + if clock.start.isNone then 1 else 0) (clock.packet content :: packets) := by
  have timed (fixed : clock.start.isSome = true ∨ Clock.firstTime frames = 0) :
      clock.packet content :: packets = (clock.fixedBy frames).packets (content :: contents) := by
    have rest := h.timed fixed
    rcases fixed with started | zero
    · rw [rest, Clock.packets_fixedBy_of_isSome _ started,
        Clock.packets_fixedBy_of_isSome _ (by exact started)]
      rfl
    · rw [rest, Clock.packets_fixedBy_of_firstTime zero, Clock.packets_fixedBy_of_firstTime zero]
      rfl
  have untimed : (clock.packet content :: packets).map (·.stamped .unknown) =
      (clock.packets (content :: contents)).map (·.stamped .unknown) := by
    rw [Clock.packets, List.map_cons, List.map_cons, h.untimed]
  cases started : clock.start with
  | none =>
    refine ⟨untimed, ?_, ?_, ?_, timed⟩
    · rw [started]
      intro none
      cases none
    · simp only [Option.isNone_none, if_true, Clock.packets, List.take_succ_cons, h.soon]
    · simp only [Option.isNone_none, if_true, Clock.packets, List.drop_succ_cons]
      exact h.late
  | some time =>
    have fixed : clock.start.isSome = true := by rw [started, Option.isSome_some]
    have none : early + (if (some time).isNone then 1 else 0) = 0 := h.started fixed
    refine ⟨untimed, fun _ => none, ?_, ?_, timed⟩
    · rw [none, List.take_zero, List.take_zero]
    · rw [timed (.inl fixed)]

theorem take_eq {clock : Clock} {frames : List Frame} {contents : List Content} {early k : Nat}
    {packets : List Packet} (h : Expected clock frames contents early packets) (soon : k ≤ early) :
    packets.take k = (clock.packets contents).take k := by
  have part := congrArg (List.take k) h.soon
  rwa [List.take_take, List.take_take, Nat.min_eq_left soon] at part

theorem drop_eq {clock : Clock} {frames : List Frame} {contents : List Content} {early k : Nat}
    {packets : List Packet} (h : Expected clock frames contents early packets) (late : early ≤ k) :
    packets.drop k = ((clock.fixedBy frames).packets contents).drop k := by
  have part := congrArg (List.drop (k - early)) h.late
  rwa [List.drop_drop, List.drop_drop, Nat.add_sub_cancel' late] at part

theorem durations {clock : Clock} {frames : List Frame} {contents : List Content} {early : Nat}
    {packets : List Packet} (h : Expected clock frames contents early packets) :
    packets.map Packet.duration = (clock.packets contents).map Packet.duration := by
  have same := congrArg (List.map Packet.duration) h.untimed
  rw [List.map_map, List.map_map] at same
  exact same

/-- The packets of a stream that starts at the sample zero start where those before them end. -/
theorem areStamped {clock : Clock} {frames : List Frame} {contents : List Content} {early : Nat}
    {packets : List Packet} (h : Expected clock frames contents early packets)
    (unstarted : clock.start = none) (zero : clock.position = 0) :
    AreStamped packets early (Clock.firstTime frames) := by
  intro k packet place
  have gone : ((packets.take k).map Packet.duration).sum =
      clock.ticksAt ((contents.take k).foldl Clock.after clock).position := by
    rw [List.map_take, h.durations, ← List.map_take, ← Clock.ticksAt_add_sum_duration, zero,
      Clock.ticksAt_zero, Int64.zero_add]
  rw [gone]
  rcases Nat.lt_or_ge k early with soon | late
  · have same : (clock.packets contents)[k]? = some packet := by
      rw [← List.getElem?_take_of_lt soon, ← h.soon, List.getElem?_take_of_lt soon, place]
    have stamped := Clock.stamped_of_getElem?_packets same
    rw [unstarted, Option.getD_none] at stamped
    rwa [if_pos soon]
  · have same : ((clock.fixedBy frames).packets contents)[k]? = some packet := by
      have behind := congrArg List.head? (h.drop_eq late)
      rw [List.head?_drop, List.head?_drop] at behind
      rw [← behind, place]
    have stamped := Clock.stamped_of_getElem?_packets same
    rw [Clock.foldl_after_fixedBy] at stamped
    rw [if_neg (Nat.not_lt.mpr late)]
    have first : (clock.fixedBy frames).start.getD 0 = Clock.firstTime frames := by
      rw [Clock.fixedBy, unstarted]
      rfl
    rw [first] at stamped
    exact stamped

end Expected

/-- The packets of a run can be told from what is fed to the library. -/
theorem Delivers.packets_eq (sim : codec.Simulates lib rel) {e : Encoder lib} {frames : List Frame}
    {early : Nat} {packets : List Packet} (run : Delivers e frames early packets) {v : View}
    {delivered : List Content} (h : e.Tracks codec rel v delivered) :
    ∃ contents, delivered ++ contents
        = (codec.blocks (v.input.feed e.options.channels.toNat frames).finish).flatten ∧
      Expected e.clock frames contents early packets := by
  -- By induction on the run. The encoder tracks a view throughout: what it has delivered, with
  -- the contents that follow, are all the blocks of what is fed to the library.
  induction run generalizing v delivered with
  | @sent e e' frame rest early packets sent run ih =>
    obtain ⟨handed, options, tracks⟩ := h.sent sim sent
    obtain ⟨contents, balance, expected⟩ := ih tracks
    rw [options] at balance
    rw [clock_send sent rest] at expected
    refine ⟨contents, ?_, expected.sent⟩
    rw [Input.feed_cons]
    exact balance
  | @refused e e' frame rest early packets sent run ih =>
    have same := h.eq_of_tryAgain sim sent
    subst same
    exact ih h
  | @received e e' packet frames early packets received run ih =>
    obtain ⟨content, handed, rfl, clock, options, tracks⟩ := h.received sim received
    obtain ⟨contents, balance, expected⟩ := ih tracks
    rw [options] at balance
    rw [clock] at expected
    refine ⟨content :: contents, ?_, expected.received⟩
    rw [← balance, List.append_assoc, List.singleton_append]
  | @nothing e e' failure frames early packets received run ih =>
    obtain ⟨handed, -, clock, options, tracks, -⟩ := h.nothing sim received
    obtain ⟨contents, balance, expected⟩ := ih tracks
    rw [options] at balance
    rw [clock] at expected
    exact ⟨contents, balance, expected⟩
  | @flushed e early packets run ih =>
    obtain ⟨handed, -, tracks⟩ := tracks_flush sim h
    obtain ⟨contents, balance, expected⟩ := ih tracks
    rw [clock_flush] at expected
    refine ⟨contents, ?_, expected⟩
    rw [Input.feed_nil] at balance ⊢
    exact balance
  | @finished e e' received =>
    obtain ⟨handed, ending, -, -, -, all⟩ := h.nothing sim received
    -- The stream has ended, so there is no more input to come.
    have ended : v.input.ended = true := by
      cases notEnded : v.input.ended with
      | true => rfl
      | false =>
        rw [notEnded] at ending
        cases ending
    have finished : v.input.finish = v.input := by rw [Input.finish, ← ended]
    refine ⟨[], ?_, .nil ..⟩
    rw [List.append_nil, Input.feed_nil, finished]
    exact all

/-! ## Every run can be completed -/

/-- Once the input has ended, receiving comes to the end of the stream. -/
theorem exists_delivers_of_ended (sim : codec.Simulates lib rel) {e : Encoder lib} {v : View}
    {delivered : List Content} (h : e.Tracks codec rel v delivered)
    (ended : v.input.ended = true) : ∃ early packets, Delivers e [] early packets := by
  -- What is left to receive gets less with every packet.
  obtain ⟨handed, ⟨content, e', received, -, -, tracks⟩ | ⟨e', received, -⟩⟩ := tracks_receive sim h
  · obtain ⟨early, packets, run⟩ := exists_delivers_of_ended sim tracks ended
    exact ⟨_, _, .received received run⟩
  · rw [if_pos ended] at received
    exact ⟨_, _, .finished received⟩
termination_by e.remaining
decreasing_by exact remaining_receive e _ e' received

/-- Receiving makes room in the end, so it is enough to go on from an encoder that has room. -/
theorem exists_delivers_of_room (sim : codec.Simulates lib rel) {frames : List Frame} {v : View}
    {options : EncodingOptions}
    (room : ∀ (e : Encoder lib) (handed : Nat) (delivered : List Content), e.options = options →
      e.staging.isFull = false → e.Tracks codec rel { v with handed } delivered →
        ∃ early packets, Delivers e frames early packets)
    {e : Encoder lib} {handed : Nat} {delivered : List Content} (same : e.options = options)
    (h : e.Tracks codec rel { v with handed } delivered) :
    ∃ early packets, Delivers e frames early packets := by
  cases full : e.staging.isFull with
  | false => exact room e handed delivered same full h
  | true =>
    obtain ⟨handed', ⟨content, e', received, -, kept, tracks⟩ |
      ⟨e', received, -, kept, free, tracks, -⟩⟩ := tracks_receive sim h
    · obtain ⟨early, packets, run⟩ := exists_delivers_of_room sim room (kept.trans same) tracks
      exact ⟨_, _, .received received run⟩
    · obtain ⟨early, packets, run⟩ := room e' handed' delivered (kept.trans same) free tracks
      exact ⟨_, _, .nothing received run⟩
termination_by e.remaining
decreasing_by exact remaining_receive e _ e' received

/-- An encoder with these options can be sent a frame. -/
structure Suits (options : EncodingOptions) (frame : Frame) : Prop where
  rate : frame.rate = options.rate
  channels : frame.channels = options.channels
  format : frame.format = .flt ∨ frame.format = .fltp
  check : frame.check = .ok ()
  count : frame.sampleCount ≤ Session.maxCount

/-- Any frames that suit an encoder can be sent, and their packets received. -/
theorem exists_delivers (sim : codec.Simulates lib rel) (frames : List Frame) {e : Encoder lib}
    {v : View} {delivered : List Content} (h : e.Tracks codec rel v delivered)
    (open_ : v.input.ended = false) (suits : ∀ frame ∈ frames, Suits e.options frame) :
    ∃ early packets, Delivers e frames early packets := by
  induction frames generalizing e v delivered with
  | nil =>
    obtain ⟨handed, -, tracks⟩ := tracks_flush sim h
    obtain ⟨early, packets, run⟩ := exists_delivers_of_ended sim tracks rfl
    exact ⟨early, packets, .flushed run⟩
  | cons frame rest ih =>
    -- The frame may find the queue full. Then packets are received until it has room.
    refine exists_delivers_of_room sim ?_ rfl h
    intro e₁ handed delivered₁ same room tracks
    have suit := suits frame (List.mem_cons_self ..)
    have accepts : e₁.Accepts frame :=
      ⟨tracks.ended.symm.trans open_, by rw [suit.rate, same], by rw [suit.channels, same],
        suit.format, suit.check, room⟩
    rcases tracks_send sim tracks frame with
      ⟨_, refused, -⟩ | ⟨many, -⟩ | ⟨-, e₂, handed₂, sent, tracks₂⟩
    · rw [refusal?_eq_none_iff.mpr accepts] at refused
      cases refused
    · exact absurd many (Nat.not_lt.mpr suit.count)
    · have led : e₁.LeadsTo (e₁.send frame).2 := leadsTo_after e₁ (.send frame)
      rw [sent] at led
      have later : ∀ frame ∈ rest, Suits e₂.options frame := by
        rw [led.options, same]
        intro frame he
        exact suits frame (List.mem_cons_of_mem _ he)
      obtain ⟨early, packets, run⟩ := ih tracks₂ open_ later
      exact ⟨early, packets, .sent sent run⟩

/-! ## Two runs -/

/-- An encoder that has just been opened has delivered nothing. -/
theorem tracks_of_open {settings : Settings} {e : Encoder lib} {trace : List Event}
    (opened : Encoder.open lib settings = (.ok e, trace)) (start : rel e.session.native {}) :
    e.Tracks codec rel {} [] := by
  have channels := (running_of_open opened).2
  have agrees := agreesOnEnd_of_open opened
  obtain ⟨-, options, started, headers, session, -, -, -, rfl, -⟩ := open_eq_ok_iff.mp opened
  exact ⟨start, ⟨rfl, rfl⟩, rfl, agrees, Nat.zero_le _, rfl, rfl, channels⟩

/-- Encoders that are opened with the same settings start alike. -/
theorem clock_of_open {σ' : Type} {lib' : Library σ'} {settings : Settings} {e : Encoder lib}
    {e' : Encoder lib'} {trace trace' : List Event}
    (opened : Encoder.open lib settings = (.ok e, trace))
    (opened' : Encoder.open lib' settings = (.ok e', trace')) :
    e'.options = e.options ∧ e'.clock = e.clock ∧ e.clock.start = none ∧ e.clock.position = 0 := by
  obtain ⟨-, options, _, _, _, resolved, -, -, rfl, -⟩ := open_eq_ok_iff.mp opened
  obtain ⟨-, options', _, _, _, resolved', -, -, rfl, -⟩ := open_eq_ok_iff.mp opened'
  have same : options' = options := by
    rw [resolved] at resolved'
    cases resolved'
    rfl
  exact ⟨same, by rw [clock, clock, same], rfl, rfl⟩

/-- The same samples feed the same. -/
theorem feed_eq_of_stream_eq {channels : Nat} {frames frames' : List Frame}
    (same : ∀ c < channels, stream frames c = stream frames' c) (input : Input) :
    input.feed channels frames = input.feed channels frames' := by
  apply Input.ext
  · funext c
    simp only [Input.feed]
    split
    · next inRange => rw [same _ (ChannelLayout.source_lt inRange)]
    · rfl
  · rfl

/-- **The schedule and the framing do not matter.** Take two encoders that are opened with the same
settings over libraries that work like the same codec, and send them the same samples, the first
frame with the same time. Then they deliver the same data with the same durations. The times agree
as well from the packet on that neither of them delivered before its first frame was accepted, those
that both delivered before agree, and they agree throughout if the first frame's time is zero or
unknown. What was delivered before the first frame was accepted is stamped as if its time were
zero. -/
theorem delivers_same_packets {σ' : Type} {lib' : Library σ'} {settings : Settings}
    {e : Encoder lib} {e' : Encoder lib'} {trace trace' : List Event}
    (opened : Encoder.open lib settings = (.ok e, trace))
    (opened' : Encoder.open lib' settings = (.ok e', trace'))
    (follows : lib.Follows codec e.session.native)
    (follows' : lib'.Follows codec e'.session.native)
    {frames frames' : List Frame} {early early' : Nat} {packets packets' : List Packet}
    (run : Delivers e frames early packets) (run' : Delivers e' frames' early' packets')
    (same : ∀ c < e.options.channels.toNat, stream frames c = stream frames' c)
    (first : frames.head?.map Frame.pts = frames'.head?.map Frame.pts) :
    packets.map (·.stamped .unknown) = packets'.map (·.stamped .unknown) ∧
      packets.drop (max early early') = packets'.drop (max early early') ∧
      packets.take (min early early') = packets'.take (min early early') ∧
      (Clock.firstTime frames = 0 → packets = packets') ∧
      AreStamped packets early (Clock.firstTime frames) ∧
      AreStamped packets' early' (Clock.firstTime frames) := by
  obtain ⟨rel, start, sim⟩ := follows
  obtain ⟨rel', start', sim'⟩ := follows'
  obtain ⟨options, clocks, unstarted, zero⟩ := clock_of_open opened opened'
  have anchored := Clock.firstTime_congr first.symm
  have fixed : e'.clock.fixedBy frames' = e.clock.fixedBy frames := by
    rw [Clock.fixedBy, anchored, clocks]
    rfl
  obtain ⟨contents, all, expected⟩ := run.packets_eq sim (tracks_of_open opened start)
  obtain ⟨contents', all', expected'⟩ := run'.packets_eq sim' (tracks_of_open opened' start')
  have contents_eq : contents' = contents := by
    rw [List.nil_append] at all all'
    rw [all, all', options, feed_eq_of_stream_eq same]
  rw [contents_eq] at expected'
  refine ⟨?_, ?_, ?_, ?_, expected.areStamped unstarted zero, ?_⟩
  · calc packets.map (·.stamped .unknown)
        = (e.clock.packets contents).map (·.stamped .unknown) := expected.untimed
      _ = (e'.clock.packets contents).map (·.stamped .unknown) := by rw [clocks]
      _ = packets'.map (·.stamped .unknown) := expected'.untimed.symm
  · -- Each run has the times of its clock from some packet on, so both have them from the later
    -- of the two on.
    rw [expected.drop_eq (Nat.le_max_left ..), expected'.drop_eq (Nat.le_max_right ..), fixed]
  · rw [expected.take_eq (Nat.min_le_left ..), expected'.take_eq (Nat.min_le_right ..), clocks]
  · intro zero
    calc packets
        = (e.clock.fixedBy frames).packets contents := expected.timed (.inr zero)
      _ = (e'.clock.fixedBy frames').packets contents := by rw [fixed]
      _ = packets' := (expected'.timed (.inr (anchored.trans zero))).symm
  · rw [← anchored]
    rw [← clocks] at unstarted zero
    exact expected'.areStamped unstarted zero

/-- The blocks of a codec that makes one of every four samples, and one more at the end. -/
def foursBlocks (input : Input) : List (List Content) :=
  (List.range ((input.samples 0).length / 4)).map (fun k => [⟨[.ofNat k], .ofNat (4 * k + 4)⟩])
    ++ if input.ended then [[⟨[255], .ofNat (input.samples 0).length⟩]] else []

theorem foursBlocks_append (input : Input) (planes : List (List Sample))
    (notEnded : input.ended = false) :
    foursBlocks input <+: foursBlocks (input.append planes) := by
  have longer : (input.samples 0).length / 4 ≤ ((input.append planes).samples 0).length / 4 := by
    apply Nat.div_le_div_right
    simp only [Input.append, List.length_append]
    omega
  have same : (input.append planes).ended = false := notEnded
  unfold foursBlocks
  rw [notEnded, same]
  simp only [Bool.false_eq_true, if_false, List.append_nil]
  rw [← Nat.min_eq_left longer, ← List.take_range, List.map_take]
  exact List.take_prefix ..

theorem foursBlocks_finish (input : Input) : foursBlocks input <+: foursBlocks input.finish := by
  cases ended : input.ended with
  | true =>
    have same : input.finish = input := by rw [Input.finish, ← ended]
    exact ⟨[], by rw [List.append_nil, same]⟩
  | false =>
    unfold foursBlocks
    rw [ended]
    simp only [Bool.false_eq_true, if_false, List.append_nil]
    exact List.prefix_append ..

def foursCodec : Codec where
  blocks := foursBlocks
  blocks_append := foursBlocks_append
  blocks_finish := foursBlocks_finish

/-- The library of a codec opens, and the encoder takes mono frames. -/
theorem open_monoSettings (codec : Codec) :
    ∃ (e : Encoder codec.library) (trace : List Event),
      Encoder.open codec.library monoSettings = (.ok e, trace) ∧ e.session.native = {} ∧
        e.options.rate = 8000 ∧ e.options.channels = 1 :=
  ⟨_, _, rfl, rfl, rfl, rfl⟩

theorem delivers_same_packets_recut :
    ∃ (e : Encoder foursCodec.library) (trace : List Event) (early early' : Nat)
      (packets packets' : List Packet),
      Encoder.open foursCodec.library monoSettings = (.ok e, trace) ∧
        Delivers e [monoFrame 9 ⟨1000⟩] early packets ∧
        Delivers e [monoFrame 2 ⟨1000⟩, monoFrame 0, monoFrame 7] early' packets' ∧
        packets.map (·.stamped .unknown) = packets'.map (·.stamped .unknown) ∧
        packets.drop (max early early') = packets'.drop (max early early') ∧
        packets.take (min early early') = packets'.take (min early early') ∧
        AreStamped packets early 1000 ∧ AreStamped packets' early' 1000 := by
  obtain ⟨e, trace, opened, native, rate, channels⟩ := open_monoSettings foursCodec
  have follows : foursCodec.library.Follows foursCodec e.session.native := by
    rw [native]
    exact foursCodec.follows_library
  obtain ⟨rel, start, sim⟩ := follows
  have tracks : e.Tracks foursCodec rel {} [] := tracks_of_open opened start
  have suits (count : Nat) (pts : Timestamp) (check : (monoFrame count pts).check = .ok ())
      (few : (monoFrame count pts).sampleCount ≤ Session.maxCount) :
      Suits e.options (monoFrame count pts) :=
    ⟨rate.symm, channels.symm, .inl rfl, check, few⟩
  obtain ⟨early, packets, run⟩ := exists_delivers sim [monoFrame 9 ⟨1000⟩] tracks rfl (by
    simp only [List.forall_mem_cons]
    exact ⟨suits 9 _ rfl (by decide), by simp⟩)
  obtain ⟨early', packets', run'⟩ := exists_delivers sim
    [monoFrame 2 ⟨1000⟩, monoFrame 0, monoFrame 7] tracks rfl (by
    simp only [List.forall_mem_cons]
    exact ⟨suits 2 _ rfl (by decide), suits 0 _ rfl (by decide), suits 7 _ rfl (by decide),
      by simp⟩)
  have same : ∀ c < e.options.channels.toNat,
      stream [monoFrame 9 ⟨1000⟩] c
        = stream [monoFrame 2 ⟨1000⟩, monoFrame 0, monoFrame 7] c := by
    rw [channels]
    decide
  obtain ⟨untimed, late, soon, -, stamped, stamped'⟩ :=
    delivers_same_packets opened opened ⟨rel, start, sim⟩ ⟨rel, start, sim⟩ run run' same rfl
  exact ⟨e, trace, early, early', packets, packets', opened, run, run', untimed, late, soon,
    stamped, stamped'⟩

/-- A codec with a packet that does not wait for any samples. -/
def eagerCodec : Codec where
  blocks _ := [[⟨[7], 4⟩]]
  blocks_append _ _ _ := List.prefix_refl _
  blocks_finish _ := List.prefix_refl _

/-- A packet that is received before the first frame is stamped as if that frame's time were
zero. -/
theorem delivers_other_times_early :
    ∃ (e : Encoder eagerCodec.library) (trace : List Event) (early early' : Nat)
      (packets packets' : List Packet),
      Encoder.open eagerCodec.library monoSettings = (.ok e, trace) ∧
        eagerCodec.library.Follows eagerCodec e.session.native ∧
        Delivers e [monoFrame 4 ⟨1000⟩] early packets ∧
        Delivers e [monoFrame 4 ⟨1000⟩] early' packets' ∧
        packets.map Packet.pts ≠ packets'.map Packet.pts := by
  obtain ⟨e, trace, opened, native, rate, channels⟩ := open_monoSettings eagerCodec
  have follows : eagerCodec.library.Follows eagerCodec e.session.native := by
    rw [native]
    exact eagerCodec.follows_library
  obtain ⟨rel, start, sim⟩ := follows
  have tracks : e.Tracks eagerCodec rel {} [] := tracks_of_open opened start
  have suits : Suits e.options (monoFrame 4 ⟨1000⟩) :=
    ⟨rate.symm, channels.symm, .inl rfl, rfl, by decide⟩
  have free : e.staging.isFull = false :=
    tracks.charged.isFull_of_nil (List.map_eq_nil_iff.mp tracks.balance)
  have unstarted : e.clock.start = none := (clock_of_open opened opened).2.2.1
  -- The first run receives the packet and then sends the frame.
  obtain ⟨handed, ⟨content, e₁, received, -, kept, tracks₁⟩ | ⟨_, -, -, -, -, -, all⟩⟩ :=
    tracks_receive sim tracks
  case inr => cases all
  obtain ⟨early, packets, run⟩ := exists_delivers sim [monoFrame 4 ⟨1000⟩] tracks₁ rfl (by
    rw [kept]
    simpa using suits)
  -- The second run sends the frame before anything else.
  have accepts : e.Accepts (monoFrame 4 ⟨1000⟩) :=
    ⟨tracks.ended.symm, suits.rate, suits.channels, suits.format, suits.check, free⟩
  rcases tracks_send sim tracks (monoFrame 4 ⟨1000⟩) with
    ⟨_, refused, -⟩ | ⟨many, -⟩ | ⟨-, e₂, handed₂, sent, tracks₂⟩
  · rw [refusal?_eq_none_iff.mpr accepts] at refused
    cases refused
  · exact absurd many (Nat.not_lt.mpr suits.count)
  obtain ⟨early', packets', run'⟩ := exists_delivers sim [] tracks₂ rfl (by simp)
  obtain ⟨contents, all, expected⟩ := run'.packets_eq sim tracks₂
  have one : contents = [⟨[7], 4⟩] := all
  rw [clock_send sent [], one] at expected
  refine ⟨e, trace, _, early', _, packets', opened, ⟨rel, start, sim⟩, .received received run,
    .sent sent run', ?_⟩
  rw [expected.timed (.inl rfl)]
  intro same
  have heads := List.head_eq_of_cons_eq same
  have times : e.clock.ticksAt e.clock.position + e.clock.start.getD 0
      = e.clock.ticksAt e.clock.position + e.clock.start.getD 1000 :=
    congrArg Timestamp.ticks heads
  rw [unstarted, Int64.add_right_inj] at times
  exact absurd times (by decide)

end Encoder

end VorbisTrack
