import VorbisTrack.Proofs.Encoder.Conservation
import VorbisTrack.Proofs.Encoder.Timing
import VorbisTrack.Proofs.EncodingOptions
import VorbisTrack.Proofs.SampleTime

/-!
# Packets follow one another without a gap

A packet starts at the tick of the sample that the packets before it reach, and ends at the tick of
the sample that it reaches itself. Each of these samples is rounded to a tick on its own, so
rounding adds nothing up: the durations of the first packets sum to the tick of the sample they
reach, in any time base (`received_isContiguous`).

The start of the stream is added to all times. It is fixed by the first frame, so a packet that
comes before that frame would lack it. `waits` says of a log that the library released nothing until
something had been put in, and then the start is `Settled`.
-/

set_option autoImplicit false

namespace VorbisTrack

variable {σ : Type} {lib : Library σ}

/-! ## Libraries that wait for input -/

/-- Samples that were handed over, or an end of the input that the library accepted. -/
def Event.putsIn : Event → Bool
  | ⟨.wrote count _, code⟩ => count != 0 || 0 ≤ code
  | _ => false

theorem Event.purpose_of_putsIn {event : Event} (input : event.putsIn = true) :
    event.call.purpose = .input := by
  obtain ⟨call, answer⟩ := event
  cases call with
  | wrote => rfl
  | _ => cases input

/-- No packet of a log was released before something had been put in. -/
def waits : List Event → Bool
  | [] => true
  | event :: log => waits log && (event.released?.isNone || log.any Event.putsIn)

theorem waits_of_suffix {log older : List Event} (earlier : older <:+ log)
    (h : waits log = true) : waits older = true := by
  obtain ⟨newer, rfl⟩ := earlier
  induction newer with
  | nil => exact h
  | cons event rest ih =>
    rw [List.cons_append, waits, Bool.and_eq_true] at h
    exact ih h.1

/-- A packet that has been released tells that something has been put in. -/
theorem exists_putsIn_of_waits {log : List Event} (h : waits log = true) {event : Event}
    (made : event ∈ log) {raw : RawPacket} (released : event.released? = some raw) :
    ∃ earlier ∈ log, earlier.putsIn = true := by
  induction log with
  | nil => cases made
  | cons latest rest ih =>
    rw [waits, Bool.and_eq_true] at h
    rcases List.mem_cons.mp made with rfl | made
    · rw [released, Option.isNone_some, Bool.false_or] at h
      obtain ⟨earlier, member, input⟩ := List.any_eq_true.mp h.2
      exact ⟨earlier, List.mem_cons_of_mem _ member, input⟩
    · obtain ⟨earlier, member, input⟩ := ih h.1 made
      exact ⟨earlier, List.mem_cons_of_mem _ member, input⟩

/-! ## Samples and ticks -/

/-- The sample that packets reach: the greatest of their granules, and at least zero. -/
def reach (packets : List RawPacket) : Int :=
  (packets.map fun raw => raw.granule.toInt).foldl max 0

theorem reach_concat (packets : List RawPacket) (raw : RawPacket) :
    reach (packets ++ [raw]) = max (reach packets) raw.granule.toInt := by
  rw [reach, List.map_append, List.foldl_append]
  rfl

/-- More packets reach as far at least. -/
theorem reach_take_mono (packets : List RawPacket) {k n : Nat} (h : k ≤ n) :
    reach (packets.take k) ≤ reach (packets.take n) := by
  induction h with
  | refl => exact Int.le_refl _
  | @step n _ ih =>
    refine Int.le_trans ih ?_
    rw [List.take_add_one]
    cases packets[n]? with
    | none => exact Int.le_of_eq (by rw [Option.toList_none, List.append_nil])
    | some raw =>
      rw [Option.toList_some, reach_concat]
      exact Int.le_max_left ..

namespace Clock

/-- Packets move nothing but the position of a clock, and that to the greatest granule. -/
theorem foldl_after (packets : List RawPacket) (clock : Clock) :
    ∃ position : Int64,
      (packets.map RawPacket.content).foldl after clock = { clock with position } ∧
        position.toInt =
          (packets.map fun raw => raw.granule.toInt).foldl max clock.position.toInt := by
  induction packets generalizing clock with
  | nil => exact ⟨clock.position, rfl, rfl⟩
  | cons raw rest ih =>
    obtain ⟨position, moved, latest⟩ := ih (clock.after raw.content)
    refine ⟨position, moved, ?_⟩
    rw [latest, List.map_cons, List.foldl_cons, Int.max_comm, ← Int64.toInt_max]
    rfl

/-- As long as ticks fit into their words, a packet starts at the tick of the clock's position,
moved by the start, and lasts up to the tick that it reaches. -/
theorem toInt_packet (clock : Clock) (positive : 0 < clock.rate.toNat)
    (valid : clock.timeBase.isTimeBase = true) (content : Content)
    (low : 0 ≤ clock.position.toInt)
    (time : clock.timeBase.ticksAt clock.rate clock.position.toInt
      + (clock.start.getD 0).toInt < 2 ^ 63)
    (fits : clock.timeBase.ticksAt clock.rate
      (max clock.position.toInt content.granule.toInt) < 2 ^ 63) :
    (clock.packet content).pts.ticks.toInt =
        clock.timeBase.ticksAt clock.rate clock.position.toInt + (clock.start.getD 0).toInt ∧
      (clock.packet content).duration.toInt =
        clock.timeBase.ticksAt clock.rate (max clock.position.toInt content.granule.toInt)
          - clock.timeBase.ticksAt clock.rate clock.position.toInt := by
  have onward : clock.timeBase.ticksAt clock.rate clock.position.toInt ≤
      clock.timeBase.ticksAt clock.rate (max clock.position.toInt content.granule.toInt) :=
    Rational.ticksAt_mono valid clock.rate (Int.le_max_left ..)
  have first : 0 ≤ clock.timeBase.ticksAt clock.rate clock.position.toInt := by
    rw [← Rational.ticksAt_zero clock.timeBase clock.rate]
    exact Rational.ticksAt_mono valid clock.rate low
  have reached : (clock.after content).position.toInt =
      max clock.position.toInt content.granule.toInt := by
    rw [Int.max_comm]
    exact Int64.toInt_max ..
  have begins : (clock.ticksAt clock.position).toInt =
      clock.timeBase.ticksAt clock.rate clock.position.toInt :=
    Timestamp.toInt_rescale positive valid low (by omega)
  have ends : (clock.ticksAt (clock.after content).position).toInt =
      clock.timeBase.ticksAt clock.rate (max clock.position.toInt content.granule.toInt) := by
    rw [← reached] at fits ⊢
    exact Timestamp.toInt_rescale positive valid (by omega) fits
  have least := (clock.start.getD 0).le_toInt
  constructor
  · show (clock.ticksAt clock.position + clock.start.getD 0).toInt = _
    rw [Int64.toInt_add, begins]
    exact Int.bmod_eq_of_le (by omega) (by omega)
  · show (clock.ticksAt (clock.after content).position - clock.ticksAt clock.position).toInt = _
    rw [Int64.toInt_sub, begins, ends]
    exact Int.bmod_eq_of_le (by omega) (by omega)

/-- Each of the packets that a clock stamps starts where the ones before it end. -/
theorem stamps (clock : Clock) (positive : 0 < clock.rate.toNat)
    (valid : clock.timeBase.isTimeBase = true) (zero : clock.position = 0)
    {packets : List RawPacket} {k : Nat} {packet : Packet}
    (stamped : (clock.packets (packets.map RawPacket.content))[k]? = some packet)
    (time : clock.timeBase.ticksAt clock.rate (reach (packets.take k))
      + (clock.start.getD 0).toInt < 2 ^ 63)
    (fits : clock.timeBase.ticksAt clock.rate (reach (packets.take (k + 1))) < 2 ^ 63) :
    packet.dts = packet.pts ∧
      packet.pts.ticks.toInt =
        clock.timeBase.ticksAt clock.rate (reach (packets.take k))
          + (clock.start.getD 0).toInt ∧
      packet.duration.toInt =
        clock.timeBase.ticksAt clock.rate (reach (packets.take (k + 1)))
          - clock.timeBase.ticksAt clock.rate (reach (packets.take k)) := by
  rw [getElem?_packets, List.getElem?_map, Option.map_map] at stamped
  obtain ⟨raw, found, rfl⟩ := Option.map_eq_some_iff.mp stamped
  obtain ⟨position, moved, latest⟩ := foldl_after (packets.take k) clock
  have reached : position.toInt = reach (packets.take k) := by
    rw [latest, zero]
    rfl
  have next : reach (packets.take (k + 1)) = max position.toInt raw.granule.toInt := by
    rw [List.take_add_one, found, Option.toList_some, reach_concat, reached]
  have low : 0 ≤ position.toInt := by
    rw [reached]
    exact reach_take_mono packets (Nat.zero_le k)
  rw [next] at fits ⊢
  rw [← reached] at time ⊢
  rw [Function.comp_apply, ← List.map_take, moved]
  exact ⟨rfl, toInt_packet { clock with position } positive valid raw.content low time
    fits⟩

end Clock

namespace Encoder

/-! ## The start settles -/

/-- The start of the stream does not change any more: it is fixed, or no frame is left to fix it. -/
def Settled (e : Encoder lib) : Prop :=
  e.start.isSome = true ∨ e.ended = true

theorem start_drain (e : Encoder lib) : e.drain.2.start = e.start :=
  congrArg Clock.start (clock_drain e)

theorem Settled.drain {e : Encoder lib} (h : e.Settled) : e.drain.2.Settled := by
  rw [Settled, start_drain, ended_drain]
  exact h

/-- A start that is settled stays as it is. -/
theorem start_afterAll {e : Encoder lib} (h : e.Settled) (operations : List Operation) :
    (e.afterAll operations).start.getD 0 = e.start.getD 0 := by
  suffices kept : (e.afterAll operations).Settled ∧
      (e.afterAll operations).start.getD 0 = e.start.getD 0 by
    exact kept.2
  apply afterAll_keeps (P := fun e' => e'.Settled ∧ e'.start.getD 0 = e.start.getD 0) ?_ operations
    ⟨h, rfl⟩
  intro e' settled operation
  apply after_keeps (P := fun e' => e'.Settled ∧ e'.start.getD 0 = e.start.getD 0)
    ?_ ?_ ?_ ?_ ?_ ?_ settled operation
  · rintro e' time open_ ⟨settled, same⟩
    -- A frame is taken, so the input has not ended. Then the start is fixed, and stays.
    rcases settled with fixed | ended
    · obtain ⟨start, started⟩ := Option.isSome_iff_exists.mp fixed
      have unchanged : e'.anchor time = e' := by simp only [anchor, started]
      rw [unchanged]
      exact ⟨.inl fixed, same⟩
    · rw [open_] at ended
      cases ended
  · rintro e' count fill - fixed ⟨-, same⟩
    exact ⟨.inl fixed, same⟩
  · exact fun _ _ kept => kept
  · rintro e' going ⟨fixed | ended, same⟩
    · exact ⟨.inl fixed, same⟩
    · rw [going] at ended
      cases ended
  · rintro e' ⟨settled, same⟩
    exact ⟨settled.drain, by rw [start_drain, same]⟩
  · exact fun _ _ _ _ kept => kept

/-- Once something has been put in, the start is settled. -/
def SettlesInTime (e : Encoder lib) : Prop :=
  ∀ event ∈ e.session.log, event.putsIn = true → e.Settled

theorem settlesInTime_of_open {settings : Settings} {e : Encoder lib} {trace : List Event}
    (opened : Encoder.open lib settings = (.ok e, trace)) : e.SettlesInTime := by
  intro event made input
  obtain ⟨events, log, setup⟩ := (makes_of_open opened).log
  rw [log, show (Session.unused lib e.options).log = [] from rfl, List.append_nil] at made
  have other := setup event made
  rw [Event.purpose_of_putsIn input] at other
  cases other

theorem settlesInTime_after {e : Encoder lib} (h : e.SettlesInTime) (operation : Operation) :
    (e.after operation).SettlesInTime := by
  apply after_keeps (P := SettlesInTime) ?_ ?_ ?_ ?_ ?_ ?_ h operation
  · intro e time _ _ _ _ _
    exact .inl (isSome_start_anchor e time)
  · intro e count fill _ fixed _ _ _ _
    exact .inl fixed
  · exact fun _ _ kept => kept
  · intro e going kept event made input
    rcases Session.signalEnd_cases e.session with
      ⟨-, same⟩ | ⟨-, refused, failed⟩ | ⟨-, -, accepted⟩
    · rw [same]
      exact .inr rfl
    · rw [failed] at made
      rcases List.mem_cons.mp made with rfl | made
      · -- An end that is refused is not put in.
        have accepted : (0 : Int32) ≤ (e.session.perform (.wrote 0 [])).1 := of_decide_eq_true input
        exact absurd refused (Int32.not_lt.mpr accepted)
      · rcases kept event made input with fixed | ended
        · exact .inl fixed
        · rw [going] at ended
          cases ended
    · rw [accepted]
      exact .inr rfl
  · intro e kept event made input
    obtain ⟨events, log, output⟩ := (makes_drain e).log
    rw [log] at made
    rcases List.mem_append.mp made with made | made
    · have other := output event made
      rw [Event.purpose_of_putsIn input] at other
      cases other
    · exact (kept event made input).drain
  · exact fun _ _ _ _ kept => kept

/-! ## What is received -/

def receivedAll (e : Encoder lib) : List Operation → List Packet
  | [] => []
  | operation :: rest => e.received operation ++ (e.after operation).receivedAll rest

/-- The packets that an operation takes from the queue, as it hands them out. -/
structure Takes (e : Encoder lib) (operation : Operation) (taken : List RawPacket) : Prop where
  received : e.received operation = e.clock.packets (taken.map RawPacket.content)
  data : taken.map RawPacket.data = e.handedOut operation
  conserves : e.Conserves (e.after operation) taken
  /-- The clock has moved on, and nothing but its start may have changed besides. -/
  clock : ∀ time, (e.after operation).clock.startingAt time =
    (taken.map RawPacket.content).foldl Clock.after (e.clock.startingAt time)
  start : taken ≠ [] → (e.after operation).start = e.start

theorem takes_nothing {e : Encoder lib} {operation : Operation}
    (received : e.received operation = []) (data : e.handedOut operation = [])
    (conserves : e.Conserves (e.after operation) [])
    (clock : ∀ time, (e.after operation).clock.startingAt time = e.clock.startingAt time) :
    e.Takes operation [] :=
  ⟨received, data.symm, conserves, clock, fun some_ => absurd rfl some_⟩

theorem startingAt_send (e : Encoder lib) (frame : Frame) (time : Int64) :
    (e.send frame).2.clock.startingAt time = e.clock.startingAt time := by
  have anchored : (e.anchor frame.pts).clock.startingAt time = e.clock.startingAt time := by
    rw [clock_anchor e frame []]
    rfl
  rcases send_cases e frame with
    ⟨_, -, sent⟩ | ⟨-, -, sent⟩ | ⟨_, _, -, -, -, sent⟩ | ⟨_, -, -, -, sent⟩
  · rw [sent]
  · rw [sent]
    exact anchored
  · rw [sent]
    exact anchored
  · rw [sent, clock_drain]
    exact anchored

theorem Receives.exists_takes {e : Encoder lib} {operation : Operation}
    (h : e.Receives operation) : ∃ taken, e.Takes operation taken := by
  cases h with
  | nothing after data received =>
    refine ⟨[], takes_nothing received data ?_ ?_⟩
    · rw [after]
      exact conserves_refill e
    · intro time
      rw [after, clock_refill]
  | @front raw rest staged after data received =>
    refine ⟨[raw], ?_, data.symm, ?_, ?_, ?_⟩
    · rw [received, packetOf_eq, clock_refill]
      rfl
    · rw [after]
      exact (conserves_refill e).trans (.handOut staged)
    · intro time
      rw [after, clock_handOut, clock_refill]
      rfl
    · intro _
      rw [after]
      exact congrArg Clock.start (clock_refill e)

theorem exists_takes (e : Encoder lib) (operation : Operation) :
    ∃ taken, e.Takes operation taken := by
  cases operation with
  | send frame =>
    exact ⟨[], takes_nothing rfl rfl (conserves_send e frame) (startingAt_send e frame)⟩
  | flush =>
    refine ⟨[], takes_nothing rfl rfl (conserves_flush e) ?_⟩
    intro time
    rw [after, clock_flush]
  | receive => exact (receives_receive e).exists_takes
  | receiveInto buffer => exact (receives_receiveInto e buffer).exists_takes

/-! ## What a run receives -/

def StagesReleased (e : Encoder lib) : Prop :=
  e.session.released = [] → e.staging.packets = []

/-- As long as nothing has been released, nothing has been taken and nothing is staged. -/
theorem StagesReleased.conserves {e e' : Encoder lib} {taken : List RawPacket}
    (h : e.StagesReleased) (conserves : e.Conserves e' taken) (none : e'.session.released = []) :
    taken = [] ∧ e'.staging.packets = [] := by
  obtain ⟨released, all, balance⟩ := conserves
  rw [none] at all
  obtain ⟨before, nothing⟩ := List.append_eq_nil_iff.mp all.symm
  rw [h before, nothing] at balance
  exact List.append_eq_nil_iff.mp balance

/-- A library that waits for input has released no packet before the start is settled. -/
theorem settled_of_released {e : Encoder lib} (settles : e.SettlesInTime)
    (patient : waits e.session.log = true) (some_ : e.session.released ≠ []) : e.Settled := by
  obtain ⟨raw, rest, released⟩ := List.exists_cons_of_ne_nil some_
  have member : raw ∈ e.session.trace.filterMap Event.released? := by
    rw [← Session.released, released]
    exact List.mem_cons_self ..
  obtain ⟨event, made, release⟩ := List.mem_filterMap.mp member
  obtain ⟨earlier, before, input⟩ :=
    exists_putsIn_of_waits patient (List.mem_reverse.mp made) release
  exact settles earlier before input

/-- What a run receives are the packets taken from the queue, all of them stamped with the start as
it is in the end. -/
theorem receivedAll_eq (operations : List Operation) {e : Encoder lib} (settles : e.SettlesInTime)
    (staged : e.StagesReleased) (patient : waits (e.afterAll operations).session.log = true) :
    ∃ taken, taken.map RawPacket.data = e.handedOutAll operations ∧
      e.Conserves (e.afterAll operations) taken ∧
      e.receivedAll operations = (e.clock.startingAt ((e.afterAll operations).start.getD 0)).packets
        (taken.map RawPacket.content) := by
  induction operations generalizing e with
  | nil => exact ⟨[], rfl, .refl e, rfl⟩
  | cons operation rest ih =>
    obtain ⟨taken, first⟩ := exists_takes e operation
    have settles' := settlesInTime_after settles operation
    have staged' : (e.after operation).StagesReleased :=
      fun none => (staged.conserves first.conserves none).2
    obtain ⟨further, data, conserves, later⟩ := ih settles' staged' patient
    refine ⟨taken ++ further, ?_, first.conserves.trans conserves, ?_⟩
    · rw [List.map_append, first.data, data, handedOutAll]
    · -- If the operation took a packet, the start had been settled.
      have stamped : e.received operation =
          (e.clock.startingAt ((e.afterAll (operation :: rest)).start.getD 0)).packets
            (taken.map RawPacket.content) := by
        rw [first.received]
        by_cases none : taken = []
        · rw [none]
          rfl
        · symm
          apply Clock.packets_startingAt
          have released : (e.after operation).session.released ≠ [] :=
            fun nothing => none (staged.conserves first.conserves nothing).1
          have soFar := (leadsTo_afterAll (e.after operation) rest).session.log
          have settled := settled_of_released settles' (waits_of_suffix soFar patient) released
          show e.start.getD 0 = _
          rw [afterAll_cons, start_afterAll settled rest, first.start none]
      rw [receivedAll, stamped, later, first.clock, List.map_append, Clock.packets_append]
      rfl

/-! ## Timing -/

/-- The tick of the sample that the first `k` packets reach which were released in a run. -/
def tickAt (e : Encoder lib) (operations : List Operation) (k : Nat) : Int :=
  e.timeBase.ticksAt e.options.rate (reach ((e.afterAll operations).session.released.take k))

/-- The start of the stream as a run leaves it, zero if it is not fixed. -/
def startAfter (e : Encoder lib) (operations : List Operation) : Int :=
  ((e.afterAll operations).start.getD 0).toInt

def totalDuration : List Packet → Int
  | [] => 0
  | packet :: rest => packet.duration.toInt + totalDuration rest

theorem totalDuration_concat (packets : List Packet) (packet : Packet) :
    totalDuration (packets ++ [packet]) = totalDuration packets + packet.duration.toInt := by
  induction packets with
  | nil => exact Int.add_comm _ _
  | cons first rest ih =>
    rw [List.cons_append, totalDuration, totalDuration, ih, Int.add_assoc]

/-- No time of a run leaves its word. -/
structure StaysInRange (e : Encoder lib) (operations : List Operation) : Prop where
  ticks : ∀ k ≤ (e.receivedAll operations).length, e.tickAt operations k < 2 ^ 63
  times : ∀ k < (e.receivedAll operations).length,
    e.tickAt operations k + e.startAfter operations < 2 ^ 63

/-- The packets received in a run are the first that were released, and they follow one another
without a gap. -/
structure IsContiguous (e : Encoder lib) (operations : List Operation) : Prop where
  handedOut : (e.receivedAll operations).map Packet.data = e.handedOutAll operations
  released : (e.receivedAll operations).map Packet.data =
    ((e.afterAll operations).session.released.take (e.receivedAll operations).length).map
      RawPacket.data
  stamped : ∀ k packet, (e.receivedAll operations)[k]? = some packet →
    packet.dts = packet.pts ∧
      packet.pts.ticks.toInt = e.tickAt operations k + e.startAfter operations ∧
      packet.duration.toInt = e.tickAt operations (k + 1) - e.tickAt operations k ∧
      0 ≤ packet.duration.toInt
  next : ∀ k packet later, (e.receivedAll operations)[k]? = some packet →
    (e.receivedAll operations)[k + 1]? = some later →
      packet.pts.ticks.toInt + packet.duration.toInt = later.pts.ticks.toInt
  ordered : (e.receivedAll operations).Pairwise fun packet later =>
    packet.pts.ticks.toInt ≤ later.pts.ticks.toInt
  total : ∀ n ≤ (e.receivedAll operations).length,
    totalDuration ((e.receivedAll operations).take n) = e.tickAt operations n

theorem tickAt_mono {e : Encoder lib} (valid : e.timeBase.isTimeBase = true)
    (operations : List Operation) {k n : Nat} (h : k ≤ n) :
    e.tickAt operations k ≤ e.tickAt operations n :=
  Rational.ticksAt_mono valid e.options.rate (reach_take_mono _ h)

theorem totalDuration_take {ticks : Nat → Int} (zero : ticks 0 = 0) {packets : List Packet}
    (lasts : ∀ k packet, packets[k]? = some packet →
      packet.duration.toInt = ticks (k + 1) - ticks k) {n : Nat} (h : n ≤ packets.length) :
    totalDuration (packets.take n) = ticks n := by
  induction n with
  | zero => exact zero.symm
  | succ n ih =>
    have found : packets[n]? = some packets[n] := List.getElem?_eq_getElem h
    rw [List.take_add_one, found, Option.toList_some, totalDuration_concat,
      ih (Nat.le_of_succ_le h), lasts n _ found]
    omega

/-- An encoder that has just been opened has a rate and a time base, and is at sample zero. -/
theorem timing_of_open {settings : Settings} {e : Encoder lib} {trace : List Event}
    (opened : Encoder.open lib settings = (.ok e, trace)) :
    0 < e.options.rate.toNat ∧ e.timeBase.isTimeBase = true ∧ e.position = 0 := by
  obtain ⟨valid, options, started, headers, session, resolved, -, -, rfl, -⟩ :=
    open_eq_ok_iff.mp opened
  exact ⟨(EncodingOptions.of_check (EncodingOptions.of_resolve resolved).2.2.2).1, valid, rfl⟩

/-- **Packets follow one another without a gap, and nothing is lost to rounding.** In every run of
an encoder that has been opened, over a library that releases no packet before something has been
put in, each packet that is received starts where the one before it ends. Where it starts and how
long it lasts follows from the greatest granule so far, and the durations add up to it. -/
theorem received_isContiguous {settings : Settings} {e : Encoder lib} {trace : List Event}
    (opened : Encoder.open lib settings = (.ok e, trace)) (operations : List Operation)
    (patient : waits (e.afterAll operations).session.log = true)
    (inRange : e.StaysInRange operations) : e.IsContiguous operations := by
  obtain ⟨positive, valid, zero⟩ := timing_of_open opened
  obtain ⟨empty, silent⟩ := staged_released_of_open opened
  obtain ⟨taken, data, ⟨released, all, balance⟩, received⟩ :=
    receivedAll_eq operations (settlesInTime_of_open opened) (fun _ => empty) patient
  have copied : (e.receivedAll operations).map Packet.data = taken.map RawPacket.data := by
    rw [received, Clock.data_packets, List.map_map]
    rfl
  have count : (e.receivedAll operations).length = taken.length := by
    rw [← List.length_map (f := Packet.data), copied, List.length_map]
  -- What has been taken are the first packets released.
  rw [silent, ← empty, ← balance] at all
  have first {k : Nat} (h : k ≤ (e.receivedAll operations).length) :
      (e.afterAll operations).session.released.take k = taken.take k := by
    rw [all, List.take_append_of_le_length (count ▸ h)]
  have tick {k : Nat} (h : k ≤ (e.receivedAll operations).length) :
      e.tickAt operations k = e.timeBase.ticksAt e.options.rate (reach (taken.take k)) := by
    rw [tickAt, first h]
  have stamped (k : Nat) (packet : Packet)
      (found : (e.receivedAll operations)[k]? = some packet) :
      packet.dts = packet.pts ∧
        packet.pts.ticks.toInt = e.tickAt operations k + e.startAfter operations ∧
        packet.duration.toInt = e.tickAt operations (k + 1) - e.tickAt operations k := by
    obtain ⟨within, -⟩ := List.getElem?_eq_some_iff.mp found
    have time := inRange.times k within
    have fits := inRange.ticks (k + 1) within
    rw [received] at found
    rw [tick (Nat.le_of_lt within)] at time ⊢
    rw [tick within] at fits ⊢
    exact Clock.stamps (e.clock.startingAt _) positive valid zero found time fits
  refine ⟨copied.trans data, ?_, ?_, ?_, ?_, ?_⟩
  · rw [copied, first (Nat.le_refl _), count, List.take_length]
  · intro k packet found
    obtain ⟨decoded, starts, lasts⟩ := stamped k packet found
    have onward := tickAt_mono valid operations (Nat.le_add_right k 1)
    exact ⟨decoded, starts, lasts, by omega⟩
  · intro k packet later found next
    obtain ⟨-, starts, lasts⟩ := stamped k packet found
    obtain ⟨-, follows, -⟩ := stamped (k + 1) later next
    omega
  · rw [List.pairwise_iff_getElem]
    intro i j within within' before
    have earlier := (stamped i _ (List.getElem?_eq_getElem within)).2.1
    have later := (stamped j _ (List.getElem?_eq_getElem within')).2.1
    have onward := tickAt_mono valid operations (Nat.le_of_lt before)
    omega
  · intro n h
    refine totalDuration_take ?_ (fun k packet found => (stamped k packet found).2.2) h
    exact Rational.ticksAt_zero e.timeBase e.options.rate

/-- Settings for a mono stream at 8 kHz whose ticks are milliseconds. -/
def millisecondSettings : Settings :=
  { monoSettings with chosenTimeBase := some ⟨1, 1000⟩ }

/-- A library whose granules go back and forth, and are no whole milliseconds. -/
def waveringScript : Script :=
  { block := 4
    blocks := [[{ size := 3, granule := some 13 }, { size := 5, granule := some (-2) }],
      [{ size := 2, granule := some 30 }]] }

theorem received_isContiguous_wavering :
    ∃ (e : Encoder waveringScript.library) (trace : List Event),
      Encoder.open waveringScript.library millisecondSettings = (.ok e, trace) ∧
        (e.receivedAll [.send (monoFrame 8 ⟨500⟩), .receive, .receiveInto (List.replicate 8 0),
          .flush, .receive]).map (fun packet => (packet.pts.ticks.toInt, packet.duration.toInt))
            = [(500, 1), (501, 0), (501, 2)] ∧
        e.IsContiguous [.send (monoFrame 8 ⟨500⟩), .receive, .receiveInto (List.replicate 8 0),
          .flush, .receive] :=
  ⟨_, _, rfl, by decide +kernel,
    received_isContiguous (show Encoder.open _ millisecondSettings = _ from rfl) _
      (by decide +kernel) ⟨by decide +kernel, by decide +kernel⟩⟩

end Encoder

end VorbisTrack
