import VorbisTrack.Proofs.Library.Codec
import VorbisTrack.Proofs.Session.Released

/-!
# Sessions with a library that works like a codec

With such a library no operation fails. Writing extends its input, and draining takes the packets of
the blocks that are complete, block by block, until there is none left or the sink has enough
(`drain_view`).
-/

set_option autoImplicit false

namespace VorbisTrack

variable {σ τ : Type} {lib : Library σ} {codec : Codec} {rel : σ → View → Prop}

structure View.Idle (v : View) : Prop where
  working : v.working = none
  queue : v.queue = []

/-- The view after one more block has been handed out and worked on. -/
theorem View.Idle.handing {v : View} (idle : v.Idle) (handed : Nat) :
    ({ v with handed, working := none, queue := [] } : View) = { v with handed } := by
  rw [← idle.working, ← idle.queue]

namespace Session

/-! ## Input -/

/-- Samples are refused if they come after the end or are too many for a call, and otherwise they
extend the input. -/
theorem write_view (sim : codec.Simulates lib rel) {s : Session lib} {v : View}
    (h : rel s.native v) (idle : v.Idle) (ended : v.input.ended = s.ended) {count : Nat}
    (some_ : count ≠ 0) {fill : Nat → List Sample}
    (full : ∀ c < s.channels.toNat, (fill c).length = count) :
    (∃ failure, s.write count fill = (.error failure, s) ∧
      (s.ended = true ∧ failure = .samplesAfterEnd ∨
        maxCount < count ∧ failure = .tooManySamples count)) ∨
      ∃ s', s.write count fill = (.ok (), s') ∧ s'.ended = s.ended ∧ s'.channels = s.channels ∧
        rel s'.native
          { v with input := v.input.append ((List.range s.channels.toNat).map fill) } := by
  rcases write_cases s count fill with
    refused | ⟨notEnded, none, -⟩ | ⟨notEnded, memory, told, asked, rfl, written⟩
  · exact .inl refused
  · have given : Option.isSome (s.perform (.buffer count)).1 :=
      sim.fits (.buffer count) h ⟨ended.trans notEnded, idle.working, idle.queue⟩
    rw [none] at given
    cases given
  · right
    have planes := writtenPlanes_of_full some_ full memory
    have lengths : ∀ plane ∈ (List.range s.channels.toNat).map fill, plane.length = count := by
      intro plane member
      obtain ⟨c, inRange, rfl⟩ := List.mem_map.mp member
      exact full c (List.mem_range.mp inRange)
    -- Asking for the memory changes nothing in the view. Telling of it extends the input.
    have second : rel (s.perform (.buffer count)).2.native v :=
      sim.next (.buffer count) h ⟨ended.trans notEnded, idle.working, idle.queue⟩
    have allowed : v.Allows (.wrote count ((List.range s.channels.toNat).map fill)) :=
      ⟨ended.trans notEnded, idle.working, idle.queue, lengths⟩
    rw [planes] at written
    have accepted : 0 ≤ ((s.perform (.buffer count)).2.perform
        (.wrote count ((List.range s.channels.toNat).map fill))).1 := sim.fits _ second allowed
    rw [if_neg (Int32.not_lt.mpr accepted)] at written
    refine ⟨_, written, rfl, rfl, ?_⟩
    have third := sim.next _ second allowed
    simp only [Codec.next, if_neg some_] at third
    exact third

/-- Afterwards the input has ended, whether it had before or not. -/
theorem signalEnd_view (sim : codec.Simulates lib rel) {s : Session lib} {v : View}
    (h : rel s.native v) (idle : v.Idle) (ended : v.input.ended = s.ended) :
    s.signalEnd.1 = .ok () ∧ s.signalEnd.2.ended = true ∧
      s.signalEnd.2.channels = s.channels ∧
      rel s.signalEnd.2.native { v with input := v.input.finish } := by
  cases already : s.ended with
  | true =>
    -- The input ends once. Ending it again makes no call.
    have same : v.input.finish = v.input := by rw [Input.finish, ← ended.trans already]
    rw [signalEnd_of_ended already, same]
    exact ⟨rfl, already, rfl, h⟩
  | false =>
    have allowed : v.Allows (.wrote 0 []) :=
      ⟨ended.trans already, idle.working, idle.queue, fun plane member => absurd member (by simp)⟩
    have accepted : 0 ≤ (s.perform (.wrote 0 [])).1 := sim.fits _ h allowed
    have told : s.signalEnd = (.ok (), { (s.perform (.wrote 0 [])).2 with ended := true }) := by
      rw [signalEnd, if_neg (by simp [already])]
      exact if_neg (Int32.not_lt.mpr accepted)
    rw [told]
    exact ⟨rfl, rfl, rfl, sim.next _ h allowed⟩

/-! ## Output -/

/-- All packets that wait are taken. Whether another block is wanted is the sink's last word. -/
theorem takePackets_view (sim : codec.Simulates lib rel) (sink : Sink τ) (wantsMore : Bool) (t : τ)
    (s : Session lib) {v : View} (h : rel s.native v) (free : v.working = none) :
    ∃ packets more, (takePackets sink wantsMore t s).1 = .ok more ∧
      (takePackets sink wantsMore t s).2.1 = sink.putAll packets t ∧
      rel (takePackets sink wantsMore t s).2.2.native { v with queue := [] } ∧
      packets.map RawPacket.content = v.queue ∧
      (packets = [] ∧ more = wantsMore ∨ more = sink.wantsMore (sink.putAll packets t)) := by
  -- By induction on the requests, for all views at once: each request shortens the queue.
  revert v
  fun_induction takePackets sink wantsMore t s
  case case1 wantsMore t s reply released taken ih =>
    intro v h free
    have fits := sim.fits .flushPacket h free
    have next := sim.next .flushPacket h free
    cases queue : v.queue with
    | nil =>
      simp only [Codec.Fits, queue] at fits
      exact absurd released fits.2
    | cons content rest =>
      simp only [Codec.Fits, queue] at fits
      simp only [Codec.next, queue, List.tail_cons] at next
      obtain ⟨packets, more, ok, put, later, contents, last⟩ := ih next free
      refine ⟨reply.1.2 :: packets, more, ok, put, later, ?_, .inr ?_⟩
      · rw [List.map_cons, contents, ← fits.2]
        rfl
      · rcases last with ⟨rfl, same⟩ | same
        · exact same
        · exact same
  case case2 wantsMore t s reply none failed =>
    intro v h free
    have fits := sim.fits .flushPacket h free
    -- A library that works like a codec does not fail here, whether packets wait or not.
    exfalso
    cases queue : v.queue with
    | nil =>
      simp only [Codec.Fits, queue] at fits
      exact absurd failed (Int32.not_lt.mpr fits.1)
    | cons content rest =>
      simp only [Codec.Fits, queue] at fits
      exact none fits.1
  case case3 wantsMore t s reply none _ =>
    intro v h free
    have fits := sim.fits .flushPacket h free
    have next := sim.next .flushPacket h free
    cases queue : v.queue with
    | nil =>
      simp only [Codec.next, queue, List.tail_nil] at next
      exact ⟨[], wantsMore, rfl, rfl, next, rfl, .inl ⟨rfl, rfl⟩⟩
    | cons content rest =>
      simp only [Codec.Fits, queue] at fits
      exact absurd fits.1 none

/-- The packets of the block that was handed out are taken. -/
theorem analyseBlock_view (sim : codec.Simulates lib rel) (sink : Sink τ) (t : τ) (s : Session lib)
    {v : View} {block : List Content} (h : rel s.native v) (handed : v.working = some block)
    (empty : v.queue = []) :
    ∃ packets more, (analyseBlock sink t s).1 = .ok more ∧
      (analyseBlock sink t s).2.1 = sink.putAll packets t ∧
      rel (analyseBlock sink t s).2.2.native { v with working := none, queue := [] } ∧
      packets.map RawPacket.content = block ∧
      (more = true ∨ more = sink.wantsMore (sink.putAll packets t)) := by
  have some_ : v.working.isSome := by rw [handed, Option.isSome_some]
  have analysed : 0 ≤ (s.perform .analysis).1 := sim.fits .analysis h ⟨some_, empty⟩
  have second : rel (s.perform .analysis).2.native v :=
    sim.next .analysis h ⟨some_, empty⟩
  have added : 0 ≤ ((s.perform .analysis).2.perform .addBlock).1 :=
    sim.fits .addBlock second ⟨some_, empty⟩
  have third : rel ((s.perform .analysis).2.perform .addBlock).2.native
      { v with working := none, queue := block } := by
    have next := sim.next .addBlock second ⟨some_, empty⟩
    simp only [Codec.next, handed, Option.getD_some] at next
    exact next
  obtain ⟨packets, more, ok, put, later, contents, last⟩ :=
    takePackets_view sim sink true t _ third rfl
  have whole : analyseBlock sink t s =
      takePackets sink true t ((s.perform .analysis).2.perform .addBlock).2 := by
    simp only [analyseBlock]
    rw [if_neg (Int32.not_lt.mpr analysed), if_neg (Int32.not_lt.mpr added)]
  rw [whole]
  refine ⟨packets, more, ok, put, later, contents, ?_⟩
  rcases last with ⟨-, same⟩ | same
  · exact .inl same
  · exact .inr same

/-- A block is handed out just if there is one more than were handed out before. -/
theorem blockOut_eq_one_iff (sim : codec.Simulates lib rel) {s : Session lib} {v : View}
    (h : rel s.native v) (idle : v.Idle) :
    (s.perform .blockOut).1 = (1 : Int32) ↔ v.handed < (codec.blocks v.input).length :=
  (sim.fits .blockOut h ⟨idle.working, idle.queue⟩).2

/-- Working on the next block takes its packets. -/
theorem nextBlock_view (sim : codec.Simulates lib rel) (sink : Sink τ) (t : τ) {s : Session lib}
    {v : View} (h : rel s.native v) (idle : v.Idle)
    (complete : v.handed < (codec.blocks v.input).length) :
    ∃ packets more, (analyseBlock sink t (s.perform .blockOut).2).1 = .ok more ∧
      (analyseBlock sink t (s.perform .blockOut).2).2.1 = sink.putAll packets t ∧
      rel (analyseBlock sink t (s.perform .blockOut).2).2.2.native
        { v with handed := v.handed + 1 } ∧
      packets.map RawPacket.content = (codec.blocks v.input)[v.handed] ∧
      (more = true ∨ more = sink.wantsMore (sink.putAll packets t)) := by
  have next := sim.next .blockOut h ⟨idle.working, idle.queue⟩
  rw [codec.blockOut_next v complete] at next
  obtain ⟨packets, more, ok, put, later, contents, last⟩ :=
    analyseBlock_view sim sink t (s.perform .blockOut).2 next rfl idle.queue
  rw [idle.handing] at later
  exact ⟨packets, more, ok, put, later, contents, last⟩

/-- One more block brings its packets behind those of the blocks before it. -/
theorem flatten_take_succ (blocks : List (List Content)) {n : Nat} (complete : n < blocks.length) :
    (blocks.take (n + 1)).flatten = (blocks.take n).flatten ++ blocks[n] := by
  rw [List.take_succ_eq_append_getElem complete, List.flatten_concat]

/-- Draining takes the packets of the blocks that are complete, from the first one that has not been
handed out. It stops when there are no more, or when the sink has enough. -/
theorem drain_view (sim : codec.Simulates lib rel) (sink : Sink τ) (t : τ) (s : Session lib)
    {v : View} (h : rel s.native v) (idle : v.Idle)
    (bound : v.handed ≤ (codec.blocks v.input).length) :
    ∃ packets handed, (drain sink t s).1 = .ok () ∧
      (drain sink t s).2.1 = sink.putAll packets t ∧
      rel (drain sink t s).2.2.native { v with handed } ∧
      handed ≤ (codec.blocks v.input).length ∧
      ((codec.blocks v.input).take v.handed).flatten ++ packets.map RawPacket.content
        = ((codec.blocks v.input).take handed).flatten ∧
      (handed = (codec.blocks v.input).length ∨
        sink.wantsMore (sink.putAll packets t) = false) := by
  revert v
  -- By induction on the blocks that are asked for, for all views at once. In the first and the
  -- fourth case the library would have failed.
  fun_induction drain sink t s
  case case1 t s reply complete failure t' s' worked =>
    intro v h idle bound
    have more := (blockOut_eq_one_iff sim h idle).mp complete
    obtain ⟨_, _, ok, -⟩ := nextBlock_view sim sink t h idle more
    rw [worked] at ok
    cases ok
  case case2 t s reply complete t' s' worked =>
    intro v h idle bound
    have more := (blockOut_eq_one_iff sim h idle).mp complete
    obtain ⟨packets, _, ok, put, later, contents, last⟩ := nextBlock_view sim sink t h idle more
    rw [worked] at ok put later
    cases ok
    refine ⟨packets, v.handed + 1, rfl, put, later, more, ?_, .inr ?_⟩
    · rw [contents, flatten_take_succ _ more]
    · rcases last with no | last
      · cases no
      · exact last.symm
  case case3 t s reply complete t' s' worked ih =>
    intro v h idle bound
    have more := (blockOut_eq_one_iff sim h idle).mp complete
    obtain ⟨packets, _, -, put, later, contents, -⟩ := nextBlock_view sim sink t h idle more
    rw [worked] at put later
    obtain ⟨further, handed, ok, put', later', bound', contents', last⟩ :=
      ih later ⟨idle.working, idle.queue⟩ more
    -- The packets of this block, then those of the blocks after it.
    subst put
    refine ⟨packets ++ further, handed, ok, ?_, later', bound', ?_, ?_⟩
    · rw [put', sink.putAll_append]
    · rw [List.map_append, contents, ← List.append_assoc, ← flatten_take_succ _ more]
      exact contents'
    · rwa [sink.putAll_append]
  case case4 t s reply none failed =>
    intro v h idle bound
    exact absurd failed (Int32.not_lt.mpr (sim.fits .blockOut h ⟨idle.working, idle.queue⟩).1)
  case case5 t s reply none _ =>
    intro v h idle bound
    -- The library has said that no block is complete, so all of them have been handed out.
    have all : ¬ v.handed < (codec.blocks v.input).length := by
      rw [← blockOut_eq_one_iff sim h idle]
      exact none
    have next := sim.next .blockOut h ⟨idle.working, idle.queue⟩
    rw [codec.blockOut_next_of_le v (by omega)] at next
    refine ⟨[], v.handed, rfl, rfl, next, bound, ?_, .inl (by omega)⟩
    rw [List.map_nil, List.append_nil]

end Session

end VorbisTrack
