import VorbisTrack.Proofs.Encoder.Buffers

/-!
# What the answer zero tells

Receiving into a buffer answers a count of bytes. That is zero if there is nothing to receive, but a
packet without data has this count as well (`receiveInto_eq_zero_iff`). Such a packet is consumed,
so a caller that stops at zero gets what comes before it, and not what comes after it
(`stopsAtZero`). Zero can be trusted if every packet that the library has released has data
(`Encoder.ReleasesData`).
-/

set_option autoImplicit false

namespace VorbisTrack

variable {σ : Type} {lib : Library σ}

namespace Encoder

variable {e : Encoder lib}

/-! ## One call -/

def GivesNothing (e : Encoder lib) : Prop :=
  e.receive.1 = .error .tryAgain ∨ e.receive.1 = .error .endOfStream

theorem GivesNothing.exists_eq (h : e.GivesNothing) :
    ∃ failure, e.receive.1 = .error failure ∧ (failure = .tryAgain ∨ failure = .endOfStream) := by
  rcases h with again | ending
  · exact ⟨_, again, .inl rfl⟩
  · exact ⟨_, ending, .inr rfl⟩

theorem GivesNothing.isOk (h : e.GivesNothing) : e.receive.1.isOk = false := by
  obtain ⟨failure, received, -⟩ := h.exists_eq
  rw [received]
  rfl

/-- Zero is the answer if there is nothing to receive, and if the next packet is without data. -/
theorem receiveInto_eq_zero_iff {buffer : Bytes} :
    (e.receiveInto buffer).1 = .ok 0 ↔
      e.GivesNothing ∨ ∃ packet, e.receive.1 = .ok packet ∧ packet.data = [] := by
  constructor
  · intro zero
    cases receivesInto e buffer with
    | fails _ _ into | small _ _ _ into =>
      rw [into] at zero
      cases zero
    | nothing which _ received =>
      left
      rw [GivesNothing, received]
      exact which.imp (congrArg _) (congrArg _)
    | fits _ _ received into =>
      rw [into] at zero
      rw [received]
      exact .inr ⟨_, rfl, List.length_eq_zero_iff.mp (Except.ok.inj zero)⟩
  · rintro (nothing | ⟨packet, given, empty⟩)
    · obtain ⟨failure, received, which⟩ := nothing.exists_eq
      rw [receiveInto_of_nothing buffer received which]
    · rw [receiveInto_of_fits buffer given (by rw [empty]; exact Nat.zero_le _), empty]
      rfl

/-! ## Stopping at zero -/

/-- A positive count uses a packet up. -/
theorem remaining_receiveInto {buffer filled : Bytes} {count : Nat} {e' : Encoder lib}
    (given : e.receiveInto buffer = (.ok (count + 1), filled, e')) :
    Prod.Lex (· < ·) (· < ·) e'.remaining e.remaining := by
  cases receivesInto e buffer with
  | fails _ _ into | nothing _ _ _ into | small _ _ _ into =>
    rw [into] at given
    cases given
  | fits _ _ received into =>
    rw [into] at given
    simp only [Prod.mk.injEq] at given
    obtain ⟨-, -, rfl⟩ := given
    exact remaining_receive e _ _ received

/-- Receives into a buffer, again and again, until the answer is zero or a failure. Tells the data
that each call has copied, and the failure. -/
def receiveAllInto (buffer : Bytes) (e : Encoder lib) :
    List Bytes × Option Failure × Encoder lib :=
  match _given : e.receiveInto buffer with
  | (.error failure, _, e') => ([], some failure, e')
  | (.ok 0, _, e') => ([], none, e')
  | (.ok (count + 1), filled, e') =>
    let (parts, failure, e'') := receiveAllInto filled e'
    (filled.take (count + 1) :: parts, failure, e'')
termination_by e.remaining
decreasing_by exact remaining_receiveInto _given

/-- How receiving ends for a caller who is told zero if there is nothing. -/
def untilZero : Failure → Option Failure
  | .tryAgain | .endOfStream => none
  | other => some other

section Loop

variable (buffer : Bytes)

theorem receiveAllInto_eq (e : Encoder lib) :
    e.receiveAllInto buffer =
      match e.receiveInto buffer with
      | (.error failure, _, e') => ([], some failure, e')
      | (.ok 0, _, e') => ([], none, e')
      | (.ok (count + 1), filled, e') =>
        let rest := e'.receiveAllInto filled
        (filled.take (count + 1) :: rest.1, rest.2) := by
  rw [receiveAllInto]
  split <;> next given => rw [given]

theorem receiveAllInto_of_error {failure : Failure} {e' : Encoder lib}
    (received : e.receive = (.error failure, e')) :
    e.receiveAllInto buffer = ([], untilZero failure, e') := by
  have failed : e.receive.1 = .error failure := by rw [received]
  have same : e.receive.2 = e' := by rw [received]
  by_cases which : failure = .tryAgain ∨ failure = .endOfStream
  · rw [receiveAllInto_eq, receiveInto_of_nothing buffer failed which, same]
    rcases which with rfl | rfl
    · rfl
    · rfl
  · rw [receiveAllInto_eq, receiveInto_of_fails buffer failed which, same]
    obtain ⟨again, ending⟩ := not_or.mp which
    rw [untilZero]
    · exact again
    · exact ending

theorem receiveAllInto_of_empty {packet : Packet} {e' : Encoder lib}
    (received : e.receive = (.ok packet, e')) (empty : packet.data = []) :
    e.receiveAllInto buffer = ([], none, e') := by
  have given : e.receive.1 = .ok packet := by rw [received]
  have none := receiveInto_of_fits buffer given (by rw [empty]; exact Nat.zero_le _)
  rw [received, empty] at none
  rw [receiveAllInto_eq, none]
  rfl

theorem receiveAllInto_of_fits {packet : Packet} {e' : Encoder lib}
    (received : e.receive = (.ok packet, e')) (some_ : packet.data ≠ [])
    (room : packet.data.length ≤ buffer.length) :
    ∃ filled : Bytes, filled.length = buffer.length ∧ e.receiveAllInto buffer =
      (packet.data :: (e'.receiveAllInto filled).1, (e'.receiveAllInto filled).2) := by
  have given : e.receive.1 = .ok packet := by rw [received]
  have one := receiveInto_of_fits buffer given room
  obtain ⟨count, size⟩ : ∃ count, packet.data.length = count + 1 :=
    Nat.exists_eq_add_one.mpr (List.length_pos_iff.mpr some_)
  refine ⟨packet.data ++ buffer.drop packet.data.length, ?_, ?_⟩
  · rw [List.length_append, List.length_drop]
    omega
  · rw [size, received] at one
    rw [receiveAllInto_eq, one]
    simp only [← size, List.take_left]

end Loop

/-- What a caller gets who stops at zero, compared with what is given packet after packet. -/
structure StopsAtZero (e : Encoder lib) (buffer : Bytes)
    (given : List Packet × Option Failure × Encoder lib) : Prop where
  /-- The caller gets the data of the packets before the first one that has none. -/
  parts : (e.receiveAllInto buffer).1 =
    (given.1.map Packet.data).takeWhile (fun data => !data.isEmpty)
  /-- If all have data, nothing is missing, and the encoder is as it would be otherwise. -/
  whole : (∀ packet ∈ given.1, packet.data ≠ []) →
    e.receiveAllInto buffer = (given.1.map Packet.data, given.2.1.bind untilZero, given.2.2)

theorem stopsAtZero {buffer : Bytes}
    (room : ∀ packet ∈ (e.receiveUpTo none).1, packet.data.length ≤ buffer.length) :
    e.StopsAtZero buffer (e.receiveUpTo none) := by
  -- By induction along the packets. The buffer changes from call to call, but for its size.
  generalize unlimited : (none : Option Nat) = limit at room ⊢
  fun_induction receiveUpTo limit e generalizing buffer with
  | case1 e => cases unlimited
  | case2 limit e _ failure e' received =>
    have stopped := receiveAllInto_of_error buffer received
    exact ⟨by rw [stopped]; rfl, fun _ => stopped⟩
  | case3 limit e _ packet e' received packets failure e'' rest ih =>
    subst unlimited
    by_cases empty : packet.data = []
    · refine ⟨?_, fun some_ => absurd empty (some_ packet (List.mem_cons_self ..))⟩
      rw [receiveAllInto_of_empty buffer received empty, List.map_cons, empty]
      rfl
    · obtain ⟨filled, length, one⟩ := receiveAllInto_of_fits buffer received empty
        (room packet (List.mem_cons_self ..))
      rw [rest] at ih
      have room' : ∀ later ∈ packets, later.data.length ≤ filled.length := by
        intro later member
        rw [length]
        exact room later (List.mem_cons_of_mem _ member)
      obtain ⟨parts, whole⟩ := ih rfl room'
      refine ⟨?_, fun some_ => ?_⟩
      · rw [one, List.map_cons, List.takeWhile_cons_of_pos (by simpa using empty), parts]
      · rw [one, whole fun later member => some_ later (List.mem_cons_of_mem _ member)]
        rfl

/-! ## Libraries whose packets have data -/

theorem exists_conserves_receive (e : Encoder lib) :
    ∃ taken, taken.map RawPacket.data = e.receive.1.toOption.toList.map Packet.data ∧
      e.Conserves e.receive.2 taken := by
  obtain ⟨taken, data, conserves⟩ := conserves_after e .receive
  refine ⟨taken, data.trans ?_, conserves⟩
  rw [handedOut]
  cases e.receive.1 <;> rfl

theorem exists_conserves_receiveUpTo (limit : Option Nat) (e : Encoder lib) :
    ∃ taken, taken.map RawPacket.data = (e.receiveUpTo limit).1.map Packet.data ∧
      e.Conserves (e.receiveUpTo limit).2.2 taken := by
  fun_induction receiveUpTo limit e with
  | case1 e => exact ⟨[], rfl, .refl e⟩
  | case2 limit e _ failure e' received =>
    have one := exists_conserves_receive e
    rwa [received] at one
  | case3 limit e _ packet e' received packets failure e'' rest ih =>
    obtain ⟨taken, data, one⟩ := exists_conserves_receive e
    rw [received] at data one
    rw [rest] at ih
    obtain ⟨further, data', others⟩ := ih
    refine ⟨taken ++ further, ?_, one.trans others⟩
    rw [List.map_append, data, data']
    rfl

def ReleasesData (e : Encoder lib) : Prop :=
  ∀ raw ∈ e.session.released, raw.data ≠ []

/-- Then every packet that has been handed out on the way has data. -/
theorem ReleasesData.of_conserves {e' : Encoder lib} (h : e'.ReleasesData)
    (holds : e.HoldsReleased) {packets : List Packet}
    (handed : ∃ taken, taken.map RawPacket.data = packets.map Packet.data ∧
      e.Conserves e' taken) :
    ∀ packet ∈ packets, packet.data ≠ [] := by
  intro packet member
  obtain ⟨taken, data, conserves⟩ := handed
  have copied : packet.data ∈ taken.map RawPacket.data := by
    rw [data]
    exact List.mem_map_of_mem member
  obtain ⟨raw, from_, same⟩ := List.mem_map.mp copied
  rw [← same]
  exact h raw (conserves.mem_released holds raw (List.mem_append_left _ from_))

structure TellsByZero (e : Encoder lib) (buffer : Bytes) : Prop where
  /-- Zero is the answer if there is nothing to receive, and if the next packet has no data. -/
  zero : (e.receiveInto buffer).1 = .ok 0 ↔
    e.GivesNothing ∨ ∃ packet, e.receive.1 = .ok packet ∧ packet.data = []
  /-- If there is nothing, nothing is consumed: no packet was staged, and the library has none. -/
  nothing : e.GivesNothing →
    e.receiveInto buffer = (.ok 0, buffer, e.receive.2) ∧ e.FindsNothing
  /-- A packet without data is consumed as by receiving it. -/
  empty : ∀ packet, e.receive.1 = .ok packet → packet.data = [] →
    e.receiveInto buffer = (.ok 0, buffer, e.receive.2)
  /-- If all packets released have data, zero tells that there is nothing. -/
  trusted : e.receive.2.ReleasesData →
    ((e.receiveInto buffer).1 = .ok 0 ↔ e.GivesNothing)
  /-- A caller who stops at zero gets the data of the packets before the first one without data. -/
  stops : (∀ packet ∈ (e.receiveUpTo none).1, packet.data.length ≤ buffer.length) →
    (e.receiveAllInto buffer).1 =
      ((e.receiveUpTo none).1.map Packet.data).takeWhile (fun data => !data.isEmpty)
  /-- If all packets released have data, the caller gets all that can be received, and ends up as if
  it had been received packet after packet. -/
  all : (∀ packet ∈ (e.receiveUpTo none).1, packet.data.length ≤ buffer.length) →
    (e.receiveUpTo none).2.2.ReleasesData →
      e.receiveAllInto buffer = ((e.receiveUpTo none).1.map Packet.data,
        (e.receiveUpTo none).2.1.bind untilZero, (e.receiveUpTo none).2.2)

/-- **Zero tells that there is nothing to receive, unless the library releases packets without
data.** In every state that an encoder can reach, zero is the answer exactly if there is nothing or
the next packet has no data, and then that packet is gone. So stopping at zero gives all there is if
every packet released has data, and otherwise what comes before the first one without. -/
theorem afterAll_tellsByZero {settings : Settings} {e : Encoder lib} {trace : List Event}
    (opened : Encoder.open lib settings = (.ok e, trace)) (operations : List Operation)
    (buffer : Bytes) : (e.afterAll operations).TellsByZero buffer := by
  have charged := charged_afterAll operations (charged_of_open opened)
  have holds := holdsReleased_afterAll opened operations
  refine ⟨receiveInto_eq_zero_iff, ?_, ?_, ?_, fun room => (stopsAtZero room).parts, ?_⟩
  · intro nothing
    obtain ⟨failure, received, which⟩ := nothing.exists_eq
    exact ⟨receiveInto_of_nothing buffer received which,
      (findsNothing_of_receive charged received which).1⟩
  · intro packet given empty
    rw [receiveInto_of_fits buffer given (by rw [empty]; exact Nat.zero_le _), empty]
    rfl
  · intro data
    rw [receiveInto_eq_zero_iff, or_iff_left]
    rintro ⟨packet, given, empty⟩
    have some_ := data.of_conserves holds (exists_conserves_receive _)
    rw [given] at some_
    exact some_ packet (List.mem_singleton_self packet) empty
  · intro room data
    exact (stopsAtZero room).whole (data.of_conserves holds (exists_conserves_receiveUpTo ..))

/-- A library that releases a packet without data between two others. -/
def hollowScript : Script :=
  { block := 4, blocks := [[{ size := 3 }, { size := 0 }, { size := 5 }]] }

theorem afterAll_tellsByZero_hollow :
    ∃ (e : Encoder hollowScript.library) (trace : List Event),
      Encoder.open hollowScript.library monoSettings = (.ok e, trace) ∧
        (e.receivedAll [.send (monoFrame 4), .receive, .receive, .receive]).map (·.data.length) =
          [3, 0, 5] ∧
        (e.afterAll [.send (monoFrame 4)]).TellsByZero (List.replicate 8 0) :=
  ⟨_, _, rfl, by decide +kernel,
    afterAll_tellsByZero (show Encoder.open _ monoSettings = _ from rfl) _ _⟩

/-- Zero is the answer although there is a packet. It has no data, and it is gone then. -/
theorem zero_of_hollow :
    ∃ (e : Encoder hollowScript.library) (trace : List Event),
      Encoder.open hollowScript.library monoSettings = (.ok e, trace) ∧
        ((e.afterAll [.send (monoFrame 4), .receive]).receiveInto
          (List.replicate 8 0)).1.toOption = some 0 ∧
        ¬ (e.afterAll [.send (monoFrame 4), .receive]).GivesNothing ∧
        (e.afterAll [.send (monoFrame 4), .receive]).staging.packets.length = 2 ∧
        (e.afterAll [.send (monoFrame 4), .receive,
          .receiveInto (List.replicate 8 0)]).staging.packets.length = 1 := by
  refine ⟨_, _, rfl, by decide +kernel, fun nothing => ?_, by decide +kernel, by decide +kernel⟩
  have none := nothing.isOk
  revert none
  decide +kernel

end Encoder

end VorbisTrack
