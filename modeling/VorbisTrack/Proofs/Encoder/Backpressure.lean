import VorbisTrack.Proofs.Encoder.Exhaustion
import VorbisTrack.Proofs.Encoder.Schedule

/-!
# A full queue gives way

The queue keeps its books: in every state it is charged with exactly what its packets cost. So a
queue that is full is not empty, and an encoder that refuses a frame for want of room has packets to
hand out. For these it needs no call of the library. Once they have been received the queue has
room, and the frame is no longer refused (`staging_givesWay`).
-/

set_option autoImplicit false

namespace VorbisTrack

variable {σ : Type} {lib : Library σ}

/-! ## Failures that are not for want of room -/

namespace Session

theorem write_ne_tryAgain (s : Session lib) (count : Nat) (fill : Nat → List Sample) :
    (s.write count fill).1 ≠ .error .tryAgain := by
  rcases write_cases s count fill with
    ⟨failure, refused, ⟨-, rfl⟩ | ⟨-, rfl⟩⟩ | ⟨-, -, unfilled⟩ | ⟨-, _, told, -, -, filled⟩
  · simp [refused]
  · simp [refused]
  · simp [unfilled]
  · rw [filled]
    show (if told.1 < 0 then _ else _) ≠ _
    split
    · simp
    · simp

end Session

namespace Encoder

/-- Only a frame that has been refused is to be sent again. -/
theorem refusal?_of_send_tryAgain {e : Encoder lib} {frame : Frame}
    (sent : (e.send frame).1 = .error .tryAgain) : e.refusal? frame = some .tryAgain := by
  rcases send_cases e frame with
    ⟨failure, refused, same⟩ | ⟨-, -, empty⟩ | ⟨failure, session, -, -, written, failed⟩ |
    ⟨session, -, -, -, drained⟩
  · rw [same] at sent
    cases sent
    exact refused
  · rw [empty] at sent
    cases sent
  · have other := Session.write_ne_tryAgain e.session frame.sampleCount (vorbisSamples frame)
    rw [written] at other
    rw [failed] at sent
    exact absurd sent other
  · rw [drained] at sent
    exact absurd rfl (drain_isOfLibrary sent).kind_ne.1

/-! ## Receiving what is staged -/

/-- As many packets as are staged can be received, all of them without a call. -/
theorem receiveUpTo_of_le_staged {n : Nat} {e : Encoder lib}
    (few : n ≤ e.staging.packets.length) :
    ∃ packets e', e.receiveUpTo (some n) = (packets, none, e') ∧ packets.length = n ∧
      e'.session = e.session ∧ e'.ended = e.ended ∧ e'.options = e.options ∧
      e'.staging.packets = e.staging.packets.drop n ∧
      (e.staging.Charged → e'.staging.Charged) := by
  induction n generalizing e with
  | zero =>
    refine ⟨[], e, ?_, rfl, rfl, rfl, rfl, rfl, id⟩
    rw [receiveUpTo, if_pos rfl]
  | succ n ih =>
    cases staged : e.staging.packets with
    | nil =>
      rw [staged] at few
      cases few
    | cons raw rest =>
      rw [staged, List.length_cons] at few
      obtain ⟨packets, e', received, count, session, ended, options, left, charged⟩ :=
        ih (e := e.handOut raw rest) (Nat.le_of_succ_le_succ few)
      refine ⟨e.packetOf raw :: packets, e', ?_, congrArg (· + 1) count, session, ended, options,
        left, ?_⟩
      · rw [receiveUpTo, if_neg (by simp)]
        split
        · next failed =>
          rw [receive_of_staged staged] at failed
          cases failed
        · next one =>
          rw [receive_of_staged staged] at one
          cases one
          simp only [Option.map_some, Nat.add_sub_cancel, received]
      · intro before
        exact charged (before.rest staged)

/-! ## Backpressure -/

/-- An encoder that is asked to take a frame again can be made to take it: packets are staged, the
next one is received without a call of the library, and when at most as many have been received as
are staged, the queue has room and the frame is not refused any more. -/
structure GivesWay (e : Encoder lib) (frame : Frame) : Prop where
  staged : e.staging.packets ≠ []
  next : ∃ packet e', e.receive = (.ok packet, e') ∧ e'.session = e.session
  room : ∃ n ≤ e.staging.packets.length, ∃ packets e',
    e.receiveUpTo (some n) = (packets, none, e') ∧ packets.length = n ∧
      e'.session = e.session ∧ e'.staging.isFull = false ∧ e'.refusal? frame = none ∧
      (e'.send frame).1 ≠ .error .tryAgain

theorem givesWay_of_tryAgain {e : Encoder lib} (charged : e.staging.Charged) {frame : Frame}
    (refused : e.refusal? frame = some .tryAgain) : e.GivesWay frame := by
  obtain ⟨admits, full⟩ := refusal?_eq_tryAgain_iff.mp refused
  have staged : e.staging.packets ≠ [] := by
    intro empty
    rw [charged.isFull_of_nil empty] at full
    cases full
  refine ⟨staged, ?_, ?_⟩
  · obtain ⟨raw, rest, queue⟩ := List.exists_cons_of_ne_nil staged
    exact ⟨e.packetOf raw, e.handOut raw rest, receive_of_staged queue, rfl⟩
  · -- At the latest the queue has room when all that is staged has been received.
    obtain ⟨packets, e', received, count, session, ended, options, left, kept⟩ :=
      receiveUpTo_of_le_staged (Nat.le_refl e.staging.packets.length)
    have room : e'.staging.isFull = false :=
      (kept charged).isFull_of_nil (by rw [left, List.drop_length])
    have later : e'.Admits frame :=
      ⟨ended.trans admits.ended, by rw [options]; exact admits.rate,
        by rw [options]; exact admits.channels, admits.format, admits.check⟩
    have none : e'.refusal? frame = none := refusal?_eq_none_iff.mpr (later.accepts room)
    refine ⟨_, Nat.le_refl _, packets, e', received, count, session, room, none, ?_⟩
    intro again
    rw [refusal?_of_send_tryAgain again] at none
    cases none

/-- The books of an encoder's queue are in order. The packet that is handed out next is looked at
after the refill, which is where it leaves the queue. -/
structure KeepsBooks (e : Encoder lib) : Prop where
  bytes : e.staging.bytes = Staging.totalCost e.staging.packets
  covered : ∀ raw rest, e.refill.2.staging.packets = raw :: rest →
    48 + raw.data.length ≤ e.refill.2.staging.bytes
  zero : e.staging.bytes = 0 ↔ e.staging.packets = []

theorem keepsBooks_of_charged {e : Encoder lib} (charged : e.staging.Charged) : e.KeepsBooks := by
  refine ⟨charged, ?_, ?_⟩
  · intro raw rest staged
    have after := charged_refill charged
    rw [Staging.Charged, staged, Staging.totalCost] at after
    rw [after]
    exact Nat.le_add_right ..
  · rw [charged]
    cases e.staging.packets with
    | nil => simp [Staging.totalCost]
    | cons raw rest => simp [Staging.totalCost]

/-- **The staging queue keeps its books, and it gives way.** After any operations on an encoder that
has been opened, whatever the library answered, the queue is charged with exactly what its packets
cost. A frame that is to be sent again has left the encoder as it was, and receiving makes room for
it. -/
theorem staging_givesWay {settings : Settings} {e : Encoder lib} {trace : List Event}
    (opened : Encoder.open lib settings = (.ok e, trace)) (operations : List Operation) :
    (e.afterAll operations).KeepsBooks ∧
      ∀ frame, ((e.afterAll operations).send frame).1 = .error .tryAgain →
        ((e.afterAll operations).send frame).2 = e.afterAll operations ∧
          (e.afterAll operations).GivesWay frame := by
  have charged := charged_afterAll operations (charged_of_open opened)
  refine ⟨keepsBooks_of_charged charged, ?_⟩
  intro frame sent
  have refused := refusal?_of_send_tryAgain sent
  refine ⟨?_, givesWay_of_tryAgain charged refused⟩
  simp only [send, refused]

/-- A codec whose one block has a packet without data and one that fills the queue by itself. -/
def bulkyCodec : Codec where
  blocks _ := [[⟨[], 1⟩, ⟨List.replicate 65488 0, 4⟩]]
  blocks_append _ _ _ := List.prefix_refl _
  blocks_finish _ := List.prefix_refl _

/-- When the small packet has been received, the large one still fills the queue, and a frame that
would do otherwise is refused. -/
theorem full_bulky : ∃ (e : Encoder bulkyCodec.library) (trace : List Event),
    Encoder.open bulkyCodec.library monoSettings = (.ok e, trace) ∧
      (e.afterAll [.receive]).staging.isFull = true ∧
      (e.afterAll [.receive]).Admits (monoFrame 1) := by
  obtain ⟨e, trace, opened, native, rate, channels⟩ := open_monoSettings bulkyCodec
  obtain ⟨rel, start, sim⟩ := bulkyCodec.follows_library
  have tracks : e.Tracks bulkyCodec rel {} [] := tracks_of_open opened (by rw [native]; exact start)
  obtain ⟨handed, ⟨content, e', received, -, options, tracks'⟩ | ⟨_, -, -, -, -, -, all⟩⟩ :=
    tracks_receive sim tracks
  case inr => cases all
  -- The block has been handed out, and all of it but its first packet is staged.
  have balance := tracks'.balance
  have bound := tracks'.handed
  have one : handed = 1 := by
    rcases Nat.eq_zero_or_pos handed with zero | positive
    · rw [zero] at balance
      simp at balance
    · exact Nat.le_antisymm bound positive
  rw [one] at balance
  obtain ⟨raw, left, large⟩ := List.map_eq_singleton_iff.mp (List.cons_eq_cons.mp balance).2
  have size : raw.data.length = 65488 := by
    rw [show raw.data = List.replicate 65488 0 from congrArg Content.data large,
      List.length_replicate]
  have same : e.afterAll [.receive] = e' := congrArg Prod.snd received
  refine ⟨e, trace, opened, ?_, ?_⟩
  · rw [same, Staging.isFull, tracks'.charged, left, Staging.totalCost, size]
    rfl
  · rw [same]
    refine ⟨?_, ?_, ?_, .inl rfl, rfl⟩
    · exact tracks'.ended.symm
    · rw [options, rate]
      rfl
    · rw [options, channels]
      rfl

theorem staging_givesWay_bulky :
    ∃ (e : Encoder bulkyCodec.library) (trace : List Event),
      Encoder.open bulkyCodec.library monoSettings = (.ok e, trace) ∧
        ((e.afterAll [.receive]).send (monoFrame 1)).1 = .error .tryAgain ∧
        (e.afterAll [.receive]).KeepsBooks ∧
        (e.afterAll [.receive]).GivesWay (monoFrame 1) := by
  obtain ⟨e, trace, opened, full, admits⟩ := full_bulky
  have sent : ((e.afterAll [.receive]).send (monoFrame 1)).1 = .error .tryAgain := by
    simp only [send, refusal?_eq_tryAgain_iff.mpr ⟨admits, full⟩]
  obtain ⟨books, gives⟩ := staging_givesWay opened [.receive]
  exact ⟨e, trace, opened, sent, books, (gives _ sent).2⟩

end Encoder

end VorbisTrack
