import VorbisTrack.Proofs.Wav.Reading

/-!
# Seeking forgets the past

A seek puts a demuxer into a state that depends on the file, the sample and the packet size only
(`seek_of_inside`). What was read before, and whether that succeeded, plays no part, so the reads
that follow are those of a demuxer that has just opened the file. A seek to a sample that the file
does not have is refused and leaves everything as it was (`seek_of_outside`).
-/

set_option autoImplicit false

namespace VorbisTrack.Wav

open Demuxer

/-- A file that is read from a sample on. -/
def Source.startingAt (h : Header) (content : Bytes) (sample : Nat) : Source where
  header := h
  reader := { bytes := content, position := h.dataStart + sample * h.format.blockAlign.toNat }
  samplesRead := sample

theorem Source.standsIn_startingAt (h : Header) (content : Bytes) (sample : Nat) :
    (startingAt h content sample).StandsIn content :=
  ⟨rfl, rfl⟩

/-- Two parts of a list that start alike agree as far as both go. -/
theorem take_length_take {α : Type} (l : List α) (m n : Nat) :
    (l.take m).take (l.take n).length = (l.take n).take (l.take m).length := by
  rw [List.length_take, List.length_take, List.take_take, List.take_take,
    show min (min n l.length) m = min (min m l.length) n by omega]

/-- Reading from the start and reading from a sample on give the same data, as far as both go. -/
theorem Header.Delivers.agree {h : Header} {content : Bytes} {sample : Nat}
    {linear later : List Reading} (fromStart : h.Delivers content 0 linear)
    (fromSample : h.Delivers content sample later) :
    ((bytesOf linear).drop (sample * h.format.blockAlign.toNat)).take (bytesOf later).length =
      (bytesOf later).take
        ((bytesOf linear).drop (sample * h.format.blockAlign.toNat)).length := by
  rw [fromStart.data, fromSample.data, Nat.zero_mul, Nat.add_zero, List.drop_take,
    List.drop_drop]
  exact take_length_take ..

namespace Demuxer

/-! ## One seek -/

variable {d : Demuxer} {h : Header} {content : Bytes} {target : Int64}

/-- A seek to a sample goes there, wherever the reader stood. -/
theorem seek_of_inside (open_ : d.IsOpenOn h content) (low : 0 ≤ target.toInt)
    (high : target.toInt ≤ h.sampleCount) :
    d.seek target =
      (.ok (), d.holding (.startingAt h content target.toInt.toNat)) := by
  obtain ⟨s, reads, rfl, rfl⟩ := open_
  have inside : ¬ (target < 0 ∨ (s.header.sampleCount : Int) < target.toInt) := by
    rw [Int64.lt_iff_toInt_lt]
    exact fun outside => outside.elim (Int.not_lt.mpr low) (Int.not_lt.mpr high)
  rw [seek_of_reads reads, if_neg inside]
  rfl

/-- A seek to a sample that the file does not have is refused and changes nothing. -/
theorem seek_of_outside (open_ : d.IsOpenOn h content)
    (outside : target.toInt < 0 ∨ (h.sampleCount : Int) < target.toInt) :
    d.seek target = (.error (.seekOutOfRange target h.sampleCount), d) := by
  obtain ⟨s, reads, rfl, rfl⟩ := open_
  rw [seek_of_reads reads, if_pos]
  rw [Int64.lt_iff_toInt_lt]
  exact outside

/-! ## Runs -/

theorem readings_append (before behind : List Operation) (d : Demuxer) :
    d.readings (before ++ behind) = d.readings before ++ (d.afterAll before).readings behind := by
  induction before generalizing d with
  | nil => rfl
  | cons operation rest ih =>
    cases operation with
    | read => exact congrArg (List.cons _) (ih _)
    | seek target => exact ih _
    | resize samples => exact ih _

structure GoesTo (d : Demuxer) (tree : FileTree) (path : Path) (h : Header) (content : Bytes)
    (target : Int64) : Prop where
  succeeds : (d.seek target).1 = .ok ()
  /-- The same seek leaves a demuxer that has just opened the file in the same state. -/
  fresh : ∀ other : Demuxer, other.packetSamples = d.packetSamples →
    ∃ opened, other.open tree path = (.ok (), opened) ∧ opened.seek target = d.seek target
  /-- A read that follows gives a packet of the samples behind the target and the packets since
  then, or all samples have been read, or a read since then has asked for samples that the file
  lacks. -/
  reads : ∀ later k reading reached, IsStraight later →
    ((d.after (.seek target)).readings later)[k]? = some reading →
    reached = target.toInt.toNat +
      samplesOf (packetsOf (((d.after (.seek target)).readings later).take k)) →
    (reached < h.sampleCount ∧ ∃ packet, h.Gives content reached reading packet) ∨
    (reached = h.sampleCount ∧ reading.result = .error .endOfStream) ∨
    (reached < h.sampleCount ∧ reading.result = .error (.audioUnread .shortRead) ∧
      ∃ j earlier, j ≤ k ∧ ((d.after (.seek target)).readings later)[j]? = some earlier ∧
        h.Lacks content reached earlier)
  /-- The data is that of reading from the start without what lies before the target, as far as both
  go. -/
  data : ∀ (other opened : Demuxer) (linear later : List Operation),
    other.open tree path = (.ok (), opened) → IsStraight linear → IsStraight later →
    ((bytesOf (opened.readings linear)).drop
        (target.toInt.toNat * h.format.blockAlign.toNat)).take
        (bytesOf ((d.after (.seek target)).readings later)).length =
      (bytesOf ((d.after (.seek target)).readings later)).take
        ((bytesOf (opened.readings linear)).drop
          (target.toInt.toNat * h.format.blockAlign.toNat)).length

/-- A seek is refused, and the run goes on as if it had not been tried. -/
structure Refuses (d : Demuxer) (history : List Operation) (target : Int64) : Prop where
  fails : ∃ failure, ((d.afterAll history).seek target).1 = .error failure ∧
    failure.kind = .invalidInput
  unchanged : ((d.afterAll history).seek target).2 = d.afterAll history
  unmade : ∀ later, d.readings (history ++ .seek target :: later) = d.readings (history ++ later)

/-- Wherever a seek went, the reads behind it deliver the samples from there on. -/
theorem delivers_startingAt (d : Demuxer) (decodable : h.IsDecodable) {sample : Nat}
    (within : sample ≤ h.sampleCount) {operations : List Operation}
    (straight : IsStraight operations) :
    h.Delivers content sample
      ((d.holding (.startingAt h content sample)).readings operations) :=
  delivers_readings operations (reads_holding ..) decodable
    (Source.standsIn_startingAt h content sample) within straight

variable {tree : FileTree} {path : Path}

theorem goesTo_of_inside {d₀ d₁ : Demuxer} (file : tree.read path = .ok (.file content))
    (opened : d₀.open tree path = (.ok (), d₁)) (header : d₁.header? = some h)
    (open_ : d.IsOpenOn h content) (low : 0 ≤ target.toInt)
    (high : target.toInt ≤ h.sampleCount) : d.GoesTo tree path h content target := by
  have gone := seek_of_inside open_ low high
  obtain ⟨s, found, rfl⟩ := open_eq_ok opened
  obtain ⟨-, -, -, -, -, decodable, -, -⟩ := of_open file opened header
  have within : target.toInt.toNat ≤ h.sampleCount := by omega
  have reopens (other : Demuxer) :
      other.open tree path = (.ok (), other.holding s) :=
    open_of_toOption other tree path (congrArg Except.toOption found)
  have after_ : d.after (.seek target) =
      d.holding (.startingAt h content target.toInt.toNat) := congrArg Prod.snd gone
  have delivers (later : List Operation) (straight : IsStraight later) :
      h.Delivers content target.toInt.toNat ((d.after (.seek target)).readings later) := by
    rw [after_]
    exact delivers_startingAt d decodable within straight
  refine ⟨congrArg Prod.fst gone, ?_, ?_, ?_⟩
  · intro other alike
    have begun := isOpenOn_of_open file (reopens other) header
    refine ⟨_, reopens other, ?_⟩
    rw [gone, seek_of_inside begun low high, holding_holding, holding_congr alike]
  · intro later k reading reached straight found reach
    exact (delivers later straight).answers decodable.blockAlign_pos found reach
  · intro other opened' linear later begun straight straight'
    rw [reopens other] at begun
    cases begun
    exact (delivers_of_open file (reopens other) header straight).agree (delivers later straight')

theorem refuses_of_outside {history : List Operation}
    (open_ : (d.afterAll history).IsOpenOn h content)
    (outside : target.toInt < 0 ∨ (h.sampleCount : Int) < target.toInt) :
    d.Refuses history target := by
  have refused := seek_of_outside open_ outside
  have unchanged : ((d.afterAll history).seek target).2 = d.afterAll history :=
    congrArg Prod.snd refused
  refine ⟨⟨_, congrArg Prod.fst refused, rfl⟩, unchanged, ?_⟩
  intro later
  rw [readings_append, readings_append]
  show _ ++ ((d.afterAll history).seek target).2.readings later = _
  rw [unchanged]

/-- **A seek is exact whatever happened before.** After any reads, seeks and changes of the packet
size on a file that was opened, successful or not, a seek to one of its samples or behind the last
one leads where it would have led at first. Any other seek is refused as invalid and changes
nothing. -/
theorem seek_exact {d₀ d₁ : Demuxer} (file : tree.read path = .ok (.file content))
    (opened : d₀.open tree path = (.ok (), d₁)) (header : d₁.header? = some h)
    (history : List Operation) (target : Int64) :
    (0 ≤ target.toInt → target.toInt ≤ h.sampleCount →
      (d₁.afterAll history).GoesTo tree path h content target) ∧
    (target.toInt < 0 ∨ (h.sampleCount : Int) < target.toInt → d₁.Refuses history target) := by
  have still := (isOpenOn_of_open file opened header).afterAll history
  exact ⟨goesTo_of_inside file opened header still, refuses_of_outside still⟩

/-- A file that states six samples and holds three and a half. -/
def cutFiles : FileTree where
  entries := [(["cut.wav"], .file (monoWav 12 [1, 2, 3, 4, 5, 6, 7]))]

/-- Both reads fail, the second although it asks for less, and so does the seek between them. -/
def failures : List Operation :=
  [.resize 4, .read, .seek 99, .resize 1, .read]

theorem seek_exact_cut :
    ∃ (h : Header) (d : Demuxer),
      Demuxer.open {} cutFiles (.ofText "cut.wav") = (.ok (), d) ∧ d.header? = some h ∧
        h.sampleCount = 6 ∧ (d.readings failures).all (·.result.toOption.isNone) = true ∧
        (d.afterAll failures).GoesTo cutFiles (.ofText "cut.wav") h
          (monoWav 12 [1, 2, 3, 4, 5, 6, 7]) 1 ∧
        d.Refuses failures 7 ∧ d.Refuses failures (-1) := by
  have ready : (openNode (.ok (.file (monoWav 12 [1, 2, 3, 4, 5, 6, 7])))).toOption.any (fun s =>
      s.header.sampleCount = 6 ∧ (readings (holding {} s) failures).all
        (·.result.toOption.isNone) = true) = true := by
    decide +kernel
  obtain ⟨s, found, ready⟩ := (Option.any_eq_true ..).mp ready
  obtain ⟨count, fail⟩ := of_decide_eq_true ready
  have opened := open_of_toOption {} cutFiles (.ofText "cut.wav") found
  refine ⟨s.header, _, opened, rfl, count, fail, ?_, ?_, ?_⟩
  · refine (seek_exact rfl opened rfl failures 1).1 (by decide) ?_
    rw [count]
    decide
  · refine (seek_exact rfl opened rfl failures 7).2 (.inr ?_)
    rw [count]
    decide
  · exact (seek_exact rfl opened rfl failures (-1)).2 (.inl (by decide))

end Demuxer

end VorbisTrack.Wav
