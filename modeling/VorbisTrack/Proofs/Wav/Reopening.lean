import VorbisTrack.Proofs.Wav.Seeking

/-!
# Opening one file after another

A demuxer may be used for one file after another. A `Call` is anything that its callers can do, and
`outcomes` is what they see of a run: the answer to each call, and behind it header and streams.

All that a demuxer holds belongs to one file at any time (`isShut_or_reads_performAll`). Whether a
file can be opened depends on the file alone (`hinders_or_isOpenable`). If it cannot, the run goes
on as if that had not been tried. If it can, everything before it is forgotten, except for the count
of samples in a packet. When a file is closed and no other one is opened, calls that need a file are
refused (`refused_of_shut`). `open_isAtomic` says so of every run.
-/

set_option autoImplicit false

namespace VorbisTrack.Wav

namespace Demuxer

/-! ## Calls and what is seen of them -/

/-- What callers can do with a demuxer, and what can happen to the file meanwhile. Any call may find
other files than the calls before it. -/
inductive Call
  | «open» (tree : FileTree) (path : Path)
  | close
  | operate (operation : Operation)
  | frame (packet : Packet)
  /-- The file that is open gets other bytes. -/
  | refresh (bytes : Bytes)

namespace Call

/-- The call reads from a file or takes its format into account. -/
def needsFile : Call → Bool
  | .operate .read | .operate (.seek _) | .frame _ => true
  | _ => false

def packetSamplesAfter (packetSamples : Nat) : Call → Nat
  | .operate (.resize samples) => max samples 1
  | _ => packetSamples

end Call

inductive Answer
  | done (result : Except Failure Unit)
  | packet (result : Except Failure Packet)
  | frame (result : Except Failure Frame)

def Answer.failure? : Answer → Option Failure
  | .done (.error failure) | .packet (.error failure) | .frame (.error failure) => some failure
  | _ => none

def perform (d : Demuxer) : Call → Answer × Demuxer
  | .open tree path => ((d.open tree path).map .done id)
  | .close => (.done (.ok ()), d.close)
  | .operate .read => d.read.map .packet id
  | .operate (.seek target) => (d.seek target).map .done id
  | .operate (.resize samples) => (.done (.ok ()), d.withPacketSamples samples)
  | .frame packet => (.frame (d.frameOf packet), d)
  | .refresh bytes => (.done (.ok ()), d.refresh bytes)

/-- The demuxer after calls, the first of the list first. -/
def performAll (d : Demuxer) (calls : List Call) : Demuxer :=
  calls.foldl (fun d call => (d.perform call).2) d

structure Outcome where
  answer : Answer
  header : Option Header
  streams : List Stream

/-- What is seen of a call: its answer, and header and streams behind it. -/
def outcome (d : Demuxer) (call : Call) : Outcome where
  answer := (d.perform call).1
  header := (d.perform call).2.header?
  streams := (d.perform call).2.streams

def outcomes (d : Demuxer) : List Call → List Outcome
  | [] => []
  | call :: rest => d.outcome call :: (d.perform call).2.outcomes rest

/-- The count of samples in a packet behind the calls to a new demuxer, which has 1024 of them. -/
def packetSamplesOf (calls : List Call) : Nat :=
  calls.foldl Call.packetSamplesAfter 1024

variable {d : Demuxer} {tree : FileTree} {path : Path}

theorem length_outcomes (d : Demuxer) (calls : List Call) :
    (d.outcomes calls).length = calls.length := by
  induction calls generalizing d with
  | nil => rfl
  | cons call rest ih => exact congrArg Nat.succ (ih _)

theorem outcomes_append (before behind : List Call) (d : Demuxer) :
    d.outcomes (before ++ behind) =
      d.outcomes before ++ (d.performAll before).outcomes behind := by
  induction before generalizing d with
  | nil => rfl
  | cons call rest ih => exact congrArg (List.cons _) (ih _)

/-- Demuxers for which a call comes to the same cannot be told apart behind it. -/
theorem outcomes_cons_congr {d d' : Demuxer} {call : Call}
    (same : d.perform call = d'.perform call) (rest : List Call) :
    d.outcomes (call :: rest) = d'.outcomes (call :: rest) := by
  simp only [outcomes, outcome, same]

/-- Nothing but asking for another count of samples changes it. -/
theorem packetSamples_perform (d : Demuxer) (call : Call) :
    (d.perform call).2.packetSamples = call.packetSamplesAfter d.packetSamples := by
  cases call with
  | «open» tree path =>
    simp only [perform, Prod.map, id, Demuxer.open]
    split <;> rfl
  | operate operation =>
    cases operation with
    | read =>
      obtain ⟨reader, samplesRead, same⟩ := exists_read_eq d
      simp only [perform, Prod.map, id, same]
      rfl
    | seek target =>
      obtain ⟨reader, samplesRead, same⟩ := exists_seek_eq d target
      simp only [perform, Prod.map, id, same]
      rfl
    | resize samples => rfl
  | close => rfl
  | frame packet => rfl
  | refresh bytes => rfl

theorem packetSamples_performAll (d : Demuxer) (calls : List Call) :
    (d.performAll calls).packetSamples =
      calls.foldl Call.packetSamplesAfter d.packetSamples := by
  induction calls generalizing d with
  | nil => rfl
  | cons call rest ih =>
    rw [List.foldl_cons, ← packetSamples_perform]
    exact ih _

/-! ## Opening -/

structure IsOpenable (tree : FileTree) (path : Path) (content : Bytes) (h : Header) : Prop where
  file : tree.read path = .ok (.file content)
  header : ∃ r, Header.read content = .ok (h, r)
  supported : h.isSupported = true

/-- What keeps a path from being opened. -/
inductive Hinders (tree : FileTree) (path : Path) : Failure → Prop
  | missing {fault : FileFault} (absent : tree.read path = .error fault) :
      Hinders tree path (.wavUnopened fault)
  | directory (found : tree.read path = .ok .directory) :
      Hinders tree path (.riffHeaderUnread .isDirectory)
  | malformed {content : Bytes} {failure : Failure} (file : tree.read path = .ok (.file content))
      (unread : Header.read content = .error failure) : Hinders tree path failure
  | unsupported {content : Bytes} {h : Header} {r : Reader}
      (file : tree.read path = .ok (.file content)) (read : Header.read content = .ok (h, r))
      (unknown : h.isSupported = false) :
      Hinders tree path (.unsupportedWav h.format.tag h.format.sampleBits)

/-- Every path leads to a file that can be opened, or something keeps it from being opened. -/
theorem hinders_or_isOpenable (tree : FileTree) (path : Path) :
    (∃ failure, Hinders tree path failure) ∨ ∃ content h, IsOpenable tree path content h := by
  cases node : tree.read path with
  | error fault => exact .inl ⟨_, .missing node⟩
  | ok found =>
    cases found with
    | directory => exact .inl ⟨_, .directory node⟩
    | file content =>
      cases read : Header.read content with
      | error failure => exact .inl ⟨failure, .malformed node read⟩
      | ok result =>
        obtain ⟨h, r⟩ := result
        cases supported : h.isSupported with
        | false => exact .inl ⟨_, .unsupported node read supported⟩
        | true => exact .inr ⟨content, h, node, ⟨r, read⟩, supported⟩

/-- What is hindered is refused, and nothing changes. -/
theorem Hinders.open_eq {failure : Failure} (hinders : Hinders tree path failure) (d : Demuxer) :
    d.open tree path = (.error failure, d) := by
  cases hinders with
  | missing absent => simp only [Demuxer.open, openNode, absent]
  | directory found => simp only [Demuxer.open, openNode, found]
  | malformed file unread => simp only [Demuxer.open, openNode, file, unread]
  | unsupported file read unknown =>
    simp only [Demuxer.open, openNode, file, read, unknown, Bool.false_eq_true, if_false]

/-- What can be opened is read from its first sample on, whatever was open before. -/
theorem IsOpenable.open_eq {content : Bytes} {h : Header}
    (openable : IsOpenable tree path content h) :
    ∃ s : Source, s.header = h ∧ s.samplesRead = 0 ∧ s.reader.StandsAt content h.dataStart ∧
      ∀ d : Demuxer, d.open tree path = (.ok (), d.holding s) := by
  obtain ⟨file, ⟨r, read⟩, supported⟩ := openable
  have stands := (Header.isReadFrom_of_read read).stands
  refine ⟨{ header := h, reader := r.seek h.dataStart }, rfl, rfl, stands.seek _, fun d => ?_⟩
  simp only [Demuxer.open, openNode, file, read, supported, if_true]

theorem open_eq_error_iff (d : Demuxer) (failure : Failure) :
    (d.open tree path).1 = .error failure ↔ Hinders tree path failure := by
  constructor
  · intro failed
    rcases hinders_or_isOpenable tree path with ⟨failure', hinders⟩ | ⟨content, h, openable⟩
    · rw [hinders.open_eq] at failed
      cases failed
      exact hinders
    · obtain ⟨s, -, -, -, opened⟩ := openable.open_eq
      rw [opened] at failed
      cases failed
  · intro hinders
    rw [hinders.open_eq]

theorem open_eq_ok_iff (d : Demuxer) :
    (d.open tree path).1 = .ok () ↔ ∃ content h, IsOpenable tree path content h := by
  constructor
  · intro opened
    rcases hinders_or_isOpenable tree path with ⟨failure, hinders⟩ | openable
    · rw [hinders.open_eq] at opened
      cases opened
    · exact openable
  · rintro ⟨content, h, openable⟩
    obtain ⟨s, -, -, -, opened⟩ := openable.open_eq
    rw [opened]

/-- A demuxer opens a file as one does that has nothing in common with it but the count of samples
in a packet. -/
theorem IsOpenable.perform_resized {content : Bytes} {h : Header}
    (openable : IsOpenable tree path content h) (d d' : Demuxer) :
    d.perform (.open tree path) =
      (d'.withPacketSamples d.packetSamples).perform (.open tree path) := by
  obtain ⟨s, -, -, -, opened⟩ := openable.open_eq
  have positive := d.packetSamples_pos
  simp only [perform, opened]
  refine Prod.ext rfl (holding_congr ?_ s)
  show d.packetSamples = max d.packetSamples 1
  omega

/-! ## Closing -/

theorem isShut_close (d : Demuxer) : d.close.IsShut :=
  ⟨rfl, rfl, rfl, rfl, rfl⟩

/-- If no file is open and none is opened, a call that needs one is refused, and none is open
behind it. -/
theorem refused_of_shut (shut : d.IsShut) (call : Call)
    (stays : ∀ tree path, call = .open tree path → ∃ failure, Hinders tree path failure) :
    (d.perform call).2.IsShut ∧ (call.needsFile = true →
      ∃ failure, (d.perform call).1.failure? = some failure ∧ failure.kind = .invalidState) := by
  cases call with
  | «open» tree path =>
    obtain ⟨failure, hinders⟩ := stays tree path rfl
    simp only [perform, hinders.open_eq d]
    exact ⟨shut, fun needs => absurd needs Bool.false_ne_true⟩
  | close => exact ⟨isShut_close d, fun needs => absurd needs Bool.false_ne_true⟩
  | operate operation =>
    cases operation with
    | read =>
      simp only [perform, read, shut.reader]
      exact ⟨shut, fun _ => ⟨.notOpened, rfl, rfl⟩⟩
    | seek target =>
      simp only [perform, seek, shut.reader]
      exact ⟨shut, fun _ => ⟨.notOpened, rfl, rfl⟩⟩
    | resize samples =>
      refine ⟨?_, fun needs => absurd needs Bool.false_ne_true⟩
      exact ⟨shut.reader, shut.streams, shut.header, shut.samplesRead, shut.totalSamples⟩
  | frame packet =>
    simp only [perform, frameOf, shut.header]
    exact ⟨shut, fun _ => ⟨.notOpened, rfl, rfl⟩⟩
  | refresh bytes =>
    refine ⟨⟨?_, shut.streams, shut.header, shut.samplesRead, shut.totalSamples⟩,
      fun needs => absurd needs Bool.false_ne_true⟩
    simp only [perform, refresh, shut.reader, Option.map_none]

/-- What is seen of a call while no file is open. -/
structure Outcome.IsShut (outcome : Outcome) (call : Call) : Prop where
  header : outcome.header = none
  streams : outcome.streams = []
  /-- A call that needs a file is refused. -/
  refused : call.needsFile = true →
    ∃ failure, outcome.answer.failure? = some failure ∧ failure.kind = .invalidState

theorem isShut_outcomes (calls : List Call) (shut : d.IsShut)
    (stays : ∀ tree path, .open tree path ∈ calls → ∃ failure, Hinders tree path failure) :
    ∀ call outcome, (call, outcome) ∈ calls.zip (d.outcomes calls) → outcome.IsShut call := by
  induction calls generalizing d with
  | nil => exact fun _ _ member => by cases member
  | cons first rest ih =>
    intro call outcome member
    obtain ⟨still, refused⟩ := refused_of_shut shut first fun tree path same =>
      stays tree path (same ▸ List.mem_cons_self ..)
    rcases List.mem_cons.mp member with here | later
    · cases here
      exact ⟨still.header, still.streams, refused⟩
    · exact ih still (fun tree path member => stays tree path (List.mem_cons_of_mem _ member))
        call outcome later

/-! ## Runs -/

/-- Whatever is called, the fields of a demuxer are those of one file, or it holds none. -/
theorem isShut_or_reads_perform (h : d.IsShut ∨ ∃ s, d.Reads s) (call : Call) :
    (d.perform call).2.IsShut ∨ ∃ s, (d.perform call).2.Reads s := by
  cases call with
  | «open» tree path =>
    rcases hinders_or_isOpenable tree path with ⟨failure, hinders⟩ | ⟨content, header, openable⟩
    · simp only [perform, hinders.open_eq d]
      exact h
    · obtain ⟨s, -, -, -, opened⟩ := openable.open_eq
      simp only [perform, opened d]
      exact .inr ⟨s, reads_holding d s⟩
  | close => exact .inl (isShut_close d)
  | operate operation =>
    rcases h with shut | ⟨s, reads⟩
    · exact .inl (refused_of_shut shut _ fun _ _ other => by cases other).1
    · have open_ : d.IsOpenOn s.header s.reader.bytes := ⟨s, reads, rfl, rfl⟩
      obtain ⟨s', reads', -⟩ := open_.after operation
      right
      cases operation with
      | read => exact ⟨s', reads'⟩
      | seek target => exact ⟨s', reads'⟩
      | resize samples => exact ⟨s', reads'⟩
  | frame packet => exact h
  | refresh bytes =>
    rcases h with shut | ⟨s, reads⟩
    · exact .inl (refused_of_shut shut _ fun _ _ other => by cases other).1
    · exact .inr ⟨_, reads.refresh bytes⟩

theorem isShut_or_reads_performAll (calls : List Call) (h : d.IsShut ∨ ∃ s, d.Reads s) :
    (d.performAll calls).IsShut ∨ ∃ s, (d.performAll calls).Reads s := by
  induction calls generalizing d with
  | nil => exact h
  | cons call rest ih => exact ih (isShut_or_reads_perform h call)

/-- Opening a path behind a run leaves all as it was, or is the start of a new run. -/
structure OpensAtomically (history : List Call) (tree : FileTree) (path : Path) : Prop where
  fails : ∀ failure, ((performAll {} history).open tree path).1 = .error failure ↔
    Hinders tree path failure
  succeeds : ((performAll {} history).open tree path).1 = .ok () ↔
    ∃ content h, IsOpenable tree path content h
  /-- A failure leaves the demuxer as it was. -/
  unchanged : ∀ failure, Hinders tree path failure →
    ((performAll {} history).open tree path).2 = performAll {} history
  /-- But for the refusal itself, all that is seen is as if it had not been tried. -/
  unmade : ∀ failure, Hinders tree path failure → ∀ later,
    (outcomes {} (history ++ .open tree path :: later)).eraseIdx history.length =
      outcomes {} (history ++ later)
  /-- A success leaves no trace of the run but the count of samples in a packet. -/
  fresh : ∀ content h, IsOpenable tree path content h →
    ((performAll {} history).open tree path).2 =
      performAll {} [.operate (.resize (packetSamplesOf history)), .open tree path]
  /-- From then on all that is seen is seen of a new demuxer that opens this file only. -/
  forgets : ∀ content h, IsOpenable tree path content h → ∀ later,
    (outcomes {} (history ++ .open tree path :: later)).drop history.length =
      (outcomes {} (.operate (.resize (packetSamplesOf history)) ::
        .open tree path :: later)).drop 1
  /-- The file is read from its first sample on. -/
  begins : ∀ content h, IsOpenable tree path content h → ∃ s : Source,
    ((performAll {} history).open tree path).2.Reads s ∧ s.header = h ∧
      s.samplesRead = 0 ∧ s.reader.StandsAt content h.dataStart ∧
      ((performAll {} history).open tree path).2.header? = some h ∧
      ((performAll {} history).open tree path).2.streams = [h.stream]

theorem opensAtomically (history : List Call) (tree : FileTree) (path : Path) :
    OpensAtomically history tree path := by
  have split (later : List Call) : outcomes {} (history ++ .open tree path :: later) =
      outcomes {} history ++ (performAll {} history).outcomes (.open tree path :: later) :=
    outcomes_append history _ {}
  have long := length_outcomes {} history
  have size : (performAll {} history).packetSamples = packetSamplesOf history :=
    packetSamples_performAll {} history
  have opens {content : Bytes} {h : Header} (openable : IsOpenable tree path content h) :
      (performAll {} history).perform (.open tree path) =
        (({} : Demuxer).withPacketSamples (packetSamplesOf history)).perform (.open tree path) := by
    rw [openable.perform_resized _ {}, size]
  constructor
  case fails => exact fun failure => open_eq_error_iff _ failure
  case succeeds => exact open_eq_ok_iff _
  case unchanged =>
    intro failure hinders
    rw [hinders.open_eq]
  case unmade =>
    intro failure hinders later
    have still : (perform (performAll {} history) (.open tree path)).2 = performAll {} history := by
      simp only [perform, hinders.open_eq]
      rfl
    rw [split, List.eraseIdx_append_of_length_le (Nat.le_of_eq long), long, Nat.sub_self,
      outcomes, List.eraseIdx_cons_zero, still, outcomes_append]
  case fresh =>
    intro content h openable
    have after := congrArg Prod.snd (opens openable)
    exact after
  case forgets =>
    intro content h openable later
    rw [split, List.drop_left' long]
    exact outcomes_cons_congr (opens openable) later
  case begins =>
    intro content h openable
    obtain ⟨s, header, start, stands, opened⟩ := openable.open_eq
    refine ⟨s, ?_⟩
    rw [opened]
    refine ⟨reads_holding .., header, start, stands, ?_, ?_⟩
    · show some s.header = some h
      rw [header]
    · show [s.header.stream] = [h.stream]
      rw [header]

/-- **Opening a file is atomic and forgets the past.** Behind any run, all that a demuxer holds
belongs to one file, or it holds nothing. Opening a path either fails, for what is found there, and
then the run goes on as if it had not been tried; or it succeeds, and then the run goes on as that
of a new demuxer that has opened this file only. When the file has been closed, every call that
needs one is refused until another file is opened. -/
theorem open_isAtomic (history : List Call) :
    ((performAll {} history).IsShut ∨ ∃ s, (performAll {} history).Reads s) ∧
      (∀ tree path, OpensAtomically history tree path) ∧
      ∀ between : List Call,
        (∀ tree path, .open tree path ∈ between → ∃ failure, Hinders tree path failure) →
        ∀ call outcome,
          (call, outcome) ∈ between.zip ((performAll {} history).close.outcomes between) →
          outcome.IsShut call :=
  ⟨isShut_or_reads_performAll history (.inl ⟨rfl, rfl, rfl, rfl, rfl⟩), opensAtomically history,
    fun between stays => isShut_outcomes between (isShut_close _) stays⟩

/-- A file is opened and two of its samples are read. -/
def firstReads : List Call :=
  [.open streamedFiles (.ofText "streamed.wav"), .operate (.resize 2), .operate .read]

/-- A missing file is tried between two reads. -/
def shutReads : List Call :=
  [.operate .read, .open cutFiles (.ofText "missing.wav"), .operate .read]

theorem open_isAtomic_second :
    (performAll {} firstReads).samplesRead = 2 ∧
      Hinders cutFiles (.ofText "missing.wav") (.wavUnopened .notFound) ∧
      OpensAtomically firstReads cutFiles (.ofText "missing.wav") ∧
      (∃ content h, IsOpenable cutFiles (.ofText "cut.wav") content h) ∧
      OpensAtomically firstReads cutFiles (.ofText "cut.wav") ∧
      ∀ call outcome,
        (call, outcome) ∈ shutReads.zip ((performAll {} firstReads).close.outcomes shutReads) →
        outcome.IsShut call := by
  have missing : Hinders cutFiles (.ofText "missing.wav") (.wavUnopened .notFound) :=
    .missing rfl
  have ready : (openNode (cutFiles.read (.ofText "cut.wav"))).toOption.isSome = true := by
    decide +kernel
  obtain ⟨s, found⟩ := Option.isSome_iff_exists.mp ready
  obtain ⟨-, atomic, refuses⟩ := open_isAtomic firstReads
  have second := atomic cutFiles (.ofText "cut.wav")
  have opened := second.succeeds.mp (congrArg Prod.fst (open_of_toOption _ _ _ found))
  refine ⟨by decide +kernel, missing, atomic _ _, opened, second, refuses shutReads ?_⟩
  intro tree path member
  simp only [shutReads, List.mem_cons, reduceCtorEq, Call.open.injEq, List.not_mem_nil, or_false,
    false_or] at member
  obtain ⟨rfl, rfl⟩ := member
  exact ⟨_, missing⟩

end Demuxer

end VorbisTrack.Wav
