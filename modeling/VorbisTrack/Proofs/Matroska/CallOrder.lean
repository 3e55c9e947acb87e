import VorbisTrack.Proofs.Matroska.Lifecycle

/-!
# The order of calls to a muxer

A file is created, streams are added, the head is written, then packets, then the trailer. Here the
calls come in any order and number. What the accepted ones have come to is kept beside the muxer as
its `Progress`: no head has been written yet, the file that is open has a head, or the file with the
head has been let go of. Each call keeps the muxer in step with it (`Run.IsSound.after`).

As long as the muxer is not used past its first file with a head, the order is enforced but for one
gap: a trailer is accepted for a file without a head. Packets are taken for a file with a head only,
what is refused changes nothing, and with the trailer the packets are the blocks of the file
(`Run.afterAll_keepsCallOrder`). Past that file nothing of this holds, since the muxer does not
forget that a head has been written (`Run.misorder_accepted`).
-/

set_option autoImplicit false

namespace VorbisTrack.Matroska

namespace Muxer

/-! ## Runs -/

inductive Operation
  | create (path : Path)
  | addStream (stream : Stream)
  | writeHeader
  | writePacket (packet : Packet)
  | writeTrailer

def perform (m : Muxer) (tree : FileTree) : Operation → Outcome Unit
  | .create path => m.create path tree
  | .addStream stream => ((m.addStream stream).1.map fun _ => (), (m.addStream stream).2, tree)
  | .writeHeader => m.writeHeader tree
  | .writePacket packet => m.writePacket packet tree
  | .writeTrailer => m.writeTrailer tree

end Muxer

/-- What the calls that were accepted have come to. -/
inductive Progress
  /-- No head has been written. The file that is open, if there is one, is empty. -/
  | blank (path : Option Path)
  /-- The file that is open has a head. These packets have been taken for it. -/
  | headed (path : Path) (taken : List Packet)
  /-- A head has been written, and its file has been let go of. -/
  | spent

/-- What a call comes to if it is accepted. -/
def Progress.after : Progress → Muxer.Operation → Progress
  | .blank _, .create path => .blank (some path)
  | .blank (some path), .writeHeader => .headed path []
  | .blank _, .writeTrailer => .blank none
  | .headed .., .create _ => .spent
  | .headed path taken, .writePacket packet => .headed path (taken ++ [packet])
  | .headed .., .writeTrailer => .spent
  | progress, _ => progress

/-- A muxer in use, the files, and what its calls have come to. -/
structure Run where
  muxer : Muxer
  tree : FileTree
  progress : Progress := .blank none

namespace Run

def start (docType : DocType) (tree : FileTree) : Run :=
  { muxer := { docType }, tree }

def after (r : Run) (operation : Muxer.Operation) : Run :=
  match r.muxer.perform r.tree operation with
  | (.ok (), muxer, tree) => { muxer, tree, progress := r.progress.after operation }
  | (.error _, muxer, tree) => { r with muxer, tree }

def afterAll (r : Run) (operations : List Muxer.Operation) : Run :=
  operations.foldl after r

variable {m m' : Muxer} {tree tree' : FileTree} {progress : Progress}

theorem after_of_ok (operation : Muxer.Operation)
    (accepted : m.perform tree operation = (.ok (), m', tree')) :
    Run.after ⟨m, tree, progress⟩ operation = ⟨m', tree', progress.after operation⟩ := by
  simp only [after, accepted]

theorem after_of_error (operation : Muxer.Operation) {failure : Failure}
    (refused : m.perform tree operation = (.error failure, m', tree')) :
    Run.after ⟨m, tree, progress⟩ operation = ⟨m', tree', progress⟩ := by
  simp only [after, refused]

end Run

namespace Muxer

variable {m : Muxer} {tree : FileTree}

/-! ## Before the head -/

/-- No head has been written, and nothing else either. -/
structure IsBlank (m : Muxer) (tree : FileTree) (path : Option Path) : Prop where
  unwritten : m.headerWritten = false
  empty : m.cluster.blocks = []
  uncued : m.cues = []
  untaken : m.blocksWritten = 0
  /-- Nothing has been written to the file that is open. -/
  output : match path with
    | none => m.output = none
    | some path => ∃ file, m.output = some file ∧ file.Holds tree [] ∧
      tree.locate path = .ok file.location ∧ path.endsInSlash = false

theorem create_of_error {path : Path} {fault : FileFault}
    (unmade : tree.create path = .error fault) :
    m.create path tree = (.error (.fileNotCreated fault), m, tree) := by
  simp only [create, unmade]

/-- A file to which nothing has been written is let go of without a trace. -/
theorem IsBlank.release {path : Option Path} (h : m.IsBlank tree path) (tree' : FileTree) :
    m.release tree' = tree' := by
  cases path with
  | none =>
    have unopened : m.output = none := h.output
    simp only [Muxer.release, unopened]
  | some path =>
    obtain ⟨file, output, ⟨passed, -, -, nothing⟩, -⟩ := h.output
    have waits : file.held = [] := (List.append_eq_nil_iff.mp nothing).2
    simp only [Muxer.release, output, OutputFile.flush, waits]
    exact FileTree.writeAt_nil ..

theorem IsBlank.create {path : Option Path} (h : m.IsBlank tree path) {new : Path}
    {location : Location} {tree' : FileTree} (made : tree.create new = .ok (location, tree')) :
    ∃ m', m.create new tree = (.ok (), m', tree') ∧ m'.IsBlank tree' (some new) := by
  obtain ⟨located, plain, changed, stands⟩ := FileTree.of_create made
  refine ⟨{ m with output := some { location } }, ?_, h.unwritten, h.empty, h.uncued, h.untaken,
    { location }, rfl, ⟨[], stands, rfl, rfl⟩, changed.locate located, plain⟩
  simp only [Muxer.create, made, h.release]

theorem IsBlank.addStream {path : Option Path} (h : m.IsBlank tree path) (stream : Stream) :
    (m.addStream stream).2.IsBlank tree path := by
  rcases m.addStream_cases stream with ⟨_, refused⟩ | ⟨registry, -, -, -, -, -, added⟩
  · rw [refused]
    exact h
  · rw [added]
    exact ⟨h.unwritten, h.empty, h.uncued, h.untaken, h.output⟩

theorem IsBlank.writePacket {path : Option Path} (h : m.IsBlank tree path) (packet : Packet) :
    m.writePacket packet tree = (.error .headerNotWritten, m, tree) := by
  simp only [Muxer.writePacket, h.unwritten, Bool.false_eq_true, not_false_eq_true, if_true]

/-- The trailer is accepted for every file that is open, although it has no head. -/
theorem IsBlank.writeTrailer {path : Option Path} (h : m.IsBlank tree path) :
    path = none ∧ m.writeTrailer tree = (.error .noOutput, m, tree) ∨
      ∃ open_ m' tree', path = some open_ ∧ m.writeTrailer tree = (.ok (), m', tree') ∧
        m'.IsBlank tree' none := by
  have flushed := flushCluster_of_isEmpty h.empty tree
  cases path with
  | none =>
    have unopened : m.output = none := h.output
    have same : { m with cues := [], output := none } = m := by rw [← h.uncued, ← unopened]
    refine .inl ⟨rfl, ?_⟩
    simp only [Muxer.writeTrailer, flushed, unopened]
    rw [same]
  | some open_ =>
    obtain ⟨file, output, -⟩ := h.output
    refine .inr ⟨open_, { m with cues := [], output := none }, (file.flush tree).2, rfl, ?_,
      h.unwritten, h.empty, rfl, h.untaken, rfl⟩
    simp only [Muxer.writeTrailer, flushed, output, h.uncued, List.isEmpty_nil, if_true]

/-! ## Between the head and the trailer -/

/-- The file that is open has a head, and the packets have been taken for it. -/
structure IsHeaded (m : Muxer) (tree : FileTree) (path : Path) (taken : List Packet) : Prop where
  plain : path.endsInSlash = false
  stores : ∃ (streams : List Stream) (location : Location) (head : Head) (entries : List Block),
    head.tracks = tracksOf streams ∧ tree.locate path = .ok location ∧
      m.Stores tree location head entries ∧ List.Forall₂ (IsStored streams) taken entries

theorem IsHeaded.headerWritten {path : Path} {taken : List Packet}
    (h : m.IsHeaded tree path taken) : m.headerWritten = true := by
  obtain ⟨streams, location, head, entries, -, -, stores, -⟩ := h.stores
  obtain ⟨closed, run, written, -⟩ := stores.filled
  exact written.headerWritten

/-- The head is either refused or written to the file that is open. -/
theorem IsBlank.writeHeader {path : Option Path} (h : m.IsBlank tree path) :
    (∃ failure, m.writeHeader tree = (.error failure, m, tree)) ∨
      ∃ open_ m' tree', path = some open_ ∧ m.writeHeader tree = (.ok (), m', tree') ∧
        m'.IsHeaded tree' open_ [] := by
  by_cases tracked : m.tracks = []
  · refine .inl ⟨.noStreams, ?_⟩
    simp only [Muxer.writeHeader, h.unwritten, isEmpty_streams, tracked, List.isEmpty_nil, if_true,
      Bool.false_eq_true, if_false]
  · have some_ : m.tracks.isEmpty = false := List.isEmpty_eq_false_iff.mpr tracked
    cases encodes : encodeTracks m.tracks with
    | error failure =>
      refine .inl ⟨failure, ?_⟩
      simp only [Muxer.writeHeader, h.unwritten, isEmpty_streams, some_, Bool.false_eq_true,
        if_false, encode_registry, encodes]
    | ok list =>
      cases path with
      | none =>
        have unopened : m.output = none := h.output
        refine .inl ⟨.noOutput, ?_⟩
        simp only [Muxer.writeHeader, h.unwritten, isEmpty_streams, some_, Bool.false_eq_true,
          if_false, encode_registry, encodes, unopened]
      | some open_ =>
        obtain ⟨file, output, holds, located, plain⟩ := h.output
        let head : Head := { docType := m.docType, tracks := m.tracks, list, encodes }
        obtain ⟨m', tree', headed, written, same, count, changed⟩ := hasWritten_writeHeader
          h.unwritten (show m.docType = head.docType from rfl) rfl tracked output holds h.uncued
        refine .inr ⟨open_, m', tree', rfl, headed, plain, m.registry.streams, file.location, head,
          [], rfl, changed.locate located, ⟨⟨[], [], written, rfl, .inl ⟨?_, rfl, rfl⟩⟩, ?_⟩, .nil⟩
        · rw [same, h.empty]
        · rw [count, h.untaken, List.length_nil]

/-- A packet is taken if its stream has a track, and else it is refused. -/
theorem IsHeaded.writePacket {path : Path} {taken : List Packet} (h : m.IsHeaded tree path taken)
    (packet : Packet) :
    m.track? packet.stream = none ∧
        m.writePacket packet tree = (.error (.unknownStream packet.stream), m, tree) ∨
      ∃ m' tree', m.writePacket packet tree = (.ok (), m', tree') ∧
        m'.IsHeaded tree' path (taken ++ [packet]) := by
  cases known : m.track? packet.stream with
  | none =>
    refine .inl ⟨rfl, ?_⟩
    simp only [Muxer.writePacket, h.headerWritten, not_true, if_false, number?_registry, known,
      Option.map_none]
  | some track =>
    obtain ⟨streams, location, head, entries, tracks, located, stores, are⟩ := h.stores
    obtain ⟨closed, run, written, -⟩ := stores.filled
    -- The track was found among those of the streams, by the index of its stream.
    have member : track ∈ tracksOf streams := by
      rw [← tracks, ← written.tracks]
      exact List.mem_of_find?_eq_some known
    have same := List.find?_some known
    obtain ⟨i, place, number⟩ := exists_of_mem_tracksOf member
    let entry : Block :=
      ⟨track.number, milliseconds track.stream.timeBase packet.pts, packet.data⟩
    obtain ⟨m', tree', accepted, stores', changed⟩ := stores.writePacket known entry rfl rfl rfl
    refine .inr ⟨m', tree', accepted, h.plain, streams, location, head, entries ++ [entry], tracks,
      changed.locate located, stores', List.rel_append are (.cons ?_ .nil)⟩
    exact ⟨⟨i, track.stream, place, beq_iff_eq.mp same, number, rfl⟩, rfl⟩

/-- The file at the path starts as documents do, and the packets are the blocks of its clusters, one
for each and in order. -/
def IsComplete (tree : FileTree) (path : Path) (packets : List Packet) : Prop :=
  ∃ (streams : List Stream) (head : Head) (clusters : List Cluster) (entries : List Block),
    tree.read path = .ok (.file (head.fileBytes clusters)) ∧
      [0x1A, 0x45, 0xDF, 0xA3] <+: head.fileBytes clusters ∧
      head.tracks = tracksOf streams ∧
      List.Forall₂ (IsStored streams) packets entries ∧ IsPartition clusters entries

/-- The trailer is accepted, and completes the file. -/
theorem IsHeaded.writeTrailer {path : Path} {taken : List Packet}
    (h : m.IsHeaded tree path taken) :
    ∃ m' tree', m.writeTrailer tree = (.ok (), m', tree') ∧ IsComplete tree' path taken := by
  obtain ⟨streams, location, head, entries, tracks, located, stores, are⟩ := h.stores
  obtain ⟨m', tree', clusters, accepted, -, stands, partition, changed⟩ := stores.writeTrailer
  refine ⟨m', tree', accepted, streams, head, clusters, entries, ?_,
    head.identifier_isPrefix_fileBytes clusters, tracks, are, partition⟩
  exact FileTree.read_eq_file (changed.locate located) stands h.plain

/-! ## The head is not forgotten -/

theorem headerWritten_flushCluster (m : Muxer) (tree : FileTree) :
    (m.flushCluster tree).2.1.headerWritten = m.headerWritten := by
  rcases m.flushCluster_cases tree with
    ⟨-, flushed⟩ | ⟨-, -, flushed⟩ | ⟨_, _, -, -, -, flushed⟩
  all_goals rw [flushed]

theorem headerWritten_writePacket (m : Muxer) (packet : Packet) (tree : FileTree) :
    (m.writePacket packet tree).2.1.headerWritten = m.headerWritten := by
  have kept := headerWritten_flushCluster m tree
  rcases m.writePacket_cases packet tree with
    ⟨_, -, refused⟩ | ⟨_, _, _, flushed, refused⟩ | ⟨_, _, _, -, before, taken⟩
  · rw [refused]
  · rw [refused]
    rwa [flushed] at kept
  · rw [taken]
    rcases before with ⟨-, rfl, rfl⟩ | ⟨-, flushed⟩
    · rfl
    · rwa [flushed] at kept

theorem headerWritten_writeTrailer (m : Muxer) (tree : FileTree) :
    (m.writeTrailer tree).2.1.headerWritten = m.headerWritten := by
  have kept := headerWritten_flushCluster m tree
  rcases m.writeTrailer_cases tree with
    ⟨_, _, _, flushed, written⟩ | ⟨_, _, flushed, -, written⟩ | ⟨_, _, _, _, flushed, -, -, written⟩
  all_goals
    rw [written]
    rwa [flushed] at kept

theorem addStream_of_headerWritten (written : m.headerWritten = true) (stream : Stream)
    (tree : FileTree) :
    m.perform tree (.addStream stream) = (.error .streamsAfterHeader, m, tree) := by
  rw [perform, addStream, if_pos written]
  rfl

theorem writeHeader_of_headerWritten (written : m.headerWritten = true) (tree : FileTree) :
    m.writeHeader tree = (.error .headerTwice, m, tree) := by
  rw [writeHeader, if_pos written]

/-- Once a head has been written, no call makes the muxer forget that. -/
theorem headerWritten_perform (written : m.headerWritten = true) (tree : FileTree)
    (operation : Operation) : (m.perform tree operation).2.1.headerWritten = true := by
  cases operation with
  | create path =>
    show (m.create path tree).2.1.headerWritten = true
    unfold create
    split
    · exact written
    · exact written
  | addStream stream =>
    rw [addStream_of_headerWritten written]
    exact written
  | writeHeader =>
    rw [perform, writeHeader_of_headerWritten written]
    exact written
  | writePacket packet => exact (headerWritten_writePacket m packet tree).trans written
  | writeTrailer => exact (headerWritten_writeTrailer m tree).trans written

end Muxer

/-! ## Whole runs -/

namespace Run

/-- The muxer is where the calls have come to. -/
def IsSound (r : Run) : Prop :=
  match r.progress with
  | .blank path => r.muxer.IsBlank r.tree path
  | .headed path taken => r.muxer.IsHeaded r.tree path taken
  | .spent => r.muxer.headerWritten = true

/-! ### One call -/

variable {m : Muxer} {tree : FileTree}

theorem isSound_after_blank {path : Option Path} (h : m.IsBlank tree path)
    (operation : Muxer.Operation) : (after ⟨m, tree, .blank path⟩ operation).IsSound := by
  cases operation with
  | create new =>
    cases made : tree.create new with
    | error fault =>
      rw [after_of_error (.create new) (Muxer.create_of_error made)]
      exact h
    | ok place =>
      obtain ⟨m', created, blank⟩ := h.create made
      rw [after_of_ok (.create new) created]
      exact blank
  | addStream stream =>
    -- Accepted or not, nothing has been written.
    have added := h.addStream stream
    cases result : (m.addStream stream).1 with
    | error failure =>
      rw [after_of_error (.addStream stream) (by rw [Muxer.perform, result]; rfl)]
      exact added
    | ok count =>
      rw [after_of_ok (.addStream stream) (by rw [Muxer.perform, result]; rfl)]
      cases path <;> exact added
  | writeHeader =>
    rcases h.writeHeader with ⟨failure, refused⟩ | ⟨open_, m', tree', rfl, written, headed⟩
    · rw [after_of_error .writeHeader refused]
      exact h
    · rw [after_of_ok .writeHeader written]
      exact headed
  | writePacket packet =>
    rw [after_of_error (.writePacket packet) (h.writePacket packet)]
    exact h
  | writeTrailer =>
    rcases h.writeTrailer with ⟨rfl, refused⟩ | ⟨open_, m', tree', rfl, written, blank⟩
    · rw [after_of_error .writeTrailer refused]
      exact h
    · rw [after_of_ok .writeTrailer written]
      exact blank

/-- Once the file with the head has been let go of, nothing more is said of the muxer. -/
theorem isSound_after_spent (written : m.headerWritten = true) (operation : Muxer.Operation) :
    (after ⟨m, tree, .spent⟩ operation).IsSound := by
  have kept := Muxer.headerWritten_perform written tree operation
  cases result : m.perform tree operation with
  | mk answer rest =>
    rw [result] at kept
    cases answer with
    | error failure =>
      rw [after_of_error operation result]
      exact kept
    | ok =>
      rw [after_of_ok operation result]
      exact kept

theorem isSound_after_headed {path : Path} {taken : List Packet} (h : m.IsHeaded tree path taken)
    (operation : Muxer.Operation) : (after ⟨m, tree, .headed path taken⟩ operation).IsSound := by
  cases operation with
  | create new =>
    cases made : tree.create new with
    | error fault =>
      rw [after_of_error (.create new) (Muxer.create_of_error made)]
      exact h
    | ok place =>
      rw [after_of_ok (.create new) (by rw [Muxer.perform, Muxer.create, made])]
      exact h.headerWritten
  | addStream stream =>
    rw [after_of_error (.addStream stream) (Muxer.addStream_of_headerWritten h.headerWritten ..)]
    exact h
  | writeHeader =>
    rw [after_of_error .writeHeader (Muxer.writeHeader_of_headerWritten h.headerWritten tree)]
    exact h
  | writePacket packet =>
    rcases h.writePacket packet with ⟨-, refused⟩ | ⟨m', tree', accepted, headed⟩
    · rw [after_of_error (.writePacket packet) refused]
      exact h
    · rw [after_of_ok (.writePacket packet) accepted]
      exact headed
  | writeTrailer =>
    have kept := Muxer.headerWritten_writeTrailer m tree
    obtain ⟨m', tree', accepted, -⟩ := h.writeTrailer
    rw [accepted] at kept
    rw [after_of_ok .writeTrailer accepted]
    exact kept.trans h.headerWritten

theorem IsSound.after {r : Run} (h : r.IsSound) (operation : Muxer.Operation) :
    (r.after operation).IsSound := by
  obtain ⟨m, tree, progress⟩ := r
  cases progress with
  | blank path => exact isSound_after_blank h operation
  | headed path taken => exact isSound_after_headed h operation
  | spent => exact isSound_after_spent h operation

/-! ### Any calls -/

theorem IsSound.afterAll (operations : List Muxer.Operation) {r : Run} (h : r.IsSound) :
    (r.afterAll operations).IsSound := by
  induction operations generalizing r with
  | nil => exact h
  | cons operation rest ih => exact ih (h.after operation)

theorem isSound_start (docType : DocType) (tree : FileTree) : (start docType tree).IsSound :=
  ⟨rfl, rfl, rfl, rfl, rfl⟩

theorem IsSound.isBlank {r : Run} (h : r.IsSound) {path : Option Path}
    (blank : r.progress = .blank path) : r.muxer.IsBlank r.tree path := by
  rwa [IsSound, blank] at h

theorem IsSound.isHeaded {r : Run} (h : r.IsSound) {path : Path} {taken : List Packet}
    (headed : r.progress = .headed path taken) : r.muxer.IsHeaded r.tree path taken := by
  rwa [IsSound, headed] at h

/-- What may come of a packet or the trailer as the next call. -/
structure KeepsCallOrder (r : Run) : Prop where
  /-- A packet is taken for a file with a head only, unless that file has been let go of. -/
  packetTaken : ∀ packet m tree, r.muxer.writePacket packet r.tree = (.ok (), m, tree) →
    (∃ path taken, r.progress = .headed path taken) ∨ r.progress = .spent
  /-- Of such a file every packet of a stream with a track is taken. -/
  packetKnown : ∀ path taken, r.progress = .headed path taken →
    ∀ packet, (r.muxer.track? packet.stream).isSome = true →
      ∃ m tree, r.muxer.writePacket packet r.tree = (.ok (), m, tree)
  packetRefused : r.progress ≠ .spent → ∀ packet failure m tree,
    r.muxer.writePacket packet r.tree = (.error failure, m, tree) → m = r.muxer ∧ tree = r.tree
  /-- The trailer is accepted for an open file only, whether it has a head or not, unless a file
  with a head has been let go of. -/
  trailerWritten : ∀ m tree, r.muxer.writeTrailer r.tree = (.ok (), m, tree) →
    (∃ path taken, r.progress = .headed path taken) ∨ (∃ path, r.progress = .blank (some path)) ∨
      r.progress = .spent
  trailerRefused : r.progress ≠ .spent → ∀ failure m tree,
    r.muxer.writeTrailer r.tree = (.error failure, m, tree) → m = r.muxer ∧ tree = r.tree
  /-- The trailer of a file with a head completes it with the packets that have been taken. -/
  complete : ∀ path taken, r.progress = .headed path taken →
    ∃ m tree, r.muxer.writeTrailer r.tree = (.ok (), m, tree) ∧
      Muxer.IsComplete tree path taken

theorem IsSound.keepsCallOrder {r : Run} (h : r.IsSound) : r.KeepsCallOrder := by
  constructor
  case packetTaken =>
    intro packet m tree accepted
    cases progress : r.progress with
    | blank path =>
      rw [(h.isBlank progress).writePacket packet] at accepted
      cases accepted
    | headed path taken => exact .inl ⟨path, taken, rfl⟩
    | spent => exact .inr rfl
  case packetKnown =>
    intro path taken progress packet known
    rcases (h.isHeaded progress).writePacket packet with ⟨unknown, -⟩ | ⟨m, tree, accepted, -⟩
    · rw [unknown] at known
      cases known
    · exact ⟨m, tree, accepted⟩
  case packetRefused =>
    intro unspent packet failure m tree refused
    cases progress : r.progress with
    | blank path =>
      rw [(h.isBlank progress).writePacket packet] at refused
      cases refused
      exact ⟨rfl, rfl⟩
    | headed path taken =>
      rcases (h.isHeaded progress).writePacket packet with ⟨-, unknown⟩ | ⟨_, _, accepted, -⟩
      · rw [unknown] at refused
        cases refused
        exact ⟨rfl, rfl⟩
      · rw [accepted] at refused
        cases refused
    | spent => exact absurd progress unspent
  case trailerWritten =>
    intro m tree accepted
    cases progress : r.progress with
    | blank path =>
      rcases (h.isBlank progress).writeTrailer with ⟨-, refused⟩ | ⟨open_, _, _, rfl, -⟩
      · rw [refused] at accepted
        cases accepted
      · exact .inr (.inl ⟨open_, rfl⟩)
    | headed path taken => exact .inl ⟨path, taken, rfl⟩
    | spent => exact .inr (.inr rfl)
  case trailerRefused =>
    intro unspent failure m tree refused
    cases progress : r.progress with
    | blank path =>
      rcases (h.isBlank progress).writeTrailer with ⟨-, none⟩ | ⟨_, _, _, -, accepted, -⟩
      · rw [none] at refused
        cases refused
        exact ⟨rfl, rfl⟩
      · rw [accepted] at refused
        cases refused
    | headed path taken =>
      obtain ⟨_, _, accepted, -⟩ := (h.isHeaded progress).writeTrailer
      rw [accepted] at refused
      cases refused
    | spent => exact absurd progress unspent
  case complete =>
    intro path taken progress
    exact (h.isHeaded progress).writeTrailer

/-- **A muxer keeps the order of its calls up to the end of its first file, but for an early
trailer.** Whatever calls have been made before, packets are taken for a file with a head only, and
the trailer puts them into that file; what is refused changes nothing. This ends when the file with
the head is let go of. -/
theorem afterAll_keepsCallOrder (docType : DocType) (tree : FileTree)
    (operations : List Muxer.Operation) :
    ((start docType tree).afterAll operations).KeepsCallOrder :=
  ((isSound_start docType tree).afterAll operations).keepsCallOrder

/-- The calls for a file with one packet, then a second file is created. -/
def secondUse : List Muxer.Operation :=
  [.create (.ofText "first.webm"),
    .addStream { Stream.ofAudio 0 "vorbis" { rate := 48000, channels := 2 } with
      extradata := some [2, 1, 1] },
    .writeHeader, .writePacket (.audio 0 [1]), .writeTrailer, .create (.ofText "second.webm")]

theorem afterAll_keepsCallOrder_secondUse :
    ((start .webm {}).afterAll (secondUse.take 4)).progress =
        .headed (.ofText "first.webm") [.audio 0 [1]] ∧
      ((start .webm {}).afterAll (secondUse.take 4)).KeepsCallOrder :=
  ⟨rfl, afterAll_keepsCallOrder .webm {} (secondUse.take 4)⟩

/-- The trailer is accepted for a file without a head. After its first file a muxer takes packets
for such a file too, and after the trailer for none. -/
theorem misorder_accepted :
    let opened := (start .webm {}).afterAll (secondUse.take 1)
    let finished := (start .webm {}).afterAll (secondUse.take 5)
    let reopened := (start .webm {}).afterAll secondUse
    let taken := reopened.after (.writePacket (.audio 0 [2]))
    let written := taken.after .writeTrailer
    (opened.muxer.writeTrailer opened.tree).1.isOk = true ∧
      (finished.muxer.writePacket (.audio 0 [2]) finished.tree).1.isOk = true ∧
      (reopened.muxer.writePacket (.audio 0 [2]) reopened.tree).1.isOk = true ∧
      (taken.muxer.writeTrailer taken.tree).1.isOk = true ∧
      written.tree.read (.ofText "second.webm") =
        .ok (.file (Cluster.encode { blocks := [⟨1, 0, [2]⟩] } ++ encodeCues [⟨0, 1, 0⟩])) :=
  ⟨rfl, by decide +kernel, by decide +kernel, by decide +kernel, by decide +kernel⟩

end Run

end VorbisTrack.Matroska
