import VorbisTrack.Proofs.Matroska.Cluster
import VorbisTrack.Proofs.Matroska.Registry
import VorbisTrack.Proofs.Matroska.Unambiguity
import VorbisTrack.Proofs.Storage.OutputFile

/-!
# What a muxer writes

Once the head of a file has been written, the file is the head followed by the clusters that are
closed, and the packets that have been taken are the blocks of these and of the cluster that is
being filled (`Muxer.Holds`). Taking a packet and closing a cluster keep this up, and the trailer
turns it into a statement about the whole file (`Muxer.Holds.writeTrailer`). What these calls do to
any muxer is said by `Muxer.flushCluster_cases`, `Muxer.writePacket_cases` and
`Muxer.writeTrailer_cases`.
-/

set_option autoImplicit false

namespace VorbisTrack.Matroska

/-- The head of a file: its tracks, and their list as an element. -/
structure Head where
  docType : DocType
  tracks : List Track
  list : Bytes
  encodes : encodeTracks tracks = .ok list

namespace Head

/-- The bytes before the content of the segment. -/
def lead (head : Head) : Bytes :=
  encodeDocument head.docType ++ segmentStart

def bytes (head : Head) : Bytes :=
  head.lead ++ (encodeInfo Encoder.ident ++ head.list)

/-- The cues of clusters that follow the head. They refer to the least number of a track. -/
def cues (head : Head) (clusters : List Cluster) : List Cue :=
  cuesFrom ((head.tracks.map Track.number).min?.getD 1)
    (encodeInfo Encoder.ident ++ head.list).length clusters

def fileBytes (head : Head) (clusters : List Cluster) : Bytes :=
  head.bytes ++ clusters.flatMap Cluster.encode ++
    if clusters.isEmpty then [] else encodeCues (head.cues clusters)

/-- A file starts with the identifier of the document header. -/
theorem identifier_isPrefix_fileBytes (head : Head) (clusters : List Cluster) :
    [0x1A, 0x45, 0xDF, 0xA3] <+: head.fileBytes clusters := by
  have id : Bytes.bigEndian (byteCount 0x1A45DFA3) 0x1A45DFA3 = [0x1A, 0x45, 0xDF, 0xA3] := by
    decide
  simp only [fileBytes, bytes, lead, encodeDocument, master, element, id, List.append_assoc]
  exact List.prefix_append ..

theorem isEmpty_cues (head : Head) (clusters : List Cluster) :
    (head.cues clusters).isEmpty = clusters.isEmpty :=
  isEmpty_cuesFrom ..

theorem isLead_lead (head : Head) : IsLead head.lead :=
  isLead_encode head.docType

/-- Behind the lead of a file its content is laid out. -/
theorem isContent (head : Head) {clusters : List Cluster}
    (bounded : ∀ c ∈ clusters, c.IsBounded) :
    IsContent head.tracks clusters (head.cues clusters)
      (encodeInfo Encoder.ident ++ (head.list ++ (clusters.flatMap Cluster.encode ++
        if clusters.isEmpty then [] else encodeCues (head.cues clusters)))) := by
  have written : IsRow (clusters.map IsCluster) (clusters.flatMap Cluster.encode) :=
    isRow_flatMap fun c member => isCluster_encode (bounded c member).span
  have indexed : IsRow (if head.cues clusters = [] then [] else [IsCues (head.cues clusters)])
      (if clusters.isEmpty then [] else encodeCues (head.cues clusters)) := by
    rw [← head.isEmpty_cues]
    cases head.cues clusters with
    | nil => exact .nil
    | cons cue cues => exact isRow_singleton (isCues_encode _)
  exact .cons isAny_encodeInfo
    (.cons (isTracks_encodeTracks head.encodes) (isRow_singleton (written.append indexed)))

theorem fileBytes_eq (head : Head) (clusters : List Cluster) :
    head.fileBytes clusters = head.lead ++ (encodeInfo Encoder.ident ++ (head.list ++
      (clusters.flatMap Cluster.encode ++
        if clusters.isEmpty then [] else encodeCues (head.cues clusters)))) := by
  simp only [fileBytes, bytes, List.append_assoc]

/-- A file is laid out for its clusters and their cues. -/
theorem isFile_fileBytes (head : Head) {clusters : List Cluster}
    (bounded : ∀ c ∈ clusters, c.IsBounded) :
    IsFile head.tracks clusters (head.cues clusters) (head.fileBytes clusters) := by
  rw [fileBytes_eq]
  exact .cons head.isLead_lead (isRow_singleton (head.isContent bounded))

/-- A file of clusters: what it is made of, how its bytes are laid out, and the blocks of all
clusters, each with its time. -/
structure IsFileOf (head : Head) (clusters : List Cluster) (blocks : List Block) (file : Bytes) :
    Prop where
  bytes : file = head.fileBytes clusters
  layout : IsFile head.tracks clusters (head.cues clusters) file
  bounded : ∀ c ∈ clusters, c.blocks ≠ [] ∧ c.IsBounded
  timed : clusters.flatMap Cluster.timed = blocks

theorem isFileOf_fileBytes (head : Head) {clusters : List Cluster} {blocks : List Block}
    (bounded : ∀ c ∈ clusters, c.blocks ≠ [] ∧ c.IsBounded)
    (timed : clusters.flatMap Cluster.timed = blocks) :
    head.IsFileOf clusters blocks (head.fileBytes clusters) :=
  ⟨rfl, head.isFile_fileBytes fun c member => (bounded c member).2, bounded, timed⟩

/-- A file has room for the blocks that it is made of. -/
theorem IsFileOf.room_le {head : Head} {clusters : List Cluster} {blocks : List Block}
    {file : Bytes} (h : head.IsFileOf clusters blocks file) :
    (blocks.map Block.room).sum ≤ file.length := by
  have same (c : Cluster) : c.timed.map Block.room = c.blocks.map Block.room := by
    rw [Cluster.timed, List.map_map]
    rfl
  have taken := h.layout.room_le
  rw [List.map_flatMap] at taken
  rw [← h.timed, List.map_flatMap]
  simpa only [same] using taken

/-- The clusters of a file can be told from its bytes. -/
theorem IsFileOf.clusters_eq {head : Head} {clusters clusters' : List Cluster}
    {blocks : List Block} {file : Bytes} {tracks : List Track} {cues : List Cue}
    (h : head.IsFileOf clusters blocks file) (small : ∀ b ∈ blocks, b.track < 2 ^ 56 - 1)
    (layout : IsFile tracks clusters' cues file) : clusters' = clusters := by
  refine h.layout.clusters_eq ?_ layout
  intro c member b held
  have timed : { b with offset := c.time + b.offset } ∈ blocks := by
    rw [← h.timed]
    exact List.mem_flatMap.mpr ⟨c, member, List.mem_map_of_mem held⟩
  have few := small _ timed
  exact few

end Head

namespace Muxer

/-- The muxer writes to a location. The file is its head and the clusters that are closed. -/
structure HasWritten (m : Muxer) (tree : FileTree) (location : Location) (head : Head)
    (closed : List Cluster) : Prop where
  headerWritten : m.headerWritten = true
  tracks : m.tracks = head.tracks
  segment : m.segmentPosition = head.lead.length
  stored : ∃ file : OutputFile, m.output = some file ∧ file.location = location ∧
    file.Holds tree (head.bytes ++ closed.flatMap Cluster.encode)
  cues : m.cues = head.cues closed

/-- The muxer writes to a location. The file has a head, and packets have been taken as blocks with
these times. -/
structure Holds (m : Muxer) (tree : FileTree) (location : Location) (head : Head)
    (blocks : List Block) : Prop where
  headerWritten : m.headerWritten = true
  tracks : m.tracks = head.tracks
  segment : m.segmentPosition = head.lead.length
  bounded : m.cluster.IsBounded
  stored : ∃ (file : OutputFile) (closed : List Cluster), m.output = some file ∧
    file.location = location ∧
    file.Holds tree (head.bytes ++ closed.flatMap Cluster.encode) ∧
    m.cues = head.cues closed ∧ (∀ c ∈ closed, c.blocks ≠ [] ∧ c.IsBounded) ∧
    closed.flatMap Cluster.timed ++ m.cluster.timed = blocks

variable {m : Muxer} {tree : FileTree} {location : Location} {head : Head} {blocks : List Block}

/-- The blocks that have been taken are those of the clusters that are closed and of the one that is
being filled. -/
theorem holds_iff : m.Holds tree location head blocks ↔
    ∃ closed, m.HasWritten tree location head closed ∧ m.cluster.IsBounded ∧
      (∀ c ∈ closed, c.blocks ≠ [] ∧ c.IsBounded) ∧
      closed.flatMap Cluster.timed ++ m.cluster.timed = blocks := by
  constructor
  · intro h
    obtain ⟨file, closed, output, place, holds, cues, bounds, all⟩ := h.stored
    exact ⟨closed, ⟨h.headerWritten, h.tracks, h.segment, ⟨file, output, place, holds⟩, cues⟩,
      h.bounded, bounds, all⟩
  · rintro ⟨closed, h, bounded, bounds, all⟩
    obtain ⟨file, output, place, holds⟩ := h.stored
    exact ⟨h.headerWritten, h.tracks, h.segment, bounded, file, closed, output, place, holds,
      h.cues, bounds, all⟩

/-- The cue of a cluster that is written behind others is the next one. -/
theorem cues_concat (tracks : m.tracks = head.tracks)
    (segment : m.segmentPosition = head.lead.length) (closed : List Cluster) :
    head.cues (closed ++ [m.cluster]) = head.cues closed ++
      [m.cueAt (head.bytes ++ closed.flatMap Cluster.encode).length] := by
  have after : (head.bytes ++ closed.flatMap Cluster.encode).length - m.segmentPosition =
      (encodeInfo Encoder.ident ++ head.list).length +
        (closed.flatMap Cluster.encode).length := by
    rw [segment, Head.bytes, List.append_assoc, List.length_append, Nat.add_sub_cancel_left,
      List.length_append]
  rw [Head.cues, cuesFrom_concat, cueAt, after, map_numbers, tracks]
  rfl

/-! ## What a call can do -/

theorem flushCluster_of_isEmpty (empty : m.cluster.blocks = []) (tree : FileTree) :
    m.flushCluster tree = (.ok (), m, tree) := by
  simp only [Muxer.flushCluster, empty, List.isEmpty_nil, if_true]

/-- The cluster that is being filled goes to the file as it is, and has a cue. Without a file it is
lost. -/
theorem flushCluster_cases (m : Muxer) (tree : FileTree) :
    (m.cluster.blocks = [] ∧ m.flushCluster tree = (.ok (), m, tree)) ∨
    (m.cluster.blocks ≠ [] ∧ m.output = none ∧ m.flushCluster tree =
      (.error .noOutput, { m with cluster := { m.cluster with blocks := [] } }, tree)) ∨
    ∃ file after, m.cluster.blocks ≠ [] ∧ m.output = some file ∧
      OutputFile.Appends m.cluster.encode (file, tree) after ∧ m.flushCluster tree =
        (.ok (),
          { m with
            cluster := { m.cluster with blocks := [] }
            output := some after.1
            cues := m.cues ++ [m.cueAt (file.flush tree).1.position] },
          after.2) := by
  by_cases empty : m.cluster.blocks = []
  · exact .inl ⟨empty, flushCluster_of_isEmpty empty tree⟩
  · right
    have starts : m.cluster.blocks.isEmpty = false := List.isEmpty_eq_false_iff.mpr empty
    cases output : m.output with
    | none =>
      refine .inl ⟨empty, rfl, ?_⟩
      simp only [flushCluster, starts, Bool.false_eq_true, if_false, output]
    | some file =>
      -- What waits is passed on first, so that the cue has the position of the cluster.
      have step := (file.appends_flush tree).trans
        ((file.flush tree).1.appends_write m.cluster.encode (file.flush tree).2)
      refine .inr ⟨file, _, empty, rfl, step, ?_⟩
      simp only [flushCluster, starts, Bool.false_eq_true, if_false, output]

/-- A packet is refused, or the cluster before it cannot be written, or it is taken for the track of
its stream. -/
theorem writePacket_cases (m : Muxer) (packet : Packet) (tree : FileTree) :
    (∃ failure, (failure = .headerNotWritten ∨ failure = .unknownStream packet.stream) ∧
      m.writePacket packet tree = (.error failure, m, tree)) ∨
    (∃ failure m' tree', m.flushCluster tree = (.error failure, m', tree') ∧
      m.writePacket packet tree = (.error failure, m', tree')) ∨
    ∃ track m' tree', m.track? packet.stream = some track ∧
      (m.cluster.isClosedTo (milliseconds track.stream.timeBase packet.pts) = false ∧
          m' = m ∧ tree' = tree ∨
        m.cluster.isClosedTo (milliseconds track.stream.timeBase packet.pts) = true ∧
          m.flushCluster tree = (.ok (), m', tree')) ∧
      m.writePacket packet tree =
        (.ok (),
          m'.push track.number (milliseconds track.stream.timeBase packet.pts) packet.data,
          tree') := by
  by_cases written : m.headerWritten = true
  · cases known : m.track? packet.stream with
    | none =>
      refine .inl ⟨_, .inr rfl, ?_⟩
      simp only [writePacket, written, not_true, if_false, number?_registry, known, Option.map_none]
    | some track =>
      right
      cases closed : m.cluster.isClosedTo (milliseconds track.stream.timeBase packet.pts) with
      | false =>
        refine .inr ⟨track, m, tree, rfl, .inl ⟨closed, rfl, rfl⟩, ?_⟩
        simp only [writePacket, written, not_true, if_false, number?_registry, stream?_registry,
          known, Option.map_some, closed, Bool.false_eq_true]
      | true =>
        cases flushed : m.flushCluster tree with
        | mk result reply =>
          obtain ⟨m', tree'⟩ := reply
          cases result with
          | error failure =>
            refine .inl ⟨failure, m', tree', rfl, ?_⟩
            simp only [writePacket, written, not_true, if_false, number?_registry,
              stream?_registry, known, Option.map_some, closed, if_true, flushed]
          | ok =>
            refine .inr ⟨track, m', tree', rfl, .inr ⟨closed, rfl⟩, ?_⟩
            simp only [writePacket, written, not_true, if_false, number?_registry,
              stream?_registry, known, Option.map_some, closed, if_true, flushed]
  · refine .inl ⟨_, .inl rfl, ?_⟩
    rw [writePacket, if_pos written]

/-- The last cluster cannot be written, or there is no file, or the file has its cues, if there are
any, and all that waits is passed on. -/
theorem writeTrailer_cases (m : Muxer) (tree : FileTree) :
    (∃ failure m' tree', m.flushCluster tree = (.error failure, m', tree') ∧
      m.writeTrailer tree = (.error failure, m', tree')) ∨
    (∃ m' tree', m.flushCluster tree = (.ok (), m', tree') ∧ m'.output = none ∧
      m.writeTrailer tree = (.error .noOutput, { m' with cues := [] }, tree')) ∨
    ∃ m' tree' file after, m.flushCluster tree = (.ok (), m', tree') ∧ m'.output = some file ∧
      OutputFile.Appends (if m'.cues.isEmpty then [] else encodeCues m'.cues)
        (file, tree') after ∧
      m.writeTrailer tree =
        (.ok (), { m' with cues := [], output := none }, (after.1.flush after.2).2) := by
  cases flushed : m.flushCluster tree with
  | mk result reply =>
    obtain ⟨m', tree'⟩ := reply
    cases result with
    | error failure =>
      refine .inl ⟨failure, m', tree', rfl, ?_⟩
      simp only [writeTrailer, flushed]
    | ok =>
      right
      cases output : m'.output with
      | none =>
        refine .inl ⟨m', tree', rfl, output, ?_⟩
        simp only [writeTrailer, flushed, output]
      | some file =>
        right
        cases uncued : m'.cues.isEmpty with
        | true =>
          refine ⟨m', tree', file, (file, tree'), rfl, output, ?_, ?_⟩
          · rw [uncued, if_pos rfl]
            exact .refl (file, tree')
          · simp only [writeTrailer, flushed, output, uncued, if_true]
        | false =>
          refine ⟨m', tree', file, file.write (encodeCues m'.cues) tree', rfl, output, ?_, ?_⟩
          · rw [uncued, if_neg Bool.false_ne_true]
            exact file.appends_write (encodeCues m'.cues) tree'
          · simp only [writeTrailer, flushed, output, uncued, Bool.false_eq_true, if_false]

/-! ## Clusters and packets -/

/-- The cluster that is being filled is written behind those that are closed. -/
theorem HasWritten.flushCluster {closed : List Cluster}
    (h : m.HasWritten tree location head closed) (some_ : m.cluster.blocks ≠ []) :
    ∃ m' tree', m.flushCluster tree = (.ok (), m', tree') ∧
      m'.HasWritten tree' location head (closed ++ [m.cluster]) ∧
      m'.cluster = { m.cluster with blocks := [] } ∧ m'.blocksWritten = m.blocksWritten ∧
      tree.ChangesOnly location tree' := by
  obtain ⟨file, output, rfl, holds⟩ := h.stored
  rcases m.flushCluster_cases tree with
    ⟨empty, -⟩ | ⟨-, unopened, -⟩ | ⟨same, appended, -, opened, step, flushed⟩
  · exact absurd empty some_
  · cases output.symm.trans unopened
  · cases output.symm.trans opened
    refine ⟨_, _, flushed, ⟨h.headerWritten, h.tracks, h.segment,
      ⟨appended.1, rfl, step.location, ?_⟩, ?_⟩, rfl, rfl, step.tree⟩
    · rw [List.flatMap_append, List.flatMap_singleton, ← List.append_assoc]
      exact step.holds _ holds
    · show m.cues ++ [m.cueAt (file.flush tree).1.position] = _
      rw [cues_concat h.tracks h.segment, h.cues, holds.flush.position]

/-- Closing the cluster that is being filled takes no packet and loses none. -/
theorem Holds.flushCluster (h : m.Holds tree location head blocks) :
    ∃ m' tree', m.flushCluster tree = (.ok (), m', tree') ∧
      m'.Holds tree' location head blocks ∧ m'.cluster.blocks = [] ∧
      tree.ChangesOnly location tree' := by
  by_cases empty : m.cluster.blocks = []
  · exact ⟨m, tree, flushCluster_of_isEmpty empty tree, h, empty, .refl location tree⟩
  · obtain ⟨closed, written, bounded, bounds, all⟩ := holds_iff.mp h
    obtain ⟨m', tree', flushed, written', emptied, -, changed⟩ := written.flushCluster empty
    have none : m'.cluster.blocks = [] := by rw [emptied]
    refine ⟨m', tree', flushed, holds_iff.mpr ⟨_, written', ?_, ?_, ?_⟩, none, changed⟩
    · exact Cluster.isBounded_of_isEmpty none
    · intro c member
      rcases List.mem_append.mp member with member | member
      · exact bounds c member
      · rw [List.mem_singleton.mp member]
        exact ⟨empty, bounded⟩
    · -- The blocks of the cluster have moved from the one that is filled to the closed ones.
      rw [List.flatMap_append, List.flatMap_singleton, Cluster.timed_of_isEmpty none,
        List.append_nil]
      exact all

/-- A packet that the cluster is open to joins it. -/
theorem Holds.push (h : m.Holds tree location head blocks) {time : Nat}
    (open_ : m.cluster.isClosedTo time = false)
    (later : m.cluster.blocks = [] ∨ m.cluster.time ≤ time) (track : Nat) (data : Bytes) :
    (m.push track time data).Holds tree location head
      (blocks ++ [{ track, offset := time, data }]) := by
  obtain ⟨file, closed, output, place, holds, cues, bounds, all⟩ := h.stored
  refine ⟨h.headerWritten, h.tracks, h.segment, h.bounded.push open_ track data, file, closed,
    output, place, holds, cues, bounds, ?_⟩
  show closed.flatMap Cluster.timed ++ (m.cluster.push track time data).timed = _
  rw [Cluster.timed_push later, ← List.append_assoc, all]

/-- A packet of a known stream that does not come before the cluster is taken at its time. -/
theorem Holds.writePacket (h : m.Holds tree location head blocks) {packet : Packet} {track : Track}
    {time : Nat} (known : m.track? packet.stream = some track)
    (at_ : milliseconds track.stream.timeBase packet.pts = time)
    (later : m.cluster.blocks = [] ∨ m.cluster.time ≤ time) :
    ∃ m' tree', m.writePacket packet tree = (.ok (), m', tree') ∧
      m'.Holds tree' location head
        (blocks ++ [{ track := track.number, offset := time, data := packet.data }]) ∧
      m'.cluster.time ≤ time ∧ tree.ChangesOnly location tree' := by
  -- The packet joins the cluster, or else that is closed first and the packet starts a new one.
  cases closed : m.cluster.isClosedTo time with
  | false =>
    refine ⟨_, tree, ?_, h.push closed later track.number packet.data, ?_, .refl location tree⟩
    · simp only [Muxer.writePacket, h.headerWritten, not_true, if_false, number?_registry,
        stream?_registry, known, Option.map_some, at_, closed, Bool.false_eq_true]
    · exact Cluster.time_push_le later ..
  | true =>
    obtain ⟨m', tree', flushed, holds, empty, changed⟩ := h.flushCluster
    have open_ : m'.cluster.isClosedTo time = false := by
      simp only [Cluster.isClosedTo, empty, List.isEmpty_nil, Bool.not_true, Bool.false_and]
    refine ⟨_, tree', ?_, holds.push open_ (.inl empty) track.number packet.data, ?_, changed⟩
    · simp only [Muxer.writePacket, h.headerWritten, not_true, if_false, number?_registry,
        stream?_registry, known, Option.map_some, at_, closed, if_true, flushed]
    · exact Cluster.time_push_le (.inl empty) ..

/-- With the trailer the file is complete if no cluster is being filled. -/
theorem HasWritten.writeTrailer_of_isEmpty {closed : List Cluster}
    (h : m.HasWritten tree location head closed) (empty : m.cluster.blocks = []) :
    ∃ m' tree', m.writeTrailer tree = (.ok (), m', tree') ∧ m'.output = none ∧
      m'.blocksWritten = m.blocksWritten ∧
      tree'.node? location = some (.file (head.fileBytes closed)) ∧
      tree.ChangesOnly location tree' := by
  obtain ⟨file, output, rfl, stored⟩ := h.stored
  have flushed := flushCluster_of_isEmpty empty tree
  rcases m.writeTrailer_cases tree with
    ⟨_, _, _, lost, -⟩ | ⟨_, _, same, unopened, -⟩ | ⟨_, _, _, after, same, opened, step, written⟩
  · cases flushed.symm.trans lost
  · cases flushed.symm.trans same
    cases output.symm.trans unopened
  · cases flushed.symm.trans same
    cases output.symm.trans opened
    refine ⟨_, _, written, rfl, rfl, ?_, (step.trans (after.1.appends_flush after.2)).tree⟩
    rw [Head.fileBytes, ← head.isEmpty_cues, ← h.cues, ← step.location]
    exact (step.holds _ stored).node?_flush

/-- The trailer closes the cluster that is being filled before anything else. -/
theorem writeTrailer_of_flushCluster {m' : Muxer} {tree' : FileTree}
    (flushed : m.flushCluster tree = (.ok (), m', tree')) (empty : m'.cluster.blocks = []) :
    m.writeTrailer tree = m'.writeTrailer tree' := by
  simp only [Muxer.writeTrailer, flushed, flushCluster_of_isEmpty empty]

/-- With the trailer the file is complete: its clusters keep the bounds, and their blocks are the
packets that have been taken. -/
theorem Holds.writeTrailer (h : m.Holds tree location head blocks) :
    ∃ m' tree' clusters file, m.writeTrailer tree = (.ok (), m', tree') ∧ m'.output = none ∧
      tree'.node? location = some (.file file) ∧ head.IsFileOf clusters blocks file ∧
      tree.ChangesOnly location tree' := by
  obtain ⟨m₁, tree₁, flushed, holds, empty, changed⟩ := h.flushCluster
  obtain ⟨closed, written, -, bounds, all⟩ := holds_iff.mp holds
  rw [Cluster.timed_of_isEmpty empty, List.append_nil] at all
  obtain ⟨m', tree', finished, output, -, stands, changed'⟩ := written.writeTrailer_of_isEmpty empty
  exact ⟨m', tree', closed, _, (writeTrailer_of_flushCluster flushed empty).trans finished, output,
    stands, head.isFileOf_fileBytes bounds all, changed.trans changed'⟩

/-! ## The head -/

/-- A muxer that has just created its file has written nothing. -/
theorem create_eq_ok {m : Muxer} (unopened : m.output = none) {path : Path}
    {tree tree' : FileTree} {location : Location}
    (made : tree.create path = .ok (location, tree')) :
    m.create path tree = (.ok (), { m with output := some { location } }, tree') ∧
      OutputFile.Holds { location } tree' [] := by
  obtain ⟨-, -, -, stands⟩ := FileTree.of_create made
  constructor
  · simp only [create, made, release, unopened]
  · exact ⟨[], stands, rfl, rfl⟩

/-- Once the head has been written, there is no cluster behind it yet. -/
theorem hasWritten_writeHeader {m : Muxer} {tree : FileTree} {file : OutputFile} {head : Head}
    (unwritten : m.headerWritten = false) (docType : m.docType = head.docType)
    (tracks : m.tracks = head.tracks) (some_ : m.tracks ≠ []) (output : m.output = some file)
    (holds : file.Holds tree []) (uncued : m.cues = []) :
    ∃ m' tree', m.writeHeader tree = (.ok (), m', tree') ∧
      m'.HasWritten tree' file.location head [] ∧ m'.cluster = m.cluster ∧
      m'.blocksWritten = m.blocksWritten ∧ tree.ChangesOnly file.location tree' := by
  -- Five steps, each of which appends to the file. The content of the segment starts after the
  -- third.
  have one := file.appends_write (encodeDocument m.docType) tree
  generalize first : file.write (encodeDocument m.docType) tree = s₁ at one
  have two := one.trans (s₁.1.appends_write segmentStart s₁.2)
  generalize second : s₁.1.write segmentStart s₁.2 = s₂ at two
  have three := two.trans (s₂.1.appends_flush s₂.2)
  generalize third : s₂.1.flush s₂.2 = s₃ at three
  have four := three.trans (s₃.1.appends_write (encodeInfo Encoder.ident) s₃.2)
  generalize fourth : s₃.1.write (encodeInfo Encoder.ident) s₃.2 = s₄ at four
  have five := four.trans (s₄.1.appends_write head.list s₄.2)
  generalize fifth : s₄.1.write head.list s₄.2 = s₅ at five
  refine ⟨
    { m with output := some s₅.1, segmentPosition := s₃.1.position, headerWritten := true },
    s₅.2, ?_, ⟨rfl, tracks, ?_, ⟨s₅.1, rfl, five.location, ?_⟩, uncued⟩, rfl, rfl, five.tree⟩
  · have tracked : m.tracks.isEmpty = false := List.isEmpty_eq_false_iff.mpr some_
    have encoded : encodeTracks m.tracks = .ok head.list := by
      rw [tracks]
      exact head.encodes
    simp only [writeHeader, unwritten, isEmpty_streams, tracked, Bool.false_eq_true, if_false,
      encode_registry, encoded, output, first, second, third, fourth, fifth]
  · show s₃.1.position = _
    rw [(three.holds [] holds).position, List.nil_append, List.append_nil, docType]
    rfl
  · have written := five.holds [] holds
    rw [List.nil_append, List.append_nil, docType, List.append_assoc] at written
    rw [List.flatMap_nil, List.append_nil]
    exact written

/-- Once the head has been written, no packet has been taken. -/
theorem holds_writeHeader {m : Muxer} {tree : FileTree} {file : OutputFile} {head : Head}
    (unwritten : m.headerWritten = false) (docType : m.docType = head.docType)
    (tracks : m.tracks = head.tracks) (some_ : m.tracks ≠ []) (output : m.output = some file)
    (holds : file.Holds tree []) (fresh : m.cluster.blocks = []) (uncued : m.cues = []) :
    ∃ m' tree', m.writeHeader tree = (.ok (), m', tree') ∧
      m'.Holds tree' file.location head [] ∧ m'.cluster.blocks = [] ∧
      tree.ChangesOnly file.location tree' := by
  obtain ⟨m', tree', written, starts, same, -, changed⟩ :=
    hasWritten_writeHeader unwritten docType tracks some_ output holds uncued
  rw [← same] at fresh
  refine ⟨m', tree', written, holds_iff.mpr ⟨[], starts, ?_, ?_, ?_⟩, fresh, changed⟩
  · exact Cluster.isBounded_of_isEmpty fresh
  · intro c none
    cases none
  · rw [List.flatMap_nil, List.nil_append]
    exact Cluster.timed_of_isEmpty fresh

/-! ## Packets that are never refused -/

/-- The muxer takes every packet of a stream, whatever its time is. -/
structure TakesPackets (m : Muxer) (stream : Nat) : Prop where
  headerWritten : m.headerWritten = true
  output : m.output.isSome = true
  track : (m.track? stream).isSome = true

namespace TakesPackets

variable {stream : Nat}

theorem flushCluster (h : m.TakesPackets stream) (tree : FileTree) :
    ∃ m' tree', m.flushCluster tree = (.ok (), m', tree') ∧ m'.TakesPackets stream := by
  rcases m.flushCluster_cases tree with
    ⟨-, flushed⟩ | ⟨-, unopened, -⟩ | ⟨_, _, -, -, -, flushed⟩
  · exact ⟨m, tree, flushed, h⟩
  · have opened := h.output
    rw [unopened] at opened
    cases opened
  · exact ⟨_, _, flushed, h.headerWritten, rfl, h.track⟩

theorem writePacket (h : m.TakesPackets stream) {packet : Packet} (own : packet.stream = stream)
    (tree : FileTree) :
    ∃ m' tree', m.writePacket packet tree = (.ok (), m', tree') ∧ m'.TakesPackets stream := by
  obtain ⟨track, known⟩ := Option.isSome_iff_exists.mp h.track
  simp only [Muxer.writePacket, h.headerWritten, not_true, if_false, own, number?_registry,
    stream?_registry, known, Option.map_some]
  split
  · obtain ⟨m', tree', flushed, takes⟩ := h.flushCluster tree
    rw [flushed]
    exact ⟨_, _, rfl, takes.headerWritten, takes.output, takes.track⟩
  · exact ⟨_, _, rfl, h.headerWritten, h.output, h.track⟩

end TakesPackets

theorem tracks_of_addStream {stream : Stream} {count : Nat} {m' : Muxer}
    (added : m.addStream stream = (.ok count, m')) :
    m'.tracks = m.tracks ++ [{ number := m.tracks.length + 1, stream }] := by
  rcases m.addStream_cases stream with ⟨_, refused⟩ | ⟨registry, -, -, -, -, streams, accepted⟩
  · rw [refused] at added
    cases added
  · rw [accepted] at added
    cases added
    exact tracks_eq_of_streams streams

/-- Once the head has been written, packets of all streams that were added are taken. -/
theorem takesPackets_of_writeHeader {m' : Muxer} {tree' : FileTree}
    (written : m.writeHeader tree = (.ok (), m', tree')) {track : Track}
    (member : track ∈ m.tracks) : m'.TakesPackets track.stream.index := by
  have found : (m.track? track.stream.index).isSome = true :=
    List.find?_isSome.mpr ⟨track, member, beq_self_eq_true _⟩
  unfold writeHeader at written
  split at written
  · cases written
  · split at written
    · cases written
    · split at written
      · cases written
      · cases written
      · simp only [Prod.mk.injEq, true_and] at written
        rw [← written.1]
        exact ⟨rfl, rfl, found⟩

end Muxer

end VorbisTrack.Matroska
