import VorbisTrack.Proofs.Matroska.Muxer
import VorbisTrack.Proofs.Matroska.Partition
import VorbisTrack.Proofs.SampleTime

/-!
# Whole files

A file is made by a fixed course of operations: it is created, streams are added, the header is
written, then packets, then the trailer (`Muxer.writeFile`). For streams that can be written and any
packets of theirs (`Writable`) all of them succeed, and the clusters of the file are filled with the
packets (`Muxer.writeFile_eq_ok`). If the times of the packets can be stored too (`Muxable`), the
clusters partition the packets at their own times (`Muxer.writeFile_partitions`).
-/

set_option autoImplicit false

namespace VorbisTrack.Matroska

/-! ## Streams and packets that can be stored -/

/-- Streams that can be written to a file, with packets of theirs at any times. -/
structure Writable (streams : List Stream) (packets : List Packet) : Prop where
  some_ : streams ≠ []
  vorbis : ∀ stream ∈ streams, stream.media = .audio ∧ stream.codec = "vorbis"
  described : ∀ stream ∈ streams, stream.audio.isSome = true ∧ stream.extradata.isSome = true
  distinct : (streams.map Stream.index).Nodup
  known : ∀ packet ∈ packets, ∃ stream ∈ streams, stream.index = packet.stream

/-- Streams that can be written to a file, with packets of theirs at times that can be stored. -/
structure Muxable (streams : List Stream) (packets : List Packet) : Prop
    extends Writable streams packets where
  inRange : ∀ packet ∈ packets, ∀ stream ∈ streams, stream.index = packet.stream →
    stream.timeBase.isTimeBase = true → 0 < packet.pts.ticks.toInt →
      InRange stream.timeBase packet.pts

/-- A packet as it is stored: with the number of its stream's track, and at its time in
milliseconds as far as a machine word holds it. -/
structure IsStored (streams : List Stream) (packet : Packet) (entry : Block) : Prop where
  track : ∃ i stream, streams[i]? = some stream ∧ stream.index = packet.stream ∧
    entry.track = i + 1 ∧ entry.offset = milliseconds stream.timeBase packet.pts
  data : entry.data = packet.data

/-- The room that packets take is theirs and a byte for each. -/
theorem sum_room {streams : List Stream} {packets : List Packet} {entries : List Block}
    (are : List.Forall₂ (IsStored streams) packets entries) :
    (entries.map Block.room).sum = packets.length + (packets.map Packet.size).sum := by
  induction are with
  | nil => rfl
  | cons same _ ih =>
    rw [List.map_cons, List.sum_cons, ih, List.length_cons, List.map_cons, List.sum_cons,
      Block.room, same.data, Packet.size]
    omega

/-- A packet as it is to be stored: with the number of its stream's track, and at its own time. -/
structure IsEntry (streams : List Stream) (packet : Packet) (entry : Block) : Prop where
  track : ∃ i stream, streams[i]? = some stream ∧ stream.index = packet.stream ∧
    entry.track = i + 1 ∧ entry.offset = timecode stream.timeBase packet.pts
  data : entry.data = packet.data

/-- A time that is in range is stored as it is. -/
theorem IsStored.isEntry {streams : List Stream} {packet : Packet} {entry : Block}
    (h : IsStored streams packet entry)
    (inRange : ∀ stream ∈ streams, stream.index = packet.stream →
      stream.timeBase.isTimeBase = true → 0 < packet.pts.ticks.toInt →
        InRange stream.timeBase packet.pts) : IsEntry streams packet entry := by
  obtain ⟨i, stream, place, index, number, time⟩ := h.track
  have same := milliseconds_eq_timecode (inRange stream (List.mem_of_getElem? place) index)
  exact ⟨⟨i, stream, place, index, number, time.trans same⟩, h.data⟩

/-- The track of a stream is found by its index. -/
theorem exists_find?_tracksOf {streams : List Stream} {index : Nat}
    (known : ∃ stream ∈ streams, stream.index = index) :
    ∃ i stream, streams[i]? = some stream ∧ stream.index = index ∧
      (tracksOf streams).find? (fun track => track.stream.index == index) =
        some { number := i + 1, stream } := by
  cases found : (tracksOf streams).find? fun track => track.stream.index == index with
  | none =>
    obtain ⟨stream, member, same⟩ := known
    obtain ⟨i, within, rfl⟩ := List.mem_iff_getElem.mp member
    have other := List.find?_eq_none.mp found _ (List.mem_mapIdx.mpr ⟨i, within, rfl⟩)
    exact absurd (beq_iff_eq.mpr same) other
  | some track =>
    obtain ⟨i, place, number⟩ := exists_of_mem_tracksOf (List.mem_of_find?_eq_some found)
    have same := List.find?_some found
    refine ⟨i, track.stream, place, beq_iff_eq.mp same, ?_⟩
    rw [← number]

/-- A list of tracks can be written if each has what its entry needs. -/
theorem exists_encodeTracks {tracks : List Track}
    (described : ∀ track ∈ tracks,
      track.stream.audio.isSome = true ∧ track.stream.extradata.isSome = true) :
    ∃ list, encodeTracks tracks = .ok list := by
  suffices entries : ∃ entries, tracks.mapM Track.entry = .ok entries by
    obtain ⟨entries, encoded⟩ := entries
    exact ⟨_, by rw [encodeTracks, encoded]; rfl⟩
  induction tracks with
  | nil => exact ⟨[], rfl⟩
  | cons track rest ih =>
    obtain ⟨entries, encoded⟩ := ih fun other member =>
      described other (List.mem_cons_of_mem _ member)
    obtain ⟨audio, extradata⟩ := described track (List.mem_cons_self ..)
    obtain ⟨audio, known⟩ := Option.isSome_iff_exists.mp audio
    obtain ⟨extradata, given⟩ := Option.isSome_iff_exists.mp extradata
    have entry : ∃ entry, track.entry = .ok entry := by
      simp only [Track.entry, known, given]
      exact ⟨_, rfl⟩
    obtain ⟨entry, made⟩ := entry
    exact ⟨entry :: entries, by rw [List.mapM_cons, made, encoded]; rfl⟩

namespace Muxer

/-! ## Courses of operations -/

def addStreams (m : Muxer) : List Stream → Except Failure Unit × Muxer
  | [] => (.ok (), m)
  | stream :: rest =>
    match m.addStream stream with
    | (.error failure, m) => (.error failure, m)
    | (.ok _, m) => m.addStreams rest

def writePackets (m : Muxer) (tree : FileTree) : List Packet → Outcome Unit
  | [] => (.ok (), m, tree)
  | packet :: rest =>
    match m.writePacket packet tree with
    | (.error failure, m, tree) => (.error failure, m, tree)
    | (.ok (), m, tree) => m.writePackets tree rest

/-- Makes a file of streams and packets, up to the first operation that fails. -/
def writeFile (docType : DocType) (path : Path) (streams : List Stream) (packets : List Packet)
    (tree : FileTree) : Outcome Unit :=
  match create { docType } path tree with
  | (.error failure, m, tree) => (.error failure, m, tree)
  | (.ok (), m, tree) =>
    match m.addStreams streams with
    | (.error failure, m) => (.error failure, m, tree)
    | (.ok (), m) =>
      match m.writeHeader tree with
      | (.error failure, m, tree) => (.error failure, m, tree)
      | (.ok (), m, tree) =>
        match m.writePackets tree packets with
        | (.error failure, m, tree) => (.error failure, m, tree)
        | (.ok (), m, tree) => m.writeTrailer tree

/-! ## Adding streams -/

/-- Streams of Vorbis audio whose indices are distinct are added, and get the next numbers. -/
theorem addStreams_eq_ok {m : Muxer} (unwritten : m.headerWritten = false) (streams : List Stream)
    (vorbis : ∀ stream ∈ streams, stream.media = .audio ∧ stream.codec = "vorbis")
    (distinct : ((m.registry.streams ++ streams).map Stream.index).Nodup) :
    ∃ registry, registry.streams = m.registry.streams ++ streams ∧
      m.addStreams streams = (.ok (), { m with registry }) := by
  induction streams generalizing m with
  | nil => exact ⟨m.registry, (List.append_nil _).symm, rfl⟩
  | cons stream rest ih =>
    obtain ⟨media, codec⟩ := vorbis stream (List.mem_cons_self ..)
    have new : m.track? stream.index = none := by
      rw [track?, List.find?_eq_none]
      intro track member same
      obtain ⟨i, found, -⟩ := exists_of_mem_tracksOf member
      have earlier : track.stream.index ∈ m.registry.streams.map Stream.index :=
        List.mem_map_of_mem (List.mem_of_getElem? found)
      rw [List.map_append, List.map_cons, List.nodup_append] at distinct
      exact distinct.2.2 _ earlier _ (List.mem_cons_self ..) (beq_iff_eq.mp same)
    obtain ⟨registry, streams, added⟩ := addStream_eq_ok unwritten media codec new
    obtain ⟨registry', streams', others⟩ := ih (m := { m with registry }) unwritten
      (fun other member => vorbis other (List.mem_cons_of_mem _ member))
      (by rwa [streams, List.append_assoc, List.singleton_append])
    refine ⟨registry', ?_, ?_⟩
    · rw [streams', streams, List.append_assoc, List.singleton_append]
    · rw [addStreams, added]
      exact others

/-! ## Taking packets -/

/-- Packets have been taken. Behind the head of the file stand the clusters that are closed; with
the one that is being filled, they are what filling clusters with the packets gives. -/
structure Stores (m : Muxer) (tree : FileTree) (location : Location) (head : Head)
    (entries : List Block) : Prop where
  filled : ∃ (closed : List (Cluster × List Block)) (run : List Block),
    m.HasWritten tree location head (closed.map Prod.fst) ∧
      (closed.map Prod.snd).flatten ++ run = entries ∧
      (m.cluster.blocks = [] ∧ closed = [] ∧ run = [] ∨
        m.cluster.blocks ≠ [] ∧ Fills (closed ++ [(m.cluster, run)]))
  count : m.blocksWritten = entries.length

variable {m : Muxer} {tree : FileTree} {location : Location} {head : Head} {entries : List Block}

/-- Taking a packet writes nothing yet. -/
theorem HasWritten.push {closed : List Cluster} (h : m.HasWritten tree location head closed)
    (track time : Nat) (data : Bytes) :
    (m.push track time data).HasWritten tree location head closed :=
  ⟨h.headerWritten, h.tracks, h.segment, h.stored, h.cues⟩

/-- A packet that the cluster is open to joins it. -/
theorem Stores.push (h : m.Stores tree location head entries) {entry : Block}
    (open_ : m.cluster.isClosedTo entry.offset = false) :
    (m.push entry.track entry.offset entry.data).Stores tree location head
      (entries ++ [entry]) := by
  obtain ⟨closed, run, written, all, state⟩ := h.filled
  refine ⟨⟨closed, run ++ [entry], written.push .., by rw [← all, List.append_assoc], .inr ?_⟩, ?_⟩
  · refine ⟨Cluster.take_ne_nil m.cluster entry, ?_⟩
    rcases state with ⟨empty, rfl, rfl⟩ | ⟨-, filled⟩
    · -- The first packet of all. What time the cluster had does not matter.
      have first : m.cluster.take entry = ({} : Cluster).take entry := by
        rw [Cluster.take_of_isEmpty empty, Cluster.take_of_isEmpty rfl]
      show Fills [(m.cluster.take entry, [entry])]
      rw [first]
      exact .start .nil entry (by simp)
    · exact filled.join entry open_
  · show m.blocksWritten + 1 = _
    rw [h.count, List.length_append, List.length_singleton]

/-- A packet that the cluster is closed to starts another one. -/
theorem Stores.restart (h : m.Stores tree location head entries) {entry : Block}
    (closed_ : m.cluster.isClosedTo entry.offset = true) :
    ∃ m' tree', m.flushCluster tree = (.ok (), m', tree') ∧
      (m'.push entry.track entry.offset entry.data).Stores tree' location head
        (entries ++ [entry]) ∧
      tree.ChangesOnly location tree' := by
  obtain ⟨closed, run, written, all, ⟨empty, -⟩ | ⟨some_, filled⟩⟩ := h.filled
  · simp [Cluster.isClosedTo, empty] at closed_
  · obtain ⟨m', tree', flushed, written', emptied, count, changed⟩ := written.flushCluster some_
    refine ⟨m', tree', flushed,
      ⟨⟨closed ++ [(m.cluster, run)], [entry], ?_, ?_, .inr ?_⟩, ?_⟩, changed⟩
    · rw [List.map_append]
      exact written'.push ..
    · rw [List.map_append, List.flatten_append, ← all]
      simp
    · refine ⟨Cluster.take_ne_nil m'.cluster entry, ?_⟩
      have fresh : m'.cluster.take entry = ({} : Cluster).take entry := by
        rw [emptied, Cluster.take_of_isEmpty rfl, Cluster.take_of_isEmpty rfl]
      show Fills (closed ++ [(m.cluster, run)] ++ [(m'.cluster.take entry, [entry])])
      rw [fresh]
      exact filled.start entry (by simpa using closed_)
    · show m'.blocksWritten + 1 = _
      rw [count, h.count, List.length_append, List.length_singleton]

/-- A packet of a stream that has a track is taken. -/
theorem Stores.writePacket (h : m.Stores tree location head entries) {packet : Packet}
    {track : Track} (known : m.track? packet.stream = some track) (entry : Block)
    (number : entry.track = track.number)
    (time : entry.offset = milliseconds track.stream.timeBase packet.pts)
    (data : entry.data = packet.data) :
    ∃ m' tree', m.writePacket packet tree = (.ok (), m', tree') ∧
      m'.Stores tree' location head (entries ++ [entry]) ∧ tree.ChangesOnly location tree' := by
  obtain ⟨closed, run, written, -, -⟩ := h.filled
  cases closed_ : m.cluster.isClosedTo entry.offset with
  | false =>
    refine ⟨m.push entry.track entry.offset entry.data, tree, ?_, h.push closed_, .refl ..⟩
    rw [time] at closed_
    simp only [Muxer.writePacket, written.headerWritten, not_true, if_false, number?_registry,
      stream?_registry, known, Option.map_some, closed_, Bool.false_eq_true, number, time, data]
  | true =>
    obtain ⟨m', tree', flushed, stores, changed⟩ := h.restart closed_
    refine ⟨m'.push entry.track entry.offset entry.data, tree', ?_, stores, changed⟩
    rw [time] at closed_
    simp only [Muxer.writePacket, written.headerWritten, not_true, if_false, number?_registry,
      stream?_registry, known, Option.map_some, closed_, if_true, flushed, number, time, data]

/-- Packets of streams that have tracks are taken, one after the other. -/
theorem Stores.writePackets {streams : List Stream} (tracks : head.tracks = tracksOf streams)
    {packets : List Packet}
    (known : ∀ packet ∈ packets, ∃ stream ∈ streams, stream.index = packet.stream)
    (h : m.Stores tree location head entries) :
    ∃ m' tree' further, m.writePackets tree packets = (.ok (), m', tree') ∧
      m'.Stores tree' location head (entries ++ further) ∧
      List.Forall₂ (IsStored streams) packets further := by
  induction packets generalizing m tree entries with
  | nil => exact ⟨m, tree, [], rfl, by rwa [List.append_nil], .nil⟩
  | cons packet rest ih =>
    obtain ⟨i, stream, place, index, found⟩ :=
      exists_find?_tracksOf (known packet (List.mem_cons_self ..))
    have track : m.track? packet.stream = some { number := i + 1, stream } := by
      obtain ⟨closed, run, written, -, -⟩ := h.filled
      rw [track?, written.tracks, tracks]
      exact found
    obtain ⟨m₁, tree₁, one, stores, -⟩ := h.writePacket track
      ⟨i + 1, milliseconds stream.timeBase packet.pts, packet.data⟩ rfl rfl rfl
    obtain ⟨m', tree', further, others, stores', are⟩ :=
      ih (fun other later => known other (List.mem_cons_of_mem _ later)) stores
    refine ⟨m', tree', ⟨i + 1, milliseconds stream.timeBase packet.pts, packet.data⟩ :: further,
      ?_, ?_, .cons ⟨⟨i, stream, place, index, rfl, rfl⟩, rfl⟩ are⟩
    · rw [Muxer.writePackets, one]
      exact others
    · rwa [List.append_assoc, List.singleton_append] at stores'

/-- With the trailer the clusters are complete, and partition the packets. -/
theorem Stores.writeTrailer (h : m.Stores tree location head entries) :
    ∃ m' tree' clusters, m.writeTrailer tree = (.ok (), m', tree') ∧
      m'.blocksWritten = entries.length ∧
      tree'.node? location = some (.file (head.fileBytes clusters)) ∧
      IsPartition clusters entries ∧ tree.ChangesOnly location tree' := by
  obtain ⟨closed, run, written, all, ⟨empty, rfl, rfl⟩ | ⟨some_, filled⟩⟩ := h.filled
  · obtain ⟨m', tree', finished, -, count, stands, changed⟩ :=
      written.writeTrailer_of_isEmpty empty
    refine ⟨m', tree', [], finished, count.trans h.count, stands, ?_, changed⟩
    rw [← all]
    exact Fills.nil.isPartition
  · obtain ⟨m₁, tree₁, flushed, written', emptied, count₁, changed₁⟩ := written.flushCluster some_
    have empty : m₁.cluster.blocks = [] := by rw [emptied]
    obtain ⟨m', tree', finished, -, count, stands, changed⟩ :=
      written'.writeTrailer_of_isEmpty empty
    refine ⟨m', tree', _, (writeTrailer_of_flushCluster flushed empty).trans finished, ?_, stands,
      ?_, changed₁.trans changed⟩
    · rw [count, count₁, h.count]
    · have partition := filled.isPartition
      rw [List.map_append, List.map_append, List.flatten_append] at partition
      rw [← all]
      simpa using partition

/-! ## The whole course -/

/-- A file can be made of streams that can be written and any packets of theirs. Its clusters are
filled with the packets. -/
theorem writeFile_eq_ok (docType : DocType) {path : Path} {streams : List Stream}
    {packets : List Packet} (writable : Writable streams packets) {tree created : FileTree}
    {location : Location} (made : tree.create path = .ok (location, created)) :
    ∃ m final, writeFile docType path streams packets tree = (.ok (), m, final) ∧
      m.blocksWritten = packets.length ∧
      ∃ (head : Head) (clusters : List Cluster) (entries : List Block),
        head.docType = docType ∧ head.tracks = tracksOf streams ∧
          final.node? location = some (.file (head.fileBytes clusters)) ∧
          List.Forall₂ (IsStored streams) packets entries ∧ IsPartition clusters entries := by
  have described : ∀ track ∈ tracksOf streams,
      track.stream.audio.isSome = true ∧ track.stream.extradata.isSome = true := by
    intro track member
    obtain ⟨i, place, -⟩ := exists_of_mem_tracksOf member
    exact writable.described track.stream (List.mem_of_getElem? place)
  obtain ⟨list, encodes⟩ := exists_encodeTracks described
  let head : Head := { docType, tracks := tracksOf streams, list, encodes }
  obtain ⟨opened, empty⟩ := create_eq_ok (m := { docType }) rfl made
  obtain ⟨registry, listed, added⟩ := addStreams_eq_ok
    (m := { docType, output := some { location } }) rfl streams writable.vorbis writable.distinct
  have tracked : tracksOf streams ≠ [] := by
    rw [tracksOf, ne_eq, List.mapIdx_eq_nil_iff]
    exact writable.some_
  have tracks : registry.tracks = tracksOf streams := congrArg tracksOf listed
  rw [← tracks] at tracked
  obtain ⟨m₁, tree₁, headed, written, fresh, none, -⟩ := hasWritten_writeHeader
    (m := { docType, output := some { location }, registry })
    rfl (show docType = head.docType from rfl) tracks tracked rfl empty rfl
  have start : m₁.Stores tree₁ location head [] :=
    ⟨⟨[], [], written, rfl, .inl ⟨by rw [fresh], rfl, rfl⟩⟩, none⟩
  obtain ⟨m₂, tree₂, entries, taken, stores, are⟩ := start.writePackets rfl writable.known
  obtain ⟨m, final, clusters, finished, count, stands, partition, -⟩ := stores.writeTrailer
  rw [List.nil_append] at count partition
  refine ⟨m, final, ?_, count.trans are.length_eq.symm, head, clusters, entries, rfl, rfl, stands,
    are, partition⟩
  simp only [writeFile, opened, added, headed, taken, finished]

/-- **Clusters partition the packets.** Whatever the packets of a file and the order of their times,
if streams and packets can be stored and the file can be created, all operations succeed. The
clusters of the file keep their bounds, and their blocks are the packets, one for each and in order.
The file has a byte for every block that is counted, besides the packets. -/
theorem writeFile_partitions {docType : DocType} {path : Path} {streams : List Stream}
    {packets : List Packet} (muxable : Muxable streams packets) {tree created : FileTree}
    {location : Location} (made : tree.create path = .ok (location, created)) :
    ∃ m final, writeFile docType path streams packets tree = (.ok (), m, final) ∧
      m.blocksWritten = packets.length ∧
      ∃ (head : Head) (clusters : List Cluster) (entries : List Block),
        head.docType = docType ∧ head.tracks = tracksOf streams ∧
          final.node? location = some (.file (head.fileBytes clusters)) ∧
          IsFile head.tracks clusters (head.cues clusters) (head.fileBytes clusters) ∧
          m.blocksWritten + (packets.map Packet.size).sum ≤ (head.fileBytes clusters).length ∧
          List.Forall₂ (IsEntry streams) packets entries ∧ IsPartition clusters entries := by
  obtain ⟨m, final, finished, count, head, clusters, entries, docType, tracks, stands, are,
    partition⟩ := writeFile_eq_ok docType muxable.toWritable made
  have layout := head.isFile_fileBytes partition.isBounded
  have sent := (List.forall₂_and_left packets entries).mpr ⟨fun _ member => member, are⟩
  refine ⟨m, final, finished, count, head, clusters, entries, docType, tracks, stands, layout, ?_,
    sent.imp fun packet _ both => both.2.isEntry (muxable.inRange packet both.1), partition⟩
  rw [count, ← sum_room are]
  exact partition.room_le layout

/-- Two streams whose indices are not their positions, and whose ticks differ. -/
def mixedStreams : List Stream :=
  [{ Stream.ofAudio 7 "vorbis" { rate := 48000, channels := 2 } with extradata := some [2, 1, 1] },
    { Stream.ofAudio 3 "vorbis" { rate := 8000, channels := 1 } with
      timeBase := ⟨1, 1000⟩, extradata := some [2, 1, 1] }]

/-- Packets at 10 s, 0.04 s, 15.001 s and an unknown time. -/
def mixedPackets : List Packet :=
  [(Packet.audio 7 [1, 2]).stamped ⟨480000⟩, (Packet.audio 3 [3]).stamped ⟨40⟩,
    (Packet.audio 3 []).stamped ⟨15001⟩, Packet.audio 7 [4]]

theorem muxable_mixed : Muxable mixedStreams mixedPackets := by
  refine ⟨⟨by decide, by decide, by decide, by decide, by decide⟩, ?_⟩
  intro packet sent stream given _ _ _
  simp only [mixedPackets, mixedStreams, List.mem_cons, List.not_mem_nil, or_false] at sent given
  rcases sent with rfl | rfl | rfl | rfl
  all_goals
    rcases given with rfl | rfl
    · exact ⟨by decide +kernel, by decide +kernel⟩
    · exact ⟨by decide +kernel, by decide +kernel⟩

theorem writeFile_partitions_mixed :
    Muxable mixedStreams mixedPackets ∧
      FileTree.create {} (.ofText "mixed.webm") =
        .ok (["mixed.webm"], FileTree.put {} ["mixed.webm"] (.file [])) ∧
      ∃ m final, writeFile .webm (.ofText "mixed.webm") mixedStreams mixedPackets {} =
          (.ok (), m, final) ∧
        m.blocksWritten = 4 ∧
        ∃ (head : Head) (clusters : List Cluster) (entries : List Block),
          head.docType = .webm ∧ head.tracks = tracksOf mixedStreams ∧
            final.node? ["mixed.webm"] = some (.file (head.fileBytes clusters)) ∧
            IsFile head.tracks clusters (head.cues clusters) (head.fileBytes clusters) ∧
            m.blocksWritten + (mixedPackets.map Packet.size).sum ≤
              (head.fileBytes clusters).length ∧
            List.Forall₂ (IsEntry mixedStreams) mixedPackets entries ∧
            IsPartition clusters entries :=
  ⟨muxable_mixed, rfl, writeFile_partitions muxable_mixed rfl⟩

end Muxer

end VorbisTrack.Matroska
