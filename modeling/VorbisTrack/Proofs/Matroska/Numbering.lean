import VorbisTrack.Proofs.Matroska.CallOrder

/-!
# Numbers of tracks

A muxer finds the number of a packet's track in one list and the time base of its stream in another.
Whatever calls are made to it, and whether they are accepted or not, both lists tell of the streams
that were added, in order, and their tracks are numbered from one. So both lookups give the same
stream, and the blocks of the cluster that is being filled stand for the last packets that were
taken, under the numbers and at the times of their streams (`Run.afterAll_keepsNumbers`).

Beside the run stand the calls that were accepted (`Run.accepted`). What one call does to the blocks
that wait is said by `Muxer.Waits.perform`.
-/

set_option autoImplicit false

namespace VorbisTrack.Matroska

/-! ## Tracks of a registry -/

namespace Registry

variable {r : Registry}

theorem keys_eq (r : Registry) : r.numbers.map Prod.fst = r.streams.map Stream.index := by
  calc r.numbers.map Prod.fst
      = r.tracks.map fun track => track.stream.index := by
        rw [r.numbered, List.map_map]
        rfl
    _ = r.streams.map Stream.index := by
        rw [← r.map_stream_tracks, List.map_map]
        rfl

theorem values_eq (r : Registry) :
    r.numbers.map Prod.snd = List.range' 1 r.streams.length := by
  rw [← r.map_number_tracks, tracks, tracksOf]
  apply List.ext_getElem
  · rw [List.length_map, List.length_mapIdx, List.length_range']
  · intro i _ _
    rw [List.getElem_map, List.getElem_mapIdx, List.getElem_range', Nat.one_mul, Nat.add_comm]

/-- A stream finds itself, and the number that its place has. -/
theorem lookups_eq {i : Nat} {stream : Stream} (place : r.streams[i]? = some stream) :
    r.number? stream.index = some (i + 1) ∧ r.stream? stream.index = some stream := by
  have member : { number := i + 1, stream } ∈ r.tracks := by
    refine List.mem_of_getElem? (i := i) ?_
    rw [tracks, tracksOf, List.getElem?_mapIdx, place]
    rfl
  have found := track?_stream member
  rw [number?_eq, stream?_eq, found]
  exact ⟨rfl, rfl⟩

end Registry

/-- A packet is stored in the same way when further streams have been added. -/
theorem IsStored.append {streams : List Stream} {packet : Packet} {entry : Block}
    (h : IsStored streams packet entry) (more : List Stream) :
    IsStored (streams ++ more) packet entry := by
  obtain ⟨i, stream, place, found⟩ := h.track
  have within : i < streams.length := (List.getElem?_eq_some_iff.mp place).1
  exact ⟨⟨i, stream, by rw [List.getElem?_append_left within, place], found⟩, h.data⟩

namespace Muxer

variable {m m' : Muxer} {tree tree' : FileTree} {packets : List Packet}

/-! ## Blocks that wait -/

/-- No block waits after the cluster has been closed. -/
theorem flushCluster_eq {result : Except Failure Unit}
    (flushed : m.flushCluster tree = (result, m', tree')) :
    m'.cluster.blocks = [] ∧ m'.registry = m.registry := by
  rcases m.flushCluster_cases tree with
    ⟨empty, same⟩ | ⟨-, -, same⟩ | ⟨_, _, -, -, -, same⟩
  all_goals
    rw [same] at flushed
    cases flushed
  · exact ⟨empty, rfl⟩
  · exact ⟨rfl, rfl⟩
  · exact ⟨rfl, rfl⟩

/-- The blocks of the cluster that is being filled stand for packets. -/
def Waits (m : Muxer) (packets : List Packet) : Prop :=
  ∃ entries, List.Forall₂ (IsStored m.registry.streams) packets entries ∧
    (m.cluster.blocks = [] ∧ packets = [] ∨ m.cluster.blocks ≠ [] ∧ m.cluster.Carries entries)

theorem waits_nil (empty : m.cluster.blocks = []) : m.Waits [] :=
  ⟨[], .nil, .inl ⟨empty, rfl⟩⟩

theorem Waits.append (h : m.Waits packets) {more : List Stream}
    (streams : m'.registry.streams = m.registry.streams ++ more) (same : m'.cluster = m.cluster) :
    m'.Waits packets := by
  obtain ⟨entries, stored, state⟩ := h
  refine ⟨entries, ?_, by rwa [same]⟩
  rw [streams]
  exact stored.imp fun _ _ is => is.append more

theorem Waits.same (h : m.Waits packets) (registry : m'.registry = m.registry)
    (same : m'.cluster = m.cluster) : m'.Waits packets :=
  h.append (by rw [registry, List.append_nil]) same

/-- A packet that is taken waits behind the others. -/
theorem Waits.push (h : m.Waits packets) {packet : Packet} {entry : Block}
    (stored : IsStored m.registry.streams packet entry) :
    (m.push entry.track entry.offset entry.data).Waits (packets ++ [packet]) := by
  obtain ⟨entries, are, ⟨empty, rfl⟩ | ⟨some_, carries⟩⟩ := h
  · refine ⟨[entry], .cons stored .nil, .inr ⟨Cluster.take_ne_nil m.cluster entry, ?_⟩⟩
    have first : m.cluster.take entry = ({} : Cluster).take entry := by
      rw [Cluster.take_of_isEmpty empty, Cluster.take_of_isEmpty rfl]
    show (m.cluster.take entry).Carries [entry]
    rw [first]
    exact Cluster.carries_singleton entry
  · exact ⟨entries ++ [entry], List.rel_append are (.cons stored .nil),
      .inr ⟨Cluster.take_ne_nil m.cluster entry, carries.take some_ entry⟩⟩

theorem writeHeader_same (m : Muxer) (tree : FileTree) :
    (m.writeHeader tree).2.1.registry = m.registry ∧
      (m.writeHeader tree).2.1.cluster = m.cluster := by
  unfold writeHeader
  split
  · exact ⟨rfl, rfl⟩
  · split
    · exact ⟨rfl, rfl⟩
    · split <;> exact ⟨rfl, rfl⟩

/-- Whether the trailer is written or not, no block waits after it. -/
theorem writeTrailer_eq {result : Except Failure Unit}
    (written : m.writeTrailer tree = (result, m', tree')) :
    m'.cluster.blocks = [] ∧ m'.registry = m.registry := by
  rcases m.writeTrailer_cases tree with
    ⟨_, _, _, flushed, same⟩ | ⟨_, _, flushed, -, same⟩ | ⟨_, _, _, _, flushed, -, -, same⟩
  all_goals
    have emptied := flushCluster_eq flushed
    rw [same] at written
    cases written
    exact emptied

def Operation.stream? : Operation → Option Stream
  | .addStream stream => some stream
  | _ => none

def Operation.packet? : Operation → Option Packet
  | .writePacket packet => some packet
  | _ => none

end Muxer

namespace Run

variable {r : Run} {calls : List Muxer.Operation} {m m' : Muxer} {tree tree' : FileTree}
  {progress : Progress}

/-- The call, if it is accepted. -/
def told (r : Run) (operation : Muxer.Operation) : List Muxer.Operation :=
  if (r.muxer.perform r.tree operation).1.isOk then [operation] else []

/-- Those of further calls that are accepted, in order. -/
def accepted (r : Run) : List Muxer.Operation → List Muxer.Operation
  | [] => []
  | operation :: rest => r.told operation ++ (r.after operation).accepted rest

theorem told_of_ok (operation : Muxer.Operation)
    (accepted : m.perform tree operation = (.ok (), m', tree')) :
    told ⟨m, tree, progress⟩ operation = [operation] := by
  rw [told, accepted]
  rfl

theorem told_of_error (operation : Muxer.Operation) {failure : Failure}
    (refused : m.perform tree operation = (.error failure, m', tree')) :
    told ⟨m, tree, progress⟩ operation = [] := by
  rw [told, refused]
  rfl

/-- The streams are those that were added, and the last of the packets that were taken wait. -/
structure Follows (r : Run) (calls : List Muxer.Operation) : Prop where
  streams : r.muxer.registry.streams = calls.filterMap Muxer.Operation.stream?
  waits : ∃ earlier pending, calls.filterMap Muxer.Operation.packet? = earlier ++ pending ∧
    r.muxer.Waits pending

/-- A call that touches neither streams nor blocks, whether it is accepted or not. -/
theorem Follows.same (h : Follows ⟨m, tree, progress⟩ calls) {progress' : Progress}
    (registry : m'.registry = m.registry) (cluster : m'.cluster = m.cluster)
    {more : List Muxer.Operation} (streams : more.filterMap Muxer.Operation.stream? = [])
    (packets : more.filterMap Muxer.Operation.packet? = []) :
    Follows ⟨m', tree', progress'⟩ (calls ++ more) := by
  obtain ⟨earlier, pending, taken, waits⟩ := h.waits
  refine ⟨?_, earlier, pending, ?_, waits.same registry cluster⟩
  · rw [List.filterMap_append, streams, List.append_nil]
    exact (congrArg Registry.streams registry).trans h.streams
  · rw [List.filterMap_append, packets, List.append_nil, taken]

/-- A call after which no block waits. -/
theorem Follows.emptied (h : Follows ⟨m, tree, progress⟩ calls) {progress' : Progress}
    (registry : m'.registry = m.registry) (empty : m'.cluster.blocks = [])
    {more : List Muxer.Operation} (streams : more.filterMap Muxer.Operation.stream? = []) :
    Follows ⟨m', tree', progress'⟩ (calls ++ more) := by
  refine ⟨?_, (calls ++ more).filterMap Muxer.Operation.packet?, [], (List.append_nil _).symm,
    Muxer.waits_nil empty⟩
  rw [List.filterMap_append, streams, List.append_nil]
  exact (congrArg Registry.streams registry).trans h.streams

/-- A stream that is added comes after the others. -/
theorem Follows.addStream (h : Follows ⟨m, tree, progress⟩ calls) {progress' : Progress}
    {stream : Stream} (streams : m'.registry.streams = m.registry.streams ++ [stream])
    (cluster : m'.cluster = m.cluster) :
    Follows ⟨m', tree', progress'⟩ (calls ++ [.addStream stream]) := by
  obtain ⟨earlier, pending, taken, waits⟩ := h.waits
  refine ⟨?_, earlier, pending, ?_, waits.append streams cluster⟩
  · rw [List.filterMap_append]
    exact streams.trans (congrArg (· ++ [stream]) h.streams)
  · rw [List.filterMap_append, taken]
    exact List.append_nil _

/-- A packet that is taken waits behind the others, or alone if the cluster was closed to it. -/
theorem Follows.writePacket (h : Follows ⟨m, tree, progress⟩ calls) {progress' : Progress}
    {packet : Packet} {track : Track} (known : m.track? packet.stream = some track)
    (before : m' = m ∨ m'.cluster.blocks = [] ∧ m'.registry = m.registry) :
    Follows
      ⟨m'.push track.number (milliseconds track.stream.timeBase packet.pts) packet.data, tree',
        progress'⟩
      (calls ++ [.writePacket packet]) := by
  obtain ⟨earlier, pending, taken, waits⟩ := h.waits
  have streams : (calls ++ [Muxer.Operation.writePacket packet]).filterMap Muxer.Operation.stream? =
      calls.filterMap Muxer.Operation.stream? := by
    rw [List.filterMap_append]
    exact List.append_nil _
  have packets : (calls ++ [Muxer.Operation.writePacket packet]).filterMap
      Muxer.Operation.packet? = earlier ++ pending ++ [packet] := by
    rw [List.filterMap_append, taken]
    rfl
  have stored (registry : m'.registry = m.registry) : IsStored m'.registry.streams packet
      ⟨track.number, milliseconds track.stream.timeBase packet.pts, packet.data⟩ := by
    obtain ⟨i, place, number⟩ := exists_of_mem_tracksOf (List.mem_of_find?_eq_some known)
    have same := List.find?_some known
    rw [registry]
    exact ⟨⟨i, track.stream, place, beq_iff_eq.mp same, number, rfl⟩, rfl⟩
  rcases before with rfl | ⟨empty, registry⟩
  · exact ⟨h.streams.trans streams.symm, earlier, pending ++ [packet],
      packets.trans (List.append_assoc ..), waits.push (stored rfl)⟩
  · refine ⟨?_, earlier ++ pending, [packet], packets, ?_⟩
    · exact ((congrArg Registry.streams registry).trans h.streams).trans streams.symm
    · exact (Muxer.waits_nil empty).push (stored registry)

/-- A call that is refused changes neither streams nor blocks, or loses the blocks that wait. -/
theorem Follows.refused (h : Follows ⟨m, tree, progress⟩ calls) (operation : Muxer.Operation)
    {failure : Failure} (refused : m.perform tree operation = (.error failure, m', tree'))
    (registry : m'.registry = m.registry)
    (cluster : m'.cluster = m.cluster ∨ m'.cluster.blocks = []) :
    (after ⟨m, tree, progress⟩ operation).Follows
      (calls ++ told ⟨m, tree, progress⟩ operation) := by
  rw [after_of_error operation refused, told_of_error operation refused]
  rcases cluster with same | empty
  · exact h.same registry same rfl rfl
  · exact h.emptied registry empty rfl

theorem Follows.after (h : r.Follows calls) (operation : Muxer.Operation) :
    (r.after operation).Follows (calls ++ r.told operation) := by
  obtain ⟨m, tree, progress⟩ := r
  cases operation with
  | create path =>
    cases made : tree.create path with
    | error fault => exact h.refused (.create path) (Muxer.create_of_error made) rfl (.inl rfl)
    | ok place =>
      have created : m.perform tree (.create path) =
          (.ok (), { m with output := some { location := place.1 } }, m.release place.2) := by
        rw [Muxer.perform, Muxer.create, made]
      rw [after_of_ok _ created, told_of_ok _ created]
      refine h.same ?_ ?_ ?_ ?_ <;> rfl
  | addStream stream =>
    rcases m.addStream_cases stream with
      ⟨failure, refused⟩ | ⟨registry, -, -, -, -, streams, added⟩
    · have refused : m.perform tree (.addStream stream) = (.error failure, m, tree) := by
        rw [Muxer.perform, refused]
        rfl
      exact h.refused (.addStream stream) refused rfl (.inl rfl)
    · have added : m.perform tree (.addStream stream) = (.ok (), { m with registry }, tree) := by
        rw [Muxer.perform, added]
        rfl
      rw [after_of_ok _ added, told_of_ok _ added]
      exact h.addStream streams rfl
  | writeHeader =>
    obtain ⟨registry, cluster⟩ := m.writeHeader_same tree
    cases result : m.writeHeader tree with
    | mk verdict reply =>
      obtain ⟨m', tree'⟩ := reply
      rw [result] at registry cluster
      cases verdict with
      | error failure => exact h.refused .writeHeader result registry (.inl cluster)
      | ok =>
        rw [after_of_ok .writeHeader result, told_of_ok .writeHeader result]
        exact h.same registry cluster rfl rfl
  | writePacket packet =>
    rcases m.writePacket_cases packet tree with
      ⟨failure, -, refused⟩ | ⟨failure, m', tree', flushed, refused⟩ |
        ⟨track, m', tree', known, before, taken⟩
    · exact h.refused (.writePacket packet) refused rfl (.inl rfl)
    · obtain ⟨empty, registry⟩ := Muxer.flushCluster_eq flushed
      exact h.refused (.writePacket packet) refused registry (.inr empty)
    · rw [after_of_ok (.writePacket packet) taken, told_of_ok (.writePacket packet) taken]
      exact h.writePacket known (before.imp (·.2.1) (Muxer.flushCluster_eq ·.2))
  | writeTrailer =>
    cases result : m.writeTrailer tree with
    | mk verdict reply =>
      obtain ⟨m', tree'⟩ := reply
      obtain ⟨empty, registry⟩ := Muxer.writeTrailer_eq result
      cases verdict with
      | error failure => exact h.refused .writeTrailer result registry (.inr empty)
      | ok =>
        rw [after_of_ok .writeTrailer result, told_of_ok .writeTrailer result]
        exact h.emptied registry empty rfl

theorem Follows.afterAll (h : r.Follows calls) (operations : List Muxer.Operation) :
    (r.afterAll operations).Follows (calls ++ r.accepted operations) := by
  induction operations generalizing r calls with
  | nil =>
    rw [accepted, List.append_nil]
    exact h
  | cons operation rest ih =>
    rw [accepted, ← List.append_assoc]
    exact ih (h.after operation)

theorem follows_start (docType : DocType) (tree : FileTree) : (start docType tree).Follows [] :=
  ⟨rfl, [], [], rfl, Muxer.waits_nil rfl⟩

/-! ## Failures -/

end Run

/-- The number or the stream for an index is missing in one list, although the other has it. -/
def isMismatch : Failure → Bool
  | .unnumberedStream | .streamNotFound => true
  | _ => false

theorem isMismatch_of_entry {track : Track} {failure : Failure}
    (failed : track.entry = .error failure) : isMismatch failure = false := by
  unfold Track.entry at failed
  split at failed
  · cases failed
    rfl
  · cases failed
    rfl
  · cases failed

theorem isMismatch_of_encodeTracks {tracks : List Track} {failure : Failure}
    (failed : encodeTracks tracks = .error failure) : isMismatch failure = false := by
  suffices entries : ∀ failure, tracks.mapM Track.entry = .error failure →
      isMismatch failure = false by
    cases made : tracks.mapM Track.entry with
    | ok _ =>
      rw [encodeTracks, made] at failed
      cases failed
    | error other =>
      rw [encodeTracks, made] at failed
      cases failed
      exact entries _ made
  clear failed failure
  intro failure failed
  induction tracks with
  | nil => cases failed
  | cons track rest ih =>
    rw [List.mapM_cons] at failed
    cases entry : track.entry with
    | error other =>
      rw [entry] at failed
      cases failed
      exact isMismatch_of_entry entry
    | ok bytes =>
      rw [entry] at failed
      cases others : rest.mapM Track.entry with
      | ok _ =>
        rw [others] at failed
        cases failed
      | error other =>
        rw [others] at failed
        cases failed
        exact ih others

namespace Muxer

variable {m m' : Muxer} {tree tree' : FileTree} {failure : Failure}

theorem eq_of_flushCluster (failed : m.flushCluster tree = (.error failure, m', tree')) :
    failure = .noOutput := by
  rcases m.flushCluster_cases tree with
    ⟨-, same⟩ | ⟨-, -, same⟩ | ⟨_, _, -, -, -, same⟩
  all_goals
    rw [same] at failed
    cases failed
  rfl

/-- A stream is refused for one of three reasons, and changes nothing then. -/
theorem addStream_of_error {stream : Stream}
    (refused : m.addStream stream = (.error failure, m')) :
    m' = m ∧
      (m.headerWritten = true ∧ failure = .streamsAfterHeader ∨
        (stream.media ≠ .audio ∨ stream.codec ≠ "vorbis") ∧
          failure = .notVorbisAudio stream.media stream.codec ∨
        stream.index ∈ m.registry.streams.map Stream.index ∧
          failure = .duplicateStream stream.index) := by
  unfold addStream at refused
  split at refused
  · next written =>
    cases refused
    exact ⟨rfl, .inl ⟨written, rfl⟩⟩
  · split at refused
    · next other =>
      cases refused
      exact ⟨rfl, .inr (.inl ⟨other, rfl⟩)⟩
    · split at refused
      · next unchanged =>
        cases refused
        refine ⟨rfl, .inr (.inr ⟨?_, rfl⟩)⟩
        rcases m.registry.add?_cases stream with ⟨taken, -⟩ | ⟨-, _, added, -⟩
        · by_contra new
          rw [Registry.track?_eq_none_iff.mpr new] at taken
          cases taken
        · rw [unchanged] at added
          cases added
      · cases refused

/-- No call fails because the two lists tell different things. -/
theorem isMismatch_of_perform (operation : Operation)
    (failed : m.perform tree operation = (.error failure, m', tree')) :
    isMismatch failure = false := by
  cases operation with
  | create path =>
    rw [perform, create] at failed
    split at failed
    · cases failed
      rfl
    · cases failed
  | addStream stream =>
    cases result : m.addStream stream with
    | mk verdict after =>
      rw [perform, result] at failed
      cases verdict with
      | ok _ => cases failed
      | error other =>
        cases failed
        rcases (addStream_of_error result).2 with ⟨-, rfl⟩ | ⟨-, rfl⟩ | ⟨-, rfl⟩ <;> rfl
  | writeHeader =>
    rw [perform, writeHeader, encode_registry] at failed
    split at failed
    · cases failed
      rfl
    · split at failed
      · cases failed
        rfl
      · split at failed
        · next unlisted =>
          cases failed
          exact isMismatch_of_encodeTracks unlisted
        · cases failed
          rfl
        · simp only [Prod.mk.injEq, reduceCtorEq, false_and] at failed
  | writePacket packet =>
    rcases m.writePacket_cases packet tree with
      ⟨_, reason, refused⟩ | ⟨_, _, _, lost, refused⟩ | ⟨_, _, _, -, -, taken⟩
    · cases failed.symm.trans refused
      rcases reason with rfl | rfl <;> rfl
    · cases failed.symm.trans refused
      rw [eq_of_flushCluster lost]
      rfl
    · cases failed.symm.trans taken
  | writeTrailer =>
    rcases m.writeTrailer_cases tree with
      ⟨_, _, _, lost, refused⟩ | ⟨_, _, -, -, refused⟩ | ⟨_, _, _, _, -, -, -, written⟩
    · cases failed.symm.trans refused
      rw [eq_of_flushCluster lost]
      rfl
    · cases failed.symm.trans refused
      rfl
    · cases failed.symm.trans written

end Muxer

/-! ## Any calls -/

namespace Run

/-- The muxer tells of the streams that were added by calls, and of the packets that were taken. -/
structure KeepsNumbers (r : Run) (calls : List Muxer.Operation) : Prop where
  /-- The streams are those of the calls, in order. -/
  streams : r.muxer.registry.streams = calls.filterMap Muxer.Operation.stream?
  /-- There is a number for the index of every stream, and for no other. -/
  keys : r.muxer.registry.numbers.map Prod.fst = r.muxer.registry.streams.map Stream.index
  distinct : (r.muxer.registry.streams.map Stream.index).Nodup
  /-- The numbers count from one in the order of the streams. -/
  values : r.muxer.registry.numbers.map Prod.snd =
    List.range' 1 r.muxer.registry.streams.length
  /-- By its index a stream is found, and the number that its place has. -/
  lookups : ∀ i stream, r.muxer.registry.streams[i]? = some stream →
    r.muxer.registry.number? stream.index = some (i + 1) ∧
      r.muxer.registry.stream? stream.index = some stream
  /-- A stream is refused for one of three reasons, and changes nothing then. -/
  refused : ∀ stream failure m, r.muxer.addStream stream = (.error failure, m) →
    m = r.muxer ∧
      (r.muxer.headerWritten = true ∧ failure = .streamsAfterHeader ∨
        (stream.media ≠ .audio ∨ stream.codec ≠ "vorbis") ∧
          failure = .notVorbisAudio stream.media stream.codec ∨
        stream.index ∈ r.muxer.registry.streams.map Stream.index ∧
          failure = .duplicateStream stream.index)
  /-- No call fails because a number or a stream is missing beside the other. -/
  matching : ∀ operation failure m tree,
    r.muxer.perform r.tree operation = (.error failure, m, tree) → isMismatch failure = false
  /-- The blocks of the cluster that is being filled stand for the last packets that were taken. -/
  waits : ∃ earlier pending, calls.filterMap Muxer.Operation.packet? = earlier ++ pending ∧
    r.muxer.Waits pending
  /-- A packet that is taken becomes a block with the number of the stream that it names, at the
  time that it has by the time base of that stream. -/
  taken : ∀ packet m tree, r.muxer.writePacket packet r.tree = (.ok (), m, tree) →
    ∃ i stream earlier, r.muxer.registry.streams[i]? = some stream ∧
      stream.index = packet.stream ∧ m.cluster.blocks = earlier ++
        [{ track := i + 1
           offset := milliseconds stream.timeBase packet.pts - m.cluster.time
           data := packet.data }]
  /-- The cluster goes to the file with the blocks that it has. -/
  written : ∀ m tree, r.muxer.flushCluster r.tree = (.ok (), m, tree) →
    r.muxer.cluster.blocks ≠ [] → ∃ file after, r.muxer.output = some file ∧
      m.output = some after.1 ∧ tree = after.2 ∧
      OutputFile.Appends r.muxer.cluster.encode (file, r.tree) after

variable {r : Run} {calls : List Muxer.Operation}

theorem Follows.keepsNumbers (h : r.Follows calls) : r.KeepsNumbers calls where
  streams := h.streams
  keys := r.muxer.registry.keys_eq
  distinct := r.muxer.registry.distinct
  values := r.muxer.registry.values_eq
  lookups _ _ place := Registry.lookups_eq place
  refused _ _ _ refused := Muxer.addStream_of_error refused
  matching operation _ _ _ failed := Muxer.isMismatch_of_perform operation failed
  waits := h.waits
  taken packet m tree taken := by
    rcases r.muxer.writePacket_cases packet r.tree with
      ⟨_, -, refused⟩ | ⟨_, _, _, -, refused⟩ | ⟨track, m', _, known, -, same⟩
    · rw [refused] at taken
      cases taken
    · rw [refused] at taken
      cases taken
    · rw [same] at taken
      cases taken
      obtain ⟨i, place, number⟩ := exists_of_mem_tracksOf (List.mem_of_find?_eq_some known)
      have index := List.find?_some known
      refine ⟨i, track.stream, m'.cluster.blocks, place, beq_iff_eq.mp index, ?_⟩
      rw [← number]
      rfl
  written m tree flushed some_ := by
    rcases r.muxer.flushCluster_cases r.tree with
      ⟨empty, -⟩ | ⟨-, -, lost⟩ | ⟨file, after, -, output, step, same⟩
    · exact absurd empty some_
    · rw [lost] at flushed
      cases flushed
    · rw [same] at flushed
      cases flushed
      exact ⟨file, after, output, rfl, rfl, step⟩

/-- **Track numbers stay consistent.** This holds after any calls to a muxer, whether they were
accepted or not. -/
theorem afterAll_keepsNumbers (docType : DocType) (tree : FileTree)
    (operations : List Muxer.Operation) :
    ((start docType tree).afterAll operations).KeepsNumbers
      ((start docType tree).accepted operations) :=
  ((follows_start docType tree).afterAll operations).keepsNumbers

/-- Two streams are added, and the same ones refused the second time. Packets are refused before the
head, or if their stream is not there. The last two packets are those of the second cluster. -/
def unevenCalls : List Muxer.Operation :=
  [.create (.ofText "mixed.webm")] ++ Muxer.mixedStreams.map .addStream ++
    Muxer.mixedStreams.map .addStream ++ [.writePacket (.audio 7 [0]), .writeHeader,
      .writePacket (.audio 2 [0])] ++ Muxer.mixedPackets.map .writePacket

theorem afterAll_keepsNumbers_uneven :
    let r := (start .webm {}).afterAll unevenCalls
    r.muxer.registry.numbers = [(7, 1), (3, 2)] ∧
      r.muxer.cluster.blocks = [⟨2, 0, []⟩, ⟨1, 0, [4]⟩] ∧
      (((start .webm {}).accepted unevenCalls).filterMap Muxer.Operation.packet?).map
        Packet.data = [[1, 2], [3], [], [4]] ∧
      r.KeepsNumbers ((start .webm {}).accepted unevenCalls) :=
  ⟨by decide +kernel, by decide +kernel, by decide +kernel,
    afterAll_keepsNumbers .webm {} unevenCalls⟩

end Run

end VorbisTrack.Matroska
