import VorbisTrack.Proofs.Matroska.Lifecycle

/-!
# Every cue points at its cluster

A cue is noted when its cluster is written: its position is asked for after what waits has been
passed on, and counted from the place noted when the segment was started. In the finished file it
has to be the position of the cluster. `Head.cues` says what the muxer has noted by the end, as
lengths of what stands before each cluster, and `Head.isIndexed` that these lengths lead to the
clusters. Every file that is made has such cues, whatever the packets (`Muxer.writeFile_isIndexed`).
-/

set_option autoImplicit false

namespace VorbisTrack.Matroska

/-! ## Cues of a row of clusters -/

/-- A cue has the position to which the clusters before its own reach. -/
theorem getElem?_cuesFrom (track position : Nat) (clusters : List Cluster) (i : Nat) :
    (cuesFrom track position clusters)[i]? = clusters[i]?.map fun c =>
      { time := c.time, track
        position := position + ((clusters.take i).flatMap Cluster.encode).length } := by
  -- Each cluster moves the cues behind it on by its length.
  induction clusters generalizing position i with
  | nil => rfl
  | cons first rest ih =>
    cases i with
    | zero => rfl
    | succ i =>
      rw [cuesFrom, List.getElem?_cons_succ, List.getElem?_cons_succ, ih, List.take_succ_cons,
        List.flatMap_cons, List.length_append, Nat.add_assoc]

/-- What stands behind the clusters before one starts with it. -/
theorem encode_isPrefix_drop {clusters : List Cluster} {i : Nat} {c : Cluster}
    (place : clusters[i]? = some c) (front rest : Bytes) :
    c.encode <+: (front ++ clusters.flatMap Cluster.encode ++ rest).drop
      (front ++ (clusters.take i).flatMap Cluster.encode).length := by
  obtain ⟨within, rfl⟩ := List.getElem?_eq_some_iff.mp place
  have split : clusters.flatMap Cluster.encode = (clusters.take i).flatMap Cluster.encode ++
      (clusters[i].encode ++ (clusters.drop (i + 1)).flatMap Cluster.encode) := by
    conv_lhs => rw [← List.take_append_drop i clusters, List.drop_eq_getElem_cons within]
    rw [List.flatMap_append, List.flatMap_cons]
  rw [split, ← List.append_assoc front, List.append_assoc _ _ rest, List.drop_left,
    List.append_assoc]
  exact List.prefix_append ..

def Cluster.identifier : Bytes := [0x1F, 0x43, 0xB6, 0x75]

theorem Cluster.identifier_isPrefix_encode (c : Cluster) : identifier <+: c.encode := by
  have id : Bytes.bigEndian (byteCount 0x1F43B675) 0x1F43B675 = identifier := by decide
  rw [encode, master, element, id, List.append_assoc]
  exact List.prefix_append ..

/-! ## The cues of a file -/

/-- The cues of a file lead to its clusters. They count from the end of the size of the segment,
where the lead of the file ends. -/
structure IsIndexed (head : Head) (clusters : List Cluster) (cues : List Cue) (file : Bytes) :
    Prop where
  /-- The clusters follow the head, and the cues follow the clusters if there are any. -/
  bytes : file = head.lead ++ (encodeInfo Encoder.ident ++ head.list) ++
    clusters.flatMap Cluster.encode ++ if cues = [] then [] else encodeCues cues
  lead : head.lead = encodeDocument head.docType ++ segmentStart
  /-- The lead ends with the size of the segment. -/
  segment : IsLead head.lead
  /-- What follows the lead: the list of the tracks, the clusters, and a cue for each of them. -/
  content : IsContent head.tracks clusters cues (file.drop head.lead.length)
  /-- There is one cue for each cluster, in the order of the file. -/
  times : cues.map Cue.time = clusters.map Cluster.time
  track : ∀ cue ∈ cues, ∃ track ∈ head.tracks, track.number = cue.track
  /-- Up to the position of a cue stand the head and the clusters before its own. -/
  position : ∀ (i : Nat) (cue : Cue), cues[i]? = some cue →
    head.lead.length + cue.position =
      (head.bytes ++ (clusters.take i).flatMap Cluster.encode).length
  /-- At that position its cluster stands. -/
  stands : ∀ (i : Nat) (cue : Cue) (c : Cluster), cues[i]? = some cue → clusters[i]? = some c →
    c.encode <+: file.drop (head.lead.length + cue.position)
  identifier : ∀ cue ∈ cues,
    (file.drop (head.lead.length + cue.position)).take 4 = [0x1F, 0x43, 0xB6, 0x75]

namespace Head

variable (head : Head) (clusters : List Cluster)

/-- A cue of the file and the cluster at its place. -/
theorem exists_of_getElem?_cues {i : Nat} {cue : Cue}
    (noted : (head.cues clusters)[i]? = some cue) :
    ∃ c, clusters[i]? = some c ∧ cue.time = c.time ∧
      cue.track = (head.tracks.map Track.number).min?.getD 1 ∧
      head.lead.length + cue.position =
        (head.bytes ++ (clusters.take i).flatMap Cluster.encode).length := by
  rw [cues, getElem?_cuesFrom] at noted
  obtain ⟨c, place, rfl⟩ := Option.map_eq_some_iff.mp noted
  refine ⟨c, place, rfl, rfl, ?_⟩
  simp only [bytes, List.length_append, Nat.add_assoc]

/-- The least number of a track is one of them. -/
theorem exists_track_of_min? (tracked : head.tracks ≠ []) :
    ∃ track ∈ head.tracks, track.number = (head.tracks.map Track.number).min?.getD 1 := by
  have numbered : head.tracks.map Track.number ≠ [] := by simpa using tracked
  obtain ⟨least, found⟩ := Option.isSome_iff_exists.mp (List.isSome_min?_of_ne_nil numbered)
  rw [found]
  exact List.mem_map.mp (List.min?_mem found)

/-- The cues that are noted while a file is written lead to its clusters. -/
theorem isIndexed (tracked : head.tracks ≠ []) (bounded : ∀ c ∈ clusters, c.IsBounded) :
    IsIndexed head clusters (head.cues clusters) (head.fileBytes clusters) := by
  have stands (i : Nat) (cue : Cue) (c : Cluster) (noted : (head.cues clusters)[i]? = some cue)
      (place : clusters[i]? = some c) :
      c.encode <+: (head.fileBytes clusters).drop (head.lead.length + cue.position) := by
    obtain ⟨-, -, -, -, position⟩ := head.exists_of_getElem?_cues clusters noted
    rw [position]
    exact encode_isPrefix_drop place ..
  constructor
  case bytes =>
    have same : (head.cues clusters = []) = (clusters = []) := by
      rw [← List.isEmpty_iff, head.isEmpty_cues, List.isEmpty_iff]
    rw [fileBytes, bytes]
    simp only [same, List.isEmpty_iff]
  case lead => rfl
  case segment => exact head.isLead_lead
  case content =>
    rw [fileBytes_eq, List.drop_left]
    exact head.isContent bounded
  case times =>
    apply List.ext_getElem?
    intro i
    rw [cues, List.getElem?_map, List.getElem?_map, getElem?_cuesFrom, Option.map_map]
    rfl
  case track =>
    intro cue member
    obtain ⟨i, noted⟩ := List.mem_iff_getElem?.mp member
    obtain ⟨-, -, -, least, -⟩ := head.exists_of_getElem?_cues clusters noted
    rw [least]
    exact head.exists_track_of_min? tracked
  case position =>
    intro i cue noted
    obtain ⟨-, -, -, -, position⟩ := head.exists_of_getElem?_cues clusters noted
    exact position
  case stands => exact stands
  case identifier =>
    intro cue member
    obtain ⟨i, noted⟩ := List.mem_iff_getElem?.mp member
    obtain ⟨c, place, -⟩ := head.exists_of_getElem?_cues clusters noted
    exact (List.prefix_iff_eq_take.mp
      (c.identifier_isPrefix_encode.trans (stands i cue c noted place))).symm

end Head

namespace Muxer

/-- **Every cue points at its cluster.** Whatever packets a file is made of, its cues are one for
each cluster, in order, with the time of the cluster, an existing track and the position at which
the cluster stands. Only a file without packets has none. -/
theorem writeFile_isIndexed {docType : DocType} {path : Path} {streams : List Stream}
    {packets : List Packet} (writable : Writable streams packets) {tree created : FileTree}
    {location : Location} (made : tree.create path = .ok (location, created)) :
    ∃ m final, writeFile docType path streams packets tree = (.ok (), m, final) ∧
      ∃ (head : Head) (clusters : List Cluster) (cues : List Cue) (entries : List Block)
        (file : Bytes),
        head.docType = docType ∧ head.tracks = tracksOf streams ∧
          final.node? location = some (.file file) ∧ IsIndexed head clusters cues file ∧
          (cues = [] ↔ packets = []) ∧
          List.Forall₂ (IsStored streams) packets entries ∧ IsPartition clusters entries := by
  obtain ⟨m, final, finished, -, head, clusters, entries, docType, tracks, stands, are,
    partition⟩ := writeFile_eq_ok docType writable made
  have tracked : head.tracks ≠ [] := by
    rw [tracks, tracksOf, ne_eq, List.mapIdx_eq_nil_iff]
    exact writable.some_
  refine ⟨m, final, finished, head, clusters, head.cues clusters, entries, _, docType, tracks,
    stands, head.isIndexed clusters tracked partition.isBounded, ?_, are, partition⟩
  -- There are as many clusters as runs of packets, and none of the runs is empty.
  obtain ⟨runs, all, carried⟩ := partition.runs
  have cued : head.cues clusters = [] ↔ clusters = [] := by
    rw [← List.isEmpty_iff, head.isEmpty_cues, List.isEmpty_iff]
  rw [cued]
  constructor
  · rintro rfl
    obtain rfl := List.forall₂_nil_left_iff.mp carried
    subst all
    exact List.forall₂_nil_right_iff.mp are
  · rintro rfl
    obtain rfl := List.forall₂_nil_left_iff.mp are
    cases carried with
    | nil => rfl
    | @cons c run _ _ first _ =>
      have some_ := first.time
      rw [(List.flatten_eq_nil_iff.mp all) run (List.mem_cons_self ..)] at some_
      cases some_

theorem writeFile_isIndexed_mixed :
    Writable mixedStreams mixedPackets ∧
      FileTree.create {} (.ofText "mixed.webm") =
        .ok (["mixed.webm"], FileTree.put {} ["mixed.webm"] (.file [])) ∧
      ∃ m final, writeFile .webm (.ofText "mixed.webm") mixedStreams mixedPackets {} =
          (.ok (), m, final) ∧
        ∃ (head : Head) (clusters : List Cluster) (cues : List Cue) (entries : List Block)
          (file : Bytes),
          head.docType = .webm ∧ head.tracks = tracksOf mixedStreams ∧
            final.node? ["mixed.webm"] = some (.file file) ∧
            IsIndexed head clusters cues file ∧ (cues = [] ↔ mixedPackets = []) ∧
            List.Forall₂ (IsStored mixedStreams) mixedPackets entries ∧
            IsPartition clusters entries :=
  ⟨muxable_mixed.toWritable, rfl, writeFile_isIndexed muxable_mixed.toWritable rfl⟩

end Muxer

end VorbisTrack.Matroska
