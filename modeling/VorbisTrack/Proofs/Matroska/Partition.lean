import Mathlib.Data.List.Chain
import Mathlib.Data.List.Forall2
import VorbisTrack.Proofs.Matroska.Cluster
import VorbisTrack.Proofs.Matroska.Layout

/-!
# Clusters partition their packets

Packets are put into clusters one after the other, as they come: each joins the last cluster if that
is open to it, and starts another one if it is not. `Fills` is this filling, step by step; beside
every cluster it keeps the run of packets that the cluster has taken. Whatever the packets and their
times are, the clusters keep their bounds, and their blocks are the packets, each once and in order
(`Fills.isPartition`).

A packet stands here as a block whose offset is the packet's own time, as in `Cluster.timed`.
-/

set_option autoImplicit false

namespace VorbisTrack.Matroska

/-! ## Runs of packets -/

namespace Cluster

def take (c : Cluster) (entry : Block) : Cluster :=
  c.push entry.track entry.offset entry.data

/-- A cluster carries a run of packets. It has the time of the first, and each packet is a block of
it, at its own time unless that comes before the cluster. -/
structure Carries (c : Cluster) (run : List Block) : Prop where
  time : run.head?.map Block.offset = some c.time
  blocks : List.Forall₂ (fun b entry => b.track = entry.track ∧ b.data = entry.data ∧
    c.time + b.offset = max entry.offset c.time) c.blocks run

/-- A cluster without blocks takes its time from the packet. -/
theorem take_of_isEmpty {c : Cluster} (empty : c.blocks = []) (entry : Block) :
    c.take entry = { time := entry.offset, blocks := [{ entry with offset := 0 }] } := by
  simp [take, push, empty]

theorem take_of_ne {c : Cluster} (some_ : c.blocks ≠ []) (entry : Block) :
    c.take entry =
      { c with blocks := c.blocks ++ [{ entry with offset := entry.offset - c.time }] } := by
  have starts : c.blocks.isEmpty = false := List.isEmpty_eq_false_iff.mpr some_
  simp [take, push, starts]

theorem take_ne_nil (c : Cluster) (entry : Block) : (c.take entry).blocks ≠ [] := by
  simp [take, push]

/-- The first packet of a cluster. -/
theorem carries_singleton (entry : Block) : (({} : Cluster).take entry).Carries [entry] := by
  rw [take_of_isEmpty rfl]
  exact ⟨rfl, .cons ⟨rfl, rfl, (Nat.max_self _).symm⟩ .nil⟩

/-- A further packet. -/
theorem Carries.take {c : Cluster} {run : List Block} (h : c.Carries run) (some_ : c.blocks ≠ [])
    (entry : Block) : (c.take entry).Carries (run ++ [entry]) := by
  rw [take_of_ne some_]
  constructor
  · rw [List.head?_append, Option.or_of_isSome]
    · exact h.time
    · have first := h.time
      cases run with
      | nil => cases first
      | cons => rfl
  · refine List.rel_append h.blocks (.cons ⟨rfl, rfl, ?_⟩ .nil)
    show c.time + (entry.offset - c.time) = max entry.offset c.time
    omega

/-- If no packet comes before its predecessor, the packets of a cluster have their own times. -/
theorem Carries.timed_eq {c : Cluster} {run : List Block} (h : c.Carries run)
    (ordered : run.Pairwise fun entry later => entry.offset ≤ later.offset) : c.timed = run := by
  -- The cluster has the time of the first packet, so none comes before it.
  have after : ∀ entry ∈ run, c.time ≤ entry.offset := by
    have first := h.time
    cases run with
    | nil => cases first
    | cons entry rest =>
      rw [← (Option.some.inj first : entry.offset = c.time)]
      intro later member
      rcases List.mem_cons.mp member with rfl | member
      · exact Nat.le_refl _
      · exact (List.pairwise_cons.mp ordered).1 later member
  have placed := h.blocks
  unfold timed
  generalize c.blocks = blocks at placed
  clear h ordered
  induction placed with
  | nil => rfl
  | @cons b entry blocks run same rest ih =>
    obtain ⟨track, data, time⟩ := same
    rw [Nat.max_eq_left (after entry (List.mem_cons_self ..))] at time
    rw [List.map_cons, ih fun later member => after later (List.mem_cons_of_mem _ member), track,
      data, time]

end Cluster

/-! ## Filling clusters -/

/-- Clusters that have been filled with packets in order, each with its run. -/
inductive Fills : List (Cluster × List Block) → Prop
  | nil : Fills []
  /-- The last cluster, if there is one, is closed to the packet. -/
  | start {filled : List (Cluster × List Block)} (before : Fills filled) (entry : Block)
      (closed : ∀ last ∈ filled.getLast?, last.1.isClosedTo entry.offset = true) :
      Fills (filled ++ [(({} : Cluster).take entry, [entry])])
  | join {filled : List (Cluster × List Block)} {c : Cluster} {run : List Block}
      (before : Fills (filled ++ [(c, run)])) (entry : Block)
      (open_ : c.isClosedTo entry.offset = false) :
      Fills (filled ++ [(c.take entry, run ++ [entry])])

/-- The packets are cut into runs, one for each cluster, and the clusters keep their bounds. -/
structure IsPartition (clusters : List Cluster) (entries : List Block) : Prop where
  /-- In order, each packet is a block of one cluster. -/
  runs : ∃ runs : List (List Block), runs.flatten = entries ∧
    List.Forall₂ Cluster.Carries clusters runs
  count : ∀ c ∈ clusters, 1 ≤ c.blocks.length ∧ c.blocks.length ≤ 256
  span : ∀ c ∈ clusters, ∀ b ∈ c.blocks, b.offset ≤ 5000
  /-- What stands in the file for a block. -/
  body : ∀ c ∈ clusters, ∀ b ∈ c.blocks,
    b.body = trackBytes b.track ++ Bytes.bigEndian 2 b.offset ++ 0x80 :: b.data
  /-- What stands in the file for a cluster. -/
  laid : ∀ c ∈ clusters, IsCluster c c.encode
  /-- A cluster is only left if it is full, or if the packet that starts the next one comes too
  late for it. -/
  left : clusters.IsChain fun c next => c.blocks.length = 256 ∨ c.time + 5000 < next.time
  inOrder : (entries.Pairwise fun entry later => entry.offset ≤ later.offset) →
    clusters.flatMap Cluster.timed = entries

/-- Packets take the same room in the blocks that carry them. -/
theorem Cluster.Carries.map_room {c : Cluster} {run : List Block} (h : c.Carries run) :
    c.blocks.map Block.room = run.map Block.room := by
  have placed := h.blocks
  generalize c.blocks = blocks at placed ⊢
  clear h
  induction placed with
  | nil => rfl
  | cons same _ ih => rw [List.map_cons, List.map_cons, ih, Block.room, same.2.1, Block.room]

/-- A file of the clusters has room for the packets. -/
theorem IsPartition.room_le {clusters : List Cluster} {entries : List Block}
    (h : IsPartition clusters entries) {tracks : List Track} {cues : List Cue} {file : Bytes}
    (laid : IsFile tracks clusters cues file) :
    (entries.map Block.room).sum ≤ file.length := by
  obtain ⟨runs, rfl, carried⟩ := h.runs
  have same : (clusters.flatMap Cluster.blocks).map Block.room = runs.flatten.map Block.room := by
    rw [List.map_flatMap, List.map_flatten]
    clear h laid
    induction carried with
    | nil => rfl
    | cons carries _ ih =>
      rw [List.flatMap_cons, ih, carries.map_room, List.map_cons, List.flatten_cons]
  rw [← same]
  exact laid.room_le

theorem IsPartition.isBounded {clusters : List Cluster} {entries : List Block}
    (h : IsPartition clusters entries) : ∀ c ∈ clusters, c.IsBounded :=
  fun c member => ⟨(h.count c member).2, h.span c member⟩

namespace Fills

variable {filled : List (Cluster × List Block)}

/-- What holds of every cluster and its run. -/
theorem carries (h : Fills filled) : ∀ pair ∈ filled,
    pair.1.blocks ≠ [] ∧ pair.1.IsBounded ∧ pair.1.Carries pair.2 := by
  induction h with
  | nil => simp
  | @start filled before entry closed ih =>
    intro pair member
    rcases List.mem_append.mp member with member | member
    · exact ih pair member
    · rw [List.mem_singleton.mp member]
      refine ⟨Cluster.take_ne_nil {} entry, ?_, Cluster.carries_singleton entry⟩
      exact (Cluster.isBounded_of_isEmpty rfl).push rfl entry.track entry.data
  | @join filled c run before entry open_ ih =>
    intro pair member
    rcases List.mem_append.mp member with member | member
    · exact ih pair (List.mem_append_left _ member)
    · obtain ⟨some_, bounded, carries⟩ := ih (c, run) (by simp)
      rw [List.mem_singleton.mp member]
      exact ⟨Cluster.take_ne_nil c entry, bounded.push open_ entry.track entry.data,
        carries.take some_ entry⟩

/-- A cluster that is closed to a packet is full, or the packet comes too late for it. -/
theorem full_or_late {c : Cluster} (bounded : c.IsBounded) {time : Nat}
    (closed : c.isClosedTo time = true) : c.blocks.length = 256 ∨ c.time + 5000 < time := by
  have few : c.blocks.length ≤ 256 := bounded.count
  simp only [Cluster.isClosedTo, Bool.and_eq_true, Bool.or_eq_true, decide_eq_true_eq] at closed
  rcases closed.2 with late | full
  · have late : 5000 < time - c.time := late
    omega
  · have full : 256 ≤ c.blocks.length := full
    omega

theorem left (h : Fills filled) : (filled.map Prod.fst).IsChain fun c next =>
    c.blocks.length = 256 ∨ c.time + 5000 < next.time := by
  induction h with
  | nil => exact .nil
  | @start filled before entry closed ih =>
    rw [List.map_append, List.isChain_append]
    refine ⟨ih, .singleton _, ?_⟩
    -- The next cluster has the time of the packet that the last one was closed to.
    intro c isLast next isFirst
    rw [List.getLast?_map] at isLast
    obtain ⟨last, found, rfl⟩ := Option.map_eq_some_iff.mp isLast
    obtain rfl := Option.some.inj isFirst
    rw [Cluster.take_of_isEmpty rfl]
    exact full_or_late (before.carries last (List.mem_of_getLast? found)).2.1 (closed last found)
  | @join filled c run before entry open_ ih =>
    have some_ : c.blocks ≠ [] := (before.carries (c, run) (by simp)).1
    rw [List.map_append, List.isChain_append] at ih ⊢
    refine ⟨ih.1, .singleton _, ?_⟩
    -- A packet that joins does not change the time of the cluster.
    intro before isLast next isFirst
    obtain rfl := Option.some.inj isFirst
    rw [Cluster.take_of_ne some_]
    exact ih.2.2 before isLast c rfl

/-- Whatever packets clusters are filled with, the clusters partition them. -/
theorem isPartition (h : Fills filled) :
    IsPartition (filled.map Prod.fst) (filled.map Prod.snd).flatten := by
  have each : ∀ c ∈ filled.map Prod.fst, c.blocks ≠ [] ∧ c.IsBounded := by
    intro c member
    obtain ⟨pair, found, rfl⟩ := List.mem_map.mp member
    exact ⟨(h.carries pair found).1, (h.carries pair found).2.1⟩
  refine ⟨⟨filled.map Prod.snd, rfl, ?_⟩, ?_, ?_, ?_, ?_, h.left, ?_⟩
  · rw [List.forall₂_map_left_iff, List.forall₂_map_right_iff, List.forall₂_same]
    exact fun pair member => (h.carries pair member).2.2
  · intro c member
    obtain ⟨some_, bounded⟩ := each c member
    exact ⟨List.length_pos_iff.mpr some_, bounded.count⟩
  · exact fun c member => (each c member).2.span
  · exact fun _ _ b _ => b.body_eq
  · exact fun c member => isCluster_encode (each c member).2.span
  · intro ordered
    rw [List.flatMap_def, List.map_map]
    congr 1
    apply List.map_congr_left
    intro pair member
    have run : pair.2 ∈ filled.map Prod.snd := List.mem_map_of_mem member
    exact (h.carries pair member).2.2.timed_eq (ordered.sublist (List.sublist_flatten_of_mem run))

end Fills

end VorbisTrack.Matroska
