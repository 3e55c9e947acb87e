import VorbisTrack.Matroska.Cluster

/-!
# Clusters keep the times of their packets

A block stands in its cluster with an offset from the cluster's time. `Cluster.timed` gives every
block the time that the two make together. A block joins at its own time unless it comes before its
cluster, and the bounds on offsets and on the count of blocks are kept.
-/

set_option autoImplicit false

namespace VorbisTrack.Matroska

namespace Cluster

/-- The blocks of a cluster, each with its time instead of its offset. -/
def timed (c : Cluster) : List Block :=
  c.blocks.map fun b => { b with offset := c.time + b.offset }

structure IsBounded (c : Cluster) : Prop where
  count : c.blocks.length ≤ maxBlocks
  span : ∀ b ∈ c.blocks, b.offset ≤ maxSpan

theorem timed_of_isEmpty {c : Cluster} (empty : c.blocks = []) : c.timed = [] := by
  rw [timed, empty, List.map_nil]

theorem isBounded_of_isEmpty {c : Cluster} (empty : c.blocks = []) : c.IsBounded := by
  constructor
  · rw [empty]
    exact Nat.zero_le _
  · rw [empty]
    intro b none
    cases none

/-- A block that does not come before its cluster joins at its own time. -/
theorem timed_push {c : Cluster} {time : Nat} (later : c.blocks = [] ∨ c.time ≤ time)
    (track : Nat) (data : Bytes) :
    (c.push track time data).timed = c.timed ++ [{ track, offset := time, data }] := by
  -- The first block of a cluster sets its time.
  by_cases empty : c.blocks = []
  · simp [push, timed, empty]
  · have after : c.time ≤ time := by
      rcases later with none | after
      · exact absurd none empty
      · exact after
    have starts : c.blocks.isEmpty = false := List.isEmpty_eq_false_iff.mpr empty
    simp only [push, timed, starts, Bool.false_eq_true, if_false, List.map_append, List.map_cons,
      List.map_nil]
    rw [Nat.add_sub_cancel' after]

/-- A cluster starts no later than its latest block. -/
theorem time_push_le {c : Cluster} {time : Nat} (later : c.blocks = [] ∨ c.time ≤ time)
    (track : Nat) (data : Bytes) : (c.push track time data).time ≤ time := by
  by_cases empty : c.blocks = []
  · simp [push, empty]
  · rcases later with none | after
    · exact absurd none empty
    · have starts : c.blocks.isEmpty = false := List.isEmpty_eq_false_iff.mpr empty
      simpa [push, starts] using after

/-- A cluster that is open to a time stays within its bounds. -/
theorem IsBounded.push {c : Cluster} (h : c.IsBounded) {time : Nat}
    (open_ : c.isClosedTo time = false) (track : Nat) (data : Bytes) :
    (c.push track time data).IsBounded := by
  by_cases empty : c.blocks = []
  · constructor
    · simp [Cluster.push, empty, maxBlocks]
    · simp [Cluster.push, empty]
  · have starts : c.blocks.isEmpty = false := List.isEmpty_eq_false_iff.mpr empty
    simp only [isClosedTo, starts, Bool.not_false, Bool.true_and, Bool.or_eq_false_iff,
      decide_eq_false_iff_not] at open_
    obtain ⟨near, few⟩ := open_
    constructor
    · show (c.blocks ++ [_]).length ≤ maxBlocks
      rw [List.length_append, List.length_singleton]
      omega
    · intro b member
      simp only [Cluster.push, starts, Bool.false_eq_true, if_false, List.mem_append,
        List.mem_singleton] at member
      rcases member with member | rfl
      · exact h.span b member
      · show time - c.time ≤ maxSpan
        omega

end Cluster

/-! ## Cues -/

/-- The cues of clusters that stand one after the other from a position on. -/
def cuesFrom (track : Nat) : Nat → List Cluster → List Cue
  | _, [] => []
  | position, c :: rest =>
    { time := c.time, track, position } :: cuesFrom track (position + c.encode.length) rest

/-- One more cluster has its cue behind the clusters before it. -/
theorem cuesFrom_concat (track position : Nat) (clusters : List Cluster) (c : Cluster) :
    cuesFrom track position (clusters ++ [c]) = cuesFrom track position clusters ++
      [{ time := c.time, track
         position := position + (clusters.flatMap Cluster.encode).length }] := by
  -- Each cluster moves those behind it on by its length.
  induction clusters generalizing position with
  | nil => rfl
  | cons first rest ih =>
    rw [List.cons_append, cuesFrom, cuesFrom, ih, List.flatMap_cons, List.length_append,
      ← Nat.add_assoc, List.cons_append]

/-- There are cues unless there are no clusters. -/
theorem isEmpty_cuesFrom (track position : Nat) (clusters : List Cluster) :
    (cuesFrom track position clusters).isEmpty = clusters.isEmpty := by
  cases clusters <;> rfl

end VorbisTrack.Matroska
