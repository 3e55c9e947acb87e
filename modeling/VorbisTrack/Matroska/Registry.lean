import VorbisTrack.Matroska.Track

/-!
# Streams and their numbers

The streams of a file are kept in the order in which they were added, and beside them the numbers of
their tracks, by the indices of the streams. The two are read in different places. A registry comes
with the proof that they tell the same (`Registry.numbered`), so a stream can only be added together
with the number whose turn it is.
-/

set_option autoImplicit false

namespace VorbisTrack.Matroska

/-- The tracks of streams, numbered from one in order. -/
def tracksOf (streams : List Stream) : List Track :=
  streams.mapIdx fun i stream => { number := i + 1, stream }

theorem tracksOf_concat (streams : List Stream) (stream : Stream) :
    tracksOf (streams ++ [stream]) =
      tracksOf streams ++ [{ number := streams.length + 1, stream }] :=
  List.mapIdx_concat

theorem exists_of_mem_tracksOf {streams : List Stream} {track : Track}
    (member : track ∈ tracksOf streams) :
    ∃ i, streams[i]? = some track.stream ∧ track.number = i + 1 := by
  obtain ⟨i, within, rfl⟩ := List.mem_mapIdx.mp member
  exact ⟨i, List.getElem?_eq_getElem within, rfl⟩

/-- The streams of a file and the numbers of their tracks. -/
structure Registry where
  streams : List Stream
  /-- The number of a track beside the index of its stream. -/
  numbers : List (Nat × Nat)
  numbered : numbers = (tracksOf streams).map fun track => (track.stream.index, track.number)
  distinct : (streams.map Stream.index).Nodup

namespace Registry

def empty : Registry where
  streams := []
  numbers := []
  numbered := rfl
  distinct := .nil

def number? (r : Registry) (index : Nat) : Option Nat :=
  r.numbers.lookup index

def stream? (r : Registry) (index : Nat) : Option Stream :=
  r.streams.find? fun stream => stream.index == index

/-- An index without a number is not that of a stream. -/
theorem index_not_mem (r : Registry) {index : Nat} (new : r.number? index = none) :
    index ∉ r.streams.map Stream.index := by
  intro taken
  obtain ⟨stream, member, rfl⟩ := List.mem_map.mp taken
  obtain ⟨i, within, rfl⟩ := List.mem_iff_getElem.mp member
  have listed : (r.streams[i].index, i + 1) ∈ r.numbers := by
    rw [r.numbered]
    exact List.mem_map.mpr ⟨⟨i + 1, r.streams[i]⟩, List.mem_mapIdx.mpr ⟨i, within, rfl⟩, rfl⟩
  have other := List.lookup_eq_none_iff.mp new _ listed
  exact bne_iff_ne.mp other rfl

/-- A further stream takes the next number, unless its index is taken. -/
def add? (r : Registry) (stream : Stream) : Option Registry :=
  match new : r.number? stream.index with
  | some _ => none
  | none => some
    { streams := r.streams ++ [stream]
      numbers := r.numbers ++ [(stream.index, r.numbers.length + 1)]
      numbered := by
        have count : r.numbers.length = r.streams.length := by
          rw [r.numbered, List.length_map, tracksOf, List.length_mapIdx]
        rw [tracksOf_concat, List.map_append, ← r.numbered, count]
        rfl
      distinct := by
        rw [List.map_append, List.nodup_append]
        refine ⟨r.distinct, by simp, ?_⟩
        rintro index taken _ last rfl
        rw [List.map_singleton, List.mem_singleton] at last
        exact r.index_not_mem new (last ▸ taken) }

def trackOf (r : Registry) (stream : Stream) : Except Failure Track :=
  match r.number? stream.index with
  | some number => .ok { number, stream }
  | none => .error .unnumberedStream

def encode (r : Registry) : Except Failure Bytes := do
  encodeTracks (← r.streams.mapM r.trackOf)

end Registry

end VorbisTrack.Matroska
