import Mathlib.Data.List.Nodup
import VorbisTrack.Matroska.Muxer

/-!
# The number and the stream that are found for an index

Numbers and streams are looked up in two lists. Both lookups come down to one in the list of tracks
(`Registry.number?_eq`, `Registry.stream?_eq`), and as no index is used twice, every stream finds
its own number (`Registry.trackOf_stream`). So what a muxer does can be said in terms of its tracks
(`Muxer.encode_registry`, `Muxer.number?_registry`), and two of its failures do not occur.
-/

set_option autoImplicit false

namespace VorbisTrack.Matroska

namespace Registry

variable {r : Registry} {index : Nat}

def tracks (r : Registry) : List Track :=
  tracksOf r.streams

def track? (r : Registry) (index : Nat) : Option Track :=
  r.tracks.find? fun track => track.stream.index == index

theorem map_stream_tracks (r : Registry) : r.tracks.map Track.stream = r.streams := by
  apply List.ext_getElem?
  intro i
  rw [tracks, tracksOf, List.getElem?_map, List.getElem?_mapIdx, Option.map_map]
  exact Option.map_id'

theorem map_number_tracks (r : Registry) : r.tracks.map Track.number = r.numbers.map Prod.snd := by
  rw [r.numbered, List.map_map]
  rfl

/-! ## Lookups -/

/-- A number is that of the track that is found. -/
theorem number?_eq (r : Registry) (index : Nat) :
    r.number? index = (r.track? index).map Track.number := by
  rw [number?, r.numbered, track?, tracks]
  induction tracksOf r.streams with
  | nil => rfl
  | cons track rest ih =>
    rw [List.map_cons, List.lookup_cons, List.find?_cons, Bool.beq_comm]
    cases track.stream.index == index with
    | true => rfl
    | false => exact ih

/-- A stream is that of the track that is found. -/
theorem stream?_eq (r : Registry) (index : Nat) :
    r.stream? index = (r.track? index).map Track.stream := by
  rw [stream?, ← r.map_stream_tracks, List.find?_map]
  rfl

/-- A track is found by the index of its stream. -/
theorem track?_stream {track : Track} (member : track ∈ r.tracks) :
    r.track? track.stream.index = some track := by
  have distinct : (r.tracks.map fun track => track.stream.index).Nodup := by
    have same := r.distinct
    rwa [← r.map_stream_tracks, List.map_map] at same
  cases found : r.track? track.stream.index with
  | none =>
    exact absurd (beq_self_eq_true _) (List.find?_eq_none.mp found track member)
  | some other =>
    obtain ⟨same, -⟩ := List.find?_eq_some_iff_append.mp found
    rw [List.inj_on_of_nodup_map distinct (List.mem_of_find?_eq_some found) member
      (beq_iff_eq.mp same)]

/-- No track is found for an index that no stream has. -/
theorem track?_eq_none_iff : r.track? index = none ↔ index ∉ r.streams.map Stream.index := by
  rw [track?, List.find?_eq_none, ← r.map_stream_tracks, List.map_map, List.mem_map, not_exists]
  refine forall_congr' fun track => ?_
  rw [not_and, beq_iff_eq]
  rfl

theorem trackOf_stream {track : Track} (member : track ∈ r.tracks) :
    r.trackOf track.stream = .ok track := by
  rw [trackOf, number?_eq, track?_stream member]
  rfl

/-- Every stream has a number, so the list of tracks depends on their entries only. -/
theorem encode_eq (r : Registry) : r.encode = encodeTracks r.tracks := by
  have all : r.streams.mapM r.trackOf = .ok r.tracks := by
    rw [← r.map_stream_tracks]
    have each : ∀ track ∈ r.tracks, r.trackOf track.stream = .ok track :=
      fun _ member => trackOf_stream member
    generalize r.tracks = tracks at each
    induction tracks with
    | nil => rfl
    | cons track rest ih =>
      rw [List.map_cons, List.mapM_cons, each track (List.mem_cons_self ..),
        ih fun other member => each other (List.mem_cons_of_mem _ member)]
      rfl
  rw [encode, all]
  rfl

theorem isEmpty_tracks (r : Registry) : r.tracks.isEmpty = r.streams.isEmpty := by
  rw [← r.map_stream_tracks, List.isEmpty_map]

/-! ## Adding a stream -/

/-- A stream is refused if its index is taken, and added behind the others if not. -/
theorem add?_cases (r : Registry) (stream : Stream) :
    ((r.track? stream.index).isSome = true ∧ r.add? stream = none) ∨
      r.track? stream.index = none ∧
        ∃ r', r.add? stream = some r' ∧ r'.streams = r.streams ++ [stream] := by
  have numbered := r.number?_eq stream.index
  unfold add?
  split
  · next found =>
    rw [found] at numbered
    obtain ⟨track, known, -⟩ := Option.map_eq_some_iff.mp numbered.symm
    exact .inl ⟨Option.isSome_of_eq_some known, rfl⟩
  · next new =>
    rw [new] at numbered
    exact .inr ⟨Option.map_eq_none_iff.mp numbered.symm, _, rfl, rfl⟩

end Registry

namespace Muxer

def tracks (m : Muxer) : List Track :=
  m.registry.tracks

def track? (m : Muxer) (stream : Nat) : Option Track :=
  m.tracks.find? fun track => track.stream.index == stream

variable {m : Muxer}

/-- Adding a stream is refused and changes nothing, or puts a track behind the others. -/
theorem addStream_cases (m : Muxer) (stream : Stream) :
    (∃ failure, m.addStream stream = (.error failure, m)) ∨
      ∃ registry, m.headerWritten = false ∧ stream.media = .audio ∧ stream.codec = "vorbis" ∧
        m.track? stream.index = none ∧ registry.streams = m.registry.streams ++ [stream] ∧
        m.addStream stream = (.ok m.registry.streams.length, { m with registry }) := by
  unfold addStream
  split
  · exact .inl ⟨_, rfl⟩
  · next unwritten =>
    split
    · exact .inl ⟨_, rfl⟩
    · next vorbis =>
      obtain ⟨media, codec⟩ := not_or.mp vorbis
      rcases m.registry.add?_cases stream with ⟨-, taken⟩ | ⟨new, registry, added, streams⟩
      · rw [taken]
        exact .inl ⟨_, rfl⟩
      · rw [added]
        exact .inr ⟨registry, Bool.eq_false_iff.mpr unwritten, Decidable.not_not.mp media,
          Decidable.not_not.mp codec, new, streams, rfl⟩

/-- A Vorbis stream with a new index is added before the head is written. -/
theorem addStream_eq_ok {stream : Stream} (unwritten : m.headerWritten = false)
    (media : stream.media = .audio) (codec : stream.codec = "vorbis")
    (new : m.track? stream.index = none) :
    ∃ registry, registry.streams = m.registry.streams ++ [stream] ∧
      m.addStream stream = (.ok m.registry.streams.length, { m with registry }) := by
  rcases m.registry.add?_cases stream with ⟨taken, -⟩ | ⟨-, registry, added, streams⟩
  · have free : m.registry.track? stream.index = none := new
    rw [free] at taken
    cases taken
  · refine ⟨registry, streams, ?_⟩
    simp only [addStream, unwritten, media, codec, added, Bool.false_eq_true, ne_eq, not_true,
      or_self, if_false]

theorem tracks_eq_of_streams {m' : Muxer} {stream : Stream}
    (streams : m'.registry.streams = m.registry.streams ++ [stream]) :
    m'.tracks = m.tracks ++ [{ number := m.tracks.length + 1, stream }] := by
  rw [tracks, Registry.tracks, streams, tracksOf_concat, tracks, Registry.tracks, tracksOf,
    List.length_mapIdx]

/-! What is read from the registry can be read from the tracks. -/

theorem isEmpty_streams (m : Muxer) : m.registry.streams.isEmpty = m.tracks.isEmpty :=
  m.registry.isEmpty_tracks.symm

theorem encode_registry (m : Muxer) : m.registry.encode = encodeTracks m.tracks :=
  m.registry.encode_eq

theorem number?_registry (m : Muxer) (stream : Nat) :
    m.registry.number? stream = (m.track? stream).map Track.number :=
  m.registry.number?_eq stream

theorem stream?_registry (m : Muxer) (stream : Nat) :
    m.registry.stream? stream = (m.track? stream).map Track.stream :=
  m.registry.stream?_eq stream

theorem map_numbers (m : Muxer) : m.registry.numbers.map Prod.snd = m.tracks.map Track.number :=
  m.registry.map_number_tracks.symm

end Muxer

end VorbisTrack.Matroska
