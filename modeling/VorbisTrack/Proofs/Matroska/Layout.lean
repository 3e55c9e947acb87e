import Mathlib.Algebra.BigOperators.Group.List.Basic
import Mathlib.Algebra.GroupWithZero.Nat
import VorbisTrack.Matroska.Track
import VorbisTrack.Proofs.Matroska.Block

/-!
# What stands in a file

A file is described here by what its bytes say, apart from the functions that write it. An element
is its identifier, the size of its body as an integer of variable width, and the body
(`IsElement`). Elements that follow each other are a row (`IsRow`). From these are made the blocks,
clusters, cues and tracks, and the whole file (`IsFile`).

A file is at least as long as its packets (`IsFile.room_le`). All that is written is laid out so
(`isBlock_encode`, `isCluster_encode`, `isCues_encode`).
-/

set_option autoImplicit false

namespace VorbisTrack.Matroska

open Bytes

/-! ## Elements -/

/-- The bits of a size: a zero for every byte behind the first, the mark, and seven bits for every
byte. -/
def IsSize (bytes : Bytes) (size : Nat) : Prop :=
  ∃ further, size < 2 ^ (7 * (further + 1)) ∧
    bits bytes = List.replicate further false ++ true :: lowBits (7 * (further + 1)) size

def IsElement (identifier body bytes : Bytes) : Prop :=
  ∃ size, IsSize size body.length ∧ bytes = identifier ++ (size ++ body)

/-- An element that holds a number without sign, most significant byte first. -/
def IsUnsigned (identifier : Bytes) (value : Nat) (bytes : Bytes) : Prop :=
  ∃ digits, digits ≠ [] ∧ bigValue digits = value ∧ IsElement identifier digits bytes

def IsAny (identifier bytes : Bytes) : Prop :=
  ∃ body, IsElement identifier body bytes

/-- Parts that follow each other, one for each of their descriptions. -/
inductive IsRow : List (Bytes → Prop) → Bytes → Prop
  | nil : IsRow [] []
  | cons {part : Bytes → Prop} {parts : List (Bytes → Prop)} {first others : Bytes}
      (here : part first) (next : IsRow parts others) : IsRow (part :: parts) (first ++ others)

/-- An element that holds a row of parts. -/
def IsMaster (identifier : Bytes) (parts : List (Bytes → Prop)) (bytes : Bytes) : Prop :=
  ∃ body, IsRow parts body ∧ IsElement identifier body bytes

/-! ## Clusters, cues and tracks -/

/-- The number of a track in the fewest bytes. One that eight bytes have no room for stands there
as zero. -/
def IsTrackNumber (bytes : Bytes) (number : Nat) : Prop :=
  if number < 2 ^ 56 - 1 then IsShortest bytes number else bytes = [1, 0, 0, 0, 0, 0, 0, 0]

/-- A block holds the number of its track, the time as a signed word without its sign bit, the flag
of a packet that can be decoded without earlier ones, and the packet. -/
def IsBlock (b : Block) (bytes : Bytes) : Prop :=
  ∃ (number : Bytes) (high low : UInt8), IsTrackNumber number b.track ∧ high < 0x80 ∧
    256 * high.toNat + low.toNat = b.offset ∧
    IsElement [0xA3] (number ++ high :: low :: 0x80 :: b.data) bytes

def IsCluster (c : Cluster) : Bytes → Prop :=
  IsMaster [0x1F, 0x43, 0xB6, 0x75] (IsUnsigned [0xE7] c.time :: c.blocks.map IsBlock)

/-- A cue holds its time, and for its track the position of the cluster. -/
def IsCue (c : Cue) : Bytes → Prop :=
  IsMaster [0xBB]
    [ IsUnsigned [0xB3] c.time,
      IsMaster [0xB7] [IsUnsigned [0xF7] c.track, IsUnsigned [0xF1] c.position,
        IsUnsigned [0xEA] 0] ]

def IsCues (cues : List Cue) : Bytes → Prop :=
  IsMaster [0x1C, 0x53, 0xBB, 0x6B] (cues.map IsCue)

/-- The entry of a track starts with its number. -/
def IsTrackEntry (t : Track) (bytes : Bytes) : Prop :=
  ∃ number others, IsUnsigned [0xD7] t.number number ∧ IsElement [0xAE] (number ++ others) bytes

def IsTracks (tracks : List Track) : Bytes → Prop :=
  IsMaster [0x16, 0x54, 0xAE, 0x6B] (tracks.map IsTrackEntry)

/-! ## Files -/

/-- The document header, and the identifier and the unknown size of the segment. -/
def IsLead : Bytes → Prop :=
  IsRow [IsAny [0x1A, 0x45, 0xDF, 0xA3],
    (· = [0x18, 0x53, 0x80, 0x67, 0x01, 0xFF, 0xFF, 0xFF, 0xFF, 0xFF, 0xFF, 0xFF])]

/-- Clusters, and their cues if there are any. -/
def IsBody (clusters : List Cluster) (cues : List Cue) : Bytes → Prop :=
  IsRow (clusters.map IsCluster ++ if cues = [] then [] else [IsCues cues])

/-- The content of a segment: the general information, the list of tracks, the clusters and their
cues. -/
def IsContent (tracks : List Track) (clusters : List Cluster) (cues : List Cue) : Bytes → Prop :=
  IsRow [IsAny [0x15, 0x49, 0xA9, 0x66], IsTracks tracks, IsBody clusters cues]

def IsFile (tracks : List Track) (clusters : List Cluster) (cues : List Cue) : Bytes → Prop :=
  IsRow [IsLead, IsContent tracks clusters cues]

/-! ## Rows in parts -/

section Parts

variable {α : Type} {bytes : Bytes} {part : Bytes → Prop} {parts parts' : List (Bytes → Prop)}

theorem isRow_singleton (here : part bytes) : IsRow [part] bytes := by
  have row := IsRow.cons here .nil
  rwa [List.append_nil] at row

theorem IsRow.append {bytes' : Bytes} (row : IsRow parts bytes) (row' : IsRow parts' bytes') :
    IsRow (parts ++ parts') (bytes ++ bytes') := by
  induction row with
  | nil => exact row'
  | cons here _ ih =>
    rw [List.append_assoc]
    exact .cons here ih

theorem IsRow.of_cons (row : IsRow (part :: parts) bytes) :
    ∃ first others, part first ∧ IsRow parts others ∧ bytes = first ++ others := by
  cases row with
  | cons here next => exact ⟨_, _, here, next, rfl⟩

theorem IsRow.of_append (row : IsRow (parts ++ parts') bytes) :
    ∃ first others, IsRow parts first ∧ IsRow parts' others ∧ bytes = first ++ others := by
  induction parts generalizing bytes with
  | nil => exact ⟨[], bytes, .nil, row, rfl⟩
  | cons part parts ih =>
    obtain ⟨first, others, here, next, rfl⟩ := row.of_cons
    obtain ⟨more, behind, left, right, rfl⟩ := ih next
    exact ⟨first ++ more, behind, .cons here left, right, (List.append_assoc ..).symm⟩

theorem IsRow.of_singleton (row : IsRow [part] bytes) : part bytes := by
  obtain ⟨first, others, here, none, rfl⟩ := row.of_cons
  cases none
  rwa [List.append_nil]

/-- A row is at least as long as its parts have to be. -/
theorem IsRow.sum_le {laid : α → Bytes → Prop} {room : α → Nat} {items : List α}
    (each : ∀ item part, laid item part → room item ≤ part.length)
    (row : IsRow (items.map laid) bytes) : (items.map room).sum ≤ bytes.length := by
  induction items generalizing bytes with
  | nil => exact Nat.zero_le _
  | cons item items ih =>
    obtain ⟨first, others, here, next, rfl⟩ := row.of_cons
    rw [List.map_cons, List.sum_cons, List.length_append]
    exact Nat.add_le_add (each item first here) (ih next)

end Parts

/-! ## What is laid out takes room -/

section Room

variable {bytes : Bytes}

theorem IsElement.length_le {identifier body : Bytes} (laid : IsElement identifier body bytes) :
    body.length ≤ bytes.length := by
  obtain ⟨size, -, rfl⟩ := laid
  rw [List.length_append, List.length_append]
  omega

theorem IsMaster.exists_row {identifier : Bytes} {parts : List (Bytes → Prop)}
    (laid : IsMaster identifier parts bytes) :
    ∃ body, IsRow parts body ∧ body.length ≤ bytes.length := by
  obtain ⟨body, row, laid⟩ := laid
  exact ⟨body, row, laid.length_le⟩

/-- Bytes that a block takes at least: those of its packet, and one for the flag before it. -/
def Block.room (b : Block) : Nat :=
  b.data.length + 1

theorem IsBlock.room_le {b : Block} (laid : IsBlock b bytes) : b.room ≤ bytes.length := by
  obtain ⟨number, high, low, -, -, -, laid⟩ := laid
  have body := laid.length_le
  rw [List.length_append, List.length_cons, List.length_cons, List.length_cons] at body
  rw [Block.room]
  omega

theorem IsCluster.room_le {c : Cluster} (laid : IsCluster c bytes) :
    (c.blocks.map Block.room).sum ≤ bytes.length := by
  obtain ⟨body, row, within⟩ := laid.exists_row
  obtain ⟨time, blocks, -, held, rfl⟩ := row.of_cons
  have taken := held.sum_le fun (b : Block) part (laid : IsBlock b part) => laid.room_le
  rw [List.length_append] at within
  omega

/-- A file has room for all of its blocks. -/
theorem IsFile.room_le {tracks : List Track} {clusters : List Cluster} {cues : List Cue}
    (laid : IsFile tracks clusters cues bytes) :
    ((clusters.flatMap Cluster.blocks).map Block.room).sum ≤ bytes.length := by
  obtain ⟨lead, _, -, content, rfl⟩ := laid.of_cons
  obtain ⟨info, _, -, behind, rfl⟩ := content.of_singleton.of_cons
  obtain ⟨list, _, -, body, rfl⟩ := behind.of_cons
  obtain ⟨blocks, index, held, -, rfl⟩ := body.of_singleton.of_append
  have taken := held.sum_le fun (c : Cluster) part (laid : IsCluster c part) => laid.room_le
  rw [List.flatMap_def, List.map_flatten, List.sum_flatten, List.map_map, List.map_map]
  simp only [List.length_append]
  exact Nat.le_trans taken (by omega)

end Room

/-! ## What is written is laid out so -/

section Written

variable {id value n : Nat} {identifier body bytes : Bytes} {α : Type}

theorem isSize_markedInteger (n : Nat) : IsSize (markedInteger (sizeWidth n) n) n := by
  unfold sizeWidth
  split
  · next same => exact ⟨1, by rw [same]; decide, bits_markedInteger (by rw [same]; decide)⟩
  · have room : n < 2 ^ (7 * (n.log2 / 7 + 1)) := by
      apply Nat.lt_of_lt_of_le Nat.lt_log2_self
      exact Nat.pow_le_pow_right Nat.two_pos (by omega)
    exact ⟨n.log2 / 7, room, bits_markedInteger room⟩

theorem isElement_element (named : bigEndian (byteCount id) id = identifier) (body : Bytes) :
    IsElement identifier body (element id body) := by
  refine ⟨_, isSize_markedInteger body.length, ?_⟩
  rw [element, named, List.append_assoc]

/-- The bytes of a number have room for it. -/
theorem lt_byteCount (n : Nat) : n < 256 ^ byteCount n := by
  rw [← two_pow_eight_mul]
  apply Nat.lt_of_lt_of_le Nat.lt_log2_self
  apply Nat.pow_le_pow_right Nat.two_pos
  rw [byteCount]
  omega

theorem isUnsigned_unsigned (named : bigEndian (byteCount id) id = identifier) (value : Nat) :
    IsUnsigned identifier value (unsigned id value) := by
  refine ⟨_, ?_, ?_, isElement_element named _⟩
  · rw [← List.length_pos_iff, length_bigEndian]
    exact Nat.succ_pos _
  · rw [bigValue_bigEndian, Nat.mod_eq_of_lt (lt_byteCount value)]

/-- A row of things that are written one after the other. -/
theorem isRow_flatMap {laid : α → Bytes → Prop} {encode : α → Bytes} {items : List α}
    (each : ∀ item ∈ items, laid item (encode item)) :
    IsRow (items.map laid) (items.flatMap encode) := by
  induction items with
  | nil => exact .nil
  | cons item rest ih =>
    rw [List.map_cons, List.flatMap_cons]
    exact .cons (each item (List.mem_cons_self ..))
      (ih fun other member => each other (List.mem_cons_of_mem _ member))

theorem isMaster_master {parts : List (Bytes → Prop)} {children : List Bytes}
    (named : bigEndian (byteCount id) id = identifier) (row : IsRow parts children.flatten) :
    IsMaster identifier parts (master id children) :=
  ⟨_, row, isElement_element named _⟩

theorem isTrackNumber_trackBytes (number : Nat) : IsTrackNumber (trackBytes number) number := by
  unfold IsTrackNumber
  split
  · next small => exact trackBytes_isShortest small
  · next large =>
    have full : (List.range' 1 8).find? (fun width => number + 1 < 2 ^ (7 * width)) = none := by
      rw [List.find?_eq_none]
      intro width within room
      obtain ⟨-, few⟩ := List.mem_range'_1.mp within
      have widest : (2 : Nat) ^ (7 * width) ≤ 2 ^ 56 :=
        Nat.pow_le_pow_right Nat.two_pos (by omega)
      have room := of_decide_eq_true room
      omega
    rw [trackBytes, full]
    show markedInteger 8 0 = _
    decide

/-- A block that is not far from the start of its cluster is written in full. -/
theorem isBlock_encode {b : Block} (near : b.offset ≤ Cluster.maxSpan) : IsBlock b b.encode := by
  rw [Cluster.maxSpan] at near
  have high : (UInt8.ofNat (b.offset / 256)).toNat = b.offset / 256 := by
    rw [UInt8.toNat_ofNat', Nat.mod_eq_of_lt (by omega)]
  have low : (UInt8.ofNat b.offset).toNat = b.offset % 256 := UInt8.toNat_ofNat'
  have word : bigEndian 2 b.offset = [UInt8.ofNat (b.offset / 256), UInt8.ofNat b.offset] := by
    rw [bigEndian_succ, bigEndian_succ, Nat.pow_one, Nat.pow_zero, Nat.div_one]
    rfl
  refine ⟨trackBytes b.track, UInt8.ofNat (b.offset / 256), UInt8.ofNat b.offset,
    isTrackNumber_trackBytes b.track, ?_, ?_, ?_⟩
  · rw [UInt8.lt_iff_toNat_lt, high]
    show b.offset / 256 < 128
    omega
  · rw [high, low]
    omega
  · have body := b.body_eq
    rw [word, List.append_assoc] at body
    rw [Block.encode, body]
    exact isElement_element (by decide) _

theorem isCluster_encode {c : Cluster} (bounded : ∀ b ∈ c.blocks, b.offset ≤ Cluster.maxSpan) :
    IsCluster c c.encode := by
  apply isMaster_master (by decide)
  rw [List.flatten_cons, ← List.flatMap_def]
  exact .cons (isUnsigned_unsigned (by decide) c.time)
    (isRow_flatMap fun b member => isBlock_encode (bounded b member))

theorem isCue_encode (c : Cue) : IsCue c c.encode := by
  have place : IsMaster [0xB7] [IsUnsigned [0xF7] c.track, IsUnsigned [0xF1] c.position,
      IsUnsigned [0xEA] 0]
      (master 0xB7 [unsigned 0xF7 c.track, unsigned 0xF1 c.position, unsigned 0xEA 0]) :=
    isMaster_master (by decide)
      (.cons (isUnsigned_unsigned (by decide) c.track)
        (.cons (isUnsigned_unsigned (by decide) c.position)
          (.cons (isUnsigned_unsigned (by decide) 0) .nil)))
  exact isMaster_master (by decide)
    (.cons (isUnsigned_unsigned (by decide) c.time) (.cons place .nil))

theorem isCues_encode (cues : List Cue) : IsCues cues (encodeCues cues) := by
  apply isMaster_master (by decide)
  rw [← List.flatMap_def]
  exact isRow_flatMap fun c _ => isCue_encode c

theorem isTrackEntry_entry {t : Track} {entry : Bytes} (made : t.entry = .ok entry) :
    IsTrackEntry t entry := by
  unfold Track.entry at made
  split at made
  · cases made
  · cases made
  · cases made
    exact ⟨_, _, isUnsigned_unsigned (by decide) t.number, isElement_element (by decide) _⟩

theorem isRow_entries {tracks : List Track} {entries : List Bytes}
    (made : tracks.mapM Track.entry = .ok entries) :
    IsRow (tracks.map IsTrackEntry) entries.flatten := by
  induction tracks generalizing entries with
  | nil =>
    cases made
    exact .nil
  | cons track rest ih =>
    -- All entries have been made, since none of them has failed.
    rw [List.mapM_cons] at made
    cases first : track.entry with
    | error failure =>
      rw [first] at made
      cases made
    | ok entry =>
      cases others : rest.mapM Track.entry with
      | error failure =>
        rw [first, others] at made
        cases made
      | ok entries' =>
        rw [first, others] at made
        cases made
        exact .cons (isTrackEntry_entry first) (ih others)

theorem isTracks_encodeTracks {tracks : List Track} {list : Bytes}
    (encoded : encodeTracks tracks = .ok list) : IsTracks tracks list := by
  rw [encodeTracks] at encoded
  cases made : tracks.mapM Track.entry with
  | error failure =>
    rw [made] at encoded
    cases encoded
  | ok entries =>
    rw [made] at encoded
    cases encoded
    exact isMaster_master (by decide) (isRow_entries made)

theorem isLead_encode (docType : DocType) : IsLead (encodeDocument docType ++ segmentStart) := by
  have start : segmentStart =
      [0x18, 0x53, 0x80, 0x67, 0x01, 0xFF, 0xFF, 0xFF, 0xFF, 0xFF, 0xFF, 0xFF] := by decide
  exact .cons ⟨_, isElement_element (by decide) _⟩ (isRow_singleton start)

theorem isAny_encodeInfo {program : String} :
    IsAny [0x15, 0x49, 0xA9, 0x66] (encodeInfo program) :=
  ⟨_, isElement_element (by decide) _⟩

end Written

end VorbisTrack.Matroska
