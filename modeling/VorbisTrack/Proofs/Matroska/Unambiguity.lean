import VorbisTrack.Proofs.Matroska.Layout

/-!
# A file can be read in one way only

The size of an element tells where it ends, and its identifier what kind of element it is. So two
descriptions of the same bytes have the same parts, one after the other, whatever follows them. In
the end a file is laid out for no other clusters than those it is made of (`IsFile.clusters_eq`).
-/

set_option autoImplicit false

namespace VorbisTrack.Matroska

open Bytes

variable {a b rest rest' : Bytes}

/-! ## Elements -/

/-- Zeros in front of a mark are counted. -/
theorem replicate_mark {zeros zeros' : Nat} {bits bits' : List Bool}
    (same : List.replicate zeros false ++ true :: bits =
      List.replicate zeros' false ++ true :: bits') : zeros = zeros' ∧ bits = bits' := by
  induction zeros generalizing zeros' with
  | zero =>
    cases zeros' with
    | zero => exact ⟨rfl, (List.cons.inj same).2⟩
    | succ zeros' => cases (List.cons.inj same).1
  | succ zeros ih =>
    cases zeros' with
    | zero => cases (List.cons.inj same).1
    | succ zeros' =>
      obtain ⟨counted, others⟩ := ih (List.cons.inj same).2
      exact ⟨congrArg Nat.succ counted, others⟩

/-- A size tells where it ends. -/
theorem IsSize.cut {n m : Nat} (first : IsSize a n) (second : IsSize b m)
    (same : a ++ rest = b ++ rest') : n = m ∧ rest = rest' := by
  obtain ⟨further, room, laid⟩ := first
  obtain ⟨further', room', laid'⟩ := second
  have bits_ := congrArg bits same
  rw [bits, bits, List.flatMap_append, List.flatMap_append, ← bits, ← bits, ← bits, ← bits, laid,
    laid', List.append_assoc, List.append_assoc, List.cons_append, List.cons_append] at bits_
  obtain ⟨rfl, others⟩ := replicate_mark bits_
  obtain ⟨value, behind⟩ := List.append_inj others (by rw [length_lowBits, length_lowBits])
  exact ⟨eq_of_lowBits_eq room room' value, bits_injective behind⟩

/-- An element tells where it ends, and what it holds. -/
theorem IsElement.cut {identifier body body' : Bytes} (first : IsElement identifier body a)
    (second : IsElement identifier body' b) (same : a ++ rest = b ++ rest') :
    body = body' ∧ rest = rest' := by
  obtain ⟨size, sized, rfl⟩ := first
  obtain ⟨size', sized', rfl⟩ := second
  rw [List.append_assoc, List.append_assoc, List.append_assoc, List.append_assoc] at same
  obtain ⟨lengths, behind⟩ := sized.cut sized' (List.append_cancel_left same)
  exact List.append_inj behind lengths

theorem IsUnsigned.cut {identifier : Bytes} {value value' : Nat}
    (first : IsUnsigned identifier value a) (second : IsUnsigned identifier value' b)
    (same : a ++ rest = b ++ rest') : value = value' ∧ rest = rest' := by
  obtain ⟨digits, -, rfl, laid⟩ := first
  obtain ⟨digits', -, rfl, laid'⟩ := second
  obtain ⟨rfl, behind⟩ := laid.cut laid' same
  exact ⟨rfl, behind⟩

theorem IsVariableInteger.isSize {n : Nat} (written : IsVariableInteger a n) : IsSize a n := by
  obtain ⟨further, -, room, laid⟩ := written
  exact ⟨further, room, laid⟩

/-- The number of a track that eight bytes have room for is told from all others. -/
theorem IsTrackNumber.cut {n m : Nat} (small : n < 2 ^ 56 - 1) (first : IsTrackNumber a n)
    (second : IsTrackNumber b m) (same : a ++ rest = b ++ rest') : n = m ∧ rest = rest' := by
  rw [IsTrackNumber, if_pos small] at first
  rw [IsTrackNumber] at second
  split at second
  · exact first.written.isSize.cut second.written.isSize same
  · -- Eight bytes for a zero are not the fewest.
    have zero : IsVariableInteger b 0 := by
      rw [second]
      exact isVariableInteger_markedInteger (by decide : 7 < 8) (by decide)
    obtain ⟨rfl, behind⟩ := first.written.isSize.cut zero.isSize same
    rw [behind] at same
    have few := first.shortest (markedInteger 1 0)
      (isVariableInteger_markedInteger (by decide : 0 < 8) (by decide))
      (by rw [isReserved_markedInteger_iff (by decide : 0 < 8) (by decide)]; decide)
    rw [List.append_cancel_right same, second] at few
    exact absurd few (by decide)

theorem IsBlock.cut {x y : Block} (small : x.track < 2 ^ 56 - 1) (first : IsBlock x a)
    (second : IsBlock y b) (same : a ++ rest = b ++ rest') : x = y ∧ rest = rest' := by
  obtain ⟨number, high, low, numbered, -, time, laid⟩ := first
  obtain ⟨number', high', low', numbered', -, time', laid'⟩ := second
  obtain ⟨bodies, behind⟩ := laid.cut laid' same
  obtain ⟨track, others⟩ := numbered.cut small numbered' bodies
  obtain ⟨rfl, rfl, -, data⟩ : high = high' ∧ low = low' ∧ True ∧ x.data = y.data := by
    simpa using others
  refine ⟨?_, behind⟩
  cases x
  cases y
  simp only at track time time' data
  rw [track, ← time, time', data]

/-! ## Rows -/

theorem IsElement.identifier_isPrefix {identifier body : Bytes}
    (laid : IsElement identifier body a) : identifier <+: a := by
  obtain ⟨size, -, rfl⟩ := laid
  exact List.prefix_append ..

theorem IsMaster.identifier_isPrefix {identifier : Bytes} {parts : List (Bytes → Prop)}
    (laid : IsMaster identifier parts a) : identifier <+: a := by
  obtain ⟨body, -, laid⟩ := laid
  exact laid.identifier_isPrefix

/-- A row of elements ends where no further one with their identifier starts. -/
theorem IsRow.cut {α : Type} {laid : α → Bytes → Prop} {identifier : Bytes} {items items' : List α}
    (starts : ∀ item bytes, laid item bytes → identifier <+: bytes)
    (each : ∀ item ∈ items, ∀ (other : α) (a b rest rest' : Bytes), laid item a → laid other b →
      a ++ rest = b ++ rest' → item = other ∧ rest = rest')
    (first : IsRow (items.map laid) a) (second : IsRow (items'.map laid) b)
    (ends : ¬ identifier <+: rest) (ends' : ¬ identifier <+: rest')
    (same : a ++ rest = b ++ rest') : items = items' ∧ rest = rest' := by
  have further {item : α} {a others : Bytes} (here : laid item a) : identifier <+: a ++ others :=
    (starts item a here).trans (List.prefix_append ..)
  induction items generalizing items' a b with
  | nil =>
    cases first
    cases items' with
    | nil =>
      cases second
      exact ⟨rfl, same⟩
    | cons other others =>
      obtain ⟨part, behind, here, -, rfl⟩ := second.of_cons
      rw [List.nil_append, List.append_assoc] at same
      rw [same] at ends
      exact absurd (further here) ends
  | cons item items ih =>
    obtain ⟨part, behind, here, next, rfl⟩ := first.of_cons
    cases items' with
    | nil =>
      cases second
      rw [List.nil_append, List.append_assoc] at same
      rw [← same] at ends'
      exact absurd (further here) ends'
    | cons other others =>
      obtain ⟨part', behind', here', next', rfl⟩ := second.of_cons
      rw [List.append_assoc, List.append_assoc] at same
      obtain ⟨rfl, left⟩ := each item (List.mem_cons_self ..) _ _ _ _ _ here here' same
      obtain ⟨rfl, ending⟩ :=
        ih (fun item member => each item (List.mem_cons_of_mem _ member)) next next' left
      exact ⟨rfl, ending⟩

theorem IsCluster.cut {x y : Cluster} (small : ∀ block ∈ x.blocks, block.track < 2 ^ 56 - 1)
    (first : IsCluster x a) (second : IsCluster y b) (same : a ++ rest = b ++ rest') :
    x = y ∧ rest = rest' := by
  obtain ⟨body, row, laid⟩ := first
  obtain ⟨body', row', laid'⟩ := second
  obtain ⟨bodies, behind⟩ := laid.cut laid' same
  refine ⟨?_, behind⟩
  obtain ⟨time, blocks, timed, held, rfl⟩ := row.of_cons
  obtain ⟨time', blocks', timed', held', rfl⟩ := row'.of_cons
  obtain ⟨sameTime, others⟩ := timed.cut timed' bodies
  have starts (block : Block) (bytes : Bytes) (laid : IsBlock block bytes) : [0xA3] <+: bytes := by
    obtain ⟨_, _, _, -, -, -, laid⟩ := laid
    exact laid.identifier_isPrefix
  rw [← List.append_nil blocks, ← List.append_nil blocks'] at others
  obtain ⟨sameBlocks, -⟩ := IsRow.cut starts
    (fun block member _ _ _ _ _ laid laid' => laid.cut (small block member) laid')
    held held' (by decide) (by decide) others
  cases x
  cases y
  cases sameTime
  cases sameBlocks
  rfl

/-! ## Files -/

/-- What holds of a part, however the bytes behind it go on. -/
theorem IsAny.cut {identifier : Bytes} (first : IsAny identifier a) (second : IsAny identifier b)
    (same : a ++ rest = b ++ rest') : rest = rest' := by
  obtain ⟨body, laid⟩ := first
  obtain ⟨body', laid'⟩ := second
  exact (laid.cut laid' same).2

theorem IsMaster.isAny {identifier : Bytes} {parts : List (Bytes → Prop)}
    (laid : IsMaster identifier parts a) : IsAny identifier a := by
  obtain ⟨body, -, laid⟩ := laid
  exact ⟨body, laid⟩

theorem IsLead.cut (first : IsLead a) (second : IsLead b) (same : a ++ rest = b ++ rest') :
    rest = rest' := by
  obtain ⟨document, start, headed, segment, rfl⟩ := first.of_cons
  obtain ⟨document', start', headed', segment', rfl⟩ := second.of_cons
  rw [segment.of_singleton, segment'.of_singleton, List.append_assoc, List.append_assoc] at same
  exact List.append_cancel_left (headed.cut headed' same)

/-- The clusters of a segment are told by what stands behind its tracks. -/
theorem IsBody.clusters_eq {clusters clusters' : List Cluster} {cues cues' : List Cue}
    (small : ∀ c ∈ clusters, ∀ block ∈ c.blocks, block.track < 2 ^ 56 - 1)
    (first : IsBody clusters cues a) (second : IsBody clusters' cues' a) :
    clusters = clusters' := by
  obtain ⟨row, index, laid, indexed, rfl⟩ := first.of_append
  obtain ⟨row', index', laid', indexed', same⟩ := second.of_append
  -- The cues are no further cluster.
  have ends {cues : List Cue} {index : Bytes}
      (indexed : IsRow (if cues = [] then [] else [IsCues cues]) index) :
      ¬ [0x1F, 0x43, 0xB6, 0x75] <+: index := by
    split at indexed
    · cases indexed
      decide
    · obtain ⟨all, _, cued, -, rfl⟩ := indexed.of_cons
      obtain ⟨_, identified⟩ := cued.identifier_isPrefix
      rw [← identified]
      rintro ⟨_, other⟩
      cases (List.cons.inj other).1
  exact (IsRow.cut (fun _ _ => IsMaster.identifier_isPrefix)
    (fun c member _ _ _ _ _ => IsCluster.cut (small c member)) laid laid'
    (ends indexed) (ends indexed') same).1

/-- A file is made of no other clusters. -/
theorem IsFile.clusters_eq {tracks tracks' : List Track} {clusters clusters' : List Cluster}
    {cues cues' : List Cue} (small : ∀ c ∈ clusters, ∀ block ∈ c.blocks, block.track < 2 ^ 56 - 1)
    (first : IsFile tracks clusters cues a) (second : IsFile tracks' clusters' cues' a) :
    clusters' = clusters := by
  obtain ⟨lead, content, led, row, rfl⟩ := first.of_cons
  obtain ⟨lead', content', led', row', same⟩ := second.of_cons
  have contents := led.cut led' same
  obtain ⟨info, behind, informed, more, rfl⟩ := row.of_singleton.of_cons
  obtain ⟨info', behind', informed', more', rfl⟩ := row'.of_singleton.of_cons
  obtain ⟨list, body, listed, last, rfl⟩ := more.of_cons
  obtain ⟨list', body', listed', last', rfl⟩ := more'.of_cons
  have bodies := listed.isAny.cut listed'.isAny (informed.cut informed' contents)
  rw [← bodies] at last'
  exact (last.of_singleton.clusters_eq small last'.of_singleton).symm

end VorbisTrack.Matroska
