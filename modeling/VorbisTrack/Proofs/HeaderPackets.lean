import VorbisTrack.Command.HeaderReport

/-!
# Packing header packets and splitting them

A laced number is a run of bytes 255 that ends with a smaller byte (`Lacing.IsNumber`). It tells by
itself where it ends, so it can be read off the front of any string, and there is only one way to
write it (`Lacing.decode_eq_some_iff`). Hence splitting undoes packing
(`HeaderPackets.toExtradata_roundTrips`), and the strings that can be split are those that packing
gives, one for every three packets (`HeaderPackets.ofExtradata_splitsExactly`).

Splitting can also be done by positions in the string, with a check of each
(`HeaderPackets.splitByPosition?`). No check ever fails, and the result is the same.
-/

set_option autoImplicit false

namespace VorbisTrack

namespace Lacing

/-! ## Laced numbers -/

/-- A laced number: a run of bytes 255, ended by a smaller byte. The number is their sum. -/
def IsNumber (bytes : Bytes) (n : Nat) : Prop :=
  ∃ (run : Nat) (last : UInt8), last < 255 ∧ bytes = List.replicate run 255 ++ [last] ∧
    n = 255 * run + last.toNat

variable {bytes data rest : Bytes} {n : Nat}

theorem length_encode (n : Nat) : (encode n).length = n / 255 + 1 := by
  simp [encode]

/-- A packet takes its own length and that of its laced length. -/
theorem packedSize_eq (n : Nat) : packedSize n = (encode n).length + n := by
  rw [length_encode, packedSize]
  omega

theorem isNumber_encode (n : Nat) : IsNumber (encode n) n := by
  have small : n % 255 < 255 := Nat.mod_lt n (by decide)
  have last : (UInt8.ofNat (n % 255)).toNat = n % 255 := by
    rw [UInt8.toNat_ofNat']
    omega
  refine ⟨n / 255, UInt8.ofNat (n % 255), ?_, rfl, ?_⟩
  · rw [UInt8.lt_iff_toNat_lt, last]
    exact small
  · rw [last]
    omega

/-- A multiple of 255 still needs the byte that ends it. -/
example : encode 510 = [255, 255, 0] := by decide

/-- There is only one way to write a number. A run of 255 that is followed by a smaller byte is as
long as the number divided by 255. -/
theorem IsNumber.eq_encode (h : IsNumber bytes n) : bytes = encode n := by
  obtain ⟨run, last, small, rfl, rfl⟩ := h
  have below : last.toNat < 255 := UInt8.lt_iff_toNat_lt.mp small
  have quotient : (255 * run + last.toNat) / 255 = run := by omega
  have remainder : (255 * run + last.toNat) % 255 = last.toNat := by omega
  rw [encode, quotient, remainder, UInt8.ofNat_toNat]

/-- A number is read back, whatever follows it. -/
theorem IsNumber.decode_append (h : IsNumber bytes n) (rest : Bytes) :
    decode (bytes ++ rest) = some (n, rest) := by
  obtain ⟨run, last, small, rfl, rfl⟩ := h
  have other : last ≠ 255 := by
    rintro rfl
    exact absurd small (by decide)
  induction run with
  | zero => simp [decode, other]
  | succ run ih =>
    have longer : 255 * (run + 1) + last.toNat = 255 + (255 * run + last.toNat) := by omega
    rw [List.replicate_succ, List.cons_append, List.cons_append, decode, if_pos rfl, ih, longer]
    rfl

/-- What has been read is a number. -/
theorem isNumber_of_decode (read : decode data = some (n, rest)) :
    ∃ bytes, IsNumber bytes n ∧ data = bytes ++ rest := by
  fun_induction decode data generalizing n with
  | case1 => cases read
  | case2 more ih =>
    -- One more byte 255 in front makes the run longer.
    obtain ⟨⟨m, _⟩, later, same⟩ := Option.map_eq_some_iff.mp read
    cases same
    obtain ⟨bytes, ⟨run, last, small, rfl, rfl⟩, rfl⟩ := ih later
    refine ⟨255 :: (List.replicate run 255 ++ [last]), ⟨run + 1, last, small, rfl, ?_⟩, rfl⟩
    omega
  | case3 b more other =>
    cases read
    refine ⟨[b], ⟨0, b, ?_, rfl, by omega⟩, rfl⟩
    have differs : b.toNat ≠ 255 := fun same => other (UInt8.toNat_inj.mp same)
    have bound := b.toNat_lt
    rw [UInt8.lt_iff_toNat_lt]
    show b.toNat < 255
    omega

/-- Reading gives a number and a rest exactly if the string is that number, followed by that rest.
-/
theorem decode_eq_some_iff : decode data = some (n, rest) ↔ data = encode n ++ rest := by
  constructor
  · intro read
    obtain ⟨bytes, number, rfl⟩ := isNumber_of_decode read
    rw [number.eq_encode]
  · rintro rfl
    exact (isNumber_encode n).decode_append rest

/-! ## Reading at a position -/

/-- Reads a number that starts at a position. The answer is the number and the position behind it.
-/
def readAt? (data : Bytes) (position : Nat) : Option (Nat × Nat) :=
  match _found : data[position]? with
  | none => none
  | some b =>
    if b = 255 then (readAt? data (position + 1)).map fun (n, next) => (255 + n, next)
    else some (b.toNat, position + 1)
termination_by data.length - position
decreasing_by
  have within := (List.getElem?_eq_some_iff.mp _found).1
  omega

/-- The position behind a number still lies in the string, or at its end. -/
theorem le_length_of_readAt? {position next : Nat} (read : readAt? data position = some (n, next)) :
    next ≤ data.length := by
  fun_induction readAt? data position generalizing n with
  | case1 => cases read
  | case2 position _ ih =>
    obtain ⟨⟨m, _⟩, later, same⟩ := Option.map_eq_some_iff.mp read
    cases same
    exact ih later
  | case3 position b found _ =>
    cases read
    exact (List.getElem?_eq_some_iff.mp found).1

/-- Reading at a position is reading what stands from there on. -/
theorem decode_drop (data : Bytes) (position : Nat) :
    decode (data.drop position) =
      (readAt? data position).map fun (n, next) => (n, data.drop next) := by
  fun_induction readAt? data position with
  | case1 position none =>
    rw [List.drop_eq_nil_iff.mpr (List.getElem?_eq_none_iff.mp none)]
    rfl
  | case2 position found ih =>
    obtain ⟨within, here⟩ := List.getElem?_eq_some_iff.mp found
    rw [List.drop_eq_getElem_cons within, here, decode, if_pos rfl, ih, Option.map_map,
      Option.map_map]
    rfl
  | case3 position b found other =>
    obtain ⟨within, here⟩ := List.getElem?_eq_some_iff.mp found
    rw [List.drop_eq_getElem_cons within, here, decode, if_neg other]
    rfl

end Lacing

namespace HeaderPackets

variable {data : Bytes} {h : HeaderPackets}

/-! ## Packing -/

theorem extradataSize_eq (h : HeaderPackets) :
    h.extradataSize =
      1 + ((Lacing.encode h.identification.length).length +
        (Lacing.encode h.comment.length).length) +
        (h.identification.length + h.comment.length + h.setup.length) := by
  rw [extradataSize, Lacing.packedSize_eq, Lacing.packedSize_eq]
  omega

theorem length_toExtradata (h : HeaderPackets) : h.toExtradata.length = h.extradataSize := by
  rw [extradataSize_eq]
  simp only [toExtradata, List.length_append, List.length_cons]
  omega

/-- A string is packed if the count byte is followed by two laced numbers and by no fewer bytes than
these add up to. -/
def IsPacked (data : Bytes) : Prop :=
  ∃ (first second body : Bytes) (n m : Nat), Lacing.IsNumber first n ∧ Lacing.IsNumber second m ∧
    data = 2 :: (first ++ second ++ body) ∧ n + m ≤ body.length

theorem isPacked_toExtradata (h : HeaderPackets) : IsPacked h.toExtradata := by
  refine ⟨_, _, h.identification ++ h.comment ++ h.setup, _, _,
    Lacing.isNumber_encode h.identification.length, Lacing.isNumber_encode h.comment.length, ?_, ?_⟩
  · simp only [toExtradata, List.cons_append, List.append_assoc]
  · simp only [List.length_append]
    omega

/-! ## Splitting -/

/-- How a string that is packed is split. -/
theorem ofExtradata_of_isNumber {first second body : Bytes} {n m : Nat}
    (number : Lacing.IsNumber first n) (number' : Lacing.IsNumber second m)
    (enough : n + m ≤ body.length) :
    ofExtradata (2 :: (first ++ second ++ body)) =
      .ok
        { identification := body.take n
          comment := (body.drop n).take m
          setup := (body.drop n).drop m } := by
  have read := number.decode_append (second ++ body)
  have read' := number'.decode_append body
  rw [List.append_assoc]
  simp only [ofExtradata, ne_eq, not_true, if_false, read, read',
    if_neg (Nat.not_lt.mpr enough)]

/-- A string that can be split consists of its parts, and is packed. -/
theorem eq_toExtradata_of_ofExtradata (split : ofExtradata data = .ok h) :
    data = h.toExtradata := by
  cases data with
  | nil => cases split
  | cons count rest =>
    simp only [ofExtradata] at split
    split at split
    · cases split
    · next three =>
      split at split
      · cases split
      · next n rest' read =>
        split at split
        · cases split
        · next m body read' =>
          split at split
          · cases split
          · next enough =>
            cases split
            -- The lengths that were read are those of the parts, as the body is long enough.
            have firstLength : (body.take n).length = n := by
              rw [List.length_take]
              omega
            have secondLength : ((body.drop n).take m).length = m := by
              rw [List.length_take, List.length_drop]
              omega
            rw [Decidable.not_not.mp three, Lacing.decode_eq_some_iff.mp read,
              Lacing.decode_eq_some_iff.mp read']
            simp only [toExtradata, firstLength, secondLength, List.append_assoc,
              List.take_append_drop, List.cons_append]

/-- Splitting undoes packing, and it takes no other string for these packets. -/
theorem ofExtradata_eq_ok_iff : ofExtradata data = .ok h ↔ data = h.toExtradata := by
  constructor
  · exact eq_toExtradata_of_ofExtradata
  · rintro rfl
    have enough : h.identification.length + h.comment.length ≤
        (h.identification ++ h.comment ++ h.setup).length := by
      simp only [List.length_append]
      omega
    have split := ofExtradata_of_isNumber (Lacing.isNumber_encode h.identification.length)
      (Lacing.isNumber_encode h.comment.length) enough
    rw [List.append_assoc h.identification, List.take_left, List.drop_left, List.take_left,
      List.drop_left] at split
    simpa only [toExtradata, List.cons_append, List.append_assoc] using split

theorem isPacked_iff : IsPacked data ↔ ∃ h, ofExtradata data = .ok h := by
  constructor
  · rintro ⟨first, second, body, n, m, number, number', rfl, enough⟩
    exact ⟨_, ofExtradata_of_isNumber number number' enough⟩
  · rintro ⟨h, split⟩
    rw [ofExtradata_eq_ok_iff.mp split]
    exact isPacked_toExtradata h

/-- All that is said against a string is said of its format. -/
theorem kind_of_ofExtradata {failure : Failure} (refused : ofExtradata data = .error failure) :
    failure.kind = .format := by
  cases data with
  | nil =>
    cases refused
    rfl
  | cons count rest =>
    simp only [ofExtradata] at refused
    split at refused
    · cases refused
      rfl
    · split at refused
      · cases refused
        rfl
      · split at refused
        · cases refused
          rfl
        · split at refused
          · cases refused
            rfl
          · cases refused

/-! ## Splitting by positions -/

/-- The part of a string between two positions, if both lie in it, in this order. -/
def slice? (data : Bytes) (start stop : Nat) : Option Bytes :=
  if start ≤ stop ∧ stop ≤ data.length then some ((data.take stop).drop start) else none

/-- Splits a laced form by positions in it. There is no answer if a position lies outside of the
string that it is meant for. -/
def splitByPosition? (data : Bytes) : Option (Except Failure HeaderPackets) :=
  match data[0]? with
  | none => some (.error .emptyExtradata)
  | some count =>
    if count ≠ 2 then some (.error (.headerCount (count.toNat + 1)))
    else
      match Lacing.readAt? data 1 with
      | none => some (.error .truncatedLacing)
      | some (identificationLength, position) =>
        match Lacing.readAt? data position with
        | none => some (.error .truncatedLacing)
        | some (commentLength, position) => do
          let body ← slice? data position data.length
          if body.length < identificationLength + commentLength then
            return .error (.headerOverrun identificationLength commentLength body.length)
          let identification ← slice? body 0 identificationLength
          let rest ← slice? body identificationLength body.length
          let comment ← slice? rest 0 commentLength
          let setup ← slice? rest commentLength rest.length
          return .ok { identification, comment, setup }

theorem slice?_zero {stop : Nat} (within : stop ≤ data.length) :
    slice? data 0 stop = some (data.take stop) := by
  rw [slice?, if_pos ⟨Nat.zero_le stop, within⟩, List.drop_zero]

theorem slice?_length {start : Nat} (within : start ≤ data.length) :
    slice? data start data.length = some (data.drop start) := by
  rw [slice?, if_pos ⟨within, Nat.le_refl _⟩, List.take_length]

/-- No position lies outside. -/
theorem splitByPosition?_eq (data : Bytes) :
    splitByPosition? data = some (ofExtradata data) := by
  cases data with
  | nil => rfl
  | cons count rest =>
    have first := Lacing.decode_drop (count :: rest) 1
    rw [List.drop_one, List.tail_cons] at first
    simp only [splitByPosition?, ofExtradata, List.getElem?_cons_zero]
    split
    · rfl
    · rw [first]
      cases read : Lacing.readAt? (count :: rest) 1 with
      | none => rfl
      | some reply =>
        obtain ⟨n, position⟩ := reply
        have second := Lacing.decode_drop (count :: rest) position
        simp only [Option.map_some]
        rw [second]
        cases read' : Lacing.readAt? (count :: rest) position with
        | none => rfl
        | some reply =>
          obtain ⟨m, next⟩ := reply
          simp only [Option.map_some, slice?_length (Lacing.le_length_of_readAt? read'),
            Option.bind_eq_bind, Option.bind_some]
          generalize (count :: rest).drop next = body
          split
          · rfl
          · next enough =>
            -- What is left behind the first part is long enough for the second.
            have within : n ≤ body.length := by omega
            have within' : m ≤ (body.drop n).length := by
              rw [List.length_drop]
              omega
            simp only [slice?_zero within, slice?_length within, slice?_zero within',
              slice?_length within', Option.bind_some]
            rfl

/-! ## The whole -/

/-- What packing makes of three packets, and what is told of it. -/
structure RoundTrips (h : HeaderPackets) : Prop where
  /-- The laced form is as long as announced. -/
  size : h.toExtradata.length = h.extradataSize
  /-- It is the count byte, two laced lengths and the packets, and these parts add up to its size.
  -/
  parts : ∃ first second : Bytes, Lacing.IsNumber first h.identification.length ∧
    Lacing.IsNumber second h.comment.length ∧
    h.toExtradata = 2 :: (first ++ second ++ (h.identification ++ h.comment ++ h.setup)) ∧
    h.extradataSize = 1 + (first.length + second.length) +
      (h.identification.length + h.comment.length + h.setup.length)
  /-- The layout that is told adds up to the size. Its lacing is found by taking each length from
  its packed size, going from left to right, and no difference falls below zero. -/
  layout : ∃ lacing : Nat,
    Command.HeaderReport.layout h =
      ["count: 1", s!"lacing: {lacing}", s!"identification: {h.identification.length}",
        s!"comment: {h.comment.length}", s!"setup: {h.setup.length}"] ∧
    lacing = Lacing.packedSize h.identification.length - h.identification.length +
      Lacing.packedSize h.comment.length - h.comment.length ∧
    h.identification.length ≤ Lacing.packedSize h.identification.length ∧
    h.comment.length ≤ Lacing.packedSize h.identification.length - h.identification.length +
      Lacing.packedSize h.comment.length ∧
    1 + lacing + h.identification.length + h.comment.length + h.setup.length = h.extradataSize
  split : ofExtradata h.toExtradata = .ok h

/-- **Packing and splitting round-trip**, whatever the lengths of the packets. -/
theorem toExtradata_roundTrips (h : HeaderPackets) : h.RoundTrips where
  size := length_toExtradata h
  parts := by
    refine ⟨_, _, Lacing.isNumber_encode _, Lacing.isNumber_encode _, ?_, extradataSize_eq h⟩
    simp only [toExtradata, List.cons_append, List.append_assoc]
  layout := by
    have first := Lacing.packedSize_eq h.identification.length
    have second := Lacing.packedSize_eq h.comment.length
    have size := extradataSize_eq h
    refine ⟨_, rfl, ?_, ?_, ?_, ?_⟩
    all_goals omega
  split := ofExtradata_eq_ok_iff.mpr rfl

structure SplitsExactly (data : Bytes) : Prop where
  accepts : (∃ h, ofExtradata data = .ok h) ↔ IsPacked data
  refuses : ¬ IsPacked data → ∃ failure, ofExtradata data = .error failure ∧ failure.kind = .format
  /-- Going by positions, none of them lies outside of the string. -/
  inRange : splitByPosition? data = some (ofExtradata data)
  /-- Packing the parts again gives the string, and no other string has these parts. -/
  canonical : ∀ h, ofExtradata data = .ok h →
    h.toExtradata = data ∧ ∀ other, ofExtradata other = .ok h → other = data

/-- **Exactly the packed strings can be split**, each into the packets that it was packed from. -/
theorem ofExtradata_splitsExactly (data : Bytes) : SplitsExactly data where
  accepts := isPacked_iff.symm
  refuses := by
    intro unpacked
    cases split : ofExtradata data with
    | ok h => exact absurd (isPacked_iff.mpr ⟨h, split⟩) unpacked
    | error failure => exact ⟨failure, rfl, kind_of_ofExtradata split⟩
  inRange := splitByPosition?_eq data
  canonical := by
    intro h split
    have same := ofExtradata_eq_ok_iff.mp split
    refine ⟨same.symm, ?_⟩
    intro other split'
    rw [same]
    exact ofExtradata_eq_ok_iff.mp split'

end HeaderPackets

end VorbisTrack
