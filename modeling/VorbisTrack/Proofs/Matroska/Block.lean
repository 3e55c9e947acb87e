import VorbisTrack.Matroska.Cluster
import VorbisTrack.Proofs.Matroska.Element

/-!
# Blocks are read back

In a block, the number of its track stands in front of everything else, and nothing but the number
itself tells where it ends. It is written in the fewest bytes in which it is not reserved
(`trackBytes_isShortest`), by shifts and masks of words that lose no bit
(`numberInWords?_eq_trackBytes`).

A reader of such integers therefore finds the number, and behind it the time, the flag and the
packet, whatever bytes the packet starts with. Two blocks have the same body only if they hold the
same (`Block.layOut_decodesUniquely`).
-/

set_option autoImplicit false

namespace VorbisTrack.Matroska

open Bytes

variable {further n : Nat}

/-! ## Numbers of tracks -/

/-- An integer in the fewest bytes in which it is not reserved. -/
structure IsShortest (bytes : Bytes) (n : Nat) : Prop where
  written : IsVariableInteger bytes n
  proper : ¬ IsReserved bytes
  shortest : ∀ other, IsVariableInteger other n → ¬ IsReserved other →
    bytes.length ≤ other.length

/-- The width that a number is written in is the first one with room for it. -/
theorem exists_trackBytes_eq (small : n < 2 ^ 56 - 1) :
    ∃ further < 8, trackBytes n = markedInteger (further + 1) n ∧ n + 1 < 2 ^ (7 * (further + 1)) ∧
      ∀ fewer < further, 2 ^ (7 * (fewer + 1)) ≤ n + 1 := by
  unfold trackBytes
  cases found : (List.range' 1 8).find? fun width => n + 1 < 2 ^ (7 * width) with
  | none =>
    have none_ := List.find?_eq_none.mp found 8 (by decide)
    have room : n + 1 < 2 ^ (7 * 8) := by omega
    exact absurd (decide_eq_true room) none_
  | some width =>
    obtain ⟨room, within, before⟩ := List.find?_range'_eq_some.mp found
    obtain ⟨positive, few⟩ := List.mem_range'_1.mp within
    obtain ⟨further, rfl⟩ := Nat.exists_eq_add_of_lt (show 0 < width by omega)
    rw [Nat.zero_add] at room before few ⊢
    refine ⟨further, by omega, rfl, of_decide_eq_true room, ?_⟩
    intro fewer less
    have full := before (fewer + 1) (by omega) (by omega)
    simpa using full

/-- The number of a track is written in the fewest bytes. -/
theorem trackBytes_isShortest (small : n < 2 ^ 56 - 1) : IsShortest (trackBytes n) n := by
  obtain ⟨further, few, same, room, full⟩ := exists_trackBytes_eq small
  rw [same]
  refine ⟨isVariableInteger_markedInteger few (by omega), ?_, ?_⟩
  · rw [isReserved_markedInteger_iff few (by omega)]
    omega
  · intro other written proper
    obtain ⟨further', few', room', rfl⟩ := isVariableInteger_iff.mp written
    rw [isReserved_markedInteger_iff few' room'] at proper
    rw [length_markedInteger, length_markedInteger]
    -- A width with fewer bytes is full, so the number would not fit or be reserved.
    rcases Nat.lt_or_ge further' further with less | enough
    · have := full further' less
      omega
    · omega

/-- In one byte, 127 would set all bits. -/
example : trackBytes 126 = [0xFE] ∧ trackBytes 127 = [0x40, 0x7F] := by decide

/-! ## Writing a number in words -/

/-- Moves the bits of a word up. There is no answer if the word is not wider than that, or if a bit
would be lost. -/
def shiftUp? (word : UInt64) (places : Nat) : Option UInt64 :=
  if places < 64 ∧ word.toNat * 2 ^ places < 2 ^ 64 then some (word <<< UInt64.ofNat places)
  else none

def shiftByteUp? (byte : UInt8) (places : Nat) : Option UInt8 :=
  if places < 8 ∧ byte.toNat * 2 ^ places < 2 ^ 8 then some (byte <<< UInt8.ofNat places) else none

/-- Moves the bits of a word down, where bits may be lost. -/
def shiftDown? (word : UInt64) (places : Nat) : Option UInt64 :=
  if places < 64 then some (word >>> UInt64.ofNat places) else none

def subtract? (a b : UInt64) : Option UInt64 :=
  if b ≤ a then some (a - b) else none

/-- Takes bytes off a word, the low ones first. -/
def wordBytes? : Nat → UInt64 → Option Bytes
  | 0, _ => some []
  | count + 1, word => do
    let rest ← wordBytes? count (← shiftDown? word 8)
    return (word &&& 0xFF).toUInt8 :: rest

/-- Sets the mark in the first byte. There is no answer if the mark would not stand above the bits
that are set there. -/
def setMark? (mark : UInt8) : Bytes → Option Bytes
  | [] => none
  | first :: rest => if first < mark then some ((first ||| mark) :: rest) else none

/-- The largest integer that a width has bits for. -/
def largest? (width : Nat) : Option UInt64 := do
  subtract? (← shiftUp? 1 (7 * width)) 1

/-- Writes a number behind the mark of a width, if there is a byte with a place for this mark. -/
def markedInWords? (width : Nat) (number : UInt64) : Option Bytes :=
  if width ≤ 8 then do
    let mark ← shiftByteUp? 1 (8 - width)
    setMark? mark (← wordBytes? width number).reverse
  else none

/-- Writes a number in the first of some widths that has room for it. -/
def numberAmong? (number : UInt64) : List Nat → Option Bytes
  | [] => some [1, 0, 0, 0, 0, 0, 0, 0]
  | width :: wider => do
    if number < (← largest? width) then markedInWords? width number
    else numberAmong? number wider

/-- Writes the number of a track in words. There is no answer if a step overflows. -/
def numberInWords? (number : UInt64) : Option Bytes :=
  numberAmong? number (List.range' 1 8)

/-- The bytes of a word, taken off one by one. -/
theorem wordBytes?_eq (count : Nat) (word : UInt64) :
    wordBytes? count word = some (littleEndian count word.toNat) := by
  induction count generalizing word with
  | zero => rfl
  | succ count ih =>
    have low : (word &&& 0xFF).toUInt8 = UInt8.ofNat word.toNat := by
      have ones : (0xFF : UInt64).toNat = 2 ^ 8 - 1 := rfl
      apply UInt8.toNat_inj.mp
      rw [UInt64.toNat_toUInt8, UInt64.toNat_and, ones, Nat.and_two_pow_sub_one_eq_mod,
        Nat.mod_mod, UInt8.toNat_ofNat']
    have high : (word >>> 8).toNat = word.toNat / 256 := by
      rw [UInt64.toNat_shiftRight]
      exact Nat.shiftRight_eq_div_pow word.toNat 8
    have moved : shiftDown? word 8 = some (word >>> 8) := rfl
    rw [wordBytes?, moved, littleEndian, ← low, ← high]
    show (wordBytes? count (word >>> 8)).bind _ = _
    rw [ih]
    rfl

/-- A mark that is moved into its place. -/
theorem shiftByteUp?_one :
    ∀ places < 8, shiftByteUp? 1 places = some (UInt8.ofNat (2 ^ places)) := by
  decide

theorem largest?_eq :
    ∀ further < 8,
      largest? (further + 1) = some (UInt64.ofNat (2 ^ (7 * (further + 1)) - 1)) := by
  decide

/-- A number has room in a width if it is less than the largest integer of this width. -/
theorem lt_largest_iff (number : UInt64) (few : further < 8) :
    number < UInt64.ofNat (2 ^ (7 * (further + 1)) - 1) ↔
      number.toNat + 1 < 2 ^ (7 * (further + 1)) := by
  have below : (2 : Nat) ^ (7 * (further + 1)) ≤ 2 ^ 64 :=
    Nat.pow_le_pow_right Nat.two_pos (by omega)
  have positive := Nat.two_pow_pos (7 * (further + 1))
  rw [UInt64.lt_iff_toNat_lt, UInt64.toNat_ofNat', Nat.mod_eq_of_lt (by omega)]
  omega

/-- The mark stands above the bits of a number that has room, so both are kept. -/
theorem setMark?_eq (few : further < 8) (room : n < 2 ^ (7 * (further + 1))) :
    setMark? (UInt8.ofNat (2 ^ (7 - further))) (bigEndian (further + 1) n) =
      some (markedInteger (further + 1) n) := by
  have below : n / 256 ^ further < 2 ^ (7 - further) := by
    have iff := div_lt_marks_iff few 1 n
    rw [Nat.one_mul, Nat.one_mul] at iff
    exact iff.mpr room
  have byte : 2 * (2 : Nat) ^ (7 - further) ≤ 256 := by
    rw [← Nat.pow_succ']
    exact Nat.pow_le_pow_right Nat.two_pos (by omega : 7 - further + 1 ≤ 8)
  have mark : (UInt8.ofNat (2 ^ (7 - further))).toNat = 2 ^ (7 - further) := by
    rw [UInt8.toNat_ofNat', Nat.mod_eq_of_lt (by omega)]
  have high : (UInt8.ofNat (n / 256 ^ further)).toNat = n / 256 ^ further := by
    rw [UInt8.toNat_ofNat', Nat.mod_eq_of_lt (by omega)]
  have both : UInt8.ofNat (n / 256 ^ further) ||| UInt8.ofNat (2 ^ (7 - further)) =
      UInt8.ofNat (2 ^ (7 - further) + n / 256 ^ further) := by
    have sum := Nat.two_pow_add_eq_or_of_lt below 1
    rw [Nat.mul_one] at sum
    apply UInt8.toNat_inj.mp
    rw [UInt8.toNat_or, high, mark, UInt8.toNat_ofNat', Nat.mod_eq_of_lt (by omega), Nat.or_comm,
      sum]
  have above : UInt8.ofNat (n / 256 ^ further) < UInt8.ofNat (2 ^ (7 - further)) := by
    rw [UInt8.lt_iff_toNat_lt, high, mark]
    exact below
  rw [markedInteger_succ few, bigEndian_succ, setMark?, if_pos above, both]

theorem markedInWords?_eq {number : UInt64} (few : further < 8)
    (room : number.toNat < 2 ^ (7 * (further + 1))) :
    markedInWords? (further + 1) number = some (markedInteger (further + 1) number.toNat) := by
  have places : 8 - (further + 1) = 7 - further := by omega
  have mark := shiftByteUp?_one (7 - further) (by omega)
  rw [markedInWords?, if_pos (show further + 1 ≤ 8 from few), places, mark, wordBytes?_eq]
  exact setMark?_eq few room

/-- Words give the number behind its mark, in the first width with room for it. -/
theorem numberAmong?_eq (number : UInt64) {widths : List Nat}
    (within : ∀ width ∈ widths, 1 ≤ width ∧ width ≤ 8) :
    numberAmong? number widths = some
      (match widths.find? fun width => number.toNat + 1 < 2 ^ (7 * width) with
      | some width => markedInteger width number.toNat
      | none => markedInteger 8 0) := by
  induction widths with
  | nil => rfl
  | cons width wider ih =>
    obtain ⟨positive, few⟩ := within width (List.mem_cons_self ..)
    obtain ⟨further, rfl⟩ : ∃ further, width = further + 1 := ⟨width - 1, by omega⟩
    have fits := lt_largest_iff number few
    rw [numberAmong?, largest?_eq further few]
    show (if number < UInt64.ofNat _ then _ else _) = _
    by_cases room : number.toNat + 1 < 2 ^ (7 * (further + 1))
    · rw [if_pos (fits.mpr room), markedInWords?_eq few (by omega), List.find?_cons_of_pos]
      exact decide_eq_true room
    · rw [if_neg (mt fits.mp room), List.find?_cons_of_neg]
      · exact ih fun width member => within width (List.mem_cons_of_mem _ member)
      · rw [decide_eq_true_eq]
        exact room

/-- No step of writing a number in words overflows. -/
theorem numberInWords?_eq_trackBytes (number : UInt64) :
    numberInWords? number = some (trackBytes number.toNat) := by
  have widths : ∀ width ∈ List.range' 1 8, 1 ≤ width ∧ width ≤ 8 := by decide
  exact numberAmong?_eq number widths

/-! ## Reading a block -/

namespace Block

variable {track : Nat} {time : Int16} {data : Bytes}

structure Content where
  track : Nat
  time : Int16
  flags : UInt8
  data : Bytes
  deriving DecidableEq

def read? (body : Bytes) : Option Content :=
  match readInteger? body with
  | some (track, high :: low :: flags :: data) =>
    some { track, time := (UInt16.ofNat (bigValue [high, low])).toInt16, flags, data }
  | _ => none

def afterNumber (time : Int16) (data : Bytes) : Bytes :=
  bigEndian 2 time.toUInt16.toNat ++ keyFlag :: data

theorem layOut_eq (track : Nat) (time : Int16) (data : Bytes) :
    layOut track time data = trackBytes track ++ afterNumber time data := by
  rw [layOut, afterNumber, List.append_assoc]

/-- The number of the track is found in front, whatever follows it. -/
theorem readInteger?_layOut (small : track < 2 ^ 56 - 1) (time : Int16) (data : Bytes) :
    readInteger? (layOut track time data) = some (track, afterNumber time data) := by
  rw [layOut_eq, readInteger?_eq_some_iff]
  exact ⟨_, (trackBytes_isShortest small).written, rfl⟩

/-- A signed word is told by its two bytes. -/
theorem toInt16_bigValue (time : Int16) :
    (UInt16.ofNat (bigValue (bigEndian 2 time.toUInt16.toNat))).toInt16 = time := by
  have word : time.toUInt16.toNat < 256 ^ 2 := time.toUInt16.toNat_lt
  rw [bigValue_bigEndian, Nat.mod_eq_of_lt word, UInt16.ofNat_toNat, Int16.toInt16_toUInt16]

theorem read?_layOut (small : track < 2 ^ 56 - 1) (time : Int16) (data : Bytes) :
    read? (layOut track time data) = some { track, time, flags := keyFlag, data } := by
  obtain ⟨high, low, two⟩ : ∃ high low, bigEndian 2 time.toUInt16.toNat = [high, low] :=
    ⟨_, _, rfl⟩
  have word := toInt16_bigValue time
  have found := readInteger?_layOut small time data
  rw [two] at word
  rw [afterNumber, two] at found
  simp only [read?, found, List.cons_append, List.nil_append, word]

structure DecodesUniquely (track : Nat) (time : Int16) (data : Bytes) : Prop where
  /-- The number of the track stands in the fewest bytes. -/
  number : IsShortest (trackBytes track) track
  /-- Written in words, it is the same, and nothing overflows. -/
  inWords : numberInWords? (UInt64.ofNat track) = some (trackBytes track)
  /-- All that was laid out is read back. -/
  read : read? (layOut track time data) = some { track, time, flags := 0x80, data }
  /-- The body starts with one integer of variable width only. -/
  cut : ∀ (number rest : Bytes) (n : Nat), IsVariableInteger number n →
    layOut track time data = number ++ rest →
      n = track ∧ number = trackBytes track ∧
        rest = bigEndian 2 time.toUInt16.toNat ++ 0x80 :: data
  /-- No other block whose number has room has this body. -/
  unique : ∀ (track' : Nat) (time' : Int16) (data' : Bytes), track' < 2 ^ 56 - 1 →
    layOut track' time' data' = layOut track time data →
      track' = track ∧ time' = time ∧ data' = data

/-- **Blocks are decoded uniquely**, whatever bytes the packet starts with. -/
theorem layOut_decodesUniquely (small : track < 2 ^ 56 - 1) (time : Int16) (data : Bytes) :
    DecodesUniquely track time data where
  number := trackBytes_isShortest small
  inWords := by
    have word : (UInt64.ofNat track).toNat = track := by
      rw [UInt64.toNat_ofNat', Nat.mod_eq_of_lt (by omega)]
    rw [numberInWords?_eq_trackBytes, word]
  read := read?_layOut small time data
  cut := by
    intro number rest n written same
    have found := readInteger?_layOut small time data
    have found' := readInteger?_eq_some_iff.mpr ⟨number, written, same⟩
    obtain ⟨rfl, rfl⟩ := Prod.mk.inj (Option.some.inj (found.symm.trans found'))
    rw [layOut_eq] at same
    exact ⟨rfl, (List.append_cancel_right same).symm, rfl⟩
  unique := by
    intro track' time' data' small' same
    have found := read?_layOut small time data
    have found' := read?_layOut small' time' data'
    rw [same, found] at found'
    obtain ⟨track_, time_, -, data_⟩ := Content.mk.inj (Option.some.inj found')
    exact ⟨track_.symm, time_.symm, data_.symm⟩

/-- A number that would set all bits of two bytes takes three. The packet starts with what could be
the number of another track. -/
theorem layOut_decodesUniquely_full :
    16383 < (2 ^ 56 - 1 : Nat) ∧
      layOut 16383 (-2) [0x81, 0xFF] = [0x20, 0x3F, 0xFF, 0xFF, 0xFE, 0x80, 0x81, 0xFF] ∧
      DecodesUniquely 16383 (-2) [0x81, 0xFF] :=
  ⟨by decide, by decide, layOut_decodesUniquely (by decide) _ _⟩

end Block

end VorbisTrack.Matroska
