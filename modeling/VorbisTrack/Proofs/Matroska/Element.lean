import VorbisTrack.Matroska.Element
import VorbisTrack.Proofs.Bytes

/-!
# Integers of variable width

An integer of variable width is laid out in bits: a zero for every byte behind the first, a one as
the mark, and seven bits of the integer for every byte (`IsVariableInteger`). The bytes that are
written behind a mark are these bits, and no others are (`isVariableInteger_iff`). In every width
one string, the one with all of its bits set, is reserved.

The first byte tells where an integer ends. So it can be read off the front of a string, whatever
follows it, and what is read is all that stands there (`readInteger?_eq_some_iff`).
-/

set_option autoImplicit false

namespace VorbisTrack.Matroska

open Bytes

variable {bytes data rest : Bytes} {further n : Nat}

/-! ## The layout in bits -/

/-- The bits of an integer of variable width, which takes eight bytes at most. -/
def IsVariableInteger (bytes : Bytes) (n : Nat) : Prop :=
  ∃ further < 8, n < 2 ^ (7 * (further + 1)) ∧
    bits bytes = List.replicate further false ++ true :: lowBits (7 * (further + 1)) n

/-- All bits of the integer are set. Such a string does not stand for a number. -/
def IsReserved (bytes : Bytes) : Prop :=
  ∃ further < 8, bits bytes =
    List.replicate further false ++ true :: List.replicate (7 * (further + 1)) true

theorem length_markedInteger (width n : Nat) : (markedInteger width n).length = width := by
  rw [markedInteger, length_bigEndian]

/-- The mark stands in the first byte, the further down the more bytes follow. -/
theorem mark_eq (few : further < 8) :
    (2 : Nat) ^ (7 * (further + 1)) = 2 ^ (7 - further) * 256 ^ further := by
  have places : 7 * (further + 1) = 7 - further + 8 * further := by omega
  calc (2 : Nat) ^ (7 * (further + 1)) = 2 ^ (7 - further) * 2 ^ (8 * further) := by
        rw [places, Nat.pow_add]
    _ = 2 ^ (7 - further) * 256 ^ further := by rw [two_pow_eight_mul]

/-- The first byte has the mark and the high bits of the integer, the others are as without it. -/
theorem markedInteger_succ (few : further < 8) (n : Nat) :
    markedInteger (further + 1) n =
      UInt8.ofNat (2 ^ (7 - further) + n / 256 ^ further) :: bigEndian further n := by
  have positive : 0 < (256 : Nat) ^ further := Nat.pow_pos (by decide : 0 < 256)
  have first : (2 ^ (7 - further) * 256 ^ further + n) / 256 ^ further =
      2 ^ (7 - further) + n / 256 ^ further := by
    rw [Nat.mul_comm, Nat.mul_add_div positive]
  have others : bigEndian further (2 ^ (7 - further) * 256 ^ further + n) =
      bigEndian further n := by
    rw [← bigEndian_mod, Nat.mul_add_mod_self_right, bigEndian_mod]
  rw [markedInteger, mark_eq few, bigEndian_succ, first, others]

/-- Numbers are compared with multiples of the mark by their first byte. -/
theorem div_lt_marks_iff (few : further < 8) (marks value : Nat) :
    value / 256 ^ further < marks * 2 ^ (7 - further) ↔
      value < marks * 2 ^ (7 * (further + 1)) := by
  have positive : 0 < (256 : Nat) ^ further := Nat.pow_pos (by decide : 0 < 256)
  rw [Nat.div_lt_iff_lt_mul positive, mark_eq few, Nat.mul_assoc]

/-- The mark is the bit above those of the integer. -/
theorem bits_markedInteger (room : n < 2 ^ (7 * (further + 1))) :
    bits (markedInteger (further + 1) n) =
      List.replicate further false ++ true :: lowBits (7 * (further + 1)) n := by
  generalize total : 7 * (further + 1) = width at room
  have parts : 8 * (further + 1) = further + (width + 1) := by omega
  have above : (2 ^ width + n) / 2 ^ (width + 1) = 0 := by
    apply Nat.div_eq_of_lt
    rw [Nat.pow_succ]
    omega
  have mark : (2 ^ width + n).testBit width = true := by
    rw [Nat.testBit_two_pow_add_eq, Nat.testBit_lt_two_pow room, Bool.not_false]
  have below : lowBits width (2 ^ width + n) = lowBits width n := by
    rw [← lowBits_mod, Nat.add_mod_left, lowBits_mod]
  rw [markedInteger, total, bits_bigEndian, parts, lowBits_add, above, lowBits_zero, lowBits, mark,
    below]

theorem isVariableInteger_markedInteger (few : further < 8) (room : n < 2 ^ (7 * (further + 1))) :
    IsVariableInteger (markedInteger (further + 1) n) n :=
  ⟨further, few, room, bits_markedInteger room⟩

/-- There is one way to write an integer in each width. -/
theorem isVariableInteger_iff :
    IsVariableInteger bytes n ↔
      ∃ further < 8, n < 2 ^ (7 * (further + 1)) ∧ bytes = markedInteger (further + 1) n := by
  constructor
  · rintro ⟨further, few, room, laid⟩
    refine ⟨further, few, room, bits_injective ?_⟩
    rw [laid, bits_markedInteger room]
  · rintro ⟨further, few, room, rfl⟩
    exact isVariableInteger_markedInteger few room

/-- The largest integer that a width has bits for is the one that is reserved. -/
theorem isReserved_markedInteger_iff (few : further < 8) (room : n < 2 ^ (7 * (further + 1))) :
    IsReserved (markedInteger (further + 1) n) ↔ n + 1 = 2 ^ (7 * (further + 1)) := by
  have positive := Nat.two_pow_pos (7 * (further + 1))
  constructor
  · rintro ⟨further', _, set⟩
    -- The length of a string tells how many bytes follow the first.
    have lengths := congrArg List.length set
    rw [length_bits, length_markedInteger, List.length_append, List.length_replicate,
      List.length_cons, List.length_replicate] at lengths
    obtain rfl : further' = further := by omega
    rw [bits_markedInteger room, ← lowBits_ones] at set
    have ones := (List.cons.inj (List.append_cancel_left set)).2
    have same := eq_of_lowBits_eq room (by omega) ones
    omega
  · intro largest
    refine ⟨further, few, ?_⟩
    rw [bits_markedInteger room, ← lowBits_ones, ← largest, Nat.add_sub_cancel]

/-! ## Reading -/

/-- Reads an integer off the front of a string. The zeros ahead of the first bit that is set tell
how many bytes follow the first one. The answer is the integer, without its mark, and the rest. -/
def readInteger? : Bytes → Option (Nat × Bytes)
  | [] => none
  | first :: rest =>
    let further := 7 - first.toNat.log2
    if first = 0 ∨ rest.length < further then none
    else
      some (bigValue (first :: rest.take further) - 2 ^ (7 * (further + 1)), rest.drop further)

/-- Where the mark stands tells the length of a string. -/
theorem mark_iff (first : UInt8) {more : Bytes} (few : more.length < 8) :
    (first ≠ 0 ∧ 7 - first.toNat.log2 = more.length) ↔
      2 ^ (7 * (more.length + 1)) ≤ bigValue (first :: more) ∧
        bigValue (first :: more) < 2 * 2 ^ (7 * (more.length + 1)) := by
  have high := toNat_eq_bigValue_div first more
  generalize more.length = further at few high ⊢
  generalize bigValue (first :: more) = value at high ⊢
  have place : (2 ^ (7 * (further + 1)) ≤ value ∧ value < 2 * 2 ^ (7 * (further + 1))) ↔
      2 ^ (7 - further) ≤ first.toNat ∧ first.toNat < 2 ^ (7 - further + 1) := by
    have low := div_lt_marks_iff few 1 value
    have top := div_lt_marks_iff few 2 value
    rw [high, Nat.pow_succ']
    omega
  rw [place]
  constructor
  · rintro ⟨some_, same⟩
    have nonzero : first.toNat ≠ 0 := fun none => some_ (UInt8.toNat_inj.mp none)
    have low : first.toNat.log2 < 8 := (Nat.log2_lt nonzero).mpr first.toNat_lt
    exact (Nat.log2_eq_iff nonzero).mp (by omega)
  · intro between
    have positive := Nat.two_pow_pos (7 - further)
    have nonzero : first.toNat ≠ 0 := by omega
    have same := (Nat.log2_eq_iff nonzero).mpr between
    refine ⟨?_, by omega⟩
    rintro rfl
    exact nonzero rfl

/-- What is written is read back, whatever follows it. -/
theorem readInteger?_markedInteger (few : further < 8) (room : n < 2 ^ (7 * (further + 1)))
    (rest : Bytes) : readInteger? (markedInteger (further + 1) n ++ rest) = some (n, rest) := by
  have value : bigValue (markedInteger (further + 1) n) = 2 ^ (7 * (further + 1)) + n := by
    have fits : 2 * (2 : Nat) ^ (7 * (further + 1)) ≤ 256 ^ (further + 1) := by
      rw [← two_pow_eight_mul, ← Nat.pow_succ']
      exact Nat.pow_le_pow_right Nat.two_pos (by omega)
    rw [markedInteger, bigValue_bigEndian, Nat.mod_eq_of_lt (by omega)]
  have length := length_markedInteger (further + 1) n
  cases written : markedInteger (further + 1) n with
  | nil =>
    rw [written] at length
    cases length
  | cons first more =>
    rw [written] at value length
    obtain rfl : more.length = further := Nat.succ.inj length
    obtain ⟨some_, count⟩ := (mark_iff first few).mpr ⟨by omega, by omega⟩
    have enough : ¬ (first = 0 ∨ (more ++ rest).length < more.length) := by
      rw [List.length_append]
      rintro (none | short)
      · exact some_ none
      · omega
    simp only [List.cons_append, readInteger?, count, if_neg enough, List.take_left,
      List.drop_left, value, Nat.add_sub_cancel_left]

/-- What has been read stands at the front. -/
theorem of_readInteger? (read : readInteger? data = some (n, rest)) :
    ∃ number, IsVariableInteger number n ∧ data = number ++ rest := by
  cases data with
  | nil => cases read
  | cons first behind =>
    simp only [readInteger?] at read
    generalize count : 7 - first.toNat.log2 = further at read
    split at read
    · cases read
    · next enough =>
      rw [not_or, Nat.not_lt] at enough
      cases read
      refine ⟨first :: behind.take further, ?_, ?_⟩
      · have length : (behind.take further).length = further := List.length_take_of_le enough.2
        have few : further < 8 := by omega
        have marked := (mark_iff first (by omega)).mp ⟨enough.1, count.trans length.symm⟩
        have written := bigEndian_bigValue (first :: behind.take further)
        rw [List.length_cons] at written
        rw [length] at marked written
        obtain ⟨low, high⟩ := marked
        refine isVariableInteger_iff.mpr ⟨further, few, by omega, ?_⟩
        rw [markedInteger, Nat.add_sub_cancel' low, written]
      · rw [List.cons_append, List.take_append_drop]

/-- Reading gives an integer and a rest exactly if the string is that integer, in any width,
followed by that rest. -/
theorem readInteger?_eq_some_iff :
    readInteger? data = some (n, rest) ↔
      ∃ number, IsVariableInteger number n ∧ data = number ++ rest := by
  constructor
  · exact of_readInteger?
  · rintro ⟨number, written, rfl⟩
    obtain ⟨further, few, room, rfl⟩ := isVariableInteger_iff.mp written
    exact readInteger?_markedInteger few room rest

end VorbisTrack.Matroska
