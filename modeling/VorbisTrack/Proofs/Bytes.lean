import VorbisTrack.Bytes

/-!
# Numbers and bits of byte strings

Bytes that stand most significant first make a number (`Bytes.bigValue`), and as a string of bits
they are the bits of this number (`Bytes.bits_bigEndian`). A byte string is told by its bits
(`Bytes.bits_injective`), so a layout that is laid down in bits can be compared with one that is
written in numbers.
-/

set_option autoImplicit false

namespace VorbisTrack

namespace Bytes

/-! ## Most significant byte first -/

/-- The number whose bytes these are, most significant first. -/
def bigValue (bytes : Bytes) : Nat :=
  littleValue bytes.reverse

theorem bigValue_bigEndian (width n : Nat) : bigValue (bigEndian width n) = n % 256 ^ width := by
  rw [bigValue, bigEndian, List.reverse_reverse, littleValue_littleEndian]

theorem bigEndian_bigValue (bytes : Bytes) : bigEndian bytes.length (bigValue bytes) = bytes := by
  have same := littleEndian_littleValue bytes.reverse
  rw [List.length_reverse] at same
  rw [bigEndian, bigValue, same, List.reverse_reverse]

theorem bigValue_lt (bytes : Bytes) : bigValue bytes < 256 ^ bytes.length := by
  have small := littleValue_lt bytes.reverse
  rwa [List.length_reverse] at small

/-- One more byte holds what did not fit into the others. -/
theorem littleEndian_concat (width n : Nat) :
    littleEndian (width + 1) n = littleEndian width n ++ [UInt8.ofNat (n / 256 ^ width)] := by
  induction width generalizing n with
  | zero => rw [Nat.pow_zero, Nat.div_one]; rfl
  | succ width ih =>
    rw [littleEndian, ih, Nat.div_div_eq_div_mul, ← Nat.pow_succ', littleEndian, List.cons_append]

theorem bigEndian_succ (width n : Nat) :
    bigEndian (width + 1) n = UInt8.ofNat (n / 256 ^ width) :: bigEndian width n := by
  rw [bigEndian, littleEndian_concat, List.reverse_append, List.reverse_singleton,
    List.singleton_append, bigEndian]

/-- The first byte of a string is the high part of its number. -/
theorem toNat_eq_bigValue_div (first : UInt8) (rest : Bytes) :
    first.toNat = bigValue (first :: rest) / 256 ^ rest.length := by
  have bytes := bigEndian_bigValue (first :: rest)
  have small := bigValue_lt (first :: rest)
  rw [List.length_cons, bigEndian_succ] at bytes
  rw [List.length_cons, Nat.pow_succ'] at small
  have byte : bigValue (first :: rest) / 256 ^ rest.length < 2 ^ 8 :=
    Nat.div_lt_of_lt_mul (by rwa [Nat.mul_comm] at small)
  have same := congrArg UInt8.toNat (List.cons.inj bytes).1
  rw [UInt8.toNat_ofNat', Nat.mod_eq_of_lt byte] at same
  exact same.symm

/-! ## Bits -/

theorem two_pow_eight_mul (width : Nat) : (2 : Nat) ^ (8 * width) = 256 ^ width :=
  Nat.pow_mul 2 8 width

/-- The low bits of a number, highest first. -/
def lowBits : Nat → Nat → List Bool
  | 0, _ => []
  | width + 1, n => n.testBit width :: lowBits width n

/-- The bits of a string: those of its bytes, one byte after the other, each highest first. -/
def bits (bytes : Bytes) : List Bool :=
  bytes.flatMap fun b => lowBits 8 b.toNat

variable {width n m : Nat}

@[simp] theorem length_lowBits (width n : Nat) : (lowBits width n).length = width := by
  induction width with
  | zero => rfl
  | succ width ih => rw [lowBits, List.length_cons, ih]

theorem length_bits (bytes : Bytes) : (bits bytes).length = 8 * bytes.length := by
  rw [bits]
  induction bytes with
  | nil => rfl
  | cons b rest ih =>
    rw [List.flatMap_cons, List.length_append, ih, length_lowBits, List.length_cons]
    omega

theorem lowBits_eq_iff :
    lowBits width n = lowBits width m ↔ ∀ i < width, n.testBit i = m.testBit i := by
  induction width with
  | zero => exact ⟨fun _ i none => absurd none (Nat.not_lt_zero i), fun _ => rfl⟩
  | succ width ih =>
    rw [lowBits, lowBits, List.cons.injEq, ih, Nat.forall_lt_succ_right, and_comm]

/-- Numbers that fit are told by their bits. -/
theorem eq_of_lowBits_eq (n_ : n < 2 ^ width) (m_ : m < 2 ^ width)
    (same : lowBits width n = lowBits width m) : n = m := by
  apply Nat.eq_of_testBit_eq
  intro i
  rcases Nat.lt_or_ge i width with low | high
  · exact lowBits_eq_iff.mp same i low
  · have grown : (2 : Nat) ^ width ≤ 2 ^ i :=
      Nat.pow_le_pow_right Nat.two_pos high
    rw [Nat.testBit_lt_two_pow (Nat.lt_of_lt_of_le n_ grown),
      Nat.testBit_lt_two_pow (Nat.lt_of_lt_of_le m_ grown)]

theorem lowBits_mod (width n : Nat) : lowBits width (n % 2 ^ width) = lowBits width n := by
  rw [lowBits_eq_iff]
  intro i low
  rw [Nat.testBit_mod_two_pow, decide_eq_true low, Bool.true_and]

theorem lowBits_zero (width : Nat) : lowBits width 0 = List.replicate width false := by
  induction width with
  | zero => rfl
  | succ width ih => rw [lowBits, Nat.zero_testBit, ih, List.replicate_succ]

theorem lowBits_ones (width : Nat) : lowBits width (2 ^ width - 1) = List.replicate width true := by
  have ones : ∀ size ≤ width, lowBits size (2 ^ width - 1) = List.replicate size true := by
    intro size within
    induction size with
    | zero => rfl
    | succ size ih =>
      rw [lowBits, Nat.testBit_two_pow_sub_one, decide_eq_true (Nat.lt_of_succ_le within),
        ih (by omega), List.replicate_succ]
  exact ones width (Nat.le_refl width)

/-- Bits can be cut in two. -/
theorem lowBits_add (high low n : Nat) :
    lowBits (high + low) n = lowBits high (n / 2 ^ low) ++ lowBits low n := by
  induction high with
  | zero => rw [Nat.zero_add, lowBits, List.nil_append]
  | succ high ih =>
    rw [Nat.succ_add_eq_add_succ, Nat.add_succ, lowBits, lowBits, ih, Nat.testBit_div_two_pow,
      Nat.add_comm, List.cons_append]

/-- The bytes of a number have its bits. -/
theorem bits_bigEndian (width n : Nat) : bits (bigEndian width n) = lowBits (8 * width) n := by
  induction width with
  | zero => rfl
  | succ width ih =>
    have parts : 8 * (width + 1) = 8 + 8 * width := by omega
    rw [bigEndian_succ, bits, List.flatMap_cons, UInt8.toNat_ofNat', lowBits_mod,
      ← two_pow_eight_mul, parts, lowBits_add, ← ih, bits]

/-- A string is told by its bits. -/
theorem bits_injective {a b : Bytes} (same : bits a = bits b) : a = b := by
  have lengths : a.length = b.length := by
    have lengths := congrArg List.length same
    rw [length_bits, length_bits] at lengths
    omega
  have a_ := bigEndian_bigValue a
  have b_ := bigEndian_bigValue b
  have small := bigValue_lt a
  have small' := bigValue_lt b
  rw [← a_, ← b_, bits_bigEndian, bits_bigEndian, lengths] at same
  rw [lengths, ← two_pow_eight_mul] at small
  rw [← two_pow_eight_mul] at small'
  rw [← a_, ← b_, lengths, eq_of_lowBits_eq small small' same]

end Bytes

end VorbisTrack
