import VorbisTrack.Numeric.Power

/-!
# Byte strings

All data of the library is carried as lists of bytes: sample planes, packets, header packets and
files. This module fixes how numbers and texts are laid out in them.
-/

set_option autoImplicit false

namespace VorbisTrack

abbrev Bytes := List UInt8

namespace Bytes

/-- The `width` low bytes of a number, least significant first. -/
def littleEndian : Nat → Nat → Bytes
  | 0, _ => []
  | width + 1, n => UInt8.ofNat n :: littleEndian width (n / 256)

def bigEndian (width n : Nat) : Bytes :=
  (littleEndian width n).reverse

def littleValue : Bytes → Nat
  | [] => 0
  | b :: bs => b.toNat + 256 * littleValue bs

/-- The UTF-8 bytes of a text. -/
def ofText (s : String) : Bytes :=
  s.toList.flatMap String.utf8EncodeChar

@[simp] theorem length_littleEndian (width n : Nat) :
    (littleEndian width n).length = width := by
  induction width generalizing n with
  | zero => rfl
  | succ width ih => simp [littleEndian, ih]

@[simp] theorem length_bigEndian (width n : Nat) : (bigEndian width n).length = width := by
  simp [bigEndian]

/-- Reading back the bytes of a number loses only what did not fit. -/
theorem littleValue_littleEndian (width n : Nat) :
    littleValue (littleEndian width n) = n % 256 ^ width := by
  induction width generalizing n with
  | zero => simp [littleEndian, littleValue, Nat.mod_one]
  | succ width ih =>
    rw [littleEndian, littleValue, ih, Nat.pow_succ, Nat.mul_comm (256 ^ width) 256,
      Nat.mod_mul]
    simp

theorem littleValue_lt (bytes : Bytes) : littleValue bytes < 256 ^ bytes.length := by
  induction bytes with
  | nil => exact Nat.one_pos
  | cons b rest ih =>
    have := b.toNat_lt
    rw [littleValue, List.length_cons, Nat.pow_succ]
    omega

/-- Bytes are those of the number that they make. -/
theorem littleEndian_littleValue (bytes : Bytes) :
    littleEndian bytes.length (littleValue bytes) = bytes := by
  induction bytes with
  | nil => rfl
  | cons b rest ih =>
    have low : UInt8.ofNat (b.toNat + 256 * littleValue rest) = b := by
      rw [← UInt8.toNat_inj, UInt8.toNat_ofNat', Nat.add_mul_mod_self_left,
        Nat.mod_eq_of_lt b.toNat_lt]
    have high : (b.toNat + 256 * littleValue rest) / 256 = littleValue rest := by
      rw [Nat.add_mul_div_left _ _ (by decide), Nat.div_eq_of_lt b.toNat_lt, Nat.zero_add]
    rw [List.length_cons, littleValue, littleEndian, low, high, ih]

/-- The bytes of a number do not depend on what does not fit. -/
theorem littleEndian_mod (width n : Nat) :
    littleEndian width (n % 256 ^ width) = littleEndian width n := by
  have same := littleEndian_littleValue (littleEndian width n)
  rwa [length_littleEndian, littleValue_littleEndian] at same

theorem bigEndian_mod (width n : Nat) : bigEndian width (n % 256 ^ width) = bigEndian width n := by
  rw [bigEndian, littleEndian_mod, bigEndian]

end Bytes

/-- The four bytes from `offset` on, as a little-endian word; bytes past the end count as zero. -/
def wordAt (bytes : Array UInt8) (offset : Nat) : UInt32 :=
  (bytes.getD offset 0).toUInt32
    ||| (bytes.getD (offset + 1) 0).toUInt32 <<< 8
    ||| (bytes.getD (offset + 2) 0).toUInt32 <<< 16
    ||| (bytes.getD (offset + 3) 0).toUInt32 <<< 24

end VorbisTrack
