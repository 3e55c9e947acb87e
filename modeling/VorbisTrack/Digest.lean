import VorbisTrack.Bytes

/-!
# Digests and hexadecimal text

Long byte strings appear in a call trace as their 64-bit FNV-1a digest. Words are written as
lower-case hexadecimal digits of a fixed count.
-/

set_option autoImplicit false

namespace VorbisTrack

/-- The FNV-1a digest: each byte is mixed in by exclusive or, then a multiplication. -/
def fnv1a (bytes : Bytes) : UInt64 :=
  bytes.foldl (fun hash byte => (hash ^^^ byte.toUInt64) * 0x100000001b3) 0xcbf29ce484222325

def hexDigit (n : Nat) : Char :=
  if n < 10 then Char.ofNat (48 + n) else Char.ofNat (87 + n)

def hexDigits (width n : Nat) : String :=
  String.ofList ((List.range width).reverse.map fun i => hexDigit (n / 16 ^ i % 16))

def Bytes.toHex (bytes : Bytes) : String :=
  String.ofList (bytes.flatMap fun b => [hexDigit (b.toNat / 16), hexDigit (b.toNat % 16)])

def fnvText (bytes : Bytes) : String :=
  hexDigits 16 (fnv1a bytes).toNat

end VorbisTrack
