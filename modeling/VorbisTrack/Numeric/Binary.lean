import VorbisTrack.Numeric.Power

/-!
# Binary floating-point words

An interchange format is given by its precision and the width of its exponent. `decode` turns a
word into the number it stands for, `significand · 2 ^ exponent`, and `ofRatio` goes the other
way: it finds the word nearest to a quotient of natural numbers, a tie going to the even
neighbour, in exact arithmetic.
-/

set_option autoImplicit false

namespace VorbisTrack

structure BinaryFormat where
  /-- Bits of the significand, the leading one included. -/
  precision : Nat
  /-- Bits of the exponent field. -/
  exponentBits : Nat

inductive BinaryValue
  | nan
  | infinity (negative : Bool)
  /-- The number `significand · 2 ^ exponent`, with its sign kept apart: zero has one too. -/
  | finite (negative : Bool) (significand : Nat) (exponent : Int)
  deriving DecidableEq

/-- The quotient rounded to the nearest integer, a tie to the even one. -/
def roundHalfEven (num den : Nat) : Nat :=
  let quotient := num / den
  let twice := 2 * (num % den)
  if twice < den then quotient
  else if den < twice then quotient + 1
  else quotient + quotient % 2

/-- Numerator and denominator of `num / den · 2 ^ exponent`. -/
def scaleRatio (num den : Nat) (exponent : Int) : Nat × Nat :=
  if 0 ≤ exponent then (num * 2 ^ exponent.toNat, den)
  else (num, den * 2 ^ (-exponent).toNat)

namespace BinaryFormat

def single : BinaryFormat := ⟨24, 8⟩

def double : BinaryFormat := ⟨53, 11⟩

variable (f : BinaryFormat)

/-- The exponent of the last place of the smallest numbers. -/
def minExponent : Int :=
  3 - 2 ^ (f.exponentBits - 1) - f.precision

def infinityWord : Nat :=
  (2 ^ f.exponentBits - 1) * 2 ^ (f.precision - 1)

/-- The quiet word that stands for every NaN. -/
def nanWord : Nat :=
  f.infinityWord + 2 ^ (f.precision - 2)

/-- The sign bit, if the number is negative. -/
def signWord (negative : Bool) : Nat :=
  if negative then 2 ^ (f.precision - 1 + f.exponentBits) else 0

def decode (word : Nat) : BinaryValue :=
  let fraction := word % 2 ^ (f.precision - 1)
  let biased := word / 2 ^ (f.precision - 1) % 2 ^ f.exponentBits
  let negative := word / 2 ^ (f.precision - 1 + f.exponentBits) % 2 = 1
  if biased = 2 ^ f.exponentBits - 1 then
    if fraction = 0 then .infinity negative else .nan
  else if biased = 0 then .finite negative fraction f.minExponent
  else .finite negative (2 ^ (f.precision - 1) + fraction) (f.minExponent + (biased - 1))

/-- The exponent of the last place that a significand of full precision needs for the positive
number `num / den`, never below the format's least one. -/
def placeOf (num den : Nat) : Int :=
  let place : Int := num.log2 - den.log2 - (f.precision - 1)
  let (n, d) := scaleRatio num den (-place)
  max f.minExponent (if n < d * 2 ^ (f.precision - 1) then place - 1 else place)

/-- The word nearest to the non-negative number `num / den`. A carry out of the significand moves
into the exponent field, and what is too large becomes infinity. -/
def ofRatio (num den : Nat) : Nat :=
  if num = 0 then 0
  else
    let place := f.placeOf num den
    let (n, d) := scaleRatio num den (-place)
    min f.infinityWord
      ((place - f.minExponent).toNat * 2 ^ (f.precision - 1) + roundHalfEven n d)

def ofScaled (negative : Bool) (significand : Nat) (exponent : Int) : Nat :=
  let (n, d) := scaleRatio significand 1 exponent
  f.signWord negative + f.ofRatio n d

def ofValue : BinaryValue → Nat
  | .nan => f.nanWord
  | .infinity negative => f.signWord negative + f.infinityWord
  | .finite negative significand exponent => f.ofScaled negative significand exponent

end BinaryFormat

def narrow (x : Float) : Float32 :=
  .ofBits (.ofNat (BinaryFormat.single.ofValue (BinaryFormat.double.decode x.toBits.toNat)))

end VorbisTrack
