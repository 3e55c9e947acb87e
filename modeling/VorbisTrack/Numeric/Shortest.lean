import VorbisTrack.Numeric.Binary

/-!
# Decimal text of floating-point words

`shortest` writes the decimal number with the fewest digits that reads back to the same word,
always positionally. `fixed` writes a given count of decimal places.
-/

set_option autoImplicit false

namespace VorbisTrack

def powerOfTen (exponent : Int) : Nat × Nat :=
  if 0 ≤ exponent then (10 ^ exponent.toNat, 1) else (1, 10 ^ (-exponent).toNat)

/-- The decimal number `digits · 10 ^ exponent` written positionally, without superfluous zeros. -/
def positional (digits : Nat) (exponent : Int) : String :=
  if 0 ≤ exponent then toString (digits * 10 ^ exponent.toNat)
  else
    let places := (-exponent).toNat
    let whole := digits / 10 ^ places
    let fraction := (toString (digits % 10 ^ places)).toList
    let padded := List.replicate (places - fraction.length) '0' ++ fraction
    let trimmed := (padded.reverse.dropWhile (· == '0')).reverse
    if trimmed.isEmpty then toString whole
    else toString whole ++ "." ++ String.ofList trimmed

namespace BinaryFormat

variable (f : BinaryFormat)

/-- The numbers that round to the word `significand · 2 ^ exponent` lie between these two, given
in units of `2 ^ (exponent - 2)`. Below a power of two the words are closer together. -/
def roundingInterval (significand : Nat) (exponent : Int) : Nat × Nat :=
  let low :=
    if significand = 2 ^ (f.precision - 1) ∧ f.minExponent < exponent then 4 * significand - 1
    else 4 * significand - 2
  (low, 4 * significand + 2)

/-- Whether `digits · 10 ^ power` rounds to the word. The ends count if the significand is even. -/
def roundsTo (significand : Nat) (exponent : Int) (digits : Nat) (power : Int) : Bool :=
  let (low, high) := f.roundingInterval significand exponent
  let (tenNum, tenDen) := powerOfTen power
  let (n, d) := scaleRatio (digits * tenNum) tenDen (2 - exponent)
  if significand % 2 = 0 then low * d ≤ n ∧ n ≤ high * d else low * d < n ∧ n < high * d

/-- On the grid of multiples of `10 ^ power`, the neighbour of the word's value that rounds to the
word. Of two such the nearer is taken, and the upper one on a tie. -/
def neighbourOn (significand : Nat) (exponent : Int) (power : Int) : Option Nat :=
  let (tenNum, tenDen) := powerOfTen power
  let (n, d) := scaleRatio (significand * tenDen) tenNum exponent
  let down := n / d
  let downFits := down ≠ 0 && f.roundsTo significand exponent down power
  let upFits := f.roundsTo significand exponent (down + 1) power
  if upFits && (!downFits || d ≤ 2 * (n % d)) then some (down + 1)
  else if downFits then some down
  else none

/-- The coarsest grid that holds a fitting number, tried from `power` downwards. -/
def coarsestFit (significand : Nat) (exponent : Int) : Nat → Int → Nat × Int
  | 0, power => (0, power)
  | tries + 1, power =>
    match f.neighbourOn significand exponent power with
    | some digits => (digits, power)
    | none => coarsestFit significand exponent tries (power - 1)

/-- An upper estimate of the decimal exponent of `significand · 2 ^ exponent`. -/
def decimalEstimate (significand : Nat) (exponent : Int) : Int :=
  (exponent + significand.log2 + 1) * 30103 / 100000 + 1

/-- The shortest decimal number that reads back to the positive word. Seventeen digits always
suffice, so the grids tried here include a fitting one. -/
def shortestDigits (significand : Nat) (exponent : Int) : Nat × Int :=
  f.coarsestFit significand exponent 24 (decimalEstimate significand exponent)

end BinaryFormat

namespace BinaryValue

def signText (negative : Bool) : String :=
  if negative then "-" else ""

def shortest (f : BinaryFormat) : BinaryValue → String
  | .nan => "NaN"
  | .infinity negative => signText negative ++ "inf"
  | .finite negative 0 _ => signText negative ++ "0"
  | .finite negative significand exponent =>
    let (digits, power) := f.shortestDigits significand exponent
    signText negative ++ positional digits power

/-- The text with exactly `places` decimal places, the exact value rounded to the nearest, a tie
to the even digit. -/
def fixed (places : Nat) : BinaryValue → String
  | .nan => "NaN"
  | .infinity negative => signText negative ++ "inf"
  | .finite negative significand exponent =>
    let (n, d) := scaleRatio (significand * 10 ^ places) 1 exponent
    let units := roundHalfEven n d
    let fraction := (toString (units % 10 ^ places)).toList
    let padded := List.replicate (places - fraction.length) '0' ++ fraction
    signText negative ++ toString (units / 10 ^ places)
      ++ (if places = 0 then "" else "." ++ String.ofList padded)

end BinaryValue

def floatText (x : Float) : String :=
  (BinaryFormat.double.decode x.toBits.toNat).shortest .double

def float32Text (x : Float32) : String :=
  (BinaryFormat.single.decode x.toBits.toNat).shortest .single

def floatFixed (places : Nat) (x : Float) : String :=
  (BinaryFormat.double.decode x.toBits.toNat).fixed places

def float32Fixed (places : Nat) (x : Float32) : String :=
  (BinaryFormat.single.decode x.toBits.toNat).fixed places

end VorbisTrack
