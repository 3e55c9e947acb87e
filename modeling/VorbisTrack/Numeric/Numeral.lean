import VorbisTrack.Numeric.Binary

/-!
# Reading decimal numerals

A numeral is an optional sign followed by `inf`, `infinity` or `nan` in any case, or by digits with
at most one point among them, at least one digit, and an optional exponent. It stands for an exact
decimal number; the floating-point word is the nearest one.
-/

set_option autoImplicit false

namespace VorbisTrack

inductive NumeralFault
  | empty
  | invalid
  deriving DecidableEq

def NumeralFault.message : NumeralFault → String
  | .empty => "cannot parse float from empty string"
  | .invalid => "invalid float literal"

inductive Numeral
  | nan
  | infinity (negative : Bool)
  /-- The number `digits · 10 ^ exponent`. -/
  | decimal (negative : Bool) (digits : Nat) (exponent : Int)
  deriving DecidableEq

namespace Numeral

def digitsValue (cs : List Char) : Nat :=
  cs.foldl (fun n c => 10 * n + (c.toNat - 48)) 0

/-- Splits a leading sign off; `true` stands for a minus. -/
def splitSign : List Char → Bool × List Char
  | '-' :: cs => (true, cs)
  | '+' :: cs => (false, cs)
  | cs => (false, cs)

/-- The value of an exponent part, which may be missing altogether. -/
def readExponent : List Char → Option Int
  | [] => some 0
  | c :: cs =>
    if c = 'e' ∨ c = 'E' then
      let (negative, ds) := splitSign cs
      if ds.isEmpty ∨ ¬ ds.all Char.isDigit then none
      else if negative then some (-(digitsValue ds : Int))
      else some (digitsValue ds)
    else none

def readDecimal (negative : Bool) (cs : List Char) : Option Numeral :=
  let whole := cs.takeWhile Char.isDigit
  let rest := cs.dropWhile Char.isDigit
  let (fraction, tail) :=
    match rest with
    | '.' :: rest => (rest.takeWhile Char.isDigit, rest.dropWhile Char.isDigit)
    | rest => ([], rest)
  if whole.isEmpty ∧ fraction.isEmpty then none
  else (readExponent tail).map fun e =>
    .decimal negative (digitsValue (whole ++ fraction)) (e - fraction.length)

def read (cs : List Char) : Except NumeralFault Numeral :=
  if cs.isEmpty then .error .empty
  else
    let (negative, body) := splitSign cs
    let folded := body.map Char.toLower
    if folded = ['n', 'a', 'n'] then .ok .nan
    else if folded = ['i', 'n', 'f'] ∨ folded = ['i', 'n', 'f', 'i', 'n', 'i', 't', 'y'] then
      .ok (.infinity negative)
    else
      match readDecimal negative body with
      | some n => .ok n
      | none => .error .invalid

/-- No finite word reaches ten to this power, and none but zero is below its inverse. -/
def farExponent : Int := 400

/-- The nearest word of a format. Numbers far outside its range are settled without computing the
power of ten. -/
def toWord (f : BinaryFormat) : Numeral → Nat
  | .nan => f.nanWord
  | .infinity negative => f.signWord negative + f.infinityWord
  | .decimal negative digits exponent =>
    let magnitude : Int := exponent + (digits.log2 * 30103 / 100000 : Nat)
    f.signWord negative +
      if digits = 0 ∨ magnitude < -farExponent then 0
      else if farExponent < magnitude then f.infinityWord
      else if 0 ≤ exponent then f.ofRatio (digits * 10 ^ exponent.toNat) 1
      else f.ofRatio digits (10 ^ (-exponent).toNat)

end Numeral

def readFloat (cs : List Char) : Except NumeralFault Float :=
  (Numeral.read cs).map fun n => .ofBits (.ofNat (n.toWord .double))

def readFloat32 (cs : List Char) : Except NumeralFault Float32 :=
  (Numeral.read cs).map fun n => .ofBits (.ofNat (n.toWord .single))

end VorbisTrack
