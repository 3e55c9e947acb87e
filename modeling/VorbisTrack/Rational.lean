/-!
# Rational numbers in 64-bit words

Time bases and durations are quotients of two signed 64-bit words. `Rational.reduced` is the
lowest-terms form with a positive denominator; a literal `⟨num, den⟩` is taken as it stands.
-/

set_option autoImplicit false

namespace VorbisTrack

/-- A quotient of two words. -/
structure Rational where
  num : Int64
  den : Int64
  deriving DecidableEq

namespace Rational

/-- Euclid's algorithm on integers, the remainder taking the sign of the dividend. -/
def euclid (a b : Int) : Int :=
  if b = 0 then a else euclid b (a.tmod b)
termination_by b.natAbs
decreasing_by
  have h := Int.natAbs_tmod a b
  have : a.natAbs % b.natAbs < b.natAbs := Nat.mod_lt _ (by omega)
  omega

/-- The quotient in lowest terms with a positive denominator. A zero denominator is left as it is,
and the least word has no absolute value. -/
def reduced (num den : Int64) : Rational :=
  if den = 0 then ⟨num, den⟩
  else
    let divisor := Int64.ofInt (euclid num.abs.toInt den.abs.toInt)
    let (n, d) := if 1 < divisor then (num / divisor, den / divisor) else (num, den)
    if d < 0 then ⟨-n, -d⟩ else ⟨n, d⟩

def perSample (rate : UInt32) : Rational :=
  reduced 1 (Int64.ofInt rate.toNat)

def zero : Rational := ⟨0, 1⟩

def toFloat (r : Rational) : Float :=
  r.num.toFloat / r.den.toFloat

/-- Ticks have a positive length. -/
def isTimeBase (r : Rational) : Bool :=
  0 < r.num && 0 < r.den

def text (r : Rational) : String :=
  toString r.num.toInt ++ "/" ++ toString r.den.toInt

end Rational

end VorbisTrack
