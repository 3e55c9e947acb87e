import VorbisTrack.Numeric.Power
import VorbisTrack.Rational

/-!
# Timestamps

A timestamp counts ticks of a time base. The least word stands for an unknown time, which no
operation changes.
-/

set_option autoImplicit false

namespace VorbisTrack

/-- A count of ticks, or the least word for an unknown time. -/
structure Timestamp where
  ticks : Int64
  deriving DecidableEq

/-- The signed 128-bit word with the same low bits. -/
def wrap128 (n : Int) : Int :=
  n.bmod (2 ^ 128)

namespace Timestamp

def unknown : Timestamp := ⟨Int64.minValue⟩

def isKnown (t : Timestamp) : Bool :=
  t.ticks != Int64.minValue

/-- The time in seconds; zero if it is unknown. -/
def seconds (t : Timestamp) (base : Rational) : Float :=
  if t.isKnown then t.ticks.toFloat * base.toFloat else 0

/-- The same time in another time base, rounded down. The product is a 128-bit word, and the
result keeps its low 64 bits. -/
def rescale (t : Timestamp) (source target : Rational) : Timestamp :=
  if t.isKnown && source.isTimeBase && target.isTimeBase then
    let product := wrap128 (t.ticks.toInt * source.num.toInt * target.den.toInt)
    ⟨Int64.ofInt (product.fdiv (source.den.toInt * target.num.toInt))⟩
  else t

/-- A known time moved by a count of ticks. -/
def offset (t : Timestamp) (ticks : Int64) : Timestamp :=
  if t.isKnown then ⟨t.ticks + ticks⟩ else t

def text (t : Timestamp) : String :=
  if t.isKnown then toString t.ticks.toInt else "NOPTS"

end Timestamp

end VorbisTrack
