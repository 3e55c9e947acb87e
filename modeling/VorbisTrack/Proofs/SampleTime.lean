import VorbisTrack.Matroska.Block

/-!
# Times that count samples

A sample's time is a count of ticks, rounded down (`Rational.ticksAt`). With one tick for every
sample, a count of samples is its own time. In a file, times are in whole milliseconds
(`Matroska.timecode`); a count of samples has one as long as its words are wide enough, and they
are, since a rate has 32 bits.
-/

set_option autoImplicit false

namespace VorbisTrack

/-! ## Words -/

theorem Int64.toInt_max (a b : Int64) : (max a b).toInt = max a.toInt b.toInt := by
  show (if a ≤ b then b else a).toInt = _
  by_cases h : a ≤ b
  · rw [if_pos h, Int.max_eq_right (Int64.le_iff_toInt_le.mp h)]
  · rw [if_neg h, Int.max_eq_left]
    have := Int64.lt_iff_toInt_lt.mp (Int64.not_le.mp h)
    omega

theorem Int64.abs_of_nonneg {n : Int64} (h : 0 ≤ n.toInt) : n.abs = n := by
  apply Int64.toBitVec.inj
  show n.toBitVec.abs = n.toBitVec
  have positive : n.toBitVec.msb = false := by
    rw [BitVec.msb_eq_toInt]
    exact decide_eq_false (Int.not_lt.mpr h)
  rw [BitVec.abs, positive]
  rfl

/-- A number that has fewer bits than a 128-bit word is not changed by being kept in one. -/
theorem wrap128_of_lt {n : Int} (low : -2 ^ 127 ≤ n) (high : n < 2 ^ 127) : wrap128 n = n := by
  apply Int.bmod_eq_of_le
  · omega
  · omega

namespace Rational

/-- A rate fits into a signed word. -/
theorem toInt_rate (rate : UInt32) : (Int64.ofInt rate.toNat).toInt = rate.toNat := by
  have := rate.toNat_lt
  exact Int64.toInt_ofInt_of_le (by omega) (by omega)

theorem euclid_one {b : Int} (positive : 0 < b) : euclid 1 b = 1 := by
  rw [euclid, if_neg (by omega)]
  by_cases one : b = 1
  · subst one
    rw [Int.tmod_self, euclid, if_pos rfl]
  · have rest : Int.tmod 1 b = 1 := Int.tmod_eq_of_lt (by omega) (by omega)
    rw [rest, euclid, if_neg (by omega), Int.tmod_one, euclid, if_pos rfl]

/-- One tick for every sample is in lowest terms. -/
theorem perSample_eq {rate : UInt32} (positive : 0 < rate.toNat) :
    perSample rate = ⟨1, Int64.ofInt rate.toNat⟩ := by
  have value := toInt_rate rate
  have zero : (0 : Int64).toInt = 0 := rfl
  have nonzero : Int64.ofInt rate.toNat ≠ 0 := by
    intro none
    rw [none] at value
    omega
  have upward : ¬ Int64.ofInt rate.toNat < 0 := by
    rw [Int64.lt_iff_toInt_lt, value]
    omega
  have divisor : euclid (Int64.abs 1).toInt (Int64.ofInt rate.toNat).abs.toInt = 1 := by
    rw [Int64.abs_of_nonneg (show 0 ≤ (Int64.ofInt rate.toNat).toInt by omega), value]
    exact euclid_one (by omega)
  unfold perSample reduced
  rw [if_neg nonzero, divisor]
  simp only [show ¬ (1 : Int64) < Int64.ofInt 1 by decide, if_false, upward]

theorem isTimeBase_perSample {rate : UInt32} (positive : 0 < rate.toNat) :
    (perSample rate).isTimeBase = true := by
  have value := toInt_rate rate
  have zero : (0 : Int64).toInt = 0 := rfl
  have upward : 0 < Int64.ofInt rate.toNat := by
    rw [Int64.lt_iff_toInt_lt, value]
    omega
  rw [perSample_eq positive, isTimeBase, Bool.and_eq_true]
  exact ⟨rfl, decide_eq_true upward⟩

theorem positive_of_isTimeBase {base : Rational} (valid : base.isTimeBase = true) :
    0 < base.num.toInt ∧ 0 < base.den.toInt := by
  rw [isTimeBase, Bool.and_eq_true, decide_eq_true_eq, decide_eq_true_eq] at valid
  exact ⟨Int64.lt_iff_toInt_lt.mp valid.1, Int64.lt_iff_toInt_lt.mp valid.2⟩

/-- The ticks of a time base that have gone by at a sample, rounded down. -/
def ticksAt (base : Rational) (rate : UInt32) (sample : Int) : Int :=
  sample * base.den.toInt / (rate.toNat * base.num.toInt)

/-- No tick goes back. -/
theorem ticksAt_mono {base : Rational} (valid : base.isTimeBase = true) (rate : UInt32)
    {sample later : Int} (h : sample ≤ later) :
    base.ticksAt rate sample ≤ base.ticksAt rate later := by
  obtain ⟨num, den⟩ := positive_of_isTimeBase valid
  have scaled : sample * base.den.toInt ≤ later * base.den.toInt :=
    Int.mul_le_mul_of_nonneg_right h (Int.le_of_lt den)
  unfold ticksAt
  rcases Nat.eq_zero_or_pos rate.toNat with none | positive
  · exact Int.le_of_eq (by
      rw [none, Int.natCast_zero, Int.zero_mul, Int.ediv_zero, Int.ediv_zero])
  · exact Int.ediv_le_ediv (Int.mul_pos (Int.natCast_pos.mpr positive) num) scaled

@[simp] theorem ticksAt_zero (base : Rational) (rate : UInt32) : base.ticksAt rate 0 = 0 := by
  rw [ticksAt, Int.zero_mul, Int.zero_ediv]

end Rational

/-- A count of samples becomes the ticks that have gone by at it. -/
theorem Timestamp.toInt_rescale {rate : UInt32} (positive : 0 < rate.toNat) {base : Rational}
    (valid : base.isTimeBase = true) {sample : Int64} (low : 0 ≤ sample.toInt)
    (fits : base.ticksAt rate sample.toInt < 2 ^ 63) :
    ((Timestamp.mk sample).rescale (.perSample rate) base).ticks.toInt =
      base.ticksAt rate sample.toInt := by
  obtain ⟨num, den⟩ := Rational.positive_of_isTimeBase valid
  have known : (Timestamp.mk sample).isKnown = true := by
    rw [isKnown, bne_iff_ne]
    intro least
    rw [show sample = Int64.minValue from least] at low
    exact absurd low (by decide)
  have one : (1 : Int64).toInt = 1 := rfl
  -- Both factors have 64 bits, so the product fits into 128.
  have product : 0 ≤ sample.toInt * base.den.toInt ∧ sample.toInt * base.den.toInt < 2 ^ 127 := by
    have := base.den.toInt_lt
    have := sample.toInt_lt
    constructor
    · exact Int.mul_nonneg low (by omega)
    · calc sample.toInt * base.den.toInt
          ≤ 2 ^ 63 * base.den.toInt := Int.mul_le_mul_of_nonneg_right (by omega) (by omega)
        _ ≤ 2 ^ 63 * 2 ^ 63 := Int.mul_le_mul_of_nonneg_left (by omega) (by decide)
        _ < 2 ^ 127 := by decide
  have divisor : 0 ≤ (rate.toNat : Int) * base.num.toInt := Int.mul_nonneg (by omega) (by omega)
  have quotient : 0 ≤ base.ticksAt rate sample.toInt := Int.ediv_nonneg product.1 divisor
  unfold rescale
  rw [known, Rational.isTimeBase_perSample positive, valid, Rational.perSample_eq positive]
  simp only [Bool.and_self, if_true, Rational.toInt_rate, one, Int.mul_one]
  rw [wrap128_of_lt (by omega) product.2, Int.fdiv_eq_ediv_of_nonneg _ divisor]
  exact Int64.toInt_ofInt_of_le (Int.le_trans (by decide) quotient) fits

/-- A count of samples is its own time. -/
theorem Timestamp.rescale_perSample {rate : UInt32} (positive : 0 < rate.toNat) (t : Timestamp) :
    t.rescale (.perSample rate) (.perSample rate) = t := by
  unfold rescale
  split
  · have low := t.ticks.le_toInt
    have high := t.ticks.toInt_lt
    have small := rate.toNat_lt
    -- A time has 64 bits and a rate 32, so their product fits into 128.
    have product : -2 ^ 127 ≤ t.ticks.toInt * (rate.toNat : Int) ∧
        t.ticks.toInt * (rate.toNat : Int) < 2 ^ 127 := by
      constructor
      · calc (-2 ^ 127 : Int) ≤ -2 ^ 63 * 2 ^ 32 := by decide
          _ ≤ -2 ^ 63 * (rate.toNat : Int) := by omega
          _ ≤ t.ticks.toInt * (rate.toNat : Int) := Int.mul_le_mul_of_nonneg_right low (by omega)
      · calc t.ticks.toInt * (rate.toNat : Int)
            ≤ 2 ^ 63 * (rate.toNat : Int) := Int.mul_le_mul_of_nonneg_right (by omega) (by omega)
          _ ≤ 2 ^ 63 * 2 ^ 32 := by omega
          _ < 2 ^ 127 := by decide
    have one : (1 : Int64).toInt = 1 := rfl
    rw [Rational.perSample_eq positive]
    simp only [Rational.toInt_rate, one, Int.mul_one]
    rw [wrap128_of_lt product.1 product.2, Int.mul_fdiv_cancel _ (by omega), Int64.ofInt_toInt]
  · rfl

namespace Matroska

/-- A time in whole milliseconds, rounded down. Times that are not positive, and times without a
valid base, count as zero. -/
def timecode (base : Rational) (time : Timestamp) : Nat :=
  if base.isTimeBase ∧ 0 < time.ticks.toInt then
    (time.ticks.toInt * base.num.toInt * 1000 / base.den.toInt).toNat
  else 0

/-- The nanoseconds of a time fit into a 128-bit word, and its milliseconds into a 64-bit one. -/
structure InRange (base : Rational) (time : Timestamp) : Prop where
  nanoseconds : time.ticks.toInt * base.num.toInt * 1000000000 < 2 ^ 127
  milliseconds : time.ticks.toInt * base.num.toInt * 1000 / base.den.toInt < 2 ^ 64

theorem milliseconds_eq_timecode {base : Rational} {time : Timestamp}
    (inRange : base.isTimeBase = true → 0 < time.ticks.toInt → InRange base time) :
    milliseconds base time = timecode base time := by
  have positive : 0 < time.ticks ↔ 0 < time.ticks.toInt := Int64.lt_iff_toInt_lt
  unfold milliseconds timecode
  simp only [positive]
  by_cases some_ : base.isTimeBase = true ∧ 0 < time.ticks.toInt
  · obtain ⟨wide, fits⟩ := inRange some_.1 some_.2
    obtain ⟨num, den⟩ := Rational.positive_of_isTimeBase some_.1
    have scaled : 0 < time.ticks.toInt * base.num.toInt := Int.mul_pos some_.2 num
    rw [if_pos some_, if_pos some_, wrap128_of_lt (by omega) wide]
    generalize time.ticks.toInt * base.num.toInt = product at scaled wide fits ⊢
    -- The time becomes whole nanoseconds first. Dividing twice rounds as dividing once would.
    have nanoseconds : 0 ≤ product * 1000000000 := by omega
    have whole : ((product * 1000000000).tdiv base.den.toInt).tdiv 1000000 =
        product * 1000 / base.den.toInt := by
      calc ((product * 1000000000).tdiv base.den.toInt).tdiv 1000000
          = product * 1000000000 / base.den.toInt / 1000000 := by
            rw [Int.tdiv_eq_ediv_of_nonneg nanoseconds,
              Int.tdiv_eq_ediv_of_nonneg (Int.ediv_nonneg nanoseconds (Int.le_of_lt den))]
        _ = product * 1000 * 1000000 / (base.den.toInt * 1000000) := by
            rw [Int.ediv_ediv_of_nonneg (Int.le_of_lt den), Int.mul_assoc]
            rfl
        _ = product * 1000 / base.den.toInt := Int.mul_ediv_mul_of_pos_left _ _ (by decide)
    rw [whole, Int.emod_eq_of_lt (Int.ediv_nonneg (by omega) (by omega)) fits]
  · rw [if_neg some_, if_neg some_]

/-- The time of a count of samples in a file, in whole milliseconds. -/
theorem milliseconds_perSample {rate : UInt32} (positive : 0 < rate.toNat)
    {t : Timestamp} (low : 0 ≤ t.ticks.toInt) (high : t.ticks.toInt < 2 ^ 53) :
    milliseconds (.perSample rate) t = t.ticks.toInt.toNat * 1000 / rate.toNat := by
  obtain ⟨samples, count⟩ := Int.eq_ofNat_of_zero_le low
  have one : (1 : Int64).toInt = 1 := rfl
  have base := Rational.perSample_eq positive
  have whole : t.ticks.toInt * (Rational.perSample rate).num.toInt * 1000
      / (Rational.perSample rate).den.toInt = ((samples * 1000 / rate.toNat : Nat) : Int) := by
    rw [base, Rational.toInt_rate, one, Int.mul_one, count]
    exact (Int.natCast_ediv _ _).symm
  rw [milliseconds_eq_timecode, timecode, whole, count]
  · split
    · rfl
    · -- A time that is not after the start is zero.
      next none =>
      have zero : ¬ 0 < (samples : Int) :=
        fun some_ => none ⟨Rational.isTimeBase_perSample positive, some_⟩
      have zero : samples = 0 := by omega
      rw [zero]
      simp
  · intro _ _
    have few := Nat.div_le_self (samples * 1000) rate.toNat
    constructor
    · rw [base, one]
      omega
    · rw [whole]
      omega

end Matroska

end VorbisTrack
