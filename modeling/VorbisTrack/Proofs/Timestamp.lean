import Mathlib.Algebra.Order.Field.Basic
import Mathlib.Data.Rat.Floor
import Mathlib.Tactic.FieldSimp
import Mathlib.Tactic.Linarith
import Mathlib.Tactic.Positivity
import Mathlib.Tactic.Ring
import VorbisTrack.Proofs.SampleTime

/-!
# Rescaled timestamps

A timestamp is moved to another time base by one division, which rounds down whatever the sign is.
As long as the words are wide enough (`Timestamp.Convertible`), the result is the floor of the exact
quotient (`Timestamp.toInt_rescale_eq_floor`). So it depends on the lengths of the ticks only, keeps
the order of times, and loses less than one tick of each base on the way there and back
(`Timestamp.rescale_isExact`).
-/

set_option autoImplicit false

namespace VorbisTrack

/-- The length of a tick in seconds, as an exact fraction. -/
def Rational.ratio (r : Rational) : ℚ :=
  r.num.toInt / r.den.toInt

theorem Rational.ratio_pos {base : Rational} (valid : base.isTimeBase = true) : 0 < base.ratio := by
  obtain ⟨num, den⟩ := positive_of_isTimeBase valid
  have num : (0 : ℚ) < base.num.toInt := by exact_mod_cast num
  have den : (0 : ℚ) < base.den.toInt := by exact_mod_cast den
  exact div_pos num den

namespace Timestamp

def exactly (t : Timestamp) (source target : Rational) : ℚ :=
  t.ticks.toInt * source.ratio / target.ratio

/-- A known time, valid bases, and words that are wide enough: the product has 128 bits and the
result 64. -/
structure Convertible (t : Timestamp) (source target : Rational) : Prop where
  known : t.isKnown = true
  validSource : source.isTimeBase = true
  validTarget : target.isTimeBase = true
  product : -2 ^ 127 ≤ t.ticks.toInt * source.num.toInt * target.den.toInt ∧
    t.ticks.toInt * source.num.toInt * target.den.toInt < 2 ^ 127
  result : -2 ^ 63 ≤ ⌊t.exactly source target⌋ ∧ ⌊t.exactly source target⌋ < 2 ^ 63

structure RescalesExactly (t : Timestamp) (source target : Rational) : Prop where
  /-- The result is the one whole number that the exact time has reached. -/
  floor : ∀ r : Int, (r ≤ t.exactly source target ∧ t.exactly source target < r + 1) ↔
    r = (t.rescale source target).ticks.toInt
  /-- Later times stay later. -/
  mono : ∀ later : Timestamp, later.Convertible source target → t.ticks ≤ later.ticks →
    (t.rescale source target).ticks ≤ (later.rescale source target).ticks
  /-- The words of the bases do not matter. -/
  ratios : ∀ source' target' : Rational, t.Convertible source' target' →
    source'.ratio = source.ratio → target'.ratio = target.ratio →
      t.rescale source' target' = t.rescale source target
  same : source.ratio = target.ratio → t.rescale source target = t
  /-- The way back leads to an earlier time, but by less than a tick of each base. It leads to the
  same time if the ticks of the first base are whole numbers of the second. -/
  back : (t.rescale source target).Convertible target source →
    ((t.rescale source target).rescale target source).ticks ≤ t.ticks ∧
      (t.ticks.toInt : ℚ) - ((t.rescale source target).rescale target source).ticks.toInt <
        1 + target.ratio / source.ratio ∧
      ∀ count : Int, source.ratio = count * target.ratio →
        (t.rescale source target).rescale target source = t

variable {t later : Timestamp} {source target source' target' : Rational}

/-! ## The floor -/

/-- The exact time is the quotient of the integers that are divided. -/
theorem exactly_eq (source_ : source.isTimeBase = true) (target_ : target.isTimeBase = true) :
    t.exactly source target =
      ((t.ticks.toInt * source.num.toInt * target.den.toInt : Int) : ℚ) /
        ((source.den.toInt * target.num.toInt : Int) : ℚ) := by
  obtain ⟨-, den⟩ := Rational.positive_of_isTimeBase source_
  obtain ⟨num, den'⟩ := Rational.positive_of_isTimeBase target_
  have den : (source.den.toInt : ℚ) ≠ 0 := by exact_mod_cast Int.ne_of_gt den
  have num : (target.num.toInt : ℚ) ≠ 0 := by exact_mod_cast Int.ne_of_gt num
  have den' : (target.den.toInt : ℚ) ≠ 0 := by exact_mod_cast Int.ne_of_gt den'
  rw [exactly, Rational.ratio, Rational.ratio]
  push_cast
  field_simp

/-- The floor of a quotient is found by dividing integers. -/
theorem floor_exactly (source_ : source.isTimeBase = true) (target_ : target.isTimeBase = true) :
    ⌊t.exactly source target⌋ =
      t.ticks.toInt * source.num.toInt * target.den.toInt /
        (source.den.toInt * target.num.toInt) := by
  obtain ⟨-, den⟩ := Rational.positive_of_isTimeBase source_
  obtain ⟨num, -⟩ := Rational.positive_of_isTimeBase target_
  have divisor : 0 < source.den.toInt * target.num.toInt := Int.mul_pos den num
  have positive : (0 : ℚ) < ((source.den.toInt * target.num.toInt : Int) : ℚ) := by
    exact_mod_cast divisor
  rw [exactly_eq source_ target_, Int.floor_eq_iff, le_div_iff₀ positive, div_lt_iff₀ positive]
  constructor
  · exact_mod_cast Int.ediv_mul_le _ (Int.ne_of_gt divisor)
  · exact_mod_cast Int.lt_ediv_add_one_mul_self _ divisor

/-- A time is rescaled to the floor of the exact one. -/
theorem toInt_rescale_eq_floor (h : t.Convertible source target) :
    (t.rescale source target).ticks.toInt = ⌊t.exactly source target⌋ := by
  obtain ⟨-, den⟩ := Rational.positive_of_isTimeBase h.validSource
  obtain ⟨num, -⟩ := Rational.positive_of_isTimeBase h.validTarget
  have divisor : 0 ≤ source.den.toInt * target.num.toInt :=
    Int.le_of_lt (Int.mul_pos den num)
  have result := h.result
  rw [floor_exactly h.validSource h.validTarget] at result ⊢
  unfold rescale
  rw [h.known, h.validSource, h.validTarget]
  simp only [Bool.and_self, if_true]
  rw [wrap128_of_lt h.product.1 h.product.2, Int.fdiv_eq_ediv_of_nonneg _ divisor]
  exact Int64.toInt_ofInt_of_le result.1 result.2

theorem eq_of_toInt_eq {t t' : Timestamp} (same : t.ticks.toInt = t'.ticks.toInt) : t = t' := by
  obtain ⟨ticks⟩ := t
  obtain ⟨ticks'⟩ := t'
  cases Int64.toInt_inj.mp same
  rfl

/-! ## There and back -/

/-- Rescaling reaches the exact time but for less than a tick. -/
theorem rescale_bounds (h : t.Convertible source target) :
    ((t.rescale source target).ticks.toInt : ℚ) * target.ratio ≤ t.ticks.toInt * source.ratio ∧
      (t.ticks.toInt : ℚ) * source.ratio <
        ((t.rescale source target).ticks.toInt + 1) * target.ratio := by
  have positive := Rational.ratio_pos h.validTarget
  rw [toInt_rescale_eq_floor h, ← le_div_iff₀ positive, ← div_lt_iff₀ positive]
  exact ⟨Int.floor_le _, Int.lt_floor_add_one _⟩

/-- The way back ends less than a tick of each base before the time that it started from. -/
theorem rescale_rescale_bounds (h : t.Convertible source target)
    (h' : (t.rescale source target).Convertible target source) :
    ((t.rescale source target).rescale target source).ticks.toInt ≤ t.ticks.toInt ∧
      (t.ticks.toInt : ℚ) - ((t.rescale source target).rescale target source).ticks.toInt <
        1 + target.ratio / source.ratio := by
  have positive := Rational.ratio_pos h.validSource
  obtain ⟨low, high⟩ := rescale_bounds h
  obtain ⟨low', high'⟩ := rescale_bounds h'
  generalize ((t.rescale source target).rescale target source).ticks.toInt = w at low' high' ⊢
  generalize (t.rescale source target).ticks.toInt = r at low high low' high'
  constructor
  · have reached : (w : ℚ) * source.ratio ≤ t.ticks.toInt * source.ratio := low'.trans low
    exact_mod_cast le_of_mul_le_mul_right reached positive
  · have scaled : (t.ticks.toInt : ℚ) * source.ratio <
        (1 + target.ratio / source.ratio + w) * source.ratio := by
      calc (t.ticks.toInt : ℚ) * source.ratio
          < (r + 1) * target.ratio := high
        _ < (w + 1) * source.ratio + target.ratio := by linarith
        _ = (1 + target.ratio / source.ratio + w) * source.ratio := by
          field_simp
          ring
    have less := lt_of_mul_lt_mul_right scaled positive.le
    linarith

/-- Ticks that are whole numbers of others are counted without loss. -/
theorem toInt_rescale_of_multiple (h : t.Convertible source target) {count : Int}
    (multiple : source.ratio = count * target.ratio) :
    (t.rescale source target).ticks.toInt = t.ticks.toInt * count := by
  have nonzero : target.ratio ≠ 0 := (Rational.ratio_pos h.validTarget).ne'
  have whole : t.exactly source target = ((t.ticks.toInt * count : Int) : ℚ) := by
    rw [exactly, multiple]
    push_cast
    field_simp
  rw [toInt_rescale_eq_floor h, whole, Int.floor_intCast]

/-- If the way there has lost nothing, the way back leads to the same time. -/
theorem rescale_rescale_of_multiple (h : t.Convertible source target)
    (h' : (t.rescale source target).Convertible target source) {count : Int}
    (multiple : source.ratio = count * target.ratio) :
    (t.rescale source target).rescale target source = t := by
  have nonzero : source.ratio ≠ 0 := (Rational.ratio_pos h.validSource).ne'
  have whole : (t.rescale source target).exactly target source = (t.ticks.toInt : ℚ) := by
    rw [exactly, toInt_rescale_of_multiple h multiple, div_eq_iff nonzero, multiple]
    push_cast
    ring
  apply eq_of_toInt_eq
  rw [toInt_rescale_eq_floor h', whole, Int.floor_intCast]

/-! ## Rescaling -/

/-- What is not known, or not a time base, is left alone. -/
theorem rescale_of_invalid
    (invalid : t.isKnown = false ∨ source.isTimeBase = false ∨ target.isTimeBase = false) :
    t.rescale source target = t := by
  unfold rescale
  rcases invalid with unknown | invalid | invalid
  · rw [unknown, Bool.false_and, Bool.false_and, if_neg Bool.false_ne_true]
  · rw [invalid, Bool.and_false, Bool.false_and, if_neg Bool.false_ne_true]
  · rw [invalid, Bool.and_false, if_neg Bool.false_ne_true]

/-- **Timestamps are rescaled exactly.** Where the words are wide enough, the result is the floor of
the exact quotient. What is invalid leaves the time as it is. -/
theorem rescale_isExact (t : Timestamp) (source target : Rational) :
    (t.Convertible source target → t.RescalesExactly source target) ∧
      (t.isKnown = false ∨ source.isTimeBase = false ∨ target.isTimeBase = false →
        t.rescale source target = t) := by
  refine ⟨fun h => ?_, rescale_of_invalid⟩
  constructor
  case floor =>
    intro r
    rw [toInt_rescale_eq_floor h, ← Int.floor_eq_iff]
    exact eq_comm
  case mono =>
    intro later h' ordered
    rw [Int64.le_iff_toInt_le] at ordered ⊢
    rw [toInt_rescale_eq_floor h, toInt_rescale_eq_floor h']
    have ticks : (t.ticks.toInt : ℚ) ≤ later.ticks.toInt := by exact_mod_cast ordered
    have source_ := Rational.ratio_pos h.validSource
    have target_ := Rational.ratio_pos h.validTarget
    apply Int.floor_le_floor
    unfold exactly
    gcongr
  case ratios =>
    intro source' target' h' source_ target_
    apply eq_of_toInt_eq
    rw [toInt_rescale_eq_floor h, toInt_rescale_eq_floor h', exactly, exactly, source_, target_]
  case same =>
    intro same
    have once : source.ratio = (1 : Int) * target.ratio := by rw [same, Int.cast_one, one_mul]
    apply eq_of_toInt_eq
    rw [toInt_rescale_of_multiple h once, Int.mul_one]
  case back =>
    intro h'
    obtain ⟨earlier, close⟩ := rescale_rescale_bounds h h'
    refine ⟨Int64.le_iff_toInt_le.mpr earlier, close, ?_⟩
    intro count multiple
    exact rescale_rescale_of_multiple h h' multiple

/-- A time before the start, in ticks of a sample. -/
def earlyTime : Timestamp := ⟨-100⟩

/-- Milliseconds, not in lowest terms. -/
def coarseBase : Rational := ⟨2, 2000⟩

/-- A negative time is rounded down too, and not towards zero. -/
theorem rescale_isExact_early :
    earlyTime.Convertible ⟨1, 48000⟩ coarseBase ∧
      earlyTime.RescalesExactly ⟨1, 48000⟩ coarseBase ∧
      earlyTime.rescale ⟨1, 48000⟩ coarseBase = ⟨-3⟩ ∧
      unknown.rescale ⟨1, 48000⟩ coarseBase = unknown := by
  have h : earlyTime.Convertible ⟨1, 48000⟩ coarseBase := by
    refine ⟨by decide, by decide, by decide, by decide, ?_⟩
    rw [floor_exactly (by decide) (by decide)]
    decide
  exact ⟨h, (rescale_isExact _ _ _).1 h, by decide,
    (rescale_isExact _ _ _).2 (.inl (by decide))⟩

end Timestamp

end VorbisTrack
