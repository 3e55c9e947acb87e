import Mathlib.Algebra.Order.Field.Power
import Mathlib.Algebra.Order.Field.Rat
import Mathlib.Algebra.Order.Group.MinMax
import Mathlib.Tactic.FieldSimp
import Mathlib.Tactic.Linarith
import Mathlib.Tactic.Positivity
import Mathlib.Tactic.Ring
import VorbisTrack.Numeric.Binary

/-!
# Order and error of rounding

The words of a binary format are in the order of the numbers that they stand for (`unitsOf_mono`),
and the word nearest to a number never decreases when the number grows (`ofRatio_mono`). Numbers of
one place have their significands rounded at that place. Between places the order is kept because a
significand that is rounded up is at most the least one of the next place.

A word that is not that of infinity differs from the number by half a unit of its place at most,
which is little beside the number, or half of the smallest positive number (`ofRatio_error`).
-/

set_option autoImplicit false

namespace VorbisTrack

/-! ## Whole numbers -/

theorem roundHalfEven_bounds (num den : Nat) :
    num / den ≤ roundHalfEven num den ∧ roundHalfEven num den ≤ num / den + 1 := by
  unfold roundHalfEven
  dsimp only
  split
  · omega
  · split
    · omega
    · omega

/-- Rounding to whole numbers keeps the order. -/
theorem roundHalfEven_mono {num den num' den' : Nat} (pos : 0 < den) (pos' : 0 < den')
    (le : num * den' ≤ num' * den) : roundHalfEven num den ≤ roundHalfEven num' den' := by
  have whole : num / den ≤ num' / den' := by
    rw [Nat.le_div_iff_mul_le pos']
    apply Nat.le_of_mul_le_mul_right _ pos
    calc num / den * den' * den = num / den * den * den' := Nat.mul_right_comm ..
      _ ≤ num * den' := Nat.mul_le_mul_right _ (Nat.div_mul_le_self num den)
      _ ≤ num' * den := le
  rcases Nat.lt_or_eq_of_le whole with less | same
  · have := (roundHalfEven_bounds num den).2
    have := (roundHalfEven_bounds num' den').1
    omega
  · -- The whole parts are the same, so the rests are in order.
    have rest : num % den * den' ≤ num' % den' * den := by
      have parts := Nat.div_add_mod num den
      have parts' := Nat.div_add_mod num' den'
      rw [same] at parts
      nlinarith
    have half : den ≤ 2 * (num % den) → den' ≤ 2 * (num' % den') := by
      intro large
      apply Nat.le_of_mul_le_mul_right _ pos
      nlinarith
    have more : den < 2 * (num % den) → den' < 2 * (num' % den') := by
      intro large
      apply Nat.lt_of_mul_lt_mul_right (a := den)
      nlinarith
    unfold roundHalfEven
    dsimp only
    rw [same]
    split_ifs <;> omega

theorem roundHalfEven_one (num : Nat) : roundHalfEven num 1 = num := by
  simp [roundHalfEven, Nat.mod_one]

theorem roundHalfEven_le {num den bound : Nat} (pos : 0 < den) (le : num ≤ bound * den) :
    roundHalfEven num den ≤ bound := by
  rw [← roundHalfEven_one bound]
  exact roundHalfEven_mono pos Nat.one_pos (by rwa [Nat.mul_one])

theorem le_roundHalfEven {num den bound : Nat} (pos : 0 < den) (le : bound * den ≤ num) :
    bound ≤ roundHalfEven num den := by
  rw [← roundHalfEven_one bound]
  exact roundHalfEven_mono Nat.one_pos pos (by rwa [Nat.mul_one])

/-- How far a whole number is from a quotient. -/
theorem abs_sub_div_le {whole num den : Nat} (pos : 0 < den)
    (below : 2 * num ≤ (2 * whole + 1) * den) (above : 2 * whole * den ≤ 2 * num + den) :
    |(whole : ℚ) - num / den| ≤ 1 / 2 := by
  have denPos : (0 : ℚ) < den := by exact_mod_cast pos
  have below : 2 * (num : ℚ) ≤ (2 * whole + 1) * den := by exact_mod_cast below
  have above : 2 * (whole : ℚ) * den ≤ 2 * num + den := by exact_mod_cast above
  rw [abs_le]
  constructor
  · have : (num : ℚ) / den ≤ whole + 1 / 2 := by
      rw [div_le_iff₀ denPos]
      linarith
    linarith
  · have : (whole : ℚ) - 1 / 2 ≤ num / den := by
      rw [le_div_iff₀ denPos]
      linarith
    linarith

/-- Rounding to whole numbers moves a quotient by a half at most. -/
theorem roundHalfEven_error (num : Nat) {den : Nat} (pos : 0 < den) :
    |(roundHalfEven num den : ℚ) - num / den| ≤ 1 / 2 := by
  have within : 2 * num ≤ (2 * roundHalfEven num den + 1) * den ∧
      2 * roundHalfEven num den * den ≤ 2 * num + den := by
    have parts := Nat.div_add_mod' num den
    have less := Nat.mod_lt num pos
    unfold roundHalfEven
    dsimp only
    generalize num / den = quotient, num % den = rest at parts less ⊢
    split_ifs with down up
    · constructor <;> nlinarith
    · constructor <;> nlinarith
    · -- On a tie both neighbours are half away.
      have tie : 2 * rest = den := by omega
      rcases Nat.mod_two_eq_zero_or_one quotient with even | odd
      · rw [even]
        constructor <;> nlinarith
      · rw [odd]
        constructor <;> nlinarith
  exact abs_sub_div_le pos within.1 within.2

/-! ## Scaling by powers of two -/

theorem scaleRatio_pos (num : Nat) {den : Nat} (pos : 0 < den) (exponent : Int) :
    0 < (scaleRatio num den exponent).2 := by
  unfold scaleRatio
  split
  · exact pos
  · exact Nat.mul_pos pos (Nat.two_pow_pos _)

theorem scaleRatio_div (num : Nat) {den : Nat} (pos : 0 < den) (exponent : Int) :
    ((scaleRatio num den exponent).1 : ℚ) / (scaleRatio num den exponent).2 =
      num / den * 2 ^ exponent := by
  unfold scaleRatio
  split
  · next positive =>
    obtain ⟨k, rfl⟩ := Int.eq_ofNat_of_zero_le positive
    simp only [Int.toNat_natCast, Nat.cast_mul, Nat.cast_pow, Nat.cast_ofNat, zpow_natCast]
    ring
  · next negative =>
    obtain ⟨k, same⟩ := Int.eq_ofNat_of_zero_le (show 0 ≤ -exponent by omega)
    obtain rfl : exponent = -(k : Int) := by omega
    simp only [neg_neg, Int.toNat_natCast, Nat.cast_mul, Nat.cast_pow, Nat.cast_ofNat, zpow_neg,
      zpow_natCast]
    field_simp

/-- Whether a number has more bits than there are below a place. -/
theorem scaleRatio_lt_iff (num : Nat) {den : Nat} (pos : 0 < den) (place : Int) (bits : Nat) :
    (scaleRatio num den (-place)).1 < (scaleRatio num den (-place)).2 * 2 ^ bits ↔
      (num : ℚ) / den < 2 ^ (place + bits) := by
  have scaled := scaleRatio_div num pos (-place)
  have scaledPos := scaleRatio_pos num pos (-place)
  generalize scaleRatio num den (-place) = ratio at scaled scaledPos
  have ratioPos : (0 : ℚ) < ratio.2 := by exact_mod_cast scaledPos
  have placePos : (0 : ℚ) < 2 ^ place := by positivity
  rw [zpow_neg, ← div_eq_mul_inv] at scaled
  calc ratio.1 < ratio.2 * 2 ^ bits
      ↔ (ratio.1 : ℚ) < ratio.2 * 2 ^ bits := by exact_mod_cast Iff.rfl
    _ ↔ (ratio.1 : ℚ) / ratio.2 < 2 ^ bits := (div_lt_iff₀' ratioPos).symm
    _ ↔ (num : ℚ) / den < 2 ^ bits * 2 ^ place := by rw [scaled, div_lt_iff₀ placePos]
    _ ↔ (num : ℚ) / den < 2 ^ (place + bits) := by
      rw [← zpow_natCast, ← zpow_add₀ (by norm_num), add_comm]

/-- Quotients of natural numbers are in the order of their products crosswise. -/
theorem div_le_div_iff_mul {num den num' den' : Nat} (pos : 0 < den) (pos' : 0 < den') :
    (num : ℚ) / den ≤ num' / den' ↔ num * den' ≤ num' * den := by
  rw [div_le_div_iff₀ (by exact_mod_cast pos) (by exact_mod_cast pos')]
  exact_mod_cast Iff.rfl

namespace BinaryFormat

variable {f : BinaryFormat}

theorem two_pow_precision (precise : 0 < f.precision) :
    (2 : Nat) ^ f.precision = 2 ^ (f.precision - 1) + 2 ^ (f.precision - 1) := by
  rw [← Nat.two_mul, ← Nat.pow_succ', Nat.succ_eq_add_one, Nat.sub_add_cancel precise]

/-! ## Places -/

/-- A place at which a positive number has a significand of at most the precision. It has the full
precision unless the place is the least one. -/
structure IsPlace (f : BinaryFormat) (x : ℚ) (place : Int) : Prop where
  least : f.minExponent ≤ place
  below : x < 2 ^ (place + f.precision)
  above : place = f.minExponent ∨ 2 ^ (place + f.precision - 1) ≤ x

/-- A greater number has no lesser place. -/
theorem IsPlace.mono {x y : ℚ} {place place' : Int} (h : f.IsPlace x place)
    (h' : f.IsPlace y place') (le : x ≤ y) : place ≤ place' := by
  rcases h.above with least | full
  · rw [least]
    exact h'.least
  · have between : (2 : ℚ) ^ (place + f.precision - 1) < 2 ^ (place' + f.precision) :=
      lt_of_le_of_lt full (lt_of_le_of_lt le h'.below)
    have := (zpow_lt_zpow_iff_right₀ (by norm_num : (1 : ℚ) < 2)).mp between
    omega

/-- A place that gives the full precision is raised to the least one if need be. -/
theorem isPlace_max {x : ℚ} {place : Int} (below : x < 2 ^ (place + f.precision))
    (above : 2 ^ (place + f.precision - 1) ≤ x) : f.IsPlace x (max f.minExponent place) := by
  rcases le_total f.minExponent place with fits | low
  · rw [max_eq_right fits]
    exact ⟨fits, below, .inr above⟩
  · rw [max_eq_left low]
    refine ⟨le_refl _, lt_of_lt_of_le below ?_, .inl rfl⟩
    exact zpow_le_zpow_right₀ (by norm_num) (by omega)

/-- A positive number lies between the powers of two for its logarithm. -/
theorem log2_bounds {n : Nat} (pos : 0 < n) :
    (2 : ℚ) ^ (n.log2 : Int) ≤ n ∧ (n : ℚ) < 2 ^ ((n.log2 : Int) + 1) := by
  constructor
  · rw [zpow_natCast]
    exact_mod_cast Nat.log2_self_le (Nat.pos_iff_ne_zero.mp pos)
  · rw [← Int.natCast_succ, zpow_natCast]
    exact_mod_cast Nat.lt_log2_self

theorem isPlace_placeOf (precise : 0 < f.precision) {num den : Nat} (pos : 0 < num)
    (pos' : 0 < den) : f.IsPlace (num / den) (f.placeOf num den) := by
  obtain ⟨low, high⟩ := log2_bounds pos
  obtain ⟨low', high'⟩ := log2_bounds pos'
  have denPos : (0 : ℚ) < den := by exact_mod_cast pos'
  have two : (2 : ℚ) ≠ 0 := by norm_num
  -- The quotient of the numbers is known from their logarithms up to a factor of two.
  have atMost : (num : ℚ) / den < 2 ^ ((num.log2 : Int) - den.log2 + 1) := by
    rw [div_lt_iff₀ denPos]
    calc (num : ℚ) < 2 ^ ((num.log2 : Int) + 1) := high
      _ = 2 ^ ((num.log2 : Int) - den.log2 + 1) * 2 ^ (den.log2 : Int) := by
        rw [← zpow_add₀ two]
        congr 1
        omega
      _ ≤ 2 ^ ((num.log2 : Int) - den.log2 + 1) * den := by gcongr
  have atLeast : (2 : ℚ) ^ ((num.log2 : Int) - den.log2 - 1) ≤ num / den := by
    rw [le_div_iff₀ denPos]
    calc (2 : ℚ) ^ ((num.log2 : Int) - den.log2 - 1) * den
        ≤ 2 ^ ((num.log2 : Int) - den.log2 - 1) * 2 ^ ((den.log2 : Int) + 1) := by gcongr
      _ = 2 ^ (num.log2 : Int) := by
        rw [← zpow_add₀ two]
        congr 1
        omega
      _ ≤ num := low
  have precision : ((f.precision - 1 : Nat) : Int) = f.precision - 1 := by omega
  unfold placeOf
  dsimp only
  generalize guess : (num.log2 : Int) - den.log2 - (f.precision - 1) = place
  -- The place that is guessed may be one too high.
  have test := scaleRatio_lt_iff num pos' place (f.precision - 1)
  rw [precision] at test
  apply isPlace_max
  · split_ifs with tooHigh
    · rwa [test, show place + (f.precision - 1) = place - 1 + f.precision by omega] at tooHigh
    · rwa [show (num.log2 : Int) - den.log2 + 1 = place + f.precision by omega] at atMost
  · split_ifs with tooHigh
    · rwa [show (num.log2 : Int) - den.log2 - 1 = place - 1 + f.precision - 1 by omega] at atLeast
    · rwa [test, not_lt, show place + (f.precision - 1) = place + f.precision - 1 by omega]
        at tooHigh

/-! ## The nearest word -/

def significandAt (num den : Nat) (place : Int) : Nat :=
  roundHalfEven (scaleRatio num den (-place)).1 (scaleRatio num den (-place)).2

theorem ofRatio_of_pos (f : BinaryFormat) {num : Nat} (pos : 0 < num) (den : Nat) :
    f.ofRatio num den = min f.infinityWord
      ((f.placeOf num den - f.minExponent).toNat * 2 ^ (f.precision - 1) +
        significandAt num den (f.placeOf num den)) := by
  rw [ofRatio, if_neg (Nat.pos_iff_ne_zero.mp pos)]
  rfl

theorem ofRatio_le_infinityWord (f : BinaryFormat) (num den : Nat) :
    f.ofRatio num den ≤ f.infinityWord := by
  rcases Nat.eq_zero_or_pos num with rfl | pos
  · exact Nat.zero_le _
  · rw [ofRatio_of_pos f pos]
    exact Nat.min_le_left ..

/-- At one place a greater number has no lesser significand. -/
theorem significandAt_mono {num den num' den' : Nat} (pos : 0 < den) (pos' : 0 < den')
    (le : (num : ℚ) / den ≤ num' / den') (place : Int) :
    significandAt num den place ≤ significandAt num' den' place := by
  apply roundHalfEven_mono (scaleRatio_pos num pos _) (scaleRatio_pos num' pos' _)
  rw [← div_le_div_iff_mul (scaleRatio_pos num pos _) (scaleRatio_pos num' pos' _),
    scaleRatio_div num pos, scaleRatio_div num' pos']
  gcongr

/-- A significand that is rounded up may reach the least one that has a bit more. -/
theorem IsPlace.significandAt_le {num den : Nat} {place : Int} (pos : 0 < den)
    (h : f.IsPlace (num / den) place) : significandAt num den place ≤ 2 ^ f.precision := by
  apply roundHalfEven_le (scaleRatio_pos num pos _)
  rw [Nat.mul_comm]
  exact Nat.le_of_lt ((scaleRatio_lt_iff num pos place f.precision).mpr h.below)

/-- Above the least place a significand has the full precision. -/
theorem IsPlace.le_significandAt (precise : 0 < f.precision) {num den : Nat} {place : Int}
    (pos : 0 < den) (h : f.IsPlace (num / den) place) (higher : f.minExponent < place) :
    2 ^ (f.precision - 1) ≤ significandAt num den place := by
  have full := h.above.resolve_left (by omega)
  apply le_roundHalfEven (scaleRatio_pos num pos _)
  rw [Nat.mul_comm, ← Nat.not_lt, scaleRatio_lt_iff num pos place (f.precision - 1), not_lt,
    show place + ((f.precision - 1 : Nat) : Int) = place + f.precision - 1 by omega]
  exact full

/-- **Rounding to words keeps the order.** -/
theorem ofRatio_mono (precise : 0 < f.precision) {num den num' den' : Nat} (pos : 0 < den)
    (pos' : 0 < den') (le : (num : ℚ) / den ≤ num' / den') :
    f.ofRatio num den ≤ f.ofRatio num' den' := by
  rcases Nat.eq_zero_or_pos num with rfl | numPos
  · exact Nat.zero_le _
  have numPos' : 0 < num' := by
    have crosswise := (div_le_div_iff_mul pos pos').mp le
    have : 0 < num * den' := Nat.mul_pos numPos pos'
    exact Nat.pos_of_mul_pos_right (Nat.lt_of_lt_of_le this crosswise)
  have isPlace := isPlace_placeOf precise numPos pos
  have isPlace' := isPlace_placeOf precise numPos' pos'
  have order := isPlace.mono isPlace' le
  rw [ofRatio_of_pos f numPos, ofRatio_of_pos f numPos']
  generalize f.placeOf num den = place at isPlace order ⊢
  generalize f.placeOf num' den' = place' at isPlace' order ⊢
  apply min_le_min_left
  rcases lt_or_eq_of_le order with lower | rfl
  · -- The lesser number is rounded to the least significand of the next place at most.
    have small := isPlace.significandAt_le pos
    have large := isPlace'.le_significandAt precise pos' (lt_of_le_of_lt isPlace.least lower)
    have double := two_pow_precision precise
    obtain ⟨gap, same⟩ : ∃ gap, (place' - f.minExponent).toNat =
        (place - f.minExponent).toNat + 1 + gap := by
      have := isPlace.least
      exact ⟨(place' - place).toNat - 1, by omega⟩
    rw [same, Nat.add_mul, Nat.add_mul]
    omega
  · have := significandAt_mono pos pos' le place
    omega

/-! ## What words stand for -/

/-- The number of a word without a sign bit, counted in the smallest positive number. -/
def unitsOf (f : BinaryFormat) (word : Nat) : Nat :=
  if word / 2 ^ (f.precision - 1) = 0 then word % 2 ^ (f.precision - 1)
  else (2 ^ (f.precision - 1) + word % 2 ^ (f.precision - 1)) *
    2 ^ (word / 2 ^ (f.precision - 1) - 1)

/-- Words are in the order of their numbers. -/
theorem unitsOf_mono {word word' : Nat} (le : word ≤ word') : f.unitsOf word ≤ f.unitsOf word' := by
  have some_ : 0 < (2 : Nat) ^ (f.precision - 1) := Nat.two_pow_pos _
  unfold unitsOf
  generalize (2 : Nat) ^ (f.precision - 1) = lead at some_ ⊢
  have parts := Nat.div_add_mod word lead
  have parts' := Nat.div_add_mod word' lead
  have rest := Nat.mod_lt word some_
  rcases Nat.lt_or_eq_of_le (Nat.div_le_div_right (c := lead) le) with less | same
  · rw [if_neg (Nat.ne_zero_of_lt less)]
    have power : (2 : Nat) ^ (word / lead) ≤ 2 ^ (word' / lead - 1) :=
      Nat.pow_le_pow_right (by decide) (by omega)
    have least : lead * 2 ^ (word / lead) ≤ (lead + word' % lead) * 2 ^ (word' / lead - 1) :=
      Nat.mul_le_mul (Nat.le_add_right ..) power
    refine Nat.le_trans ?_ least
    split_ifs with subnormal
    · rw [subnormal, Nat.pow_zero]
      omega
    · -- One more than the exponent doubles the number.
      have double : lead * 2 ^ (word / lead) = (lead + lead) * 2 ^ (word / lead - 1) := by
        obtain ⟨above, same⟩ := Nat.exists_eq_succ_of_ne_zero subnormal
        rw [same, Nat.succ_sub_one, Nat.pow_succ]
        ring
      rw [double]
      exact Nat.mul_le_mul_right _ (by omega)
  · rw [same] at parts ⊢
    split_ifs
    · omega
    · exact Nat.mul_le_mul_right _ (by omega)

/-- A word below infinity stands for its number. -/
theorem decode_of_lt {word : Nat} (finite : word < f.infinityWord) :
    ∃ significand exponent, f.decode word = .finite false significand exponent ∧
      (significand : ℚ) * 2 ^ exponent = f.unitsOf word * 2 ^ f.minExponent := by
  have biased : word / 2 ^ (f.precision - 1) < 2 ^ f.exponentBits - 1 := by
    rwa [Nat.div_lt_iff_lt_mul (Nat.two_pow_pos _)]
  have fits := Nat.lt_of_lt_of_le biased (Nat.sub_le ..)
  have unsigned : word / 2 ^ (f.precision - 1 + f.exponentBits) = 0 := by
    rw [Nat.pow_add, ← Nat.div_div_eq_div_mul]
    exact Nat.div_eq_of_lt fits
  unfold decode unitsOf
  rw [unsigned, Nat.mod_eq_of_lt fits]
  dsimp only
  rw [if_neg (Nat.ne_of_lt biased)]
  split_ifs with subnormal
  · exact ⟨_, _, rfl, rfl⟩
  · refine ⟨_, _, rfl, ?_⟩
    obtain ⟨above, same⟩ := Nat.exists_eq_succ_of_ne_zero subnormal
    rw [same]
    push_cast
    rw [show f.minExponent + ((above : Int) + 1 - 1) = f.minExponent + above by omega,
      zpow_add₀ (by norm_num), zpow_natCast]
    ring

/-! ## The error -/

/-- The word with a significand above the least place. It may have been rounded up to a bit more
than the precision. -/
theorem unitsOf_word (precise : 0 < f.precision) {gap significand : Nat}
    (full : gap = 0 ∨ 2 ^ (f.precision - 1) ≤ significand) (le : significand ≤ 2 ^ f.precision) :
    f.unitsOf (gap * 2 ^ (f.precision - 1) + significand) = significand * 2 ^ gap := by
  have some_ : 0 < (2 : Nat) ^ (f.precision - 1) := Nat.two_pow_pos _
  rw [two_pow_precision precise] at le
  unfold unitsOf
  generalize (2 : Nat) ^ (f.precision - 1) = lead at full le some_ ⊢
  rcases Nat.lt_or_ge significand lead with less | more
  · obtain rfl := full.resolve_right (Nat.not_le.mpr less)
    rw [Nat.zero_mul, Nat.zero_add, Nat.div_eq_of_lt less, if_pos rfl, Nat.mod_eq_of_lt less,
      Nat.pow_zero, Nat.mul_one]
  · obtain ⟨rest, rfl⟩ := Nat.exists_eq_add_of_le more
    have fits : rest ≤ lead := Nat.le_of_add_le_add_left le
    rw [show gap * lead + (lead + rest) = rest + lead * (gap + 1) by ring]
    rcases Nat.lt_or_eq_of_le fits with less | rfl
    · rw [Nat.add_mul_div_left _ _ some_, Nat.add_mul_mod_self_left, Nat.div_eq_of_lt less,
        Nat.mod_eq_of_lt less, if_neg (by omega), Nat.zero_add, Nat.add_sub_cancel]
    · rw [Nat.add_mul_div_left _ _ some_, Nat.add_mul_mod_self_left, Nat.div_self some_,
        Nat.mod_self, if_neg (by omega), Nat.add_sub_cancel_left, Nat.pow_succ]
      ring

/-- The nearest word stands for the significand that was rounded, at its place. -/
theorem unitsOf_ofRatio (precise : 0 < f.precision) {num den : Nat} (pos : 0 < num)
    (pos' : 0 < den) (finite : f.ofRatio num den < f.infinityWord) :
    (f.unitsOf (f.ofRatio num den) : ℚ) * 2 ^ f.minExponent =
      significandAt num den (f.placeOf num den) * 2 ^ f.placeOf num den := by
  have isPlace := isPlace_placeOf precise pos pos'
  rw [ofRatio_of_pos f pos] at finite ⊢
  generalize f.placeOf num den = place at isPlace finite ⊢
  rw [min_eq_right (by omega), unitsOf_word precise ?_ (isPlace.significandAt_le pos')]
  · obtain ⟨gap, same⟩ := Int.eq_ofNat_of_zero_le (show 0 ≤ place - f.minExponent by
      have := isPlace.least
      omega)
    obtain rfl : place = f.minExponent + gap := by omega
    rw [same, Int.toNat_natCast, Nat.cast_mul, Nat.cast_pow, Nat.cast_ofNat, mul_assoc,
      ← zpow_natCast, ← zpow_add₀ (by norm_num), add_comm (gap : Int)]
  · rcases eq_or_lt_of_le isPlace.least with same | higher
    · left
      omega
    · exact .inr (isPlace.le_significandAt precise pos' higher)

theorem significandAt_error (num : Nat) {den : Nat} (pos : 0 < den) (place : Int) :
    |(significandAt num den place : ℚ) * 2 ^ place - num / den| ≤ 2 ^ place / 2 := by
  have unit : (0 : ℚ) < 2 ^ place := by positivity
  have rounded := roundHalfEven_error (scaleRatio num den (-place)).1
    (scaleRatio_pos num pos (-place))
  rw [scaleRatio_div num pos (-place), zpow_neg, ← div_eq_mul_inv] at rounded
  calc |(significandAt num den place : ℚ) * 2 ^ place - num / den|
      = |((significandAt num den place : ℚ) - num / den / 2 ^ place) * 2 ^ place| := by
        rw [sub_mul, div_mul_cancel₀ _ unit.ne']
    _ = |(significandAt num den place : ℚ) - num / den / 2 ^ place| * 2 ^ place := by
        rw [abs_mul, abs_of_pos unit]
    _ ≤ 1 / 2 * 2 ^ place := mul_le_mul_of_nonneg_right rounded unit.le
    _ = 2 ^ place / 2 := by ring

/-- Half a unit of a place is little beside the number, or it is half of the least unit. -/
theorem IsPlace.half_le {x : ℚ} {place : Int} (h : f.IsPlace x place) (nonneg : 0 ≤ x) :
    (2 : ℚ) ^ place / 2 ≤ x / 2 ^ f.precision + 2 ^ f.minExponent / 2 := by
  have least : (0 : ℚ) < 2 ^ f.minExponent := by positivity
  have lead : (0 : ℚ) < 2 ^ f.precision := by positivity
  rcases h.above with rfl | full
  · have : 0 ≤ x / 2 ^ f.precision := by positivity
    linarith
  · have : (2 : ℚ) ^ place / 2 ≤ x / 2 ^ f.precision := by
      rw [le_div_iff₀ lead]
      calc (2 : ℚ) ^ place / 2 * 2 ^ f.precision = 2 ^ (place + f.precision - 1) := by
            rw [zpow_sub_one₀ (by norm_num), zpow_add₀ (by norm_num), zpow_natCast]
            ring
        _ ≤ x := full
    linarith

/-- **The error of rounding to words.** -/
theorem ofRatio_error (precise : 0 < f.precision) (num : Nat) {den : Nat} (pos : 0 < den)
    (finite : f.ofRatio num den < f.infinityWord) :
    |(f.unitsOf (f.ofRatio num den) : ℚ) * 2 ^ f.minExponent - num / den| ≤
      num / den / 2 ^ f.precision + 2 ^ f.minExponent / 2 := by
  rcases Nat.eq_zero_or_pos num with rfl | numPos
  · have none : f.unitsOf (f.ofRatio 0 den) = 0 := by
      rw [show f.ofRatio 0 den = 0 from rfl, unitsOf, Nat.zero_div, if_pos rfl, Nat.zero_mod]
    rw [none, Nat.cast_zero, zero_mul, zero_div, zero_div, sub_zero, abs_zero]
    positivity
  · have isPlace := isPlace_placeOf precise numPos pos
    rw [unitsOf_ofRatio precise numPos pos finite]
    exact (significandAt_error num pos _).trans (isPlace.half_le (by positivity))

end BinaryFormat

end VorbisTrack
