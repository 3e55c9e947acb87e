import VorbisTrack.Proofs.Command.Encode
import VorbisTrack.Proofs.Numeric.Rounding
import VorbisTrack.Proofs.Settings

/-!
# Bitrates that are asked for

A bitrate is written as a decimal number with a letter for its scale (`Bitrate.written?`). It is
rounded three times before it is a whole number of bits per second: as a numeral, when it has been
multiplied, and to the whole number. Together they move it by little more than half a bit
(`Bitrate.wholeWord_product_error`).

All three keep the order, so half a bit per second or more is never read as zero
(`Bitrate.wholeWord_product`). But only the numeral is required to be positive. Less than half a bit
per second may be accepted and read as zero, which is what settings without a bitrate have
(`Tuning.resolve_of_fraction`).
-/

set_option autoImplicit false

namespace VorbisTrack

open BinaryFormat (double)

/-! ## Numerals -/

namespace Numeral

/-- A word with a sign bit stands for no positive number. -/
theorem decode_signWord {word : Nat} (le : word ≤ double.infinityWord) (significand : Nat)
    (exponent : Int) :
    double.decode (double.signWord true + word) ≠ .finite false significand exponent := by
  have sign : (double.signWord true + word) / 2 ^ (double.precision - 1 + double.exponentBits) % 2 =
      1 := by
    have largest : double.infinityWord = 0x7FF0000000000000 := by decide +kernel
    have bit : double.signWord true = 0x8000000000000000 := by decide +kernel
    have place : (2 : Nat) ^ (double.precision - 1 + double.exponentBits) = 0x8000000000000000 := by
      decide +kernel
    rw [largest] at le
    rw [bit, place]
    omega
  unfold BinaryFormat.decode
  dsimp only
  rw [sign]
  split_ifs <;> simp

theorem decode_infinityWord : double.decode double.infinityWord = .infinity false := by
  decide +kernel

/-- The word of a number is not that of infinity. -/
theorem lt_infinityWord {word significand : Nat} {exponent : Int} (le : word ≤ double.infinityWord)
    (decoded : double.decode word = .finite false significand exponent) :
    word < double.infinityWord := by
  refine Nat.lt_of_le_of_ne le ?_
  rintro rfl
  rw [decode_infinityWord] at decoded
  cases decoded

/-- A numeral whose nearest word stands for a positive number is a positive decimal number, and a
quotient of which the word is the nearest one. -/
theorem of_decode_toWord {numeral : Numeral} {significand : Nat} {exponent : Int}
    (decoded : double.decode (numeral.toWord double) = .finite false (significand + 1) exponent) :
    ∃ (digits : Nat) (power : Int) (num den : Nat), numeral = .decimal false digits power ∧
      0 < digits ∧ 0 < den ∧ (num : ℚ) / den = digits * 10 ^ power ∧
      numeral.toWord double = double.ofRatio num den ∧
      double.ofRatio num den < double.infinityWord := by
  cases numeral with
  | nan =>
    rw [show double.decode (toWord double .nan) = .nan by decide +kernel] at decoded
    cases decoded
  | infinity negative =>
    cases negative with
    | true => exact absurd decoded (decode_signWord (Nat.le_refl _) _ _)
    | false =>
      rw [show toWord double (.infinity false) = double.infinityWord from Nat.zero_add _,
        decode_infinityWord] at decoded
      cases decoded
  | decimal negative digits power =>
    have unsigned : double.signWord false = 0 := rfl
    cases negative with
    | true =>
      refine absurd decoded (decode_signWord ?_ _ _)
      split_ifs
      · exact Nat.zero_le _
      · exact Nat.le_refl _
      · exact double.ofRatio_le_infinityWord _ _
      · exact double.ofRatio_le_infinityWord _ _
    | false =>
      -- A word of zero or of infinity is left out, and then the word is that of a quotient.
      simp only [toWord, unsigned, Nat.zero_add] at decoded ⊢
      split_ifs at decoded ⊢ with zero far whole
      · rw [show double.decode 0 = .finite false 0 double.minExponent by decide +kernel] at decoded
        cases decoded
      · rw [decode_infinityWord] at decoded
        cases decoded
      · obtain ⟨k, rfl⟩ := Int.eq_ofNat_of_zero_le whole
        refine ⟨digits, k, digits * 10 ^ k, 1, rfl, by omega, Nat.one_pos, ?_, rfl,
          lt_infinityWord (double.ofRatio_le_infinityWord _ _) decoded⟩
        push_cast
        rw [zpow_natCast, div_one]
      · obtain ⟨k, same⟩ := Int.eq_ofNat_of_zero_le (show 0 ≤ -power by omega)
        obtain rfl : power = -(k : Int) := by omega
        rw [neg_neg, Int.toNat_natCast] at decoded ⊢
        refine ⟨digits, -(k : Int), digits, 10 ^ k, rfl, by omega, Nat.pow_pos (by decide), ?_, rfl,
          lt_infinityWord (double.ofRatio_le_infinityWord _ _) decoded⟩
        push_cast
        rw [zpow_neg, zpow_natCast, div_eq_mul_inv]

end Numeral

namespace Command.Bitrate

/-- The bits per second that a text spells, if it spells a finite number. -/
def written? (text : String) : Option ℚ :=
  let (digits, scale) := splitScale (trim text.toList)
  match Numeral.read digits with
  | .ok (.decimal negative digits exponent) =>
    some ((if negative then -1 else 1) * (digits * 10 ^ exponent) * scale)
  | _ => none

/-! ## Rounding -/

def IsScale (scale : Nat) : Prop :=
  scale = 1 ∨ scale = 1000 ∨ scale = 1000000

theorem isScale_splitScale (value : List Char) : IsScale (splitScale value).2 := by
  unfold splitScale IsScale
  split <;> simp

theorem IsScale.pos {scale : Nat} (known : IsScale scale) : 0 < scale := by
  rcases known with rfl | rfl | rfl <;> decide

theorem IsScale.le {scale : Nat} (known : IsScale scale) : scale ≤ 1000000 := by
  rcases known with rfl | rfl | rfl <;> decide

theorem ofScaled_false (significand : Nat) (exponent : Int) :
    double.ofScaled false significand exponent =
      double.ofRatio (scaleRatio significand 1 exponent).1 (scaleRatio significand 1 exponent).2 :=
  Nat.zero_add _

/-- How many of the smallest positive numbers make one. -/
def unitsOfOne : Nat :=
  2 ^ (-double.minExponent).toNat

theorem unitsOfOne_pos : 0 < unitsOfOne :=
  Nat.two_pow_pos _

theorem two_zpow_minExponent : (2 : ℚ) ^ double.minExponent = 1 / unitsOfOne := by
  rw [unitsOfOne, Nat.cast_pow, Nat.cast_ofNat, ← zpow_natCast, Int.toNat_of_nonneg (by decide),
    zpow_neg, one_div, inv_inv]

theorem two_zpow_minExponent_le : (2 : ℚ) ^ double.minExponent ≤ 1 / 2 ^ 80 := by
  rw [one_div, ← zpow_natCast, ← zpow_neg]
  exact zpow_le_zpow_right₀ (by norm_num) (by decide)

/-- Half a bit per second is still half a bit per second when it has been rounded, scaled and
rounded again. -/
theorem half_ofRatio {scale : Nat} (known : IsScale scale) :
    double.ofRatio (double.unitsOf (double.ofRatio 1 (2 * scale)) * scale) unitsOfOne =
      0x3FE0000000000000 := by
  rcases known with rfl | rfl | rfl
  · decide +kernel
  · decide +kernel
  · decide +kernel

theorem toNat_wholeWord (negative : Bool) (significand : Nat) (exponent : Int) :
    (wholeWord (.finite negative significand exponent)).toNat =
      min ((2 * (scaleRatio significand 1 exponent).1 + (scaleRatio significand 1 exponent).2) /
        (2 * (scaleRatio significand 1 exponent).2)) (2 ^ 64 - 1) := by
  unfold wholeWord
  dsimp only
  rw [UInt64.toNat_ofNat']
  exact Nat.mod_eq_of_lt (Nat.lt_of_le_of_lt (Nat.min_le_right ..) (by decide))

/-- A half or more is not rounded to zero. -/
theorem wholeWord_of_half {negative : Bool} {significand : Nat} {exponent : Int}
    (half : (1 : ℚ) / 2 ≤ significand * 2 ^ exponent) :
    wholeWord (.finite negative significand exponent) ≠ 0 := by
  intro zero
  have none := congrArg UInt64.toNat zero
  have scaled := scaleRatio_div significand Nat.one_pos exponent
  have pos := scaleRatio_pos significand Nat.one_pos exponent
  rw [toNat_wholeWord, UInt64.toNat_zero] at none
  generalize scaleRatio significand 1 exponent = ratio at none scaled pos
  have enough : ratio.2 ≤ ratio.1 * 2 := by
    rw [Nat.cast_one, div_one] at scaled
    rw [← scaled, div_le_div_iff₀ (by norm_num) (by exact_mod_cast pos), one_mul] at half
    exact_mod_cast half
  have rounded : 1 ≤ (2 * ratio.1 + ratio.2) / (2 * ratio.2) := by
    rw [Nat.le_div_iff_mul_le (by omega)]
    omega
  omega

/-- The word of a half or more is not rounded to zero. -/
theorem wholeWord_decode {word : Nat} (le : word ≤ double.infinityWord)
    (half : 0x3FE0000000000000 ≤ word) : wholeWord (double.decode word) ≠ 0 := by
  rcases Nat.lt_or_eq_of_le le with finite | rfl
  · obtain ⟨significand, exponent, decoded, number⟩ := BinaryFormat.decode_of_lt finite
    have units : unitsOfOne ≤ double.unitsOf word * 2 := by
      rw [show unitsOfOne = double.unitsOf 0x3FE0000000000000 * 2 by decide +kernel]
      exact Nat.mul_le_mul_right 2 (BinaryFormat.unitsOf_mono half)
    have pos : (0 : ℚ) < unitsOfOne := Nat.cast_pos.mpr unitsOfOne_pos
    rw [decoded]
    apply wholeWord_of_half
    rw [number, two_zpow_minExponent, mul_one_div, div_le_div_iff₀ (by norm_num) pos, one_mul]
    exact_mod_cast units
  · rw [Numeral.decode_infinityWord]
    decide

/-- Half a bit per second or more is not rounded to zero on any of the three occasions. -/
theorem wholeWord_product {num den scale significand : Nat} {exponent : Int} (pos : 0 < den)
    (known : IsScale scale) (half : (1 : ℚ) / 2 ≤ num / den * scale)
    (finite : double.ofRatio num den < double.infinityWord)
    (decoded : double.decode (double.ofRatio num den) = .finite false significand exponent) :
    wholeWord (double.decode (double.ofScaled false (significand * scale) exponent)) ≠ 0 := by
  have scalePos := known.pos
  have scaleQ : (0 : ℚ) < scale := Nat.cast_pos.mpr scalePos
  -- The word of the numeral is not below that of half a bit per second at the scale.
  have first : double.ofRatio 1 (2 * scale) ≤ double.ofRatio num den := by
    apply BinaryFormat.ofRatio_mono (by decide) (by omega) pos
    rw [← div_le_iff₀ scaleQ] at half
    rw [Nat.cast_one, Nat.cast_mul, Nat.cast_ofNat, ← div_div]
    exact half
  obtain ⟨significand', exponent', decoded', number⟩ := BinaryFormat.decode_of_lt finite
  rw [decoded] at decoded'
  cases decoded'
  -- So the word of the product is not below that of half a bit per second.
  have scaled := scaleRatio_div (significand * scale) Nat.one_pos exponent
  have scaledPos := scaleRatio_pos (significand * scale) Nat.one_pos exponent
  rw [ofScaled_false]
  generalize scaleRatio (significand * scale) 1 exponent = ratio at scaled scaledPos ⊢
  refine wholeWord_decode (double.ofRatio_le_infinityWord _ _) ?_
  rw [← half_ofRatio known]
  apply BinaryFormat.ofRatio_mono (by decide) unitsOfOne_pos scaledPos
  have units : double.unitsOf _ ≤ double.unitsOf _ := BinaryFormat.unitsOf_mono first
  rw [scaled]
  calc ((double.unitsOf (double.ofRatio 1 (2 * scale)) * scale : Nat) : ℚ) / unitsOfOne
      = double.unitsOf (double.ofRatio 1 (2 * scale)) * 2 ^ double.minExponent * scale := by
        rw [two_zpow_minExponent]
        push_cast
        ring
    _ ≤ double.unitsOf (double.ofRatio num den) * 2 ^ double.minExponent * scale := by gcongr
    _ = (significand * scale : Nat) / (1 : Nat) * 2 ^ exponent := by
        rw [← number]
        push_cast
        ring

/-! ## The error of rounding -/

/-- A number is rounded to the nearest whole one, or to the largest. -/
theorem wholeWord_error (negative : Bool) (significand : Nat) (exponent : Int) :
    |((wholeWord (.finite negative significand exponent)).toNat : ℚ) -
      min ((significand : ℚ) * 2 ^ exponent) (2 ^ 64 - 1)| ≤ 1 / 2 := by
  have scaled := scaleRatio_div significand Nat.one_pos exponent
  have pos := scaleRatio_pos significand Nat.one_pos exponent
  rw [Nat.cast_one, div_one] at scaled
  rw [toNat_wholeWord, ← scaled]
  generalize scaleRatio significand 1 exponent = ratio at pos ⊢
  -- The quotient that is rounded down is that of the number and a half.
  have parts := Nat.div_add_mod' (2 * ratio.1 + ratio.2) (2 * ratio.2)
  have less := Nat.mod_lt (2 * ratio.1 + ratio.2) (show 0 < 2 * ratio.2 by omega)
  generalize (2 * ratio.1 + ratio.2) / (2 * ratio.2) = quotient at parts ⊢
  have near : |(quotient : ℚ) - ratio.1 / ratio.2| ≤ 1 / 2 := by
    have double : quotient * (2 * ratio.2) = 2 * quotient * ratio.2 := by ring
    apply abs_sub_div_le pos
    · rw [Nat.add_mul]
      omega
    · omega
  have largest : (((2 : Nat) ^ 64 - 1 : Nat) : ℚ) = 2 ^ 64 - 1 := by norm_num
  rw [Nat.cast_min, largest]
  refine (abs_min_sub_min_le_max ..).trans ?_
  rw [sub_self, abs_zero]
  exact max_le near (by norm_num)

/-- A number that is rounded is little away from what was asked for, if it was before. -/
theorem wholeWord_decode_error {num den : Nat} {x : ℚ} (pos : 0 < den) (asked : 0 ≤ x)
    (near : |(num : ℚ) / den - x| ≤ x / 2 ^ 53 + 1 / 2 ^ 60) :
    |((wholeWord (double.decode (double.ofRatio num den))).toNat : ℚ) - min x (2 ^ 64 - 1)| ≤
      1 / 2 + (x + 1) / 2 ^ 51 := by
  have precise : 0 < double.precision := by decide
  rw [abs_le] at near
  rcases Nat.lt_or_eq_of_le (double.ofRatio_le_infinityWord num den) with finite | infinite
  · obtain ⟨significand, exponent, decoded, number⟩ := BinaryFormat.decode_of_lt finite
    have rounded := BinaryFormat.ofRatio_error precise num pos finite
    have whole := wholeWord_error false significand exponent
    rw [← number, show (2 : ℚ) ^ double.precision = 2 ^ 53 from rfl, abs_le] at rounded
    rw [decoded]
    generalize (significand : ℚ) * 2 ^ exponent = y at rounded whole
    have least := two_zpow_minExponent_le
    have moved : |min y (2 ^ 64 - 1) - min x (2 ^ 64 - 1)| ≤ (x + 1) / 2 ^ 51 := by
      refine (abs_min_sub_min_le_max ..).trans ?_
      rw [sub_self, abs_zero]
      refine max_le ?_ (by positivity)
      rw [abs_le]
      constructor <;> linarith
    exact (abs_sub_le _ _ _).trans (add_le_add whole moved)
  · -- Then so much was asked for that the largest rate is the nearest.
    have large : (2 : ℚ) ^ 65 < num / den := by
      by_contra small
      have word : double.ofRatio num den ≤ double.ofRatio (2 ^ 65) 1 := by
        apply BinaryFormat.ofRatio_mono precise pos Nat.one_pos
        push_cast
        linarith
      rw [infinite] at word
      exact absurd word (by decide +kernel)
    have largest : ((wholeWord (.infinity false)).toNat : ℚ) = 2 ^ 64 - 1 := by
      rw [show (wholeWord (.infinity false)).toNat = 2 ^ 64 - 1 from rfl]
      norm_num
    rw [infinite, Numeral.decode_infinityWord, min_eq_right (by linarith), largest, sub_self,
      abs_zero]
    positivity

/-- The three roundings together. -/
theorem wholeWord_product_error {num den scale significand : Nat} {exponent : Int} (pos : 0 < den)
    (known : IsScale scale) (finite : double.ofRatio num den < double.infinityWord)
    (decoded : double.decode (double.ofRatio num den) = .finite false significand exponent) :
    let rate := wholeWord (double.decode (double.ofScaled false (significand * scale) exponent))
    |(rate.toNat : ℚ) - min ((num : ℚ) / den * scale) (2 ^ 64 - 1)| ≤
      1 / 2 + (num / den * scale + 1) / 2 ^ 51 := by
  dsimp only
  have scalePos : (0 : ℚ) < scale := Nat.cast_pos.mpr known.pos
  have scaleLe : (scale : ℚ) ≤ 1000000 := by exact_mod_cast known.le
  obtain ⟨significand', exponent', decoded', number⟩ := BinaryFormat.decode_of_lt finite
  rw [decoded] at decoded'
  cases decoded'
  have rounded := BinaryFormat.ofRatio_error (by decide) num pos finite
  rw [← number, show (2 : ℚ) ^ double.precision = 2 ^ 53 from rfl] at rounded
  rw [ofScaled_false]
  apply wholeWord_decode_error (scaleRatio_pos _ Nat.one_pos _) (by positivity)
  rw [scaleRatio_div _ Nat.one_pos]
  -- The error of the numeral grows with the scale.
  calc |((significand * scale : Nat) : ℚ) / (1 : Nat) * 2 ^ exponent - num / den * scale|
      = |((significand : ℚ) * 2 ^ exponent - num / den) * scale| := by
        push_cast
        ring_nf
    _ = |(significand : ℚ) * 2 ^ exponent - num / den| * scale := by
        rw [abs_mul, abs_of_pos scalePos]
    _ ≤ (num / den / 2 ^ 53 + 2 ^ double.minExponent / 2) * scale := by gcongr
    _ ≤ num / den * scale / 2 ^ 53 + 1 / 2 ^ 60 := by
        have : (2 : ℚ) ^ double.minExponent * scale ≤ 1 / 2 ^ 80 * 1000000 := by
          gcongr
          exact two_zpow_minExponent_le
        linarith

/-! ## Reading -/

/-- A rate stands for a positive number of bits per second. -/
structure StandsFor (rate : UInt64) (x : ℚ) : Prop where
  positive : 0 < x
  /-- The rate is the whole number nearest to it, but for what the other two roundings may have
  moved it by, or the largest rate for what is too large. -/
  near : |(rate.toNat : ℚ) - min x (2 ^ 64 - 1)| ≤ 1 / 2 + (x + 1) / 2 ^ 51
  heeded : 1 / 2 ≤ x → rate ≠ 0

/-- A text may be read as a rate if the rate stands for what the text spells. -/
def IsReadAs (text : String) (rate : UInt64) : Prop :=
  ∃ x, written? text = some x ∧ StandsFor rate x

/-- A text is refused or read as a rate. -/
theorem read_cases (text : String) :
    (∃ fault, read text = .error fault) ∨ ∃ rate, read text = .ok rate ∧ IsReadAs text rate := by
  unfold IsReadAs read written?
  dsimp only
  generalize value : trim text.toList = cs
  have known := isScale_splitScale cs
  generalize splitScale cs = parts at known ⊢
  obtain ⟨digits, scale⟩ := parts
  cases numeral_ : Numeral.read digits with
  | error fault => exact .inl ⟨_, rfl⟩
  | ok numeral =>
    dsimp only
    split
    · next significand exponent decoded =>
      right
      obtain ⟨digits', power, num, den, rfl, some_, pos, number, word, finite⟩ :=
        Numeral.of_decode_toWord decoded
      rw [word] at decoded
      refine ⟨_, rfl, _, rfl, ?_⟩
      simp only [Bool.false_eq_true, if_false, one_mul, ← number]
      have scalePos : (0 : ℚ) < scale := Nat.cast_pos.mpr known.pos
      have digitsPos : (0 : ℚ) < digits' := Nat.cast_pos.mpr some_
      refine ⟨?_, wholeWord_product_error pos known finite decoded, fun half =>
        wholeWord_product pos known half finite decoded⟩
      rw [number]
      positivity
    · exact .inl ⟨_, rfl⟩

end Command.Bitrate

/-! ## What becomes of the rates -/

namespace EncodingOptions

/-- A limit comes through whole, unless it is zero. Then there is none. -/
theorem map_toInt_of_limit {what : String} {rate : Option UInt64} {word : Option Int64}
    (resolved : limit what rate = .ok word) :
    word.map Int64.toInt = (rate.filter (· ≠ 0)).map fun rate => (rate.toNat : Int) := by
  cases rate with
  | none =>
    cases resolved
    rfl
  | some rate =>
    simp only [limit] at resolved
    split at resolved
    · next zero =>
      cases resolved
      cases zero
      rfl
    · next positive =>
      cases signed : signedRate what rate with
      | error failure =>
        rw [signed] at resolved
        cases resolved
      | ok signed =>
        rw [signed] at resolved
        cases resolved
        simp [positive, (signedRate_eq_ok ‹_›).2]

/-- A managed rate is that of the settings, within those of their limits that are not zero. -/
structure Manages (options : EncodingOptions) (s : Settings) : Prop where
  rates : ∃ nominal min max, options.rateControl = .managed nominal min max ∧
    nominal.toInt = s.bitRate.toNat ∧
    min.map Int64.toInt = (s.minRate.filter (· ≠ 0)).map (fun rate => (rate.toNat : Int)) ∧
    max.map Int64.toInt = (s.maxRate.filter (· ≠ 0)).map (fun rate => (rate.toNat : Int))

/-- A rate that is not zero is managed, unless a quality is asked for as well. -/
theorem manages_of_resolve {s : Settings} {options : EncodingOptions} (none : s.quality = none)
    (positive : s.bitRate ≠ 0) (resolved : resolve s = .ok options) : options.Manages s := by
  have managed : s.isManaged = true := by simp [Settings.isManaged, none, positive]
  obtain ⟨control, -, -⟩ := parts_of_resolve resolved
  obtain ⟨nominal, min, max, signed, lower, upper, same⟩ := of_resolveRate managed control
  exact ⟨nominal, min, max, same, (signedRate_eq_ok signed).2, map_toInt_of_limit lower,
    map_toInt_of_limit upper⟩

/-- A rate of zero stands for the default quality. -/
theorem rateControl_of_bitRate_eq_zero {s : Settings} {options : EncodingOptions}
    (none : s.quality = none) (zero : s.bitRate = 0) (resolved : resolve s = .ok options) :
    options.rateControl = .vbr (defaultQuality / 10) := by
  have free : s.isManaged = false := by simp [Settings.isManaged, zero]
  obtain ⟨control, -, -⟩ := parts_of_resolve resolved
  rw [resolveRate_of_not_isManaged free, none] at control
  exact (Except.ok.inj control).symm

end EncodingOptions

namespace Command.Tuning

open EncodingOptions (resolve defaultQuality)

/-- Settings have the bitrates that a tuning asks for. -/
structure HasBitrates (s : Settings) (t : Tuning) : Prop where
  quality : s.quality = t.quality
  bitRate : ∀ text, t.bitrate = some text → Bitrate.IsReadAs text s.bitRate
  minRate : ∀ text, t.minRate = some text →
    ∃ rate, s.minRate = some rate ∧ Bitrate.IsReadAs text rate
  maxRate : ∀ text, t.maxRate = some text →
    ∃ rate, s.maxRate = some rate ∧ Bitrate.IsReadAs text rate

/-- A text that has been read is read as a rate. -/
theorem exists_isReadAs_of_mapM {asked : Option String} {rate : Option UInt64}
    (read : asked.mapM Bitrate.read = .ok rate) {text : String} (asks : asked = some text) :
    ∃ word, rate = some word ∧ Bitrate.IsReadAs text word := by
  subst asks
  rcases Bitrate.read_cases text with ⟨fault, refused⟩ | ⟨word, accepted, isReadAs⟩
  · rw [Option.mapM_some, refused] at read
    cases read
  · rw [Option.mapM_some, accepted] at read
    cases read
    exact ⟨word, rfl, isReadAs⟩

theorem hasBitrates_of_settings {t : Tuning} {rate : UInt32} {channels : UInt16} {s : Settings}
    (settled : t.settings rate channels = .ok s) : HasBitrates s t := by
  obtain ⟨bitRate, minRate, maxRate, comments, nominal, lower, upper, -, rfl⟩ :=
    settings_eq_ok settled
  refine ⟨rfl, ?_, fun text => exists_isReadAs_of_mapM lower,
    fun text => exists_isReadAs_of_mapM upper⟩
  intro text asks
  obtain ⟨word, rfl, isReadAs⟩ := exists_isReadAs_of_mapM nominal asks
  exact isReadAs

/-- **Half a bit per second or more is heeded.** Every text is refused or read as the rate that it
spells, to the nearest whole one, and this is zero for less than half a bit per second only. If a
bitrate of that much is asked for, and no quality, then it is managed within the limits that are not
zero, or the settings are refused. Less may be read as zero, which goes unnoticed: it stands for the
default quality. -/
theorem settings_heedBitrates {t : Tuning} {rate : UInt32} {channels : UInt16} {s : Settings}
    (settled : t.settings rate channels = .ok s) :
    (∀ text, (∃ fault, Bitrate.read text = .error fault) ∨
      ∃ rate, Bitrate.read text = .ok rate ∧ Bitrate.IsReadAs text rate) ∧
    HasBitrates s t ∧
    (t.quality = none → ∀ text x, t.bitrate = some text → Bitrate.written? text = some x →
      1 / 2 ≤ x → (∃ failure, resolve s = .error failure) ∨
        ∃ options, resolve s = .ok options ∧ options.Manages s) ∧
    (t.quality = none → s.bitRate = 0 → ∀ options, resolve s = .ok options →
      options.rateControl = .vbr (defaultQuality / 10)) := by
  have has := hasBitrates_of_settings settled
  refine ⟨Bitrate.read_cases, has, ?_, ?_⟩
  · intro none text x asks written half
    obtain ⟨x', written', stands⟩ := has.bitRate text asks
    cases written.symm.trans written'
    cases resolved : resolve s with
    | error failure => exact .inl ⟨failure, rfl⟩
    | ok options =>
      exact .inr ⟨options, rfl, EncodingOptions.manages_of_resolve (has.quality.trans none)
        (stands.heeded half) resolved⟩
  · intro none zero options resolved
    exact EncodingOptions.rateControl_of_bitRate_eq_zero (has.quality.trans none) zero resolved

/-- A rate of half a bit, and a limit of less. -/
def slowTuning : Tuning where
  bitrate := some "0.5"
  minRate := some "0.0004k"

theorem settings_heedBitrates_slow :
    ∃ s, slowTuning.settings 8000 1 = .ok s ∧ s.bitRate = 1 ∧ s.minRate = some 0 ∧
      HasBitrates s slowTuning ∧ ∃ options, resolve s = .ok options ∧ options.Manages s := by
  have ready : (slowTuning.settings 8000 1).toOption.any (fun s =>
      s.bitRate = 1 ∧ s.minRate = some 0 ∧ (resolve s).toOption.isSome) = true := by
    decide +kernel
  obtain ⟨s, settled, ready⟩ := (Option.any_eq_true ..).mp ready
  obtain ⟨nominal, lower, ready⟩ := of_decide_eq_true ready
  obtain ⟨options, resolved⟩ := Option.isSome_iff_exists.mp ready
  have settled := ok_of_toOption settled
  have resolved := ok_of_toOption resolved
  have written : Bitrate.written? "0.5" = some (1 / 2) := by
    have scale : Bitrate.splitScale (trim "0.5".toList) = (['0', '.', '5'], 1) := by decide
    have numeral : Numeral.read ['0', '.', '5'] = .ok (.decimal false 5 (-1)) := rfl
    simp only [Bitrate.written?, scale, numeral]
    norm_num
  obtain ⟨-, has, managed, -⟩ := settings_heedBitrates settled
  refine ⟨s, settled, nominal, lower, has, ?_⟩
  rcases managed rfl "0.5" _ rfl written (le_refl _) with ⟨failure, refused⟩ | manages
  · cases refused.symm.trans resolved
  · exact manages

/-- Less than half a bit per second is read as no bitrate at all, and the default quality is taken
instead. -/
theorem resolve_of_fraction :
    Bitrate.read "0.4" = .ok 0 ∧
      ∃ s options, ({ bitrate := some "0.4" } : Tuning).settings 8000 1 = .ok s ∧
        resolve s = .ok options ∧ options.rateControl = .vbr (defaultQuality / 10) := by
  have ready : (({ bitrate := some "0.4" } : Tuning).settings 8000 1).toOption.any (fun s =>
      s.bitRate = 0 ∧ (resolve s).toOption.isSome) = true := by
    decide +kernel
  obtain ⟨s, settled, ready⟩ := (Option.any_eq_true ..).mp ready
  obtain ⟨zero, ready⟩ := of_decide_eq_true ready
  obtain ⟨options, resolved⟩ := Option.isSome_iff_exists.mp ready
  have settled := ok_of_toOption settled
  have resolved := ok_of_toOption resolved
  refine ⟨ok_of_toOption (by decide +kernel), s, options, settled, resolved, ?_⟩
  exact EncodingOptions.rateControl_of_bitRate_eq_zero
    (hasBitrates_of_settings settled).quality zero resolved

end Command.Tuning

end VorbisTrack
