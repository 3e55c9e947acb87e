import Mathlib.Data.Int.Basic
import Mathlib.Data.Int.GCD
import Mathlib.Logic.Function.Iterate
import Mathlib.Tactic.Ring
import VorbisTrack.Proofs.SampleTime

/-!
# The canonical form of a quotient

A quotient is reduced in three steps, each on words: Euclid's loop finds the greatest common divisor
of the absolute values, both words are divided by it, and the signs are put right. The words that
come out keep the value, have a positive denominator and no common divisor (`IsCanonical`). There is
one such pair for each value (`IsCanonical.eq`), so quotients that are equal in exact arithmetic are
reduced to the same words (`reduced_isCanonical`). The least word is left out: it has no absolute
value.
-/

set_option autoImplicit false

namespace VorbisTrack

namespace Int64

/-- A word other than the least, by its distance from there. -/
theorem ne_minValue_iff {n : Int64} : n ≠ Int64.minValue ↔ -2 ^ 63 < n.toInt := by
  have low := n.le_toInt
  rw [ne_eq, ← Int64.toInt_inj, Int64.toInt_minValue]
  omega

theorem toInt_abs {n : Int64} (least : n ≠ Int64.minValue) : n.abs.toInt = n.toInt.natAbs := by
  apply BitVec.toInt_abs_eq_natAbs_of_ne_intMin
  intro same
  exact least (Int64.toBitVec.inj same)

theorem toInt_neg_of_ne {n : Int64} (least : n ≠ Int64.minValue) : (-n).toInt = -n.toInt := by
  have low := ne_minValue_iff.mp least
  have high := n.toInt_lt
  rw [Int64.toInt_neg]
  exact Int.bmod_eq_of_le (by omega) (by omega)

end Int64

namespace Rational

/-! ## Euclid's loop -/

/-- A turn of the loop, on words. -/
def euclidTurn (pair : Int64 × Int64) : Int64 × Int64 :=
  (pair.2, pair.1 % pair.2)

/-- The loop has come to its end after so many turns, and not before. -/
structure EndsAfter (a b : Int64) (turns : Nat) : Prop where
  ended : (euclidTurn^[turns] (a, b)).2 = 0
  running : ∀ turn < turns, (euclidTurn^[turn] (a, b)).2 ≠ 0
  found : (euclidTurn^[turns] (a, b)).1.toInt = euclid a.toInt b.toInt

/-- The remainder that a turn leaves is smaller than the number that it divides by. -/
theorem toInt_mod_lt {a b : Int64} (natural : 0 ≤ a.toInt) (positive : 0 < b.toInt) :
    0 ≤ (a % b).toInt ∧ (a % b).toInt < b.toInt := by
  rw [Int64.toInt_mod]
  exact ⟨Int.tmod_nonneg _ natural, Int.tmod_lt_of_pos _ positive⟩

/-- The loop comes to its end, and has found what the recursion finds. -/
theorem exists_endsAfter {a b : Int64} (a_ : 0 ≤ a.toInt) (b_ : 0 ≤ b.toInt) :
    ∃ turns, EndsAfter a b turns := by
  -- By induction on the second number, of which every turn leaves less.
  induction size : b.toInt.toNat using Nat.strongRecOn generalizing a b with
  | ind size ih =>
    by_cases zero : b = 0
    · subst zero
      refine ⟨0, rfl, fun turn none => absurd none (Nat.not_lt_zero turn), ?_⟩
      rw [euclid, if_pos (show Int64.toInt 0 = 0 from rfl)]
      rfl
    · have value : b.toInt ≠ 0 := fun none => zero (Int64.toInt_inj.mp none)
      obtain ⟨rest, less⟩ := toInt_mod_lt a_ (by omega : 0 < b.toInt)
      obtain ⟨turns, ended, running, found⟩ := ih _ (by omega) b_ rest rfl
      refine ⟨turns + 1, ended, ?_, ?_⟩
      · intro turn before
        cases turn with
        | zero => exact zero
        | succ turn => exact running turn (by omega)
      · rw [euclid, if_neg value, ← Int64.toInt_mod]
        exact found

/-- The recursion finds the greatest common divisor. -/
theorem euclid_eq_gcd {a b : Int} (a_ : 0 ≤ a) (b_ : 0 ≤ b) : euclid a b = Int.gcd a b := by
  fun_induction euclid a b with
  | case1 a => rw [Int.gcd_zero_right, Int.natAbs_of_nonneg a_]
  | case2 a b nonzero ih =>
    rw [ih b_ (Int.tmod_nonneg b a_), Int.tmod_eq_emod_of_nonneg a_, Int.gcd_comm b,
      Int.gcd_emod]

/-! ## Canonical forms -/

/-- The denominator is positive, and the numerator has no divisor in common with it. -/
structure IsCanonical (r : Rational) : Prop where
  positive : 0 < r.den.toInt
  coprime : Int.gcd r.num.toInt r.den.toInt = 1

/-- A value has one canonical form. -/
theorem IsCanonical.eq {r s : Rational} (hr : r.IsCanonical) (hs : s.IsCanonical)
    (same : r.num.toInt * s.den.toInt = s.num.toInt * r.den.toInt) : r = s := by
  have positive := hr.positive
  have positive' := hs.positive
  -- Each denominator divides the other, since it has nothing in common with its numerator.
  have divides : r.den.toInt ∣ s.den.toInt := by
    have product : r.den.toInt ∣ r.num.toInt * s.den.toInt :=
      ⟨s.num.toInt, by rw [same, Int.mul_comm]⟩
    exact Int.dvd_of_dvd_mul_right_of_gcd_one product (by rw [Int.gcd_comm, hr.coprime])
  have divides' : s.den.toInt ∣ r.den.toInt := by
    have product : s.den.toInt ∣ s.num.toInt * r.den.toInt :=
      ⟨r.num.toInt, by rw [← same, Int.mul_comm]⟩
    exact Int.dvd_of_dvd_mul_right_of_gcd_one product (by rw [Int.gcd_comm, hs.coprime])
  have den : r.den.toInt = s.den.toInt :=
    Int.le_antisymm (Int.le_of_dvd positive' divides) (Int.le_of_dvd positive divides')
  have num : r.num.toInt = s.num.toInt := by
    rw [← den] at same
    exact Int.eq_of_mul_eq_mul_right (by omega) same
  obtain ⟨n, d⟩ := r
  obtain ⟨n', d'⟩ := s
  cases Int64.toInt_inj.mp num
  cases Int64.toInt_inj.mp den
  rfl

/-! ## Reducing -/

/-- Two words that can be reduced: the second is not zero, and both have absolute values. -/
structure IsQuotient (num den : Int64) : Prop where
  nonzero : den ≠ 0
  num : num ≠ Int64.minValue
  den : den ≠ Int64.minValue

/-- Both words are divided by their greatest common divisor, and then the signs are put right. -/
theorem exists_lowest {num den : Int64} (h : IsQuotient num den) :
    ∃ n d : Int64, reduced num den = (if d < 0 then ⟨-n, -d⟩ else ⟨n, d⟩) ∧
      n.toInt * Int.gcd num.toInt den.toInt = num.toInt ∧
      d.toInt * Int.gcd num.toInt den.toInt = den.toInt := by
  have nonzero : den.toInt ≠ 0 := fun zero => h.nonzero (Int64.toInt_inj.mp zero)
  have num_ := Int64.ne_minValue_iff.mp h.num
  have den_ := Int64.ne_minValue_iff.mp h.den
  have high := den.toInt_lt
  -- The divisor is no larger than the denominator, so it is a word.
  have positive : 0 < Int.gcd num.toInt den.toInt := Int.gcd_pos_of_ne_zero_right _ nonzero
  have small : Int.gcd num.toInt den.toInt ≤ den.toInt.natAbs :=
    Nat.le_of_dvd (by omega) (Int.gcd_dvd_natAbs_right ..)
  have divisor : euclid num.abs.toInt den.abs.toInt = Int.gcd num.toInt den.toInt := by
    rw [Int64.toInt_abs h.num, Int64.toInt_abs h.den, euclid_eq_gcd (by omega) (by omega)]
    rfl
  have word : (Int64.ofInt (Int.gcd num.toInt den.toInt)).toInt = Int.gcd num.toInt den.toInt :=
    Int64.toInt_ofInt_of_le (by omega) (by omega)
  have one : (1 : Int64).toInt = 1 := rfl
  unfold reduced
  rw [if_neg h.nonzero, divisor]
  generalize Int64.ofInt (Int.gcd num.toInt den.toInt) = g at word
  by_cases common : 1 < g
  · refine ⟨num / g, den / g, ?_, ?_, ?_⟩
    · simp only [common, if_true]
    · rw [Int64.toInt_div_of_ne_left _ _ h.num, word]
      exact Int.tdiv_mul_cancel (Int.gcd_dvd_left ..)
    · rw [Int64.toInt_div_of_ne_left _ _ h.den, word]
      exact Int.tdiv_mul_cancel (Int.gcd_dvd_right ..)
  · have nothing : Int.gcd num.toInt den.toInt = 1 := by
      rw [Int64.lt_iff_toInt_lt, word, one] at common
      omega
    refine ⟨num, den, ?_, ?_, ?_⟩
    · simp only [common, if_false]
    · rw [nothing, Int.natCast_one, Int.mul_one]
    · rw [nothing, Int.natCast_one, Int.mul_one]

/-- A factor of a word other than the least is another such word. -/
theorem ne_minValue_of_mul {n word : Int64} {g : Nat} (least : word ≠ Int64.minValue)
    (product : n.toInt * g = word.toInt) (positive : 0 < g) : n ≠ Int64.minValue := by
  have low := Int64.ne_minValue_iff.mp least
  have high := word.toInt_lt
  have size : n.toInt.natAbs * g = word.toInt.natAbs := by
    rw [← product, Int.natAbs_mul, Int.natAbs_natCast]
  have less : n.toInt.natAbs ≤ n.toInt.natAbs * g := Nat.le_mul_of_pos_right _ positive
  rw [Int64.ne_minValue_iff]
  omega

/-- What a quotient is reduced to: a canonical form of the same value, in words that have absolute
values. -/
structure IsReducedTo (num den : Int64) (r : Rational) : Prop where
  canonical : r.IsCanonical
  /-- As fractions of integers, the two are equal. -/
  value : num.toInt * r.den.toInt = r.num.toInt * den.toInt
  quotient : IsQuotient r.num r.den
  zero : num = 0 → r = ⟨0, 1⟩

theorem isReducedTo_reduced {num den : Int64} (h : IsQuotient num den) :
    IsReducedTo num den (reduced num den) := by
  obtain ⟨n, d, made, n_, d_⟩ := exists_lowest h
  have nonzero : den.toInt ≠ 0 := fun zero => h.nonzero (Int64.toInt_inj.mp zero)
  have positive : 0 < Int.gcd num.toInt den.toInt := Int.gcd_pos_of_ne_zero_right _ nonzero
  have num_ := ne_minValue_of_mul h.num n_ positive
  have den_ := ne_minValue_of_mul h.den d_ positive
  have coprime : Int.gcd n.toInt d.toInt = 1 := by
    have whole := Int.gcd_mul_right n.toInt (Int.gcd num.toInt den.toInt) d.toInt
    rw [n_, d_, Int.natAbs_natCast] at whole
    exact (Nat.eq_of_mul_eq_mul_right positive (by rw [Nat.one_mul]; exact whole)).symm
  have same : num.toInt * d.toInt = n.toInt * den.toInt := by
    calc num.toInt * d.toInt
        = n.toInt * Int.gcd num.toInt den.toInt * d.toInt := by rw [n_]
      _ = n.toInt * (d.toInt * Int.gcd num.toInt den.toInt) := by ring
      _ = n.toInt * den.toInt := by rw [d_]
  have some_ : d.toInt ≠ 0 := by
    intro zero
    rw [zero, Int.zero_mul] at d_
    exact nonzero d_.symm
  -- A negative denominator gives its sign to the numerator.
  suffices signed : (reduced num den).IsCanonical ∧
      num.toInt * (reduced num den).den.toInt = (reduced num den).num.toInt * den.toInt ∧
      (reduced num den).num ≠ Int64.minValue ∧ (reduced num den).den ≠ Int64.minValue by
    obtain ⟨canonical, value, least, least'⟩ := signed
    refine ⟨canonical, value, ⟨?_, least, least'⟩, ?_⟩
    · intro zero
      have positive := canonical.positive
      rw [zero] at positive
      exact absurd positive (by decide)
    · rintro rfl
      apply canonical.eq ⟨by decide, by decide⟩
      rw [show Int64.toInt 0 = 0 from rfl, Int.zero_mul] at value
      have zero := (Int.mul_eq_zero.mp value.symm).resolve_right nonzero
      rw [zero, Int.zero_mul]
      exact (Int.zero_mul _).symm
  rw [made]
  have zero : (0 : Int64).toInt = 0 := rfl
  split
  · next negative =>
    rw [Int64.lt_iff_toInt_lt, zero] at negative
    have n' := Int64.toInt_neg_of_ne num_
    have d' := Int64.toInt_neg_of_ne den_
    have high := d.toInt_lt
    have high' := n.toInt_lt
    refine ⟨⟨?_, ?_⟩, ?_, ?_, ?_⟩
    · rw [d']
      omega
    · rw [n', d', Int.neg_gcd, Int.gcd_neg, coprime]
    · rw [n', d', Int.mul_neg, Int.neg_mul, same]
    · rw [Int64.ne_minValue_iff, n']
      omega
    · rw [Int64.ne_minValue_iff, d']
      omega
  · next natural =>
    rw [Int64.lt_iff_toInt_lt, zero] at natural
    have upward : 0 < d.toInt := by omega
    exact ⟨⟨upward, coprime⟩, same, num_, den_⟩

/-- Quotients are reduced to the same words if and only if they are equal. -/
theorem reduced_eq_iff {a b c d : Int64} (ab : IsQuotient a b) (cd : IsQuotient c d) :
    reduced a b = reduced c d ↔ a.toInt * d.toInt = c.toInt * b.toInt := by
  have first := isReducedTo_reduced ab
  have second := isReducedTo_reduced cd
  have b_ : b.toInt ≠ 0 := fun zero => ab.nonzero (Int64.toInt_inj.mp zero)
  have d_ : d.toInt ≠ 0 := fun zero => cd.nonzero (Int64.toInt_inj.mp zero)
  have positive := first.canonical.positive
  have positive' := second.canonical.positive
  have value := first.value
  have value' := second.value
  constructor
  · intro same
    rw [← same] at value'
    -- Both are equal to the form that they are reduced to.
    apply Int.eq_of_mul_eq_mul_right (Int.ne_of_gt positive)
    calc a.toInt * d.toInt * (reduced a b).den.toInt
        = a.toInt * (reduced a b).den.toInt * d.toInt := by ring
      _ = (reduced a b).num.toInt * d.toInt * b.toInt := by rw [value]; ring
      _ = c.toInt * b.toInt * (reduced a b).den.toInt := by rw [← value']; ring
  · intro same
    apply first.canonical.eq second.canonical
    apply Int.eq_of_mul_eq_mul_right (Int.mul_ne_zero b_ d_)
    calc (reduced a b).num.toInt * (reduced c d).den.toInt * (b.toInt * d.toInt)
        = (reduced a b).num.toInt * b.toInt * d.toInt * (reduced c d).den.toInt := by ring
      _ = a.toInt * d.toInt * (reduced a b).den.toInt * (reduced c d).den.toInt := by
        rw [← value]; ring
      _ = c.toInt * (reduced c d).den.toInt * (reduced a b).den.toInt * b.toInt := by
        rw [same]; ring
      _ = (reduced c d).num.toInt * (reduced a b).den.toInt * (b.toInt * d.toInt) := by
        rw [value']; ring

/-- **Quotients are reduced to their canonical form.** Euclid's loop comes to its end, the form has
the same value, and two quotients have the same form just if they are equal. A form is its own. -/
theorem reduced_isCanonical {num den : Int64} (h : IsQuotient num den) :
    (∃ turns, EndsAfter num.abs den.abs turns) ∧
      IsReducedTo num den (reduced num den) ∧
      (∀ {num' den' : Int64}, IsQuotient num' den' →
        (reduced num den = reduced num' den' ↔
          num.toInt * den'.toInt = num'.toInt * den.toInt)) ∧
      reduced (reduced num den).num (reduced num den).den = reduced num den := by
  have reducedTo := isReducedTo_reduced h
  refine ⟨?_, reducedTo, fun other => reduced_eq_iff h other, ?_⟩
  · apply exists_endsAfter
    · rw [Int64.toInt_abs h.num]
      omega
    · rw [Int64.toInt_abs h.den]
      omega
  · have again := isReducedTo_reduced reducedTo.quotient
    exact again.canonical.eq reducedTo.canonical again.value.symm

/-- Both words are negative, and six divides them. -/
theorem reduced_isCanonical_negative :
    IsQuotient (-12) (-18) ∧ IsQuotient 4 6 ∧
      (∃ turns, EndsAfter (Int64.abs (-12)) (Int64.abs (-18)) turns) ∧
      IsReducedTo (-12) (-18) ⟨2, 3⟩ ∧ reduced (-12) (-18) = reduced 4 6 ∧
      reduced (reduced (-12) (-18)).num (reduced (-12) (-18)).den = reduced (-12) (-18) := by
  have h : IsQuotient (-12) (-18) := ⟨by decide, by decide, by decide⟩
  have other : IsQuotient 4 6 := ⟨by decide, by decide, by decide⟩
  obtain ⟨turns, form, same, again⟩ := reduced_isCanonical h
  have value : reduced (-12) (-18) = ⟨2, 3⟩ := by
    have equal : -12 * (reduced (-12) (-18)).den.toInt = (reduced (-12) (-18)).num.toInt * -18 :=
      form.value
    have two : (reduced (-12) (-18)).num.toInt * 3 = 2 * (reduced (-12) (-18)).den.toInt := by omega
    exact form.canonical.eq ⟨by decide, by decide⟩ two
  exact ⟨h, other, turns, value ▸ form, (same other).mpr (by decide), again⟩

end Rational

end VorbisTrack
