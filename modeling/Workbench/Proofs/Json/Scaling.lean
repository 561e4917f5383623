/-
# Significands times powers of ten

A numeral is read by rounding its significand, and then rounding the product with a rounded
power of ten. Three roundings could add up to more than the largest double even where the
exact value is below it. Here it is shown when they do not: never while the point moves to
the left, never while the exact value is a little below the largest power of ten, and
up to the point halfway between the two largest doubles where the significand has few digits.

Only the last case comes down to the exact bits of powers of ten. It concerns eighteen powers,
and these are looked up.
-/

import Mathlib.Tactic.NormNum
import Workbench.Proofs.Json.Rounding

namespace Workbench.Numeral

open Double

/-! ## Powers of ten -/

theorem exists_one : ∃ one : Double, one.worth = 1 := by
  obtain ⟨one, power⟩ := exists_worth_eq_two_pow (Nat.zero_le 1023)
  exact ⟨one, power.trans (pow_zero 2)⟩

theorem tenTo_cast (exponent : Nat) : (tenTo exponent : ℚ) = 10 ^ exponent := by
  simp only [tenTo, Nat.pow_eq, Nat.cast_pow, Nat.cast_ofNat]

theorem tenTo_mono {fewer more : Nat} (le : fewer ≤ more) : tenTo fewer ≤ tenTo more :=
  Nat.pow_le_pow_right (by decide) le

/-- Each power of ten that one step multiplies or divides with is a finite double and not
below one. -/
theorem exists_powerOfTen {places : Nat} (few : places ≤ placesPerStep) :
    ∃ power, powerOfTen? places = some power ∧ 1 ≤ power.worth := by
  have most : (tenTo places : ℚ) ≤ largest.worth * (1 : Nat) := by
    rw [worth_largest, Nat.cast_one, mul_one, Nat.cast_le]
    calc tenTo places ≤ tenTo placesPerStep := tenTo_mono few
      _ ≤ 0x1FFFFFFFFFFFFF * twoTo 971 := by decide +kernel
  obtain ⟨power, found, -⟩ := ofRatio?_of_le false Nat.one_pos most
  obtain ⟨one, unit⟩ := exists_one
  refine ⟨power, found, ?_⟩
  rw [← unit]
  refine worth_le_of_ofRatio? Nat.one_pos ?_ found
  rw [unit, tenTo_cast, Nat.cast_one, mul_one]
  exact one_le_pow₀ (by norm_num)

/-! ## Moving the point to the left -/

theorem exists_shrink (value : Double) (steps : Nat) :
    ∃ smaller, shrink value steps = some smaller := by
  induction steps generalizing value with
  | zero => exact ⟨value, rfl⟩
  | succ steps ih =>
      obtain ⟨power, found, one_le⟩ := exists_powerOfTen (Nat.le_refl placesPerStep)
      obtain ⟨quotient, divided, -⟩ := div?_of_one_le (a := value) one_le
      have step : (powerOfTen? placesPerStep).bind value.div? = some quotient := by
        rw [found, Option.bind_some, divided]
      obtain ⟨smaller, rest⟩ := ih quotient
      by_cases zero : value.isZero = true
      · exact ⟨value, if_pos zero⟩
      · refine ⟨smaller, (if_neg zero).trans ?_⟩
        rw [step]
        exact rest

/-- Without digits behind the point there is nothing to overflow. -/
theorem exists_scale_of_nonpos (value : Double) {exponent : Int} (nonpos : exponent ≤ 0) :
    ∃ scaled, scale value exponent = some scaled := by
  rw [scale]
  by_cases zero : 0 ≤ exponent
  · have none : exponent.natAbs = 0 := by omega
    obtain ⟨one, unit⟩ := exists_one
    have least : (tenTo 0 : ℚ) ≤ one.worth * (1 : Nat) := by
      rw [unit, tenTo_cast, pow_zero, Nat.cast_one, mul_one]
    obtain ⟨power, found, le⟩ := ofRatio?_of_le false Nat.one_pos least
    have same : value.worth * power.worth ≤ value.worth :=
      mul_le_of_le_one_right value.worth_nonneg (le.trans unit.le)
    obtain ⟨product, multiplied, -⟩ := mul?_of_le same
    refine ⟨product, ?_⟩
    rw [if_pos zero, none, if_pos (Nat.zero_le _), powerOfTen?, found, Option.bind_some, multiplied]
  · obtain ⟨smaller, shrunk⟩ := exists_shrink value ((exponent.natAbs - 1) / placesPerStep)
    have few : exponent.natAbs - placesPerStep * ((exponent.natAbs - 1) / placesPerStep) ≤
        placesPerStep := by
      simp only [placesPerStep]
      omega
    obtain ⟨power, found, one_le⟩ := exists_powerOfTen few
    obtain ⟨quotient, divided, -⟩ := div?_of_one_le (a := smaller) one_le
    refine ⟨quotient, ?_⟩
    simp only [if_neg zero, shrunk, found, Option.bind_some, divided]

/-! ## Moving the point to the right -/

/-- The product with a power of ten is finite if it is when exact and the factors are doubles not
below the rounded ones. -/
theorem exists_scale {value power : Double} (bound : Double) {places : Nat}
    (few : places ≤ placesPerStep) (found : powerOfTen? places = some power)
    (le : value.worth * power.worth ≤ bound.worth) :
    ∃ scaled, scale value places = some scaled := by
  obtain ⟨product, multiplied, -⟩ := mul?_of_le le
  refine ⟨product, ?_⟩
  rw [scale, if_pos (Int.natCast_nonneg places), Int.natAbs_natCast, if_pos few, found,
    Option.bind_some, multiplied]

/-- Each rounding at most doubles, so nothing overflows far below the largest power of ten. -/
theorem exists_scale_of_small {significand places : Nat} (positive : 0 < significand)
    (small : significand * tenTo places ≤ 11 * tenTo 306) :
    ∃ scaled, (ofRatio? false significand 1).bind (scale · places) = some scaled := by
  have bits : 11 * tenTo 306 < twoTo 1021 := by decide +kernel
  have tens : 1 ≤ tenTo places := Nat.pow_pos (by decide)
  have few : places ≤ placesPerStep := by
    by_contra many
    have more : tenTo (placesPerStep + 1) ≤ tenTo places := tenTo_mono (Nat.lt_of_not_le many)
    have less : 11 * tenTo 306 < tenTo (placesPerStep + 1) := by decide +kernel
    have le := (Nat.le_mul_of_pos_left (tenTo places) positive).trans small
    exact Nat.lt_irrefl _ (less.trans_le (more.trans le))
  have significandSmall : significand < twoTo 1021 :=
    ((Nat.le_mul_of_pos_right significand tens).trans small).trans_lt bits
  have tensSmall : tenTo places < twoTo 1021 :=
    ((Nat.le_mul_of_pos_left (tenTo places) positive).trans small).trans_lt bits
  obtain ⟨value, rounded, valueLe⟩ := ofRatio?_le_two_mul false positive significandSmall (by omega)
  obtain ⟨power, found, powerLe⟩ := ofRatio?_le_two_mul false tens tensSmall (by omega)
  rw [rounded, Option.bind_some]
  refine exists_scale largest few found ?_
  have exact : (significand : ℚ) * tenTo places ≤ (11 * tenTo 306 : Nat) := by
    exact_mod_cast small
  calc value.worth * power.worth ≤ 2 * significand * (2 * tenTo places) :=
        mul_le_mul valueLe powerLe power.worth_nonneg (by positivity)
    _ = 4 * (significand * tenTo places) := by ring
    _ ≤ 4 * (11 * tenTo 306 : Nat) := by gcongr
    _ = (4 * (11 * tenTo 306) : Nat) := by rw [Nat.cast_mul 4, Nat.cast_ofNat]
    _ ≤ largest.worth := by
        rw [worth_largest, Nat.cast_le]
        decide +kernel

/-- The point halfway between the two largest doubles. -/
def ceiling : Nat := 0x3FFFFFFFFFFFFD * twoTo 970

/-- The largest significand that is looked at for each of the largest powers of ten. -/
def significandBound (places : Nat) : Nat :=
  if places = 291 then 110000000000000000 else ceiling / tenTo places

/-- Whether the largest significand rounds up to a double whose product with the rounded power of
ten is not above the largest double. -/
def boundFits (places : Nat) : Bool :=
  match ofRatio? false (significandBound places) 1, powerOfTen? places with
  | some most, some power =>
      decide (significandBound places * most.denominator ≤ most.numerator) &&
      decide (most.numerator * power.numerator * largest.denominator ≤
        largest.numerator * (most.denominator * power.denominator))
  | _, _ => false

theorem boundFits_of_large : ∀ places < 309, 291 ≤ places → boundFits places = true := by
  decide +kernel

/-- For the largest powers of ten the bits decide. -/
theorem exists_scale_of_large {significand places : Nat} (large : 291 ≤ places)
    (few : places ≤ placesPerStep) (small : significand ≤ significandBound places) :
    ∃ scaled, (ofRatio? false significand 1).bind (scale · places) = some scaled := by
  have fits := boundFits_of_large places (Nat.lt_succ_of_le few) large
  rw [boundFits] at fits
  split at fits
  · rename_i most power _ found
    rw [Bool.and_eq_true, decide_eq_true_iff, decide_eq_true_iff] at fits
    obtain ⟨covers, product⟩ := fits
    have mostPos := most.denominator_pos
    have covered : (significand : ℚ) ≤ most.worth * (1 : Nat) := by
      have scaled : (significandBound places : ℚ) * most.denominator ≤ most.numerator := by
        exact_mod_cast covers
      rw [most.numerator_eq, mul_le_mul_iff_of_pos_right mostPos] at scaled
      rw [Nat.cast_one, mul_one]
      exact (Nat.cast_le.2 small).trans scaled
    obtain ⟨value, rounded, valueLe⟩ := ofRatio?_of_le false Nat.one_pos covered
    rw [rounded, Option.bind_some]
    refine exists_scale largest few found ?_
    refine (mul_le_mul_of_nonneg_right valueLe power.worth_nonneg).trans ?_
    have scaled : (most.numerator : ℚ) * power.numerator * largest.denominator ≤
        largest.numerator * (most.denominator * power.denominator) := by
      exact_mod_cast product
    rw [most.numerator_eq, power.numerator_eq, largest.numerator_eq] at scaled
    have positive := mul_pos (mul_pos mostPos power.denominator_pos) largest.denominator_pos
    refine le_of_mul_le_mul_right ?_ positive
    linarith
  · cases fits

end Workbench.Numeral
