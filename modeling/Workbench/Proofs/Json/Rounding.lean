/-
# Rounding to doubles

A double that is not below a ratio stays so when the ratio is rounded to the nearest
double, and so does one that is not above it. This is all that is needed to see that a product
or a quotient is finite: no error of rounding is estimated, and only bounds that are doubles
themselves are passed on.

Magnitudes are compared as whole numbers. That this compares the values is the reason for
keeping doubles as magnitudes.
-/

import Mathlib.Algebra.Order.Field.Power
import Mathlib.Data.Rat.Cast.Order
import Mathlib.Tactic.FieldSimp
import Mathlib.Tactic.Linarith
import Mathlib.Tactic.Positivity
import Mathlib.Tactic.Ring
import Workbench.Json.Numeral

namespace Workbench.Double

/-! ## Powers of two -/

theorem twoTo_toNat (exponent : Int) :
    (twoTo exponent.toNat : ℚ) = 2 ^ exponent * twoTo (-exponent).toNat := by
  simp only [twoTo, Nat.pow_eq, Nat.cast_pow, Nat.cast_ofNat]
  rcases Int.le_total 0 exponent with up | down
  · rw [Int.toNat_of_nonpos (by omega : -exponent ≤ 0), pow_zero, mul_one, ← zpow_natCast,
      Int.toNat_of_nonneg up]
  · rw [Int.toNat_of_nonpos down, pow_zero, ← zpow_natCast, Int.toNat_of_nonneg (by omega),
      ← zpow_add₀ two_ne_zero, add_neg_cancel, zpow_zero]

theorem twoTo_cast (exponent : Nat) : (twoTo exponent : ℚ) = 2 ^ (exponent : Int) := by
  simp only [twoTo, Nat.pow_eq, Nat.cast_pow, Nat.cast_ofNat, zpow_natCast]

theorem twoTo_cast_pos (exponent : Nat) : (0 : ℚ) < twoTo exponent := by
  simp only [twoTo, Nat.pow_eq, Nat.cast_pow, Nat.cast_ofNat]
  positivity

/-- Whole numbers are at least the power of two that their logarithm gives, and below the next. -/
theorem log2_bounds {n : Nat} (positive : 0 < n) :
    (2 : ℚ) ^ (n.log2 : Int) ≤ n ∧ (n : ℚ) < 2 ^ ((n.log2 : Int) + 1) := by
  have below := Nat.log2_self_le (Nat.ne_of_gt positive)
  have above := Nat.lt_log2_self (n := n)
  rw [← Nat.cast_succ, zpow_natCast, zpow_natCast]
  exact ⟨by exact_mod_cast below, by exact_mod_cast above⟩

/-- The binary exponent of a ratio is the one of the power of two next below it. -/
theorem binaryExponent_bounds {n d : Nat} (numerator : 0 < n) (denominator : 0 < d) :
    2 ^ binaryExponent n d * (d : ℚ) ≤ n ∧ (n : ℚ) < 2 ^ (binaryExponent n d + 1) * d := by
  obtain ⟨nLow, nHigh⟩ := log2_bounds numerator
  obtain ⟨dLow, dHigh⟩ := log2_bounds denominator
  have split (first second : Int) : (2 : ℚ) ^ (first + second) = 2 ^ first * 2 ^ second :=
    zpow_add₀ two_ne_zero first second
  have dPos : (0 : ℚ) < d := by exact_mod_cast denominator
  generalize guess_eq : (n.log2 : Int) - (d.log2 : Int) = guess
  have scale := twoTo_cast_pos (-guess).toNat
  have guessed : (d * twoTo guess.toNat ≤ n * twoTo (-guess).toNat) ↔ 2 ^ guess * (d : ℚ) ≤ n := by
    rw [← Nat.cast_le (α := ℚ), Nat.cast_mul, Nat.cast_mul, twoTo_toNat]
    rw [← mul_assoc, mul_le_mul_iff_of_pos_right scale, mul_comm]
  have far : (n : ℚ) < 2 ^ (guess + 1) * d := by
    calc (n : ℚ) < 2 ^ ((n.log2 : Int) + 1) := nHigh
      _ = 2 ^ (guess + 1) * 2 ^ (d.log2 : Int) := by rw [← split]; congr 1; omega
      _ ≤ 2 ^ (guess + 1) * d := by gcongr
  have near : 2 ^ (guess - 1) * (d : ℚ) ≤ n := by
    calc 2 ^ (guess - 1) * (d : ℚ) ≤ 2 ^ (guess - 1) * 2 ^ ((d.log2 : Int) + 1) := by gcongr
      _ = 2 ^ (n.log2 : Int) := by rw [← split]; congr 1; omega
      _ ≤ n := nLow
  rw [binaryExponent, guess_eq]
  by_cases fits : d * twoTo guess.toNat ≤ n * twoTo (-guess).toNat
  · rw [if_pos fits]
    exact ⟨guessed.1 fits, far⟩
  · rw [if_neg fits]
    refine ⟨near, ?_⟩
    rw [sub_add_cancel]
    exact lt_of_not_ge fun fine => fits (guessed.2 fine)

/-! ## Values -/

/-- The absolute value of a double. -/
def worth (d : Double) : ℚ := d.significand * 2 ^ d.exponent

theorem worth_nonneg (d : Double) : 0 ≤ d.worth := by
  unfold worth
  positivity

theorem denominator_pos (d : Double) : (0 : ℚ) < d.denominator := twoTo_cast_pos _

theorem numerator_eq (d : Double) : (d.numerator : ℚ) = d.worth * d.denominator := by
  rw [numerator, Nat.cast_mul, twoTo_toNat, worth, denominator]
  ring

/-- A magnitude counts the doubles below: all significands of all smaller exponents. -/
theorem magnitude_eq (d : Double) :
    (d.magnitude : Int) = (d.exponent + 1074) * hiddenBit + d.significand ∧
      -1074 ≤ d.exponent ∧ d.significand < 2 * hiddenBit ∧
      (-1074 < d.exponent → hiddenBit ≤ d.significand) := by
  have parts := Nat.div_add_mod d.magnitude hiddenBit
  have rest := Nat.mod_lt d.magnitude (show 0 < hiddenBit by decide)
  rw [exponent, significand]
  by_cases small : d.magnitude < hiddenBit
  · rw [if_pos small, Nat.div_eq_of_lt small, Nat.max_eq_right (Nat.zero_le 1)]
    simp only [hiddenBit] at small ⊢
    exact ⟨by omega, by omega, by omega, by omega⟩
  · rw [if_neg small]
    have some : 1 ≤ d.magnitude / hiddenBit :=
      (Nat.one_le_div_iff (by decide)).2 (Nat.le_of_not_lt small)
    generalize d.magnitude / hiddenBit = quotient at parts some
    rw [Nat.max_eq_left some]
    refine ⟨?_, by omega, by omega, fun _ => Nat.le_add_right ..⟩
    simp only [hiddenBit] at parts rest ⊢
    omega

theorem worth_lt (d : Double) : d.worth < 2 ^ (d.exponent + 53) := by
  obtain ⟨-, -, small, -⟩ := d.magnitude_eq
  have bits : (d.significand : ℚ) < 2 ^ (53 : Int) := by
    have bound : ((2 * hiddenBit : Nat) : ℚ) = 2 ^ (53 : Int) := by norm_num [hiddenBit]
    rw [← bound]
    exact_mod_cast small
  rw [worth, add_comm, zpow_add₀ two_ne_zero]
  gcongr

theorem le_worth {d : Double} (normal : -1074 < d.exponent) : 2 ^ (d.exponent + 52) ≤ d.worth := by
  obtain ⟨-, -, -, large⟩ := d.magnitude_eq
  have bits : 2 ^ (52 : Int) ≤ (d.significand : ℚ) := by
    have bound : ((hiddenBit : Nat) : ℚ) = 2 ^ (52 : Int) := by norm_num [hiddenBit]
    rw [← bound]
    exact_mod_cast large normal
  rw [worth, add_comm, zpow_add₀ two_ne_zero]
  gcongr

/-- The larger of two magnitudes has the larger value. -/
theorem worth_mono {a b : Double} (le : a.magnitude ≤ b.magnitude) : a.worth ≤ b.worth := by
  obtain ⟨aMagnitude, aLow, aSmall, -⟩ := a.magnitude_eq
  obtain ⟨bMagnitude, bLow, bSmall, -⟩ := b.magnitude_eq
  simp only [hiddenBit] at *
  rcases lt_trichotomy a.exponent b.exponent with less | same | more
  · calc a.worth ≤ 2 ^ (a.exponent + 53) := a.worth_lt.le
      _ ≤ 2 ^ (b.exponent + 52) := zpow_le_zpow_right₀ one_le_two (by omega)
      _ ≤ b.worth := le_worth (by omega)
  · rw [worth, worth, same]
    have significands : a.significand ≤ b.significand := by
      rw [same] at aMagnitude
      omega
    gcongr
  · have large : 0x10000000000000 ≤ a.significand := a.magnitude_eq.2.2.2 (by omega)
    omega

/-! ## Rounding up to a bound -/

theorem roundHalfEven_le {n d bound : Nat} (positive : 0 < d) (le : n ≤ bound * d) :
    roundHalfEven n d ≤ bound := by
  have parts := Nat.div_add_mod n d
  have quotient : n / d ≤ bound := Nat.div_le_of_le_mul (Nat.mul_comm bound d ▸ le)
  rw [roundHalfEven]
  by_cases whole : n / d = bound
  · -- at the bound nothing is left over, so nothing is rounded up
    have none : n % d = 0 := by
      rw [whole, Nat.mul_comm] at parts
      omega
    rw [if_neg (by omega), whole]
  · split <;> omega

/-- A ratio that is not above a double is not rounded to a magnitude above that of the double. -/
theorem nearestMagnitude_le {n d : Nat} {bound : Double} (denominator : 0 < d)
    (le : (n : ℚ) ≤ bound.worth * d) : nearestMagnitude n d ≤ bound.magnitude := by
  rw [nearestMagnitude]
  split
  · exact Nat.zero_le _
  rename_i nonzero
  obtain ⟨low, high⟩ := binaryExponent_bounds (Nat.pos_of_ne_zero nonzero) denominator
  obtain ⟨magnitude, least, small, large⟩ := bound.magnitude_eq
  have dPos : (0 : ℚ) < d := by exact_mod_cast denominator
  generalize binaryExponent n d = leading at low high
  generalize scale_eq : max (leading - 52) (-1074) = scale
  have up := twoTo_cast_pos (-scale).toNat
  have unit : 0 < d * twoTo scale.toNat := Nat.mul_pos denominator (Nat.pow_pos (by decide))
  -- the scale is never above the exponent of the bound, or the ratio would be too large
  have notAbove : scale ≤ bound.exponent := by
    by_contra above
    have leads : bound.exponent + 53 ≤ leading := by omega
    have much : 2 ^ (bound.exponent + 53) * (d : ℚ) ≤ n :=
      (mul_le_mul_of_nonneg_right (zpow_le_zpow_right₀ one_le_two leads) dPos.le).trans low
    have less := mul_lt_mul_of_pos_right bound.worth_lt dPos
    exact absurd (le.trans_lt (less.trans_le much)) (lt_irrefl _)
  -- rounding on the grid of the scale, against any number of its units
  have round (units : Nat) (fits : (n : ℚ) ≤ units * 2 ^ scale * d) :
      roundHalfEven (n * twoTo (-scale).toNat) (d * twoTo scale.toNat) ≤ units := by
    apply roundHalfEven_le unit
    rw [← Nat.cast_le (α := ℚ)]
    push_cast
    rw [twoTo_toNat scale]
    calc (n : ℚ) * twoTo (-scale).toNat ≤ units * 2 ^ scale * d * twoTo (-scale).toNat := by gcongr
      _ = units * (d * (2 ^ scale * twoTo (-scale).toNat)) := by ring
  rcases notAbove.lt_or_eq with below | same
  · have fits : (n : ℚ) ≤ (2 * hiddenBit : Nat) * 2 ^ scale * d := by
      have bits : ((2 * hiddenBit : Nat) : ℚ) = 2 ^ (53 : Int) := by norm_num [hiddenBit]
      rw [bits, ← zpow_add₀ two_ne_zero]
      refine high.le.trans (mul_le_mul_of_nonneg_right ?_ dPos.le)
      exact zpow_le_zpow_right₀ one_le_two (by omega)
    have units := round _ fits
    have normal := large (by omega)
    simp only [hiddenBit] at *
    omega
  · have units := round bound.significand (by rw [same]; exact le)
    rw [same] at units ⊢
    simp only [hiddenBit] at *
    omega

/-! ## Rounding down to a bound -/

theorem le_roundHalfEven {n d bound : Nat} (positive : 0 < d) (le : bound * d ≤ n) :
    bound ≤ roundHalfEven n d := by
  have quotient : bound ≤ n / d := (Nat.le_div_iff_mul_le positive).2 le
  rw [roundHalfEven]
  split <;> omega

/-- A ratio that is not below a double is not rounded to a magnitude below that of the double. -/
theorem le_nearestMagnitude {n d : Nat} {bound : Double} (denominator : 0 < d)
    (le : bound.worth * d ≤ n) : bound.magnitude ≤ nearestMagnitude n d := by
  obtain ⟨magnitude, least, small, large⟩ := bound.magnitude_eq
  have dPos : (0 : ℚ) < d := by exact_mod_cast denominator
  rw [nearestMagnitude]
  split
  · rename_i zero
    have nothing : bound.worth * d ≤ 0 := by rwa [zero, Nat.cast_zero] at le
    have none : bound.worth = 0 := le_antisymm (nonpos_of_mul_nonpos_left nothing dPos)
      bound.worth_nonneg
    have significand : bound.significand = 0 := by
      have power : (2 : ℚ) ^ bound.exponent ≠ 0 := by positivity
      exact_mod_cast (mul_eq_zero.1 none).resolve_right power
    have subnormal : bound.exponent = -1074 := by
      by_contra normal
      have hidden := large (by omega)
      simp only [hiddenBit] at hidden
      omega
    rw [significand, subnormal] at magnitude
    omega
  rename_i nonzero
  obtain ⟨low, high⟩ := binaryExponent_bounds (Nat.pos_of_ne_zero nonzero) denominator
  generalize binaryExponent n d = leading at low high
  generalize scale_eq : max (leading - 52) (-1074) = scale
  have up := twoTo_cast_pos (-scale).toNat
  have unit : 0 < d * twoTo scale.toNat := Nat.mul_pos denominator (Nat.pow_pos (by decide))
  -- the scale is never below the exponent of the bound, or the ratio would be too small
  have notBelow : bound.exponent ≤ scale := by
    by_contra below
    have normal := le_worth (d := bound) (by omega)
    have much : 2 ^ (leading + 1) * (d : ℚ) ≤ n := by
      refine le.trans' (mul_le_mul_of_nonneg_right (normal.trans' ?_) dPos.le)
      exact zpow_le_zpow_right₀ one_le_two (by omega)
    exact absurd (high.trans_le much) (lt_irrefl _)
  have round (units : Nat) (fits : units * 2 ^ scale * d ≤ (n : ℚ)) :
      units ≤ roundHalfEven (n * twoTo (-scale).toNat) (d * twoTo scale.toNat) := by
    apply le_roundHalfEven unit
    rw [← Nat.cast_le (α := ℚ)]
    push_cast
    rw [twoTo_toNat scale]
    calc (units : ℚ) * (d * (2 ^ scale * twoTo (-scale).toNat))
        = units * 2 ^ scale * d * twoTo (-scale).toNat := by ring
      _ ≤ n * twoTo (-scale).toNat := by gcongr
  rcases notBelow.lt_or_eq with above | same
  · have fits : (hiddenBit : Nat) * 2 ^ scale * d ≤ (n : ℚ) := by
      have bits : ((hiddenBit : Nat) : ℚ) = 2 ^ (52 : Int) := by norm_num [hiddenBit]
      rw [bits, ← zpow_add₀ two_ne_zero]
      refine low.trans' (mul_le_mul_of_nonneg_right ?_ dPos.le)
      exact zpow_le_zpow_right₀ one_le_two (by omega)
    have units := round _ fits
    simp only [hiddenBit] at *
    omega
  · have units := round bound.significand (by rw [← same]; exact le)
    rw [← same] at units ⊢
    simp only [hiddenBit] at *
    omega

/-! ## Arithmetic that stays finite -/

/-- A ratio that is not above a double has a nearest double, and that is not above it either. -/
theorem ofRatio?_of_le (negative : Bool) {n d : Nat} {bound : Double} (denominator : 0 < d)
    (le : (n : ℚ) ≤ bound.worth * d) :
    ∃ rounded, ofRatio? negative n d = some rounded ∧ rounded.worth ≤ bound.worth := by
  have magnitude := nearestMagnitude_le denominator le
  have finite := Nat.lt_of_le_of_lt magnitude bound.finite
  refine ⟨⟨negative, _, finite⟩, dif_pos finite, worth_mono magnitude⟩

/-- What a ratio is rounded to is not below a double that the ratio is not below. -/
theorem worth_le_of_ofRatio? {negative : Bool} {n d : Nat} {bound rounded : Double}
    (denominator : 0 < d) (le : bound.worth * d ≤ n)
    (found : ofRatio? negative n d = some rounded) : bound.worth ≤ rounded.worth := by
  rw [ofRatio?] at found
  split at found
  · cases found
    exact worth_mono (le_nearestMagnitude denominator le)
  · cases found

/-- A product that is not above a double is finite. -/
theorem mul?_of_le {a b bound : Double} (le : a.worth * b.worth ≤ bound.worth) :
    ∃ product, a.mul? b = some product ∧ product.worth ≤ bound.worth := by
  apply ofRatio?_of_le
  · exact Nat.mul_pos (Nat.pow_pos (by decide)) (Nat.pow_pos (by decide))
  · rw [Nat.cast_mul, Nat.cast_mul, a.numerator_eq, b.numerator_eq]
    have denominators := mul_pos a.denominator_pos b.denominator_pos
    calc a.worth * a.denominator * (b.worth * b.denominator)
        = a.worth * b.worth * (a.denominator * b.denominator) := by ring
      _ ≤ bound.worth * (a.denominator * b.denominator) := by gcongr

/-- A quotient by something that is not below one is finite. -/
theorem div?_of_one_le {a b : Double} (one_le : 1 ≤ b.worth) :
    ∃ quotient, a.div? b = some quotient ∧ quotient.worth ≤ a.worth := by
  have below : (b.denominator : ℚ) ≤ b.numerator := by
    rw [b.numerator_eq]
    exact le_mul_of_one_le_left b.denominator_pos.le one_le
  apply ofRatio?_of_le
  · have positive : (0 : ℚ) < b.numerator := b.denominator_pos.trans_le below
    exact Nat.mul_pos (Nat.pow_pos (by decide)) (by exact_mod_cast positive)
  · rw [Nat.cast_mul, Nat.cast_mul, a.numerator_eq]
    have nonneg := mul_nonneg a.worth_nonneg a.denominator_pos.le
    calc a.worth * a.denominator * b.denominator ≤ a.worth * a.denominator * b.numerator := by
          gcongr
      _ = a.worth * (a.denominator * b.numerator) := by ring

/-! ## Bounds that are doubles -/

/-- The largest finite double. -/
def largest : Double := ⟨false, 0x7FEFFFFFFFFFFFFF, by decide⟩

theorem worth_largest : largest.worth = (0x1FFFFFFFFFFFFF * twoTo 971 : Nat) := by
  have significand : largest.significand = 0x1FFFFFFFFFFFFF := by decide
  have exponent : largest.exponent = (971 : Nat) := by decide
  rw [worth, significand, exponent, Nat.cast_mul, twoTo_cast]

/-- Powers of two are doubles, as long as they are finite. -/
theorem exists_worth_eq_two_pow {exponent : Nat} (small : exponent ≤ 1023) :
    ∃ bound : Double, bound.worth = 2 ^ exponent := by
  have finite : (exponent + 1023) * hiddenBit < 0x7FF0000000000000 := by
    simp only [hiddenBit]
    omega
  refine ⟨⟨false, (exponent + 1023) * hiddenBit, finite⟩, ?_⟩
  have large : ¬ (exponent + 1023) * hiddenBit < hiddenBit := by
    simp only [hiddenBit]
    omega
  have quotient : max ((exponent + 1023) * hiddenBit / hiddenBit) 1 = exponent + 1023 := by
    rw [Nat.mul_div_cancel _ (show 0 < hiddenBit by decide), Nat.max_eq_left (by omega)]
  have hidden : ((hiddenBit : Nat) : ℚ) = 2 ^ (52 : Int) := by norm_num [hiddenBit]
  simp only [worth, significand, Double.exponent, if_neg large, Nat.mul_mod_left, Nat.add_zero,
    quotient, hidden]
  have sum : (52 : Int) + ((exponent + 1023 : Nat) - 1075) = exponent := by omega
  rw [← zpow_add₀ two_ne_zero, sum, zpow_natCast]

/-- A whole number is rounded to at most its double. -/
theorem ofRatio?_le_two_mul (negative : Bool) {n exponent : Nat} (positive : 0 < n)
    (small : n < twoTo exponent) (finite : exponent ≤ 1023) :
    ∃ rounded, ofRatio? negative n 1 = some rounded ∧ rounded.worth ≤ 2 * n := by
  obtain ⟨low, high⟩ := log2_bounds positive
  have next : n.log2 + 1 ≤ exponent := (Nat.log2_lt (Nat.ne_of_gt positive)).2 small
  obtain ⟨bound, power⟩ := exists_worth_eq_two_pow (next.trans finite)
  rw [← Nat.cast_succ, zpow_natCast] at high
  rw [zpow_natCast] at low
  have le : (n : ℚ) ≤ bound.worth * (1 : Nat) := by
    rw [power, Nat.cast_one, mul_one]
    exact high.le
  obtain ⟨rounded, found, less⟩ := ofRatio?_of_le negative Nat.one_pos le
  refine ⟨rounded, found, less.trans ?_⟩
  rw [power, pow_succ']
  linarith

end Workbench.Double
