/-
# Every double is read back as a double

Texts of doubles are read quickly and not to the last bit, so what is read can be another
double. It could be none at all, since the text of a double near the largest might be read as
too large. That does not happen. The shortest decimal of a double exceeds it by no more than
half the distance to the next double, and has no more than seventeen digits; below
the largest double this keeps the reading finite, and the largest itself is tried out.

So as far as numbers are concerned every text that was written can be read, and whether it
can be read is a matter of nesting alone.
-/

import Workbench.Proofs.Json.Scaling
import Workbench.Proofs.Json.Text

namespace Workbench

open Json Double

/-! ## Digits -/

namespace Numeral

/-- Digits are taken up from the front. -/
theorem exists_absorb (significand : Nat) (digits : List Char) :
    ∃ taken, digits = taken ++ (absorb significand digits).2 ∧
      (absorb significand digits).1 = Nat.ofDigitChars 10 taken significand := by
  induction digits generalizing significand with
  | nil => exact ⟨[], rfl, (Nat.ofDigitChars_nil).symm⟩
  | cons digit rest ih =>
      rw [absorb]
      split
      · obtain ⟨taken, whole, value⟩ := ih (10 * significand + digitValue digit)
        refine ⟨digit :: taken, congrArg (digit :: ·) whole, ?_⟩
        rw [value, Nat.ofDigitChars_cons]
        rfl
      · exact ⟨[], rfl, (Nat.ofDigitChars_nil).symm⟩

theorem le_absorb (significand : Nat) (digits : List Char) :
    significand ≤ (absorb significand digits).1 := by
  obtain ⟨taken, -, value⟩ := exists_absorb significand digits
  rw [value]
  exact le_ofDigitChars significand taken

/-- The digits that are dropped only add to the value. -/
theorem absorb_mul_le (significand : Nat) (digits : List Char) :
    (absorb significand digits).1 * 10 ^ (absorb significand digits).2.length ≤
      Nat.ofDigitChars 10 digits significand := by
  obtain ⟨taken, whole, value⟩ := exists_absorb significand digits
  generalize absorb significand digits = absorbed at whole value
  rw [whole, Nat.ofDigitChars_append, ← value, Nat.ofDigitChars_eq_ofDigitChars_zero, Nat.mul_comm]
  exact Nat.le_add_right ..

theorem ofDigitChars_lt {digits : List Char} (all : AllDigits digits) :
    Nat.ofDigitChars 10 digits 0 < 10 ^ digits.length := by
  induction digits with
  | nil => simp
  | cons digit rest ih =>
      have digits9 : digit.toNat - '0'.toNat ≤ 9 := by
        have digit10 := all digit List.mem_cons_self
        rw [isDigit, Bool.and_eq_true, decide_eq_true_iff, decide_eq_true_iff] at digit10
        have upper : digit.toNat ≤ '9'.toNat := digit10.2
        exact Nat.sub_le_of_le_add upper
      have others := ih fun c present => all c (List.mem_cons_of_mem _ present)
      rw [Nat.ofDigitChars_cons, Nat.ofDigitChars_eq_ofDigitChars_zero, List.length_cons,
        Nat.pow_succ, Nat.mul_zero, Nat.zero_add]
      have scaled := Nat.mul_le_mul_left (10 ^ rest.length) digits9
      omega

/-! ## Significands and powers of ten -/

theorem exists_rounded {significand : Nat} (small : significand < 0x10000000000000000) :
    ∃ value, ofRatio? false significand 1 = some value := by
  have le : (significand : ℚ) ≤ largest.worth * (1 : Nat) := by
    rw [worth_largest, Nat.cast_one, mul_one, Nat.cast_le]
    exact small.le.trans (by decide +kernel)
  obtain ⟨value, rounded, -⟩ := ofRatio?_of_le false Nat.one_pos le
  exact ⟨value, rounded⟩

theorem exists_toDouble?_of_nonpos (negative : Bool) {significand : Nat} {exponent : Int}
    (small : significand < 0x10000000000000000) (nonpos : exponent ≤ 0) :
    ∃ d, toDouble? negative significand exponent = some d := by
  obtain ⟨value, rounded⟩ := exists_rounded small
  obtain ⟨scaled, found⟩ := exists_scale_of_nonpos value nonpos
  refine ⟨scaled.withSign negative, ?_⟩
  rw [toDouble?, rounded, Option.bind_some, found, Option.map_some]

/-- What the shortest decimal of a double can be, when that is larger than its digits: far below
the largest power of ten, or with so many places that few digits are left. -/
def Reaches (significand places : Nat) : Prop :=
  significand * tenTo places ≤ 11 * tenTo 306 ∨
    (291 ≤ places ∧ significand * tenTo places ≤ 11 * tenTo 307) ∨
    (292 ≤ places ∧ significand * tenTo places ≤ ceiling)

theorem exists_toDouble?_of_reaches (negative : Bool) {significand places : Nat}
    (positive : 0 < significand) (reaches : Reaches significand places) :
    ∃ d, toDouble? negative significand places = some d := by
  have found : ∃ scaled, (ofRatio? false significand 1).bind (scale · places) = some scaled := by
    have tens : 0 < tenTo places := tenTo_pos places
    have few (below : significand * tenTo places ≤ ceiling) : places ≤ placesPerStep := by
      by_contra many
      have more : tenTo (placesPerStep + 1) ≤ tenTo places := tenTo_mono (Nat.lt_of_not_le many)
      have less : ceiling < tenTo (placesPerStep + 1) := by decide +kernel
      have le := (Nat.le_mul_of_pos_left (tenTo places) positive).trans below
      exact Nat.lt_irrefl _ (less.trans_le (more.trans le))
    rcases reaches with small | ⟨large, below⟩ | ⟨large, below⟩
    · exact exists_scale_of_small positive small
    · have ceil : 11 * tenTo 307 ≤ ceiling := by decide +kernel
      refine exists_scale_of_large large (few (below.trans ceil)) ?_
      rw [significandBound]
      split
      · rename_i least
        have split : 11 * tenTo 307 = 110000000000000000 * tenTo places := by
          rw [least]
          decide +kernel
        rw [split] at below
        exact Nat.le_of_mul_le_mul_right below tens
      · exact (Nat.le_div_iff_mul_le tens).2 (below.trans ceil)
    · refine exists_scale_of_large (by omega) (few below) ?_
      rw [significandBound, if_neg (by omega)]
      exact (Nat.le_div_iff_mul_le tens).2 below
  obtain ⟨scaled, same⟩ := found
  exact ⟨scaled.withSign negative, by rw [toDouble?, same, Option.map_some]⟩

end Numeral

/-! ## The shortest decimal -/

namespace Double

theorem tenTo_toNat (exponent : Int) :
    (tenTo exponent.toNat : ℚ) = 10 ^ exponent * tenTo (-exponent).toNat := by
  rw [Numeral.tenTo_cast, Numeral.tenTo_cast]
  rcases Int.le_total 0 exponent with up | down
  · rw [Int.toNat_of_nonpos (by omega : -exponent ≤ 0), pow_zero, mul_one, ← zpow_natCast,
      Int.toNat_of_nonneg up]
  · rw [Int.toNat_of_nonpos down, pow_zero, ← zpow_natCast, Int.toNat_of_nonneg (by omega),
      ← zpow_add₀ (by norm_num), add_neg_cancel, zpow_zero]

namespace Neighbourhood

variable {near : Neighbourhood}

theorem contains_of_onGrid {place : Int} {count : Nat} (found : near.onGrid place = some count) :
    near.contains count place = true := by
  unfold onGrid at found
  simp only at found
  generalize near.value * tenTo (-place).toNat / (tenTo place.toNat * near.denominator) = point
    at found
  split at found
  · rename_i here there
    rw [Option.some.injEq] at found
    split at found <;> subst found <;> assumption
  · rename_i here _
    cases found
    exact here
  · rename_i _ there
    cases found
    exact there
  · cases found

/-- The search stops at a decimal of the interval, on the last grid at the latest. -/
theorem contains_search {place : Int} {further : Nat}
    (last : (near.onGrid (place - further)).isSome) :
    near.contains (near.search place further).1 (near.search place further).2 = true ∧
      place - further ≤ (near.search place further).2 := by
  induction further generalizing place with
  | zero =>
      obtain ⟨count, found⟩ := Option.isSome_iff_exists.1 last
      rw [Nat.cast_zero, Int.sub_zero] at found ⊢
      rw [search, found]
      exact ⟨contains_of_onGrid found, Int.le_refl _⟩
  | succ further ih =>
      have same : place - 1 - (further : Int) = place - (further + 1 : Nat) := by omega
      rw [search]
      cases found : near.onGrid place with
      | some count => exact ⟨contains_of_onGrid found, by simp only; omega⟩
      | none =>
          rw [← same] at last ⊢
          exact ih last

/-- A decimal of the interval is not above its upper end. -/
theorem le_upper_of_contains {count : Nat} {place : Int}
    (contained : near.contains count place = true) :
    (count : ℚ) * 10 ^ place * near.denominator ≤ near.upper := by
  have le : count * tenTo place.toNat * near.denominator ≤
      near.upper * tenTo (-place).toNat := by
    unfold contains at contained
    simp only at contained
    split at contained <;> rw [Bool.and_eq_true, decide_eq_true_iff, decide_eq_true_iff] at contained
    · exact contained.2
    · exact contained.2.le
  have shift : (0 : ℚ) < tenTo (-place).toNat := by exact_mod_cast tenTo_pos _
  have cast : (count : ℚ) * tenTo place.toNat * near.denominator ≤
      near.upper * tenTo (-place).toNat := by exact_mod_cast le
  rw [tenTo_toNat] at cast
  refine le_of_mul_le_mul_right ?_ shift
  linarith

end Neighbourhood

theorem neighbourhood_eq (d : Double) :
    (d.neighbourhood.value : ℚ) = d.worth * d.neighbourhood.denominator ∧
      (d.neighbourhood.upper : ℚ) =
        (d.worth + 2 ^ (d.exponent - 1)) * d.neighbourhood.denominator := by
  have opposite : -(d.exponent - 2) = 2 - d.exponent := by omega
  have quarter : (2 : ℚ) ^ d.exponent = 4 * 2 ^ (d.exponent - 2) := by
    have four : (4 : ℚ) = 2 ^ (2 : Int) := by norm_num
    rw [four, ← zpow_add₀ two_ne_zero]
    congr 1
    omega
  have half : (2 : ℚ) ^ (d.exponent - 1) = 2 * 2 ^ (d.exponent - 2) := by
    rw [← zpow_one_add₀ two_ne_zero]
    congr 1
    omega
  constructor
  · simp only [neighbourhood, Nat.cast_mul, twoTo_toNat (d.exponent - 2), opposite, worth, quarter]
    push_cast
    ring
  · simp only [neighbourhood, Nat.cast_mul, twoTo_toNat (d.exponent - 2), opposite, worth, quarter,
      half]
    push_cast
    ring

/-- The decimal exponent is not too small. -/
theorem le_decimalExponent {n d leading : Nat} (denominator : 0 < d) (le : tenTo leading * d ≤ n) :
    (leading : Int) ≤ decimalExponent n d := by
  have large : d ≤ n := (Nat.le_mul_of_pos_left d (tenTo_pos leading)).trans le
  have quotient : tenTo leading ≤ n / d := (Nat.le_div_iff_mul_le denominator).2 le
  have digits : leading < (decimalDigits (n / d)).length := by
    by_contra few
    have small := lt_tenTo_length (n / d)
    have more := Numeral.tenTo_mono (Nat.le_of_not_lt few)
    omega
  rw [decimalExponent, if_pos large]
  omega

/-- The shortest decimal exceeds a double by half the distance to the next one at most, and stops
sixteen places below the leading digit of the double at the latest. -/
theorem shortest_spec {d : Double} (nonzero : d.isZero = false) :
    (d.shortest.1 : ℚ) * 10 ^ d.shortest.2 ≤ d.worth + 2 ^ (d.exponent - 1) ∧
      ∀ leading : Nat, (tenTo leading : ℚ) ≤ d.worth → (leading : Int) - 16 ≤ d.shortest.2 := by
  obtain ⟨value, upper⟩ := d.neighbourhood_eq
  have positive := (wide_neighbourhood nonzero).denominator_pos
  have cast : (0 : ℚ) < d.neighbourhood.denominator := by exact_mod_cast positive
  obtain ⟨contained, low⟩ := Neighbourhood.contains_search (last_grid_isSome nonzero)
  constructor
  · have le := Neighbourhood.le_upper_of_contains contained
    rw [upper] at le
    exact le_of_mul_le_mul_right le cast
  · intro leading reached
    have scaled : tenTo leading * d.neighbourhood.denominator ≤ d.neighbourhood.value := by
      rw [← Nat.cast_le (α := ℚ), value, Nat.cast_mul]
      exact mul_le_mul_of_nonneg_right reached cast.le
    have exponent := le_decimalExponent positive scaled
    rw [shortest]
    omega

/-- Below the largest double the shortest decimal, or what is left of it when digits are
dropped, can be read. -/
theorem reaches_of_le {d : Double} (nonzero : d.isZero = false)
    (below : d.magnitude < largest.magnitude) {significand places : Nat}
    (le : (significand : ℚ) * tenTo places ≤ d.shortest.1 * 10 ^ d.shortest.2)
    (far : d.shortest.2 ≤ places) : Numeral.Reaches significand places := by
  obtain ⟨near, digits⟩ := shortest_spec nonzero
  have exponent : d.exponent - 1 ≤ (970 : Nat) := by
    have finite := d.finite
    rw [Double.exponent]
    simp only [hiddenBit]
    omega
  have half : (2 : ℚ) ^ (d.exponent - 1) ≤ twoTo 970 := by
    rw [twoTo_cast]
    exact zpow_le_zpow_right₀ one_le_two exponent
  have reach : (significand : ℚ) * tenTo places ≤ d.worth + twoTo 970 :=
    le.trans (near.trans (add_le_add_right half _))
  have toNat {bound sum : Nat} (most : d.worth ≤ bound) (fits : bound + twoTo 970 ≤ sum) :
      significand * tenTo places ≤ sum := by
    rw [← Nat.cast_le (α := ℚ), Nat.cast_mul]
    refine reach.trans (le_trans ?_ (Nat.cast_le.2 fits))
    rw [Nat.cast_add]
    exact add_le_add_left most _
  by_cases small : d.worth ≤ tenTo 307
  · exact .inl (toNat small (by decide +kernel))
  have wide := digits 307 (le_of_not_ge small)
  by_cases middle : d.worth ≤ tenTo 308
  · exact .inr (.inl ⟨by omega, toNat middle (by decide +kernel)⟩)
  have wider := digits 308 (le_of_not_ge middle)
  refine .inr (.inr ⟨by omega, ?_⟩)
  have most : d.worth ≤ (0x1FFFFFFFFFFFFE * twoTo 971 : Nat) := by
    let previous : Double := ⟨false, 0x7FEFFFFFFFFFFFFE, by decide⟩
    have significand : previous.significand = 0x1FFFFFFFFFFFFE := by decide
    have exponent : previous.exponent = (971 : Nat) := by decide
    have worth_previous : previous.worth = (0x1FFFFFFFFFFFFE * twoTo 971 : Nat) := by
      rw [worth, significand, exponent, Nat.cast_mul, twoTo_cast]
    rw [← worth_previous]
    exact worth_mono (Nat.le_of_lt_succ below)
  exact toNat most (by decide +kernel)

/-! ## What the text is worth -/

/-- Digits are what is left without the zeros at their end, and these zeros. -/
theorem exists_zeros (digits : List Char) : ∃ zeros : Nat,
    digits = (digits.reverse.dropWhile (· = '0')).reverse ++ List.replicate zeros '0' := by
  have zeros : ∀ c ∈ digits.reverse.takeWhile (· = '0'), c = '0' := fun c there => by
    simpa using List.all_eq_true.1 List.all_takeWhile c there
  refine ⟨(digits.reverse.takeWhile (· = '0')).length, ?_⟩
  calc digits
      = (digits.reverse.takeWhile (· = '0') ++ digits.reverse.dropWhile (· = '0')).reverse := by
        rw [List.takeWhile_append_dropWhile, List.reverse_reverse]
    _ = _ := by
        rw [List.reverse_append]
        congr 1
        rw [List.eq_replicate_of_mem zeros, List.reverse_replicate, List.length_replicate]

/-- Zeros at the end go into the place, and the value stays. -/
theorem leadingDigits_spec (count : Nat) (place : Int) : ∃ zeros : Nat,
    (leadingDigits count place).2 = place + zeros + (leadingDigits count place).1.length - 1 ∧
      Nat.ofDigitChars 10 (leadingDigits count place).1 0 * 10 ^ zeros = count := by
  obtain ⟨zeros, whole⟩ := exists_zeros (decimalDigits count)
  have lengths := congrArg List.length whole
  rw [List.length_append, List.length_replicate] at lengths
  refine ⟨zeros, ?_, ?_⟩
  · simp only [leadingDigits]
    omega
  · have value : Nat.ofDigitChars 10 (decimalDigits count) 0 = count :=
      Nat.ofDigitChars_ten_toDigits
    rw [whole, Nat.ofDigitChars_append, Nat.ofDigitChars_replicate_zero, Nat.mul_comm] at value
    exact value

end Double

/-! ## What a text is worth -/

namespace Numeral

/-- A numeral with a point or an exponent is a double. -/
theorem value?_eq_of_point {numeral : Numeral}
    (point : numeral.fraction ≠ none ∨ numeral.exponent ≠ none) :
    numeral.value? =
      (toDouble? numeral.negative
        (absorb (absorb 0 numeral.whole).1 (numeral.fraction.getD [])).1
        (((absorb 0 numeral.whole).2.length : Int) - ((numeral.fraction.getD []).length -
            (absorb (absorb 0 numeral.whole).1 (numeral.fraction.getD [])).2.length : Nat) +
          numeral.writtenExponent)).map Number.double := by
  simp only [value?]
  split
  · rename_i fraction exponent _
    exact absurd point (by simp [fraction, exponent])
  · rfl

/-- A numeral with a point and without an exponent is worth a double, if the digits before the
point fit a word. -/
theorem exists_value_of_fraction {numeral : Numeral}
    (fraction : numeral.fraction ≠ none) (exponent : numeral.exponent = none)
    (fits : Nat.ofDigitChars 10 numeral.whole 0 < 0x10000000000000000) :
    ∃ number, numeral.value? = some number := by
  have written : numeral.writtenExponent = 0 := by rw [writtenExponent, exponent]
  rw [value?_eq_of_point (.inl fraction), absorb_of_fits fits, written]
  have word := absorb_lt fits (numeral.fraction.getD [])
  generalize absorb (Nat.ofDigitChars 10 numeral.whole 0) (numeral.fraction.getD []) = longer at word
  simp only [List.length_nil, Nat.cast_zero, Int.zero_sub, Int.add_zero]
  obtain ⟨d, found⟩ := exists_toDouble?_of_nonpos numeral.negative word
    (Int.neg_nonpos_of_nonneg
      (Int.natCast_nonneg ((numeral.fraction.getD []).length - longer.2.length)))
  exact ⟨.double d, by rw [found, Option.map_some]⟩

/-- A numeral with one digit before the point and with an exponent is worth a double if its
decimal can be read, also when digits are dropped. -/
theorem exists_value_of_exponent {numeral : Numeral} (first : Char) (rest : List Char)
    (leading : Int) (whole : numeral.whole = [first]) (fraction : numeral.fraction.getD [] = rest)
    (exponent : numeral.exponent ≠ none) (written : numeral.writtenExponent = leading)
    (positive : 0 < digitValue first) (digit : digitValue first < 10)
    (reaches : ∀ significand places : Nat,
      (significand : ℚ) * tenTo places ≤
        Nat.ofDigitChars 10 (first :: rest) 0 * 10 ^ (leading - rest.length) →
      leading - rest.length ≤ places → Reaches significand places) :
    ∃ number, numeral.value? = some number := by
  have value : Nat.ofDigitChars 10 numeral.whole 0 = digitValue first := by
    rw [whole, Nat.ofDigitChars_cons, Nat.ofDigitChars_nil, Nat.mul_zero, Nat.zero_add, digitValue]
  have fits : Nat.ofDigitChars 10 numeral.whole 0 < 0x10000000000000000 := by omega
  rw [value?_eq_of_point (.inr exponent), absorb_of_fits fits, written, fraction, value]
  have word := absorb_lt (value ▸ fits) rest
  have some := positive.trans_le (le_absorb (digitValue first) rest)
  have dropped := absorb_mul_le (digitValue first) rest
  have shorter : (absorb (digitValue first) rest).2.length ≤ rest.length := by
    obtain ⟨taken, split, -⟩ := exists_absorb (digitValue first) rest
    have lengths := congrArg List.length split
    rw [List.length_append] at lengths
    omega
  generalize absorb (digitValue first) rest = longer at word some dropped shorter
  simp only [List.length_nil, Nat.cast_zero, Int.zero_sub]
  generalize power : -((rest.length - longer.2.length : Nat) : Int) + leading = places
  have found : ∃ d, toDouble? numeral.negative longer.1 places = .some d := by
    rcases Int.le_total places 0 with left | right
    · exact exists_toDouble?_of_nonpos numeral.negative word left
    · obtain ⟨natural, rfl⟩ := Int.eq_ofNat_of_zero_le right
      apply exists_toDouble?_of_reaches numeral.negative some
      apply reaches
      · have split : (natural : Int) = leading - rest.length + longer.2.length := by omega
        have cast : (longer.1 : ℚ) * 10 ^ longer.2.length ≤
            Nat.ofDigitChars 10 rest (digitValue first) := by exact_mod_cast dropped
        have all : Nat.ofDigitChars 10 (first :: rest) 0 =
            Nat.ofDigitChars 10 rest (digitValue first) := by
          rw [Nat.ofDigitChars_cons, Nat.mul_zero, Nat.zero_add, digitValue]
        rw [tenTo_cast, ← zpow_natCast, split, zpow_add₀ (by norm_num), zpow_natCast, all]
        calc (longer.1 : ℚ) * (10 ^ (leading - rest.length) * 10 ^ longer.2.length)
            = longer.1 * 10 ^ longer.2.length * 10 ^ (leading - rest.length) := by ring
          _ ≤ _ := by gcongr
      · omega
  obtain ⟨d, same⟩ := found
  exact ⟨.double d, by rw [same, Option.map_some]⟩

end Numeral

namespace Double

/-- A decimal that is laid out is worth a double, if it can be read, also when digits are
dropped. -/
theorem exists_value_of_laidOut {first : Char} {rest : List Char} (nonzero : first ≠ '0')
    (all : AllDigits (first :: rest)) (negative : Bool) (leading : Int)
    (reaches : ∀ significand places : Nat,
      (significand : ℚ) * tenTo places ≤
        Nat.ofDigitChars 10 (first :: rest) 0 * 10 ^ (leading - rest.length) →
      leading - rest.length ≤ places → Numeral.Reaches significand places) :
    ∃ number, (laidOut negative (first :: rest) leading).value? = some number := by
  unfold laidOut
  by_cases whole : 0 ≤ leading ∧ leading ≤ 15
  · rw [if_pos whole]
    apply Numeral.exists_value_of_fraction (Option.some_ne_none _) rfl
    have digits : AllDigits ((first :: rest).take (leading.toNat + 1) ++ List.replicate
        (leading.toNat + 1 - ((first :: rest).take (leading.toNat + 1)).length) '0') :=
      allDigits_append (fun c present => all c (List.mem_of_mem_take present))
        (allDigits_replicate _)
    refine (Numeral.ofDigitChars_lt digits).trans_le ?_
    have short : ((first :: rest).take (leading.toNat + 1) ++ List.replicate
        (leading.toNat + 1 - ((first :: rest).take (leading.toNat + 1)).length) '0').length ≤
          16 := by
      rw [List.length_append, List.length_replicate, List.length_take]
      omega
    exact (Nat.pow_le_pow_right (by decide) short).trans (by decide)
  · by_cases tenth : -5 ≤ leading ∧ leading < 0
    · rw [if_neg whole, if_pos tenth]
      have zero : Nat.ofDigitChars 10 ['0'] 0 < 0x10000000000000000 := by decide
      exact Numeral.exists_value_of_fraction (Option.some_ne_none _) rfl zero
    · rw [if_neg whole, if_neg tenth]
      have isDigit := all first List.mem_cons_self
      rw [Json.isDigit, Bool.and_eq_true, decide_eq_true_iff, decide_eq_true_iff] at isDigit
      have lower : '0'.toNat ≤ first.toNat := isDigit.1
      have upper : first.toNat ≤ '9'.toNat := isDigit.2
      have other : first.toNat ≠ '0'.toNat := fun same => nonzero (Char.toNat_inj.1 same)
      apply Numeral.exists_value_of_exponent first rest leading
      · rfl
      · cases rest <;> rfl
      · exact Option.some_ne_none _
      · have value : Numeral.digitsValue (decimalDigits leading.natAbs) = leading.natAbs :=
          Nat.ofDigitChars_ten_toDigits
        simp only [Numeral.writtenExponent, value]
        split <;> rename_i sign <;> simp only [decide_eq_true_iff] at sign <;> omega
      · exact Nat.sub_pos_of_lt (lt_of_le_of_ne lower other.symm)
      · exact Nat.lt_succ_of_le (Nat.sub_le_of_le_add upper)
      · exact reaches

/-- The largest double is read back, by trial. -/
theorem exists_value_of_largest (negative : Bool) :
    ∃ number, (largest.withSign negative).numeral.value? = some number := by
  apply Option.isSome_iff_exists.1
  cases negative <;> decide +kernel

/-- The text of a double is worth a number. -/
theorem exists_value (d : Double) : ∃ number, d.numeral.value? = some number := by
  rcases (Nat.le_of_lt_succ d.finite).lt_or_eq with below | most
  · cases zero : d.isZero with
    | true =>
        have numeral : d.numeral = ⟨d.negative, ['0'], some ['0'], none⟩ := if_pos zero
        rw [numeral]
        have fits : Nat.ofDigitChars 10 ['0'] 0 < 0x10000000000000000 := by decide
        exact Numeral.exists_value_of_fraction (Option.some_ne_none _) rfl fits
    | false =>
        obtain ⟨first, rest, digits, nonzero, all⟩ :=
          leadingDigits_eq_cons (pos_shortest zero) d.shortest.2
        obtain ⟨zeros, leading, value⟩ := leadingDigits_spec d.shortest.1 d.shortest.2
        have numeral : d.numeral = laidOut d.negative (first :: rest)
            (leadingDigits d.shortest.1 d.shortest.2).2 := by
          rw [← digits, Double.numeral, if_neg (by rw [zero]; exact Bool.false_ne_true)]
        rw [numeral]
        rw [digits] at leading value
        have last : (leadingDigits d.shortest.1 d.shortest.2).2 - rest.length =
            d.shortest.2 + zeros := by
          rw [leading, List.length_cons]
          omega
        apply exists_value_of_laidOut nonzero all
        intro significand places le far
        rw [last] at le far
        refine reaches_of_le zero below (le.trans_eq ?_) (by omega)
        rw [← value, zpow_add₀ (by norm_num), zpow_natCast]
        push_cast
        ring
  · obtain ⟨negative, magnitude, finite⟩ := d
    cases most
    exact exists_value_of_largest negative

end Double

/-- Whatever number was written, its text is worth a number. -/
theorem Number.exists_reread (number : Number) : ∃ read, number.reread = some read := by
  cases number with
  | whole value inRange => exact ⟨_, Number.reread_whole value inRange⟩
  | double d =>
      obtain ⟨formed, spelled⟩ := d.numeral_spells_text
      have alone := @Numeral.numeral?_spelling_append d.numeral [] formed nofun
      rw [List.append_nil, spelled] at alone
      obtain ⟨read, worth⟩ := d.exists_value
      refine ⟨read, ?_⟩
      rw [reread, numberChars, alone]
      exact worth

/-! ## Values that nest within the limit -/

namespace Json

mutual

/-- The text of a value is read as some value, given room for its containers. -/
theorem exists_toJson?_ofPrinted (value : Json) {room : Nat} (fits : value.depth ≤ room) :
    ∃ read, (Node.ofPrinted value).toJson? room = some read := by
  match value with
  | .null => exact ⟨_, rfl⟩
  | .bool held => exact ⟨_, rfl⟩
  | .num held =>
      obtain ⟨read, worth⟩ := held.exists_reread
      exact ⟨.num read, by rw [Node.ofPrinted, Node.toJson?, worth, Option.map_some]⟩
  | .str held => exact ⟨_, rfl⟩
  | .arr items =>
      rw [depth] at fits
      obtain ⟨inner, rfl⟩ := Nat.exists_eq_add_of_le' (Nat.le_trans (Nat.succ_pos _) fits)
      obtain ⟨read, found⟩ := exists_itemsToJson?_ofPrinted items (Nat.le_of_succ_le_succ fits)
      exact ⟨.arr read, by rw [Node.ofPrinted, Node.toJson?, if_pos rfl, found, Option.map_some]⟩
  | .obj members =>
      rw [depth] at fits
      obtain ⟨inner, rfl⟩ := Nat.exists_eq_add_of_le' (Nat.le_trans (Nat.succ_pos _) fits)
      obtain ⟨read, found⟩ := exists_membersToJson?_ofPrinted members (Nat.le_of_succ_le_succ fits)
      exact ⟨.obj (sortMembers read), by
        rw [Node.ofPrinted, Node.toJson?, if_pos rfl, found, Option.map_some]⟩

theorem exists_itemsToJson?_ofPrinted (items : List Json) {room : Nat}
    (fits : itemsDepth items ≤ room) :
    ∃ read, Node.itemsToJson? room (Node.ofPrintedItems items) = some read := by
  match items with
  | [] => exact ⟨[], rfl⟩
  | item :: rest =>
      rw [itemsDepth, Nat.max_le] at fits
      obtain ⟨first, found⟩ := exists_toJson?_ofPrinted item fits.1
      obtain ⟨others, more⟩ := exists_itemsToJson?_ofPrinted rest fits.2
      exact ⟨first :: others, by
        simp only [Node.ofPrintedItems, Node.itemsToJson?, found, more, Option.map_some]⟩

theorem exists_membersToJson?_ofPrinted (members : List (String × Json)) {room : Nat}
    (fits : membersDepth members ≤ room) :
    ∃ read, Node.membersToJson? room (Node.ofPrintedMembers members) = some read := by
  match members with
  | [] => exact ⟨[], rfl⟩
  | (name, value) :: rest =>
      rw [membersDepth, Nat.max_le] at fits
      obtain ⟨first, found⟩ := exists_toJson?_ofPrinted value fits.1
      obtain ⟨others, more⟩ := exists_membersToJson?_ofPrinted rest fits.2
      exact ⟨(name, first) :: others, by
        simp only [Node.ofPrintedMembers, Node.membersToJson?, found, more, Option.map_some]⟩

end

end Json

end Workbench
