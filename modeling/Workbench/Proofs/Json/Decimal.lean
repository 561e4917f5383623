/-
# Every double has a decimal

The text of a double is a numeral of JSON. That needs an argument, because the decimal is
searched on finer and finer grids and the last grid is taken without a test. It has
seventeen digits, and there the points of the grid are closer together than the two ends of
the interval that rounds to the double, so one of the two points next to the double lies in
the interval. A decimal that was found is positive, because zero does not round to a double
other than zero.

No claim is made about the value of the numeral: texts of doubles are read quickly and not
to the last bit.
-/

import Mathlib.Tactic.Linarith
import Mathlib.Tactic.Ring
import Workbench.Proofs.Json.Numerals

namespace Workbench

open Json

namespace Double

@[simp]
theorem tenTo_pos (exponent : Nat) : 0 < tenTo exponent := Nat.pow_pos (by decide)

@[simp]
theorem twoTo_pos (exponent : Nat) : 0 < twoTo exponent := Nat.pow_pos (by decide)

theorem tenTo_add (first second : Nat) : tenTo (first + second) = tenTo first * tenTo second :=
  Nat.pow_add 10 first second

theorem tenTo_zero : tenTo 0 = 1 := rfl

/-! ## The interval around a double -/

/-- An interval of decimals around a value, wide enough for a grid of seventeen digits. -/
structure Neighbourhood.Wide (near : Neighbourhood) : Prop where
  lower_pos : 0 < near.lower
  lower_lt : near.lower < near.value
  lt_upper : near.value < near.upper
  denominator_pos : 0 < near.denominator
  width : near.value < (near.upper - near.lower) * 10000000000000000

theorem significand_bounds {d : Double} (nonzero : d.isZero = false) :
    1 ≤ d.significand ∧ d.significand < 2 * hiddenBit := by
  have positive : d.magnitude ≠ 0 := by simpa [isZero] using nonzero
  rw [significand]
  by_cases small : d.magnitude < hiddenBit
  · rw [if_pos small]
    exact ⟨by omega, Nat.lt_of_lt_of_le small (by decide)⟩
  · rw [if_neg small]
    have rest := Nat.mod_lt d.magnitude (show hiddenBit > 0 by decide)
    exact ⟨Nat.le_trans (by decide) (Nat.le_add_right ..), by omega⟩

/-- The decimals that round to a double other than zero. -/
theorem wide_neighbourhood {d : Double} (nonzero : d.isZero = false) : d.neighbourhood.Wide := by
  obtain ⟨least, most⟩ := significand_bounds nonzero
  have scale := twoTo_pos (d.exponent - 2).toNat
  generalize factor : twoTo (d.exponent - 2).toNat = unit at scale
  have bound : hiddenBit = 4503599627370496 := rfl
  -- The gap below is half as wide only at the hidden bit, where the significand is smallest.
  have gap : ∃ below, (below = 1 ∧ d.significand = hiddenBit ∨ below = 2) ∧
      d.neighbourhood.lower = (4 * d.significand - below) * unit := by
    refine ⟨_, ?_, by rw [neighbourhood, factor]⟩
    split
    · rename_i edge
      exact .inl ⟨rfl, edge.1⟩
    · exact .inr rfl
  obtain ⟨below, cases, lower⟩ := gap
  have value : d.neighbourhood.value = 4 * d.significand * unit := by rw [neighbourhood, factor]
  have upper : d.neighbourhood.upper = (4 * d.significand + 2) * unit := by
    rw [neighbourhood, factor]
  have small : below < 4 * d.significand := by omega
  have difference : d.neighbourhood.upper - d.neighbourhood.lower = (2 + below) * unit := by
    rw [upper, lower, ← Nat.sub_mul]
    congr 1
    omega
  refine ⟨?_, ?_, ?_, ?_, ?_⟩
  · rw [lower]
    exact Nat.mul_pos (by omega) scale
  · rw [lower, value]
    exact Nat.mul_lt_mul_of_pos_right (by omega) scale
  · rw [value, upper]
    exact Nat.mul_lt_mul_of_pos_right (by omega) scale
  · exact twoTo_pos _
  · rw [difference, value, Nat.mul_right_comm (2 + below) unit]
    exact Nat.mul_lt_mul_of_pos_right (by omega) scale

/-! ## Points of a grid -/

namespace Neighbourhood

variable {near : Neighbourhood}

/-- Zero does not round to the double. -/
theorem contains_zero (wide : near.Wide) (place : Int) : near.contains 0 place = false := by
  have positive := Nat.mul_pos wide.lower_pos (tenTo_pos (-place).toNat)
  have notAtMost : ¬ near.lower * tenTo (-place).toNat ≤ 0 := Nat.not_le_of_lt positive
  have notBelow : ¬ near.lower * tenTo (-place).toNat < 0 := Nat.not_lt_zero _
  unfold contains
  simp only [Nat.zero_mul]
  split
  · rw [decide_eq_false notAtMost, Bool.false_and]
  · rw [decide_eq_false notBelow, Bool.false_and]

/-- A decimal that was found on a grid is positive. -/
theorem pos_of_onGrid (wide : near.Wide) {place : Int} {count : Nat}
    (found : near.onGrid place = some count) : 0 < count := by
  unfold onGrid at found
  simp only at found
  generalize near.value * tenTo (-place).toNat / (tenTo place.toNat * near.denominator) = point
    at found
  split at found
  · rename_i here _
    have nonzero : point ≠ 0 := by
      intro same
      subst same
      rw [contains_zero wide] at here
      cases here
    simp only [Option.some.injEq] at found
    split at found <;> omega
  · rename_i here _
    have nonzero : point ≠ 0 := by
      intro same
      subst same
      rw [contains_zero wide] at here
      cases here
    simp only [Option.some.injEq] at found
    omega
  · simp only [Option.some.injEq] at found
    omega
  · cases found

/-- A point strictly inside the interval rounds to the double, whether or not the ends do. -/
theorem contains_of_inside {count : Nat} {place : Int}
    (above : near.lower * tenTo (-place).toNat < count * (tenTo place.toNat * near.denominator))
    (below : count * (tenTo place.toNat * near.denominator) < near.upper * tenTo (-place).toNat) :
    near.contains count place = true := by
  rw [← Nat.mul_assoc] at above below
  unfold contains
  simp only
  split
  · simp [Nat.le_of_lt above, Nat.le_of_lt below]
  · simp [above, below]

/-- On a grid that is narrower than the interval one of the two points next to the double
rounds to it. -/
theorem onGrid_isSome (wide : near.Wide) {place : Int}
    (narrow : tenTo place.toNat * near.denominator <
      (near.upper - near.lower) * tenTo (-place).toNat) : (near.onGrid place).isSome := by
  have shift := tenTo_pos (-place).toNat
  have lower := Nat.mul_lt_mul_of_pos_right wide.lower_lt shift
  have upper := Nat.mul_lt_mul_of_pos_right wide.lt_upper shift
  rw [Nat.sub_mul] at narrow
  have unit : 0 < tenTo place.toNat * near.denominator :=
    Nat.mul_pos (tenTo_pos _) wide.denominator_pos
  have parts := Nat.div_add_mod (near.value * tenTo (-place).toNat)
    (tenTo place.toNat * near.denominator)
  have rest := Nat.mod_lt (near.value * tenTo (-place).toNat) unit
  have either : near.contains (near.value * tenTo (-place).toNat /
        (tenTo place.toNat * near.denominator)) place = true ∨
      near.contains (near.value * tenTo (-place).toNat /
        (tenTo place.toNat * near.denominator) + 1) place = true := by
    generalize near.value * tenTo (-place).toNat / (tenTo place.toNat * near.denominator) = count
      at parts
    rw [Nat.mul_comm] at parts
    by_cases above : near.lower * tenTo (-place).toNat <
        count * (tenTo place.toNat * near.denominator)
    · exact .inl (contains_of_inside above (by omega))
    · right
      have next : (count + 1) * (tenTo place.toNat * near.denominator) =
          count * (tenTo place.toNat * near.denominator) + tenTo place.toNat * near.denominator :=
        Nat.succ_mul ..
      exact contains_of_inside (by omega) (by omega)
  unfold onGrid
  simp only
  split
  · rfl
  · rfl
  · rfl
  · rename_i here there
    rcases either with found | found
    · rw [found] at here
      cases here
    · rw [found] at there
      cases there

/-- The search ends with a positive decimal, if the last grid has one. -/
theorem pos_of_search (wide : near.Wide) {place : Int} {further : Nat}
    (last : (near.onGrid (place - further)).isSome) : 0 < (near.search place further).1 := by
  induction further generalizing place with
  | zero =>
      obtain ⟨count, found⟩ := Option.isSome_iff_exists.1 last
      rw [Nat.cast_zero, Int.sub_zero] at found
      rw [search, found]
      exact pos_of_onGrid wide found
  | succ further ih =>
      rw [search]
      cases found : near.onGrid place with
      | some count => exact pos_of_onGrid wide found
      | none =>
          apply ih
          have same : place - 1 - (further : Int) = place - (further + 1 : Nat) := by omega
          rw [same]
          exact last

end Neighbourhood

/-! ## The leading digit -/

theorem tenTo_length_le {n : Nat} (positive : 0 < n) :
    tenTo ((decimalDigits n).length - 1) ≤ n := by
  by_contra less
  have few := (Nat.length_toDigits_le_iff (b := 10) (n := n)
    (k := (decimalDigits n).length - 1) (by decide) ?_).2 (Nat.lt_of_not_le less)
  · have some : 0 < (decimalDigits n).length := Nat.length_toDigits_pos
    rw [decimalDigits] at few some
    omega
  · by_contra none
    have zero : (decimalDigits n).length - 1 = 0 := by omega
    rw [zero] at less
    exact less (show 1 ≤ n by omega)

theorem lt_tenTo_length (n : Nat) : n < tenTo (decimalDigits n).length :=
  (Nat.length_toDigits_le_iff (by decide) Nat.length_toDigits_pos).1 (Nat.le_refl _)

/-- The decimal exponent is not too large. -/
theorem tenTo_decimalExponent_le {n d : Nat} (numerator : 0 < n) (denominator : 0 < d) :
    tenTo (decimalExponent n d).toNat * d ≤ n * tenTo (-decimalExponent n d).toNat := by
  rw [decimalExponent]
  by_cases large : d ≤ n
  · rw [if_pos large]
    have length : 0 < (decimalDigits (n / d)).length := Nat.length_toDigits_pos
    have positive : 0 < n / d := Nat.div_pos large denominator
    have up : ((decimalDigits (n / d)).length - 1 : Int).toNat =
        (decimalDigits (n / d)).length - 1 := by omega
    have down : (-((decimalDigits (n / d)).length - 1 : Int)).toNat = 0 := by omega
    rw [up, down, tenTo_zero, Nat.mul_one]
    exact (Nat.mul_le_mul_right d (tenTo_length_le positive)).trans (Nat.div_mul_le_self n d)
  · rw [if_neg large]
    have length : 0 < (decimalDigits (d / n)).length := Nat.length_toDigits_pos
    simp only
    by_cases near : n * tenTo ((decimalDigits (d / n)).length - 1) < d
    · rw [if_pos near]
      have up : (-((decimalDigits (d / n)).length : Int)).toNat = 0 := by omega
      have down : (- -((decimalDigits (d / n)).length : Int)).toNat =
          (decimalDigits (d / n)).length := by omega
      rw [up, down, tenTo_zero, Nat.one_mul]
      have less := (Nat.div_lt_iff_lt_mul numerator).1 (lt_tenTo_length (d / n))
      rw [Nat.mul_comm n]
      exact Nat.le_of_lt less
    · rw [if_neg near]
      have up : (1 - ((decimalDigits (d / n)).length : Int)).toNat = 0 := by omega
      have down : (-(1 - ((decimalDigits (d / n)).length : Int))).toNat =
          (decimalDigits (d / n)).length - 1 := by omega
      rw [up, down, tenTo_zero, Nat.one_mul]
      exact Nat.le_of_not_lt near

/-- Sixteen places below the leading digit the unit is that much smaller. -/
theorem unit_below_leading {n d : Nat} {leading : Int}
    (least : tenTo leading.toNat * d ≤ n * tenTo (-leading).toNat) :
    tenTo (leading - 16).toNat * d * 10000000000000000 ≤ n * tenTo (-(leading - 16)).toNat := by
  have sixteen : tenTo 16 = 10000000000000000 := rfl
  rw [← sixteen]
  by_cases large : 16 ≤ leading
  · have up : leading.toNat = (leading - 16).toNat + 16 := by omega
    have down : (-(leading - 16)).toNat = (-leading).toNat := by omega
    rw [up, tenTo_add] at least
    rw [down]
    calc tenTo (leading - 16).toNat * d * tenTo 16
        = tenTo (leading - 16).toNat * tenTo 16 * d := by ring
      _ ≤ n * tenTo (-leading).toNat := least
  · have up : (leading - 16).toNat = 0 := by omega
    rw [up, tenTo_zero, Nat.one_mul]
    by_cases whole : 0 ≤ leading
    · have split : 16 = leading.toNat + (-(leading - 16)).toNat := by omega
      have none : (-leading).toNat = 0 := by omega
      rw [none, tenTo_zero, Nat.mul_one] at least
      calc d * tenTo 16 = d * tenTo (leading.toNat + (-(leading - 16)).toNat) := by rw [← split]
        _ = tenTo leading.toNat * d * tenTo (-(leading - 16)).toNat := by rw [tenTo_add]; ring
        _ ≤ n * tenTo (-(leading - 16)).toNat := Nat.mul_le_mul_right _ least
    · have down : (-(leading - 16)).toNat = (-leading).toNat + 16 := by omega
      have none : leading.toNat = 0 := by omega
      rw [none, tenTo_zero, Nat.one_mul] at least
      rw [down, tenTo_add, ← Nat.mul_assoc]
      exact Nat.mul_le_mul_right _ least

/-- The last grid of the search has a decimal. -/
theorem last_grid_isSome {d : Double} (nonzero : d.isZero = false) :
    (d.neighbourhood.onGrid (decimalExponent d.neighbourhood.value d.neighbourhood.denominator -
      (16 : Nat))).isSome := by
  have wide := wide_neighbourhood nonzero
  refine Neighbourhood.onGrid_isSome wide ?_
  have positive := Nat.lt_trans wide.lower_pos wide.lower_lt
  have leading := tenTo_decimalExponent_le positive wide.denominator_pos
  have unit := unit_below_leading leading
  generalize decimalExponent d.neighbourhood.value d.neighbourhood.denominator = exponent at unit
  have width := Nat.mul_lt_mul_of_pos_right wide.width (tenTo_pos (-(exponent - 16)).toNat)
  have sixteen : ((16 : Nat) : Int) = 16 := rfl
  rw [sixteen]
  refine Nat.lt_of_mul_lt_mul_right (a := 10000000000000000) (Nat.lt_of_le_of_lt unit ?_)
  rw [Nat.mul_right_comm] at width
  exact width

/-- The shortest decimal of a double other than zero is positive. -/
theorem pos_shortest {d : Double} (nonzero : d.isZero = false) : 0 < d.shortest.1 :=
  Neighbourhood.pos_of_search (wide_neighbourhood nonzero) (last_grid_isSome nonzero)

/-! ## The text -/

theorem dropWhile_append_of_last {digits : List Char} {last : Char} (kept : last ≠ '0') :
    (digits ++ [last]).dropWhile (· = '0') = digits.dropWhile (· = '0') ++ [last] := by
  induction digits with
  | nil => simp [kept]
  | cons digit rest ih =>
      by_cases zero : digit = '0'
      · simp [zero, ih]
      · simp [zero]

/-- A positive decimal has a first digit other than zero, and keeps it when the zeros at its
end are dropped. -/
theorem leadingDigits_eq_cons {count : Nat} (positive : 0 < count) (place : Int) :
    ∃ first rest, (leadingDigits count place).1 = first :: rest ∧ first ≠ '0' ∧
      AllDigits (first :: rest) := by
  obtain ⟨first, rest, digits, nonzero⟩ := toDigits_eq_cons positive
  have shape : (leadingDigits count place).1 =
      first :: (rest.reverse.dropWhile (· = '0')).reverse := by
    rw [leadingDigits, decimalDigits, digits]
    simp only [List.reverse_cons, dropWhile_append_of_last nonzero, List.reverse_append,
      List.reverse_nil, List.nil_append, List.singleton_append]
  refine ⟨first, _, shape, nonzero, ?_⟩
  intro c present
  have all := allDigits_toDigits count
  rw [digits] at all
  rcases List.mem_cons.1 present with rfl | there
  · exact all _ List.mem_cons_self
  · have kept := (List.dropWhile_sublist _).subset (List.mem_reverse.1 there)
    exact all c (List.mem_cons_of_mem _ (List.mem_reverse.1 kept))

theorem allDigits_replicate (count : Nat) : AllDigits (List.replicate count '0') := by
  intro c present
  rw [List.eq_of_mem_replicate present]
  decide

theorem allDigits_append {first second : List Char} (early : AllDigits first)
    (late : AllDigits second) : AllDigits (first ++ second) := fun c present =>
  (List.mem_append.1 present).elim (early c) (late c)

/-- The numeral that digits make up when they are laid out around the point, or with an exponent. -/
def laidOut (negative : Bool) (digits : List Char) (place : Int) : Numeral :=
  if 0 ≤ place ∧ place ≤ 15 then
    let whole := digits.take (place.toNat + 1)
    let fraction := digits.drop (place.toNat + 1)
    ⟨negative, whole ++ List.replicate (place.toNat + 1 - whole.length) '0',
      some (if fraction.isEmpty then ['0'] else fraction), none⟩
  else if -5 ≤ place ∧ place < 0 then
    ⟨negative, ['0'], some (List.replicate (-place - 1).toNat '0' ++ digits), none⟩
  else
    ⟨negative, digits.take 1, if digits.length ≤ 1 then none else some (digits.drop 1),
      some (decide (place < 0), decimalDigits place.natAbs)⟩

theorem wellFormed_laidOut {first : Char} {rest : List Char} (nonzero : first ≠ '0')
    (all : AllDigits (first :: rest)) (place : Int) (negative : Bool) :
    (laidOut negative (first :: rest) place).WellFormed := by
  have noFraction : ∀ digits ∈ (none : Option (List Char)), digits ≠ [] ∧ AllDigits digits :=
    fun digits impossible => absurd impossible (Option.not_mem_none digits)
  have noExponent : ∀ parts ∈ (none : Option (Bool × List Char)),
      parts.2 ≠ [] ∧ AllDigits parts.2 :=
    fun parts impossible => absurd impossible (Option.not_mem_none parts)
  have single : AllDigits [first] := fun c present => all c (by simp_all)
  have others : AllDigits rest := fun c present => all c (List.mem_cons_of_mem _ present)
  unfold laidOut
  by_cases whole : 0 ≤ place ∧ place ≤ 15
  · rw [if_pos whole]
    have start : (first :: rest).take (place.toNat + 1) = first :: rest.take place.toNat :=
      List.take_succ_cons
    refine ⟨?_, ?_, ?_, noExponent⟩
    · exact allDigits_append (fun c present => all c (List.mem_of_mem_take present))
        (allDigits_replicate _)
    · right
      rw [start]
      exact ⟨first, _, rfl, nonzero⟩
    · intro digits same
      cases same
      split
      · exact ⟨by simp, fun c present => by rw [List.mem_singleton.1 present]; decide⟩
      · rename_i some
        exact ⟨by simpa using some, fun c present => all c (List.mem_of_mem_drop present)⟩
  · by_cases tenth : -5 ≤ place ∧ place < 0
    · rw [if_neg whole, if_pos tenth]
      refine ⟨?_, .inl rfl, ?_, noExponent⟩
      · intro c present
        rw [List.mem_singleton.1 present]
        decide
      · intro digits same
        cases same
        exact ⟨by simp, allDigits_append (allDigits_replicate _) all⟩
    · rw [if_neg whole, if_neg tenth]
      refine ⟨single, .inr ⟨first, [], rfl, nonzero⟩, ?_, ?_⟩
      · cases rest with
        | nil => exact noFraction
        | cons second more =>
            intro digits same
            cases same
            exact ⟨by simp, others⟩
      · intro parts same
        cases same
        exact ⟨Nat.toDigits_ne_nil, allDigits_toDigits _⟩

theorem spelling_laidOut (first : Char) (rest : List Char) (place : Int) (negative : Bool) :
    (laidOut negative (first :: rest) place).spelling =
      (if negative then ['-'] else []) ++ layOut (first :: rest) place := by
  unfold laidOut layOut
  by_cases whole : 0 ≤ place ∧ place ≤ 15
  · rw [if_pos whole, if_pos whole]
    simp [Numeral.spelling, Numeral.fractionSpelling, Numeral.exponentSpelling]
  · by_cases tenth : -5 ≤ place ∧ place < 0
    · rw [if_neg whole, if_pos tenth, if_neg whole, if_pos tenth]
      simp [Numeral.spelling, Numeral.fractionSpelling, Numeral.exponentSpelling]
    · rw [if_neg whole, if_neg tenth, if_neg whole, if_neg tenth]
      cases rest <;>
        simp [Numeral.spelling, Numeral.fractionSpelling, Numeral.exponentSpelling, exponentText]

/-- The numeral that a double is written as. -/
def numeral (d : Double) : Numeral :=
  if d.isZero then ⟨d.negative, ['0'], some ['0'], none⟩
  else
    let (count, place) := d.shortest
    let (digits, leading) := leadingDigits count place
    laidOut d.negative digits leading

/-- The text of a double is a numeral. -/
theorem numeral_spells_text (d : Double) :
    d.numeral.WellFormed ∧ d.numeral.spelling = d.text := by
  have signed : ∀ unsigned : List Char, (if d.negative then '-' :: unsigned else unsigned) =
      (if d.negative then ['-'] else []) ++ unsigned := by
    intro unsigned
    split <;> rfl
  unfold numeral text
  cases zero : d.isZero with
  | true =>
      refine ⟨⟨?_, .inl rfl, ?_, nofun⟩, ?_⟩
      · intro c present
        rw [List.mem_singleton.1 present]
        decide
      · intro digits same
        cases same
        refine ⟨by simp, fun c present => ?_⟩
        rw [List.mem_singleton.1 present]
        decide
      · rw [signed]
        rfl
  | false =>
      obtain ⟨first, rest, digits, nonzero, all⟩ :=
        leadingDigits_eq_cons (pos_shortest zero) d.shortest.2
      simp only [Bool.false_eq_true, if_false, digits]
      rw [signed]
      exact ⟨wellFormed_laidOut nonzero all _ _, spelling_laidOut ..⟩

end Double

/-- The text of a number is a numeral. -/
theorem Number.exists_numeral (number : Number) :
    ∃ numeral : Numeral, numeral.WellFormed ∧ numeral.spelling = numberChars number := by
  cases number with
  | whole value inRange =>
      exact ⟨.ofWhole value, Numeral.wellFormed_ofWhole value, Numeral.spelling_ofWhole value⟩
  | double value => exact ⟨value.numeral, value.numeral_spells_text⟩

end Workbench
