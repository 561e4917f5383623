/-
# Numerals and their spelling

A numeral is read to its end from any text that it begins, as long as what stands behind it
could not go on with the number. Whole numbers are numerals, and their value is what was
written.
-/

import Mathlib.Data.Nat.Init
import Workbench.Json.Printer
import Workbench.Json.Token

namespace Workbench

open Json

/-! ## Digits -/

/-- Lists of decimal digits. -/
def Json.AllDigits (text : List Char) : Prop := ∀ c ∈ text, isDigit c = true

/-- A text that cannot go on with a number. -/
def Json.EndsNumber (rest : List Char) : Prop :=
  ∀ c ∈ rest.head?, isDigit c = false ∧ c ≠ '.' ∧ c ≠ 'e' ∧ c ≠ 'E'

theorem Json.allDigits_toDigits (n : Nat) : AllDigits (Nat.toDigits 10 n) := fun _ present =>
  Nat.isDigit_of_mem_toDigits (by decide) (by decide) present

/-- The digits of a positive number do not begin with zero. -/
theorem Json.toDigits_eq_cons {n : Nat} (positive : 0 < n) :
    ∃ first rest, Nat.toDigits 10 n = first :: rest ∧ first ≠ '0' := by
  induction n using Nat.strong_induction_on with
  | _ n ih =>
      by_cases small : n < 10
      · refine ⟨n.digitChar, [], Nat.toDigits_of_lt_base small, ?_⟩
        rw [Ne, Nat.digitChar_eq_zero]
        exact Nat.ne_of_gt positive
      · obtain ⟨first, rest, same, nonzero⟩ := ih (n / 10) (by omega) (by omega)
        refine ⟨first, rest ++ [(n % 10).digitChar], ?_, nonzero⟩
        rw [Nat.toDigits_of_base_le (by decide) (by omega), same]
        rfl

/-- Digits are split from a text that begins with something else. -/
theorem Json.splitDigits_append {digits rest : List Char} (all : AllDigits digits)
    (ends : ∀ c ∈ rest.head?, isDigit c = false) :
    splitDigits (digits ++ rest) = (digits, rest) := by
  have stop : rest.takeWhile isDigit = [] ∧ rest.dropWhile isDigit = rest := by
    cases rest with
    | nil => exact ⟨rfl, rfl⟩
    | cons c tail =>
        have other := ends c rfl
        exact ⟨by simp [other], by simp [other]⟩
  rw [splitDigits, List.takeWhile_append_of_pos all, List.dropWhile_append_of_pos all, stop.1,
    stop.2, List.append_nil]

/-! ## Numerals and their spelling -/

namespace Numeral

/-- The exponent of a numeral as it is written, always with a sign. -/
def exponentSpelling : Option (Bool × List Char) → List Char
  | none => []
  | some (negative, digits) => 'e' :: (if negative then '-' else '+') :: digits

/-- The fraction of a numeral as it is written. -/
def fractionSpelling : Option (List Char) → List Char
  | none => []
  | some digits => '.' :: digits

/-- A numeral as it is written. -/
def spelling (numeral : Numeral) : List Char :=
  (if numeral.negative then ['-'] else []) ++
    (numeral.whole ++ (fractionSpelling numeral.fraction ++ exponentSpelling numeral.exponent))

/-- A numeral that JSON allows: no part of it is empty, and only a single digit before the
point may be zero in front. -/
structure WellFormed (numeral : Numeral) : Prop where
  whole : AllDigits numeral.whole
  leading : numeral.whole = ['0'] ∨ ∃ first rest, numeral.whole = first :: rest ∧ first ≠ '0'
  fraction : ∀ digits ∈ numeral.fraction, digits ≠ [] ∧ AllDigits digits
  exponent : ∀ exponent ∈ numeral.exponent, exponent.2 ≠ [] ∧ AllDigits exponent.2

variable {numeral : Numeral} {rest : List Char}

/-- After the digits before an exponent, or before the end, no digit follows. -/
theorem head?_exponentSpelling (exponent : Option (Bool × List Char)) (ends : EndsNumber rest) :
    ∀ c ∈ (exponentSpelling exponent ++ rest).head?, isDigit c = false := by
  intro c first
  cases exponent with
  | none => exact (ends c first).1
  | some parts =>
      cases first
      decide

/-- After the digits before the point no digit follows. -/
theorem head?_fractionSpelling (fraction : Option (List Char))
    (exponent : Option (Bool × List Char)) (ends : EndsNumber rest) :
    ∀ c ∈ (fractionSpelling fraction ++ (exponentSpelling exponent ++ rest)).head?,
      isDigit c = false := by
  intro c first
  cases fraction with
  | none => exact head?_exponentSpelling exponent ends c first
  | some digits =>
      cases first
      decide

theorem exponentPart?_append (formed : numeral.WellFormed) (ends : EndsNumber rest) :
    exponentPart? (exponentSpelling numeral.exponent ++ rest) = some (numeral.exponent, rest) := by
  cases same : numeral.exponent with
  | none =>
      cases rest with
      | nil => rfl
      | cons c tail =>
          obtain ⟨-, -, small, capital⟩ := ends c rfl
          simp [exponentSpelling, exponentPart?, small, capital]
  | some parts =>
      obtain ⟨negative, digits⟩ := parts
      obtain ⟨nonempty, all⟩ := formed.exponent _ same
      have split := splitDigits_append all fun c first => (ends c first).1
      cases digits with
      | nil => exact absurd rfl nonempty
      | cons first others =>
          cases negative <;>
            simp only [exponentSpelling, exponentPart?, exponentSign, List.cons_append,
              Bool.false_eq_true, if_true, if_false, beq_self_eq_true, Bool.true_or] <;>
            simp only [List.cons_append] at split <;> rw [split]

theorem fractionPart?_append (formed : numeral.WellFormed) (ends : EndsNumber rest) :
    fractionPart? (fractionSpelling numeral.fraction ++
        (exponentSpelling numeral.exponent ++ rest)) =
      some (numeral.fraction, exponentSpelling numeral.exponent ++ rest) := by
  cases same : numeral.fraction with
  | none =>
      have noPoint : ∀ tail, exponentSpelling numeral.exponent ++ rest ≠ '.' :: tail := by
        intro tail
        cases numeral.exponent with
        | none =>
            rintro (same : rest = '.' :: tail)
            rw [same] at ends
            exact (ends '.' rfl).2.1 rfl
        | some parts => simp [exponentSpelling]
      unfold fractionPart? fractionSpelling
      split
      · rename_i tail same
        exact absurd same (noPoint tail)
      · rfl
  | some digits =>
      obtain ⟨nonempty, all⟩ := formed.fraction _ same
      have split := splitDigits_append all (head?_exponentSpelling numeral.exponent ends)
      cases digits with
      | nil => exact absurd rfl nonempty
      | cons first others =>
          simp only [fractionSpelling, fractionPart?, List.cons_append] at split ⊢
          rw [split]

theorem wholePart?_append (formed : numeral.WellFormed) (ends : EndsNumber rest) :
    wholePart? (numeral.whole ++ (fractionSpelling numeral.fraction ++
        (exponentSpelling numeral.exponent ++ rest))) =
      some (numeral.whole,
        fractionSpelling numeral.fraction ++ (exponentSpelling numeral.exponent ++ rest)) := by
  have split := splitDigits_append formed.whole
    (head?_fractionSpelling numeral.fraction numeral.exponent ends)
  rw [wholePart?, split]
  rcases formed.leading with zero | ⟨first, others, whole, nonzero⟩
  · rw [zero]
    rfl
  · rw [whole]
    split
    · rename_i impossible
      cases impossible
    · rename_i impossible
      cases impossible
      exact absurd rfl nonzero
    · rename_i impossible
      cases impossible
      exact absurd rfl nonzero
    · rename_i same
      cases same
      rfl

/-- A numeral is read to its end from any text that it begins. -/
theorem numeral?_spelling_append (formed : numeral.WellFormed) (ends : EndsNumber rest) :
    numeral? (numeral.spelling ++ rest) = some (numeral, rest) := by
  obtain ⟨negative, whole, fraction, exponent⟩ := numeral
  have unsigned : unsignedNumeral? negative (whole ++ (fractionSpelling fraction ++
      (exponentSpelling exponent ++ rest))) =
        some (⟨negative, whole, fraction, exponent⟩, rest) := by
    have first := wholePart?_append formed ends
    have second := fractionPart?_append formed ends
    have third := exponentPart?_append formed ends
    simp only at first second third
    simp only [unsignedNumeral?, first, second, third, Option.bind_eq_bind, Option.bind_some,
      Option.pure_def]
  cases negative with
  | true => simpa [spelling, numeral?] using unsigned
  | false =>
      have noSign : ∀ tail, whole ++ (fractionSpelling fraction ++
          (exponentSpelling exponent ++ rest)) ≠ '-' :: tail := by
        intro tail same
        rcases formed.leading with zero | ⟨first, others, shape, -⟩
        · simp only at zero
          simp [zero] at same
        · simp only at shape
          have digit := formed.whole first (shape ▸ List.mem_cons_self)
          rw [shape] at same
          cases same
          exact absurd digit (by decide)
      rw [spelling, numeral?]
      · simpa using unsigned
      · simpa using noSign

/-! ## Whole numbers -/

/-- The numeral of a whole number. -/
def ofWhole (value : Int) : Numeral :=
  ⟨decide (value < 0), Nat.toDigits 10 value.natAbs, none, none⟩

theorem spelling_ofWhole (value : Int) : (ofWhole value).spelling = wholeChars value := by
  by_cases negative : value < 0 <;>
    simp [ofWhole, spelling, wholeChars, fractionSpelling, exponentSpelling, negative]

theorem wellFormed_ofWhole (value : Int) : (ofWhole value).WellFormed where
  whole := allDigits_toDigits _
  leading := by
    by_cases zero : value.natAbs = 0
    · left
      simp [ofWhole, zero]
    · right
      exact toDigits_eq_cons (Nat.pos_of_ne_zero zero)
  fraction := nofun
  exponent := nofun

theorem le_ofDigitChars (significand : Nat) (digits : List Char) :
    significand ≤ Nat.ofDigitChars 10 digits significand := by
  induction digits generalizing significand with
  | nil => simp
  | cons digit rest ih =>
      rw [Nat.ofDigitChars_cons]
      exact Nat.le_trans (by omega) (ih _)

/-- Digits of a number that fits are all taken up. -/
theorem absorb_of_fits {significand : Nat} {digits : List Char}
    (fits : Nat.ofDigitChars 10 digits significand < 0x10000000000000000) :
    absorb significand digits = (Nat.ofDigitChars 10 digits significand, []) := by
  induction digits generalizing significand with
  | nil => simp [absorb]
  | cons digit rest ih =>
      rw [Nat.ofDigitChars_cons] at fits ⊢
      have small := Nat.lt_of_le_of_lt (le_ofDigitChars _ rest) fits
      rw [absorb, digitValue, if_pos small]
      exact ih fits

/-- The numeral of a whole number has that whole number as its value. -/
theorem value?_ofWhole (value : Int)
    (inRange : -0x8000000000000000 ≤ value ∧ value < 0x10000000000000000) :
    (ofWhole value).value? = some (.whole value inRange) := by
  have magnitude : value.natAbs < 0x10000000000000000 := by omega
  have absorbed := @absorb_of_fits 0 (Nat.toDigits 10 value.natAbs)
    (by simpa using magnitude)
  rw [Nat.ofDigitChars_ten_toDigits] at absorbed
  simp only [value?, ofWhole, absorbed, wholeValue]
  by_cases negative : value < 0
  · have nonzero : value.natAbs ≠ 0 := by omega
    have fits : value.natAbs ≤ 0x8000000000000000 := by omega
    have same : -(value.natAbs : Int) = value := by omega
    simp only [negative, decide_true, if_true, nonzero, if_false, fits, dite_true, same]
  · have same : (value.natAbs : Int) = value := by omega
    simp only [negative, decide_false, Bool.false_eq_true, if_false, same]

end Numeral

end Workbench
