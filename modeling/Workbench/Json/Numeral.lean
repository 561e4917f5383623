/-
# Numerals

A numeral is the text of a JSON number, taken apart. Its value is a whole number
where neither a point nor an exponent is written and the number fits a 64-bit word;
every other numeral is a double.

Doubles are read quickly rather than to the last bit. As many leading digits as fit
an unsigned 64-bit word make up a significand, which is rounded to a double and then
multiplied or divided once by a rounded power of ten. Digits that no longer fit only
move the point when they stand before it, and are dropped when they stand behind it.
The result can differ from the nearest double in its last bits.
-/

import Workbench.Json.Basic

namespace Workbench

/-- The text of a number, split at the point and at the exponent mark. All digit
lists are in reading order. -/
structure Numeral where
  negative : Bool
  whole : List Char
  fraction : Option (List Char)
  exponent : Option (Bool × List Char)
  deriving DecidableEq

namespace Numeral

/-- The number that a decimal digit stands for. -/
def digitValue (digit : Char) : Nat := digit.toNat - '0'.toNat

/-- The number that a digit list stands for. -/
def digitsValue (digits : List Char) : Nat :=
  digits.foldl (fun value digit => 10 * value + digitValue digit) 0

/-- Append digits to a significand while it fits an unsigned 64-bit word. The digits from the
first one that does not fit are handed back. -/
def absorb (significand : Nat) : List Char → Nat × List Char
  | [] => (significand, [])
  | digit :: rest =>
      let longer := 10 * significand + digitValue digit
      if longer < 0x10000000000000000 then absorb longer rest else (significand, digit :: rest)

theorem absorb_lt {significand : Nat} (small : significand < 0x10000000000000000)
    (digits : List Char) : (absorb significand digits).1 < 0x10000000000000000 := by
  induction digits generalizing significand with
  | nil => exact small
  | cons digit rest ih =>
      simp only [absorb]
      split
      · exact ih ‹_›
      · exact small

/-- A power of ten as a double, for exponents up to 308. -/
def powerOfTen? (exponent : Nat) : Option Double := Double.ofRatio? false (Double.tenTo exponent) 1

/-- The most places that one multiplication or division moves the point. -/
def placesPerStep : Nat := 308

/-- Divide by the largest power of ten a given number of times, or until nothing is
left. -/
def shrink (value : Double) : Nat → Option Double
  | 0 => some value
  | steps + 1 =>
      if value.isZero then some value
      else
        match (powerOfTen? placesPerStep).bind value.div? with
        | some smaller => shrink smaller steps
        | none => none

/-- Multiply a double by a power of ten, rounding after each step. A value too large
for a double has no result, and one too small ends at zero. -/
def scale (value : Double) (exponent : Int) : Option Double :=
  let places := exponent.natAbs
  if 0 ≤ exponent then
    if places ≤ placesPerStep then (powerOfTen? places).bind value.mul?
    else if value.isZero then some value
    else none
  else
    let steps := (places - 1) / placesPerStep
    (shrink value steps).bind fun smaller =>
      (powerOfTen? (places - placesPerStep * steps)).bind smaller.div?

/-- The double for a significand and a power of ten. -/
def toDouble? (negative : Bool) (significand : Nat) (exponent : Int) : Option Double :=
  ((Double.ofRatio? false significand 1).bind (scale · exponent)).map (·.withSign negative)

/-- The exponent as it is written, zero where none is. -/
def writtenExponent (numeral : Numeral) : Int :=
  match numeral.exponent with
  | none => 0
  | some (negative, digits) =>
      if negative then -(digitsValue digits : Int) else digitsValue digits

/-- The whole number of a numeral that has neither point nor exponent, given its
absolute value. A minus sign in front of zero, or of more than a signed 64-bit word takes,
leaves the whole numbers. -/
def wholeValue (negative : Bool) (magnitude : Nat) (small : magnitude < 0x10000000000000000) :
    Option Number :=
  if negative then
    if magnitude = 0 then some (.double (Double.zero true))
    else if fits : magnitude ≤ 0x8000000000000000 then
      some (.whole (-(magnitude : Int)) ⟨by omega, by omega⟩)
    else (toDouble? true magnitude 0).map Number.double
  else some (.whole magnitude ⟨by omega, by omega⟩)

/-- The value of a numeral, or nothing when it is too large for a double. -/
def value? (numeral : Numeral) : Option Number :=
  let absorbed := absorb 0 numeral.whole
  match numeral.fraction, numeral.exponent, absorbed.2 with
  | none, none, [] =>
      wholeValue numeral.negative absorbed.1 (absorb_lt (by decide) numeral.whole)
  | _, _, beyond =>
      let digits := numeral.fraction.getD []
      let (longer, dropped) := absorb absorbed.1 digits
      let place : Int := beyond.length - (digits.length - dropped.length : Nat)
      (toDouble? numeral.negative longer (place + numeral.writtenExponent)).map Number.double

end Numeral

end Workbench
