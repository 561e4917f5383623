/-
# The shortest decimal of a double

Among all decimals that round to a given double, the shortest one is chosen, and
among the shortest ones the nearest. Digit counts from one to seventeen are tried
in turn: on each decimal grid only the two grid points next to the value can lie
in the interval of decimals that round to it, and seventeen digits always suffice.

The decimal is written positionally while its leading digit stands between the
fifth place after the point and the sixteenth before it, and with an exponent
otherwise.
-/

import Workbench.Json.Double

namespace Workbench.Double

/-- The decimals that round to a positive double, all over one denominator. The
ends belong to the interval exactly when the significand is even. -/
structure Neighbourhood where
  lower : Nat
  value : Nat
  upper : Nat
  denominator : Nat
  closed : Bool

/-- The neighbourhood of a double that is not zero. Below a power of two the gap to
the next double is half as wide, except at the smallest normal value. -/
def neighbourhood (d : Double) : Neighbourhood :=
  let scale := twoTo (d.exponent - 2).toNat
  let below := if d.significand = hiddenBit ∧ 2 * hiddenBit ≤ d.magnitude then 1 else 2
  { lower := (4 * d.significand - below) * scale
    value := 4 * d.significand * scale
    upper := (4 * d.significand + 2) * scale
    denominator := twoTo (2 - d.exponent).toNat
    closed := d.significand % 2 == 0 }

/-- The digits of a number in base ten, most significant first. -/
def decimalDigits (n : Nat) : List Char := Nat.toDigits 10 n

/-- The largest `k` with `10 ^ k ≤ n / d`, for positive `n` and `d`. -/
def decimalExponent (n d : Nat) : Int :=
  if d ≤ n then (decimalDigits (n / d)).length - 1
  else
    let places := (decimalDigits (d / n)).length
    if n * tenTo (places - 1) < d then -(places : Int) else 1 - (places : Int)

/-- Whether `count * 10 ^ place` rounds to the double. -/
def Neighbourhood.contains (near : Neighbourhood) (count : Nat) (place : Int) : Bool :=
  let point := count * tenTo place.toNat * near.denominator
  let shift := tenTo (-place).toNat
  if near.closed then near.lower * shift ≤ point && point ≤ near.upper * shift
  else near.lower * shift < point && point < near.upper * shift

/-- The better of the two grid points around the value on the grid of the given
place, if one of them rounds to the double. Of two equally near ones the even one is
taken. -/
def Neighbourhood.onGrid (near : Neighbourhood) (place : Int) : Option Nat :=
  let unit := tenTo place.toNat * near.denominator
  let scaled := near.value * tenTo (-place).toNat
  let count := scaled / unit
  let rest := scaled % unit
  match near.contains count place, near.contains (count + 1) place with
  | true, true =>
      some (if 2 * rest < unit ∨ (2 * rest = unit ∧ count % 2 = 0) then count else count + 1)
  | true, false => some count
  | false, true => some (count + 1)
  | false, false => none

/-- Search the grids from the coarsest on. The last grid is taken without a test. -/
def Neighbourhood.search (near : Neighbourhood) (place : Int) : Nat → Nat × Int
  | 0 => ((near.onGrid place).getD 0, place)
  | further + 1 =>
      match near.onGrid place with
      | some count => (count, place)
      | none => near.search (place - 1) further

/-- The shortest decimal as a whole number and the power of ten it is multiplied
with, for a double that is not zero. -/
def shortest (d : Double) : Nat × Int :=
  let near := d.neighbourhood
  near.search (decimalExponent near.value near.denominator) 16

/-- The digits of a positive decimal without trailing zeros, and the place of its
leading digit: `0` for units, `-1` for tenths. -/
def leadingDigits (count : Nat) (place : Int) : List Char × Int :=
  let digits := decimalDigits count
  ((digits.reverse.dropWhile (· = '0')).reverse, place + digits.length - 1)

/-- An exponent always has a sign. -/
def exponentText (exponent : Int) : List Char :=
  'e' :: (if exponent < 0 then '-' else '+') :: decimalDigits exponent.natAbs

/-- Write a digit string whose leading digit stands at the given place. -/
def layOut (digits : List Char) (place : Int) : List Char :=
  if 0 ≤ place ∧ place ≤ 15 then
    let whole := digits.take (place.toNat + 1)
    let fraction := digits.drop (place.toNat + 1)
    whole ++ List.replicate (place.toNat + 1 - whole.length) '0' ++
      '.' :: (if fraction.isEmpty then ['0'] else fraction)
  else if -5 ≤ place ∧ place < 0 then
    '0' :: '.' :: (List.replicate (-place - 1).toNat '0' ++ digits)
  else
    match digits with
    | [] => []
    | [digit] => digit :: exponentText place
    | digit :: more => digit :: '.' :: (more ++ exponentText place)

/-- The text of a double: the shortest decimal that reads back, always with a point
or an exponent, so that it is never taken for a whole number. -/
def text (d : Double) : List Char :=
  let unsigned :=
    if d.isZero then ['0', '.', '0']
    else
      let (count, place) := d.shortest
      let (digits, leading) := leadingDigits count place
      layOut digits leading
  if d.negative then '-' :: unsigned else unsigned

end Workbench.Double
