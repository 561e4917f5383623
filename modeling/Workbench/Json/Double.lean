/-
# Finite doubles

A double is kept as a sign and a *magnitude*, the lower 63 bits of its usual
64-bit pattern read as a natural number. Magnitudes are ordered as the absolute
values they stand for, and a carry out of the significand runs into the exponent
by plain addition, so rounding needs no case for a significand that overflows.

All arithmetic is exact arithmetic on natural numbers followed by one rounding to
the nearest double, a half going to the even neighbour.
-/

namespace Workbench

/-- A finite binary64 number. The bound excludes the infinities and the values
that are not numbers, so every `Double` has a decimal text. -/
structure Double where
  negative : Bool
  magnitude : Nat
  finite : magnitude < 0x7FF0000000000000
  deriving DecidableEq

namespace Double

/-- A power of two. -/
def twoTo (exponent : Nat) : Nat := Nat.pow 2 exponent

/-- A power of ten. -/
def tenTo (exponent : Nat) : Nat := Nat.pow 10 exponent

/-- The bit above the 52 bits that a pattern keeps of a significand. It is one in all
significands but those of the smallest doubles, and is not kept. -/
abbrev hiddenBit : Nat := 0x10000000000000

/-- The zero with the given sign. Both zeros are kept apart. -/
def zero (negative : Bool) : Double := ⟨negative, 0, by decide⟩

/-- The double with the same absolute value and the given sign. -/
def withSign (d : Double) (negative : Bool) : Double := { d with negative }

/-- Whether the value is one of the two zeros. -/
def isZero (d : Double) : Bool := d.magnitude == 0

/-- The whole-number significand: below the hidden bit for subnormal values, at least the
hidden bit and below twice the hidden bit for all others. -/
def significand (d : Double) : Nat :=
  if d.magnitude < hiddenBit then d.magnitude else hiddenBit + d.magnitude % hiddenBit

/-- The power of two that the significand is multiplied with. -/
def exponent (d : Double) : Int := (max (d.magnitude / hiddenBit) 1 : Nat) - 1075

/-- The numerator of the absolute value, whose denominator is `denominator`. -/
def numerator (d : Double) : Nat := d.significand * twoTo d.exponent.toNat

/-- The denominator of the absolute value, a power of two. -/
def denominator (d : Double) : Nat := twoTo (-d.exponent).toNat

/-- The quotient of two whole numbers, rounded to the nearest whole number; a half
goes to the even neighbour. -/
def roundHalfEven (n d : Nat) : Nat :=
  let quotient := n / d
  let rest := n % d
  if d < 2 * rest ∨ (2 * rest = d ∧ quotient % 2 = 1) then quotient + 1 else quotient

/-- The largest `k` with `2 ^ k ≤ n / d`, for positive `n` and `d`. The logarithms
of the two parts leave only two candidates. -/
def binaryExponent (n d : Nat) : Int :=
  let guess : Int := (n.log2 : Int) - (d.log2 : Int)
  if d * twoTo guess.toNat ≤ n * twoTo (-guess).toNat then guess else guess - 1

/-- The magnitude nearest to `n / d`. The result may lie beyond the finite
doubles; the callers decide what that means. -/
def nearestMagnitude (n d : Nat) : Nat :=
  if n = 0 then 0
  else
    let scale : Int := max (binaryExponent n d - 52) (-1074)
    (scale + 1074).toNat * hiddenBit +
      roundHalfEven (n * twoTo (-scale).toNat) (d * twoTo scale.toNat)

/-- The double nearest to `n / d` with the given sign, or nothing when the value
is too large for a finite double. -/
def ofRatio? (negative : Bool) (n d : Nat) : Option Double :=
  if h : nearestMagnitude n d < 0x7FF0000000000000 then some ⟨negative, nearestMagnitude n d, h⟩
  else none

/-- The rounded product of the absolute values, with no sign. -/
def mul? (a b : Double) : Option Double :=
  ofRatio? false (a.numerator * b.numerator) (a.denominator * b.denominator)

/-- The rounded quotient of the absolute values, with no sign. The divisor must not
be zero. -/
def div? (a b : Double) : Option Double :=
  ofRatio? false (a.numerator * b.denominator) (a.denominator * b.numerator)

end Double

end Workbench
