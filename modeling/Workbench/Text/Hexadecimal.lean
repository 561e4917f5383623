/-
# Hexadecimal digits

Numbers are written with lower-case digits. A digit is read in either case.
-/

namespace Workbench.Text

/-- The digits of a number in base sixteen. -/
def hexadecimal (n : Nat) : List Char := Nat.toDigits 16 n

/-- The value of a hexadecimal digit. -/
def hexValue? (c : Char) : Option Nat :=
  if '0' ≤ c && c ≤ '9' then some (c.toNat - '0'.toNat)
  else if 'a' ≤ c && c ≤ 'f' then some (c.toNat - 'a'.toNat + 10)
  else if 'A' ≤ c && c ≤ 'F' then some (c.toNat - 'A'.toNat + 10)
  else none

end Workbench.Text
