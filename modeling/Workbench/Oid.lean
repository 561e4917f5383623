/-
# Identifiers

Objects that the program makes itself are known by 128 random bits, of which six are
fixed to say that the rest are random. They are written in hexadecimal, in five groups.
-/

namespace Workbench.Oid

/-- The lowest `count` hexadecimal digits of a number, the highest of them first. -/
def digits : (count number : Nat) → List Char
  | 0, _ => []
  | count + 1, number => digits count (number / 16) ++ [Nat.digitChar (number % 16)]

/-- The text of an identifier with the given random bits: twelve digits and three in the
first half, then fifteen digits and two bits in the second. -/
def ofBits (first second : UInt64) : String :=
  let head := first.toNat
  let tail := second.toNat
  let variant := 8 + (tail >>> 60) % 4
  String.ofList <|
    digits 8 (head >>> 32) ++ '-' :: digits 4 (head >>> 16) ++ '-' :: '4' :: digits 3 head ++
      '-' :: digits 1 variant ++ digits 3 (tail >>> 48) ++ '-' :: digits 12 tail

/-- The number of characters of an identifier. -/
def length : Nat := 36

/-- Whether a character is a hexadecimal digit in small letters. -/
def isDigit (c : Char) : Bool := ('0' ≤ c && c ≤ '9') || ('a' ≤ c && c ≤ 'f')

/-- Whether a hyphen stands at a position, behind the first, second, third and fourth group. -/
def isBreak (position : Nat) : Bool :=
  position == 8 || position == 13 || position == 18 || position == 23

/-- Whether a text has the form of an identifier: five groups of digits. -/
def hasForm (text : String) : Bool :=
  text.length == length &&
    text.toList.zipIdx.all fun (c, position) => if isBreak position then c == '-' else isDigit c

/-- Whether a text is an identifier that says of itself that it is random. -/
def isRandom (text : String) : Bool :=
  hasForm text && text.toList[14]? == some '4' &&
    (['8', '9', 'a', 'b'].map some).contains text.toList[19]?

end Workbench.Oid
