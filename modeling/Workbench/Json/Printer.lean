/-
# Writing JSON

Values are written without blanks, members in the order in which they are held.
Strings escape the quote, the backslash and the control characters, and nothing
else; of the control characters, those with a one-letter escape use it.
-/

import Workbench.Json.Basic
import Workbench.Json.Shortest

namespace Workbench.Json

/-- A lower-case hexadecimal digit. -/
def hexDigit (n : Nat) : Char := (Nat.digitChar n)

/-- One character of a string literal. -/
def escapedChar (c : Char) : List Char :=
  if c == '"' then ['\\', '"']
  else if c == '\\' then ['\\', '\\']
  else if c == '\x08' then ['\\', 'b']
  else if c == '\t' then ['\\', 't']
  else if c == '\n' then ['\\', 'n']
  else if c == '\x0c' then ['\\', 'f']
  else if c == '\r' then ['\\', 'r']
  else if c < ' ' then
    ['\\', 'u', '0', '0', hexDigit (c.toNat / 16), hexDigit (c.toNat % 16)]
  else [c]

/-- A string literal. -/
def stringChars (text : String) : List Char :=
  '"' :: (text.toList.flatMap escapedChar ++ ['"'])

/-- A whole number in base ten, with a minus sign where it is negative. -/
def wholeChars (value : Int) : List Char :=
  if value < 0 then '-' :: Nat.toDigits 10 value.natAbs else Nat.toDigits 10 value.natAbs

/-- A number. A double always shows a point or an exponent. -/
def numberChars : Number → List Char
  | .whole value _ => wholeChars value
  | .double value => value.text

mutual

/-- The text of a value. -/
def chars : Json → List Char
  | .null => ['n', 'u', 'l', 'l']
  | .bool true => ['t', 'r', 'u', 'e']
  | .bool false => ['f', 'a', 'l', 's', 'e']
  | .num value => numberChars value
  | .str value => stringChars value
  | .arr items => '[' :: (itemChars items ++ [']'])
  | .obj members => '{' :: (memberChars members ++ ['}'])

/-- Items with commas between them. -/
def itemChars : List Json → List Char
  | [] => []
  | item :: rest =>
      match rest with
      | [] => chars item
      | _ :: _ => chars item ++ ',' :: itemChars rest

/-- Members with commas between them. -/
def memberChars : List (String × Json) → List Char
  | [] => []
  | (key, value) :: rest =>
      match rest with
      | [] => stringChars key ++ ':' :: chars value
      | _ :: _ => stringChars key ++ ':' :: (chars value ++ ',' :: memberChars rest)

end

/-- The text of a value. -/
def text (value : Json) : String := String.ofList value.chars

end Workbench.Json
