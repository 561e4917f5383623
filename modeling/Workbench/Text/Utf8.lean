/-
# Texts and bytes

A text is written in bytes as UTF-8. Bytes from outside need not spell a text. They are
read from left to right. Bytes that begin a character and do not end it are together
replaced by the one character U+FFFD, and so is each byte that begins none. Reading
never fails, and bytes that do spell a text are read as that text.
-/

namespace Workbench.Text

/-- The bytes of characters. -/
def utf8OfChars (text : List Char) : List UInt8 := text.flatMap String.utf8EncodeChar

/-- The bytes of a text. -/
def utf8 (text : String) : List UInt8 := utf8OfChars text.toList

/-- The character that stands in the place of bytes that spell none. -/
def replacement : Char := '\ufffd'

/-- The values of a byte in the middle of a character. -/
def continuation : Nat × Nat := (0x80, 0xBF)

/-- What the first byte of a character says: its share of the code point, and the
bounds of the bytes that follow. The narrower bounds leave out forms that are longer
than they need to be, halves of surrogate pairs, and numbers behind the last code
point. -/
def leading? (byte : Nat) : Option (Nat × List (Nat × Nat)) :=
  if byte < 0x80 then some (byte, [])
  else if byte < 0xC2 then none
  else if byte < 0xE0 then some (byte - 0xC0, [continuation])
  else if byte = 0xE0 then some (0, [(0xA0, 0xBF), continuation])
  else if byte = 0xED then some (0xD, [(0x80, 0x9F), continuation])
  else if byte < 0xF0 then some (byte - 0xE0, [continuation, continuation])
  else if byte = 0xF0 then some (0, [(0x90, 0xBF), continuation, continuation])
  else if byte < 0xF4 then some (byte - 0xF0, [continuation, continuation, continuation])
  else if byte = 0xF4 then some (4, [(0x80, 0x8F), continuation, continuation])
  else none

/-- Read the bytes that follow a first byte, each of which adds six bits. There is no code
point if one of them is missing or out of bounds. The bytes that were not used are
handed back. -/
def following (value : Nat) : List (Nat × Nat) → List UInt8 → Option Nat × List UInt8
  | [], bytes => (some value, bytes)
  | _ :: _, [] => (none, [])
  | (low, high) :: bounds, byte :: bytes =>
      if low ≤ byte.toNat ∧ byte.toNat ≤ high then
        following (value * 64 + (byte.toNat - 0x80)) bounds bytes
      else (none, byte :: bytes)

theorem length_following_le (value : Nat) (bounds : List (Nat × Nat)) (bytes : List UInt8) :
    (following value bounds bytes).2.length ≤ bytes.length := by
  fun_induction following value bounds bytes with
  | case1 => simp
  | case2 => simp
  | case3 value low high bounds byte bytes _ ih => exact Nat.le_succ_of_le ih
  | case4 => simp

/-- The characters that bytes spell. -/
def charsOfUtf8 : List UInt8 → List Char
  | [] => []
  | byte :: bytes =>
      match leading? byte.toNat with
      | none => replacement :: charsOfUtf8 bytes
      | some (value, bounds) =>
          have := length_following_le value bounds bytes
          let read := following value bounds bytes
          (read.1.map Char.ofNat).getD replacement :: charsOfUtf8 read.2
termination_by bytes => bytes.length

/-- The text that bytes spell. -/
def ofUtf8 (bytes : List UInt8) : String := String.ofList (charsOfUtf8 bytes)

end Workbench.Text
