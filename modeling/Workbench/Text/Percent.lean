/-
# Percent escapes

In the parts of an address a percent sign before two hexadecimal digits stands for one
byte, and anything else for the bytes of its characters. A part ends where a byte is
zero.
-/

import Workbench.Text.Hexadecimal
import Workbench.Text.Pieces

namespace Workbench.Text

/-- The byte that two hexadecimal digits stand for. -/
def hexByte? (high low : Char) : Option UInt8 := do
  let high ← hexValue? high
  let low ← hexValue? low
  return UInt8.ofNat (high * 16 + low)

/-- The bytes of a text with its escapes resolved. -/
def unescapedBytes : List Char → List UInt8
  | [] => []
  | '%' :: high :: low :: rest =>
      match hexByte? high low with
      | some byte => byte :: unescapedBytes rest
      | none => String.utf8EncodeChar '%' ++ unescapedBytes (high :: low :: rest)
  | c :: rest => String.utf8EncodeChar c ++ unescapedBytes rest

/-- The bytes that a part of an address stands for. -/
def unescape (part : List Char) : List UInt8 := before 0 (unescapedBytes part)

end Workbench.Text
