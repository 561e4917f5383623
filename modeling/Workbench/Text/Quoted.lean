/-
# Quoted text

A text that an error message repeats stands in quotes. Line breaks, tabs, quotes,
backslashes and the null character have short escapes; every other character that
would not show is written by its number in braces. The result is one line, and
different texts have different quoted forms.
-/

import Workbench.Text.Hexadecimal
import Workbench.Text.Unprintable

namespace Workbench.Text

/-- One character of a quoted text. -/
def quotedChar (c : Char) : List Char :=
  if c == '\x00' then ['\\', '0']
  else if c == '\t' then ['\\', 't']
  else if c == '\r' then ['\\', 'r']
  else if c == '\n' then ['\\', 'n']
  else if c == '"' then ['\\', '"']
  else if c == '\\' then ['\\', '\\']
  else if ' ' ≤ c && c ≤ '~' then [c]
  else if c < ' ' || isShownByNumber c then ['\\', 'u', '{'] ++ hexadecimal c.toNat ++ ['}']
  else [c]

/-- A text in quotes, with everything that would not show escaped. -/
def quoted (text : String) : String :=
  String.ofList ('"' :: (text.toList.flatMap quotedChar ++ ['"']))

end Workbench.Text
