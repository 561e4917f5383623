/-
# Texts on one line

A text from an unknown source must not break the lines of a log. It is put on one line
and cut to a length, counted in characters. Where something was cut off, three dots
stand in its place.
-/

namespace Workbench.Text

/-- A character that does not end a line: line ends become spaces. -/
def withoutBreak (c : Char) : Char := if c = '\n' ∨ c = '\r' then ' ' else c

/-- What stands in the place of characters that were cut off. -/
def ellipsis : List Char := ['.', '.', '.']

/-- A text on one line with at most `limit` characters and, perhaps, the dots. -/
def oneLineChars (limit : Nat) (text : List Char) : List Char :=
  let joined := text.map withoutBreak
  if limit < joined.length then joined.take limit ++ ellipsis else joined

/-- A text on one line with at most `limit` characters and, perhaps, the dots. -/
def oneLine (limit : Nat) (text : String) : String :=
  String.ofList (oneLineChars limit text.toList)

end Workbench.Text
