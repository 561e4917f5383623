/-
# Tokens of a JSON text

A text is cut into tokens from left to right. Where it stops being JSON the list of
tokens ends with `junk`, and nothing after that point is looked at: a reader reports
the first problem only, so what follows the first broken token can never matter.

A string token remembers whether its escapes spell a text. Half of a surrogate pair
does not, but such a string is still a token, because a reader that skips a value
accepts it.
-/

import Workbench.Json.Numeral
import Workbench.Text.Hexadecimal

namespace Workbench.Json

/-- The smallest meaningful parts of a JSON text. -/
inductive Token where
  | openBrace
  | closeBrace
  | openBracket
  | closeBracket
  | colon
  | comma
  | null
  | bool (value : Bool)
  | number (numeral : Numeral)
  | string (text : Option String)
  | junk
  deriving DecidableEq

/-- Blank characters between tokens: space, tab, line feed and carriage return. -/
def isBlank (c : Char) : Bool := c == ' ' || c == '\t' || c == '\n' || c == '\r'

/-- The decimal digits. -/
def isDigit (c : Char) : Bool := '0' ≤ c && c ≤ '9'

/-! ### Strings -/

/-- The 16-bit unit written with four hexadecimal digits. -/
def hexUnit? (a b c d : Char) : Option Nat := do
  let a ← Text.hexValue? a
  let b ← Text.hexValue? b
  let c ← Text.hexValue? c
  let d ← Text.hexValue? d
  return ((a * 16 + b) * 16 + c) * 16 + d

/-- The character that a one-letter escape stands for. -/
def shortEscape? : Char → Option Char
  | '"' => some '"'
  | '\\' => some '\\'
  | '/' => some '/'
  | 'b' => some '\x08'
  | 'f' => some '\x0c'
  | 'n' => some '\n'
  | 'r' => some '\r'
  | 't' => some '\t'
  | _ => none

/-- What a string literal spells, piece by piece: a character, or a 16-bit unit given
by its number. -/
inductive Piece where
  | char (c : Char)
  | unit (value : Nat)
  deriving DecidableEq

/-- The pieces of a string literal whose opening quote was read, and the text after
the closing quote. Control characters must be escaped, and an escape must be one of
those that JSON has. -/
def stringPieces : List Char → Option (List Piece × List Char)
  | [] => none
  | '"' :: rest => some ([], rest)
  | '\\' :: 'u' :: a :: b :: c :: d :: rest =>
      match hexUnit? a b c d with
      | none => none
      | some value => (stringPieces rest).map fun (pieces, after) => (.unit value :: pieces, after)
  | '\\' :: letter :: rest =>
      match shortEscape? letter with
      | none => none
      | some c => (stringPieces rest).map fun (pieces, after) => (.char c :: pieces, after)
  | c :: rest =>
      if c < ' ' || c == '\\' then none
      else (stringPieces rest).map fun (pieces, after) => (.char c :: pieces, after)

/-- The first half of a surrogate pair. -/
def isHighSurrogate (unit : Nat) : Bool := 0xD800 ≤ unit && unit < 0xDC00

/-- The second half of a surrogate pair. -/
def isLowSurrogate (unit : Nat) : Bool := 0xDC00 ≤ unit && unit < 0xE000

/-- The characters that pieces spell. Two halves of a surrogate pair make one
character when one follows the other; a half that stands alone spells nothing. -/
def piecesText? : List Piece → Option (List Char)
  | [] => some []
  | .char c :: rest => (piecesText? rest).map (c :: ·)
  | .unit high :: .unit low :: rest =>
      if isHighSurrogate high then
        if isLowSurrogate low then
          let scalar := 0x10000 + (high - 0xD800) * 0x400 + (low - 0xDC00)
          (piecesText? rest).map (Char.ofNat scalar :: ·)
        else none
      else if isLowSurrogate high then none
      else (piecesText? (.unit low :: rest)).map (Char.ofNat high :: ·)
  | .unit value :: rest =>
      if isHighSurrogate value || isLowSurrogate value then none
      else (piecesText? rest).map (Char.ofNat value :: ·)

/-! ### Numbers -/

/-- The digits at the start of a text, and the text after them. -/
def splitDigits (text : List Char) : List Char × List Char :=
  (text.takeWhile isDigit, text.dropWhile isDigit)

/-- The digits before the point. A leading zero stands alone. -/
def wholePart? (text : List Char) : Option (List Char × List Char) :=
  match splitDigits text with
  | ([], _) => none
  | (['0'], rest) => some (['0'], rest)
  | ('0' :: _, _) => none
  | (digits, rest) => some (digits, rest)

/-- The point and the digits behind it, of which there must be one. -/
def fractionPart? : List Char → Option (Option (List Char) × List Char)
  | '.' :: text =>
      match splitDigits text with
      | ([], _) => none
      | (digits, rest) => some (some digits, rest)
  | text => some (none, text)

/-- An optional sign, and whether it was a minus. -/
def exponentSign : List Char → Bool × List Char
  | '-' :: text => (true, text)
  | '+' :: text => (false, text)
  | text => (false, text)

/-- The exponent with its sign, and the digits, of which there must be one. -/
def exponentPart? (text : List Char) : Option (Option (Bool × List Char) × List Char) :=
  match text with
  | [] => some (none, [])
  | mark :: after =>
      if mark == 'e' || mark == 'E' then
        let (negative, unsigned) := exponentSign after
        match splitDigits unsigned with
        | ([], _) => none
        | (digits, rest) => some (some (negative, digits), rest)
      else some (none, mark :: after)

/-- A number without its sign, and the text after it. -/
def unsignedNumeral? (negative : Bool) (text : List Char) : Option (Numeral × List Char) := do
  let (whole, afterWhole) ← wholePart? text
  let (fraction, afterFraction) ← fractionPart? afterWhole
  let (exponent, rest) ← exponentPart? afterFraction
  return (⟨negative, whole, fraction, exponent⟩, rest)

/-- A number at the start of a text. -/
def numeral? : List Char → Option (Numeral × List Char)
  | '-' :: text => unsignedNumeral? true text
  | text => unsignedNumeral? false text

/-! ### One token -/

/-- The token at the start of a text whose first character is not blank, and the text
after it. The text after a broken token is of no interest and counts as empty. -/
def nextToken : List Char → Token × List Char
  | '{' :: rest => (.openBrace, rest)
  | '}' :: rest => (.closeBrace, rest)
  | '[' :: rest => (.openBracket, rest)
  | ']' :: rest => (.closeBracket, rest)
  | ':' :: rest => (.colon, rest)
  | ',' :: rest => (.comma, rest)
  | 'n' :: 'u' :: 'l' :: 'l' :: rest => (.null, rest)
  | 't' :: 'r' :: 'u' :: 'e' :: rest => (.bool true, rest)
  | 'f' :: 'a' :: 'l' :: 's' :: 'e' :: rest => (.bool false, rest)
  | '"' :: rest =>
      match stringPieces rest with
      | some (pieces, after) => (.string ((piecesText? pieces).map String.ofList), after)
      | none => (.junk, [])
  | text =>
      match numeral? text with
      | some (numeral, after) => (.number numeral, after)
      | none => (.junk, [])

/-! ### A token uses up text -/

theorem length_stringPieces {text : List Char} {pieces : List Piece} {after : List Char}
    (read : stringPieces text = some (pieces, after)) : after.length < text.length := by
  fun_induction stringPieces text generalizing pieces after with
  | case1 => simp at read
  | case2 rest => simp at read; simp [← read.2]
  | case3 => simp at read
  | case4 a b c d rest value hex ih =>
      simp only [Option.map_eq_some_iff, Prod.exists] at read
      obtain ⟨pieces', after', inner, same⟩ := read
      have := ih inner
      simp at same
      simp only [← same.2, List.length_cons]
      omega
  | case5 => simp at read
  | case6 letter rest _ c short ih =>
      simp only [Option.map_eq_some_iff, Prod.exists] at read
      obtain ⟨pieces', after', inner, same⟩ := read
      have := ih inner
      simp at same
      simp only [← same.2, List.length_cons]
      omega
  | case7 => simp at read
  | case8 c rest _ _ _ _ ih =>
      simp only [Option.map_eq_some_iff, Prod.exists] at read
      obtain ⟨pieces', after', inner, same⟩ := read
      have := ih inner
      simp at same
      simp only [← same.2, List.length_cons]
      omega

theorem length_dropWhile_le {α : Type} (p : α → Bool) (items : List α) :
    (items.dropWhile p).length ≤ items.length :=
  (List.dropWhile_sublist p).length_le

theorem length_splitDigits (text : List Char) :
    (splitDigits text).1.length + (splitDigits text).2.length = text.length := by
  rw [← List.length_append]
  simp [splitDigits]

theorem length_wholePart {text digits rest : List Char}
    (read : wholePart? text = some (digits, rest)) : rest.length < text.length := by
  have together := length_splitDigits text
  unfold wholePart? at read
  split at read
  · simp at read
  · rename_i split
    simp only [split] at together
    simp at read
    simp only [← read.2, ← together, List.length_cons]
    omega
  · simp at read
  · rename_i digits' rest' notEmpty _ _ split
    simp only [split] at together
    simp at read
    have : digits'.length ≠ 0 := by
      intro none
      exact notEmpty (List.eq_nil_of_length_eq_zero none)
    simp only [← read.2]
    omega

theorem length_fractionPart {text rest : List Char} {fraction : Option (List Char)}
    (read : fractionPart? text = some (fraction, rest)) : rest.length ≤ text.length := by
  unfold fractionPart? at read
  split at read
  · rename_i more
    split at read
    · simp at read
    · rename_i split
      simp at read
      have together := length_splitDigits more
      rw [split] at together
      dsimp only at together
      simp only [← read.2, List.length_cons]
      omega
  · simp at read
    simp [← read.2]

theorem length_exponentSign (text : List Char) :
    (exponentSign text).2.length ≤ text.length := by
  unfold exponentSign
  split <;> simp

theorem length_exponentPart {text rest : List Char} {exponent : Option (Bool × List Char)}
    (read : exponentPart? text = some (exponent, rest)) : rest.length ≤ text.length := by
  unfold exponentPart? at read
  split at read
  · simp at read
    simp [← read.2]
  · split at read
    · rename_i after _
      have signed := length_exponentSign after
      split at read
      rename_i negative unsigned sign
      rw [sign] at signed
      split at read
      · simp at read
      · rename_i _ split
        simp at read
        have together := length_splitDigits unsigned
        simp only [split] at together
        simp only [← read.2, List.length_cons]
        simp only at signed
        omega
    · simp at read
      simp [← read.2]

theorem length_unsignedNumeral {negative : Bool} {text rest : List Char} {numeral : Numeral}
    (read : unsignedNumeral? negative text = some (numeral, rest)) :
    rest.length < text.length := by
  simp only [unsignedNumeral?, Option.bind_eq_bind, Option.bind_eq_some_iff, Prod.exists] at read
  obtain ⟨whole, afterWhole, first, fraction, afterFraction, second, exponent, after, third,
    same⟩ := read
  simp at same
  have := length_wholePart first
  have := length_fractionPart second
  have := length_exponentPart third
  simp only [← same.2]
  omega

theorem length_numeral {text rest : List Char} {numeral : Numeral}
    (read : numeral? text = some (numeral, rest)) : rest.length < text.length := by
  unfold numeral? at read
  split at read
  · have := length_unsignedNumeral read
    simp only [List.length_cons]
    omega
  · exact length_unsignedNumeral read

/-- Each token is taken from a non-empty text and leaves less text behind. -/
theorem length_nextToken {text : List Char} (some : text ≠ []) :
    (nextToken text).2.length < text.length := by
  have positive : 0 < text.length := List.length_pos_iff.2 some
  unfold nextToken
  split
  all_goals first
    | (simp only [List.length_cons]; omega)
    | skip
  · split
    · rename_i read
      have := length_stringPieces read
      simp only [List.length_cons]
      omega
    · simp
  · split
    · rename_i read
      exact length_numeral read
    · exact positive

/-! ### All tokens -/

/-- The tokens of a text. -/
def tokens (text : List Char) : List Token :=
  match _found : text.dropWhile isBlank with
  | [] => []
  | c :: rest => (nextToken (c :: rest)).1 :: tokens (nextToken (c :: rest)).2
termination_by text.length
decreasing_by
  have shorter := length_nextToken (List.cons_ne_nil c rest)
  have := length_dropWhile_le isBlank text
  rw [_found] at this
  omega

end Workbench.Json
