/-
# Reading texts that were written

The text of a value is read back as the value that was written, but for its doubles: the text
of a double is a numeral, and what that numeral is worth is a matter of the quick reading of
numerals. So a written text is read as the node of the value with each number replaced by
what its text is worth. Where every number of a value is worth itself, the text says exactly
the value; whole numbers always are.

A text is read by one walk over its tokens with the open containers at hand. What is said of
a value is said for any text behind it and any containers around it, so the induction on
values goes through.
-/

import Workbench.Proofs.Json.Decimal
import Workbench.Proofs.Json.Memory

namespace Workbench

open Json

/-! ## Numbers -/

/-- What the text of a number is worth when it is read. -/
def Number.reread (number : Number) : Option Number :=
  (numeral? (numberChars number)).bind fun read => read.1.value?

/-- The text of a number is read to its end. -/
theorem Number.numeral?_append (number : Number) {rest : List Char} (ends : EndsNumber rest) :
    ∃ numeral : Numeral, numeral? (numberChars number ++ rest) = some (numeral, rest) ∧
      numeral.value? = number.reread := by
  obtain ⟨numeral, formed, spelled⟩ := number.exists_numeral
  have alone := @Numeral.numeral?_spelling_append numeral [] formed nofun
  rw [List.append_nil, spelled] at alone
  refine ⟨numeral, ?_, ?_⟩
  · rw [← spelled]
    exact Numeral.numeral?_spelling_append formed ends
  · rw [reread, alone]
    rfl

/-- A whole number is worth itself. -/
theorem Number.reread_whole (value : Int)
    (inRange : -0x8000000000000000 ≤ value ∧ value < 0x10000000000000000) :
    (Number.whole value inRange).reread = some (.whole value inRange) := by
  have read :=
    @Numeral.numeral?_spelling_append _ [] (Numeral.wellFormed_ofWhole value) nofun
  rw [List.append_nil, Numeral.spelling_ofWhole] at read
  rw [reread, numberChars, read]
  exact Numeral.value?_ofWhole value inRange

/-- A number begins with a digit or a minus sign. -/
theorem Number.numberChars_eq_cons (number : Number) :
    ∃ first rest, numberChars number = first :: rest ∧ (isDigit first = true ∨ first = '-') := by
  obtain ⟨numeral, formed, spelled⟩ := number.exists_numeral
  rw [← spelled]
  cases sign : numeral.negative with
  | true => exact ⟨'-', _, by rw [Numeral.spelling, sign]; rfl, .inr rfl⟩
  | false =>
      have nonempty : ∃ first rest, numeral.whole = first :: rest := by
        rcases formed.leading with zero | ⟨first, rest, shape, -⟩
        · exact ⟨'0', [], zero⟩
        · exact ⟨first, rest, shape⟩
      obtain ⟨first, rest, shape⟩ := nonempty
      refine ⟨first, _, by rw [Numeral.spelling, sign, shape]; rfl, .inl ?_⟩
      exact formed.whole first (shape ▸ List.mem_cons_self)

namespace Json

/-! ## Strings -/

/-- A piece of a literal that stands for a character: the character itself, or the number of
a control character. -/
def Piece.Spells (piece : Piece) (c : Char) : Prop :=
  piece = .char c ∨ piece = .unit c.toNat ∧ c.toNat < 0x20

theorem hexUnit?_hexDigit :
    ∀ n < 0x20, hexUnit? '0' '0' (hexDigit (n / 16)) (hexDigit (n % 16)) = some n := by
  decide

/-- A written character is read as one piece that stands for it. -/
theorem stringPieces_escapedChar (c : Char) :
    ∃ piece : Piece, piece.Spells c ∧ ∀ rest,
      stringPieces (escapedChar c ++ rest) =
        (stringPieces rest).map fun read => (piece :: read.1, read.2) := by
  unfold escapedChar
  split_ifs with quote backslash back tab line feed carriage control
  · exact ⟨.char '"', .inl (by simp_all), fun rest => rfl⟩
  · exact ⟨.char '\\', .inl (by simp_all), fun rest => rfl⟩
  · exact ⟨.char '\x08', .inl (by simp_all), fun rest => rfl⟩
  · exact ⟨.char '\t', .inl (by simp_all), fun rest => rfl⟩
  · exact ⟨.char '\n', .inl (by simp_all), fun rest => rfl⟩
  · exact ⟨.char '\x0c', .inl (by simp_all), fun rest => rfl⟩
  · exact ⟨.char '\r', .inl (by simp_all), fun rest => rfl⟩
  · have small : c.toNat < 0x20 := Char.lt_def.1 control
    refine ⟨.unit c.toNat, .inr ⟨rfl, small⟩, fun rest => ?_⟩
    simp only [List.cons_append, List.nil_append, stringPieces, hexUnit?_hexDigit _ small]
  · refine ⟨.char c, .inl rfl, fun rest => ?_⟩
    have plain : ¬ (c < ' ' ∨ c = '\\') := by simp_all
    rw [List.singleton_append, stringPieces.eq_def]
    split <;> simp_all

/-- Control characters are no halves of surrogate pairs. -/
theorem piecesText?_unit_of_lt {value : Nat} (small : value < 0x20) (rest : List Piece) :
    piecesText? (.unit value :: rest) = (piecesText? rest).map (Char.ofNat value :: ·) := by
  have high : isHighSurrogate value = false := by
    simp [isHighSurrogate]
    omega
  have low : isLowSurrogate value = false := by
    simp [isLowSurrogate]
    omega
  cases rest with
  | nil => simp [piecesText?, high, low]
  | cons piece others => cases piece <;> simp [piecesText?, high, low]

theorem piecesText?_of_spells {pieces : List Piece} {text : List Char}
    (spells : List.Forall₂ Piece.Spells pieces text) : piecesText? pieces = some text := by
  induction spells with
  | nil => rfl
  | cons first _ ih =>
      rcases first with rfl | ⟨rfl, small⟩
      · rw [piecesText?, ih]
        rfl
      · rw [piecesText?_unit_of_lt small, ih, Char.ofNat_toNat]
        rfl

/-- A written literal is read to its closing quote. -/
theorem stringPieces_flatMap (text rest : List Char) :
    ∃ pieces, List.Forall₂ Piece.Spells pieces text ∧
      stringPieces (text.flatMap escapedChar ++ '"' :: rest) = some (pieces, rest) := by
  induction text with
  | nil => exact ⟨[], .nil, by simp [stringPieces]⟩
  | cons c others ih =>
      obtain ⟨pieces, spells, read⟩ := ih
      obtain ⟨piece, stands, step⟩ := stringPieces_escapedChar c
      refine ⟨piece :: pieces, .cons stands spells, ?_⟩
      rw [List.flatMap_cons, List.append_assoc, step, read]
      rfl

/-! ## Tokens -/

theorem tokens_eq (text : List Char) :
    tokens text =
      match text.dropWhile isBlank with
      | [] => []
      | c :: rest => (nextToken (c :: rest)).1 :: tokens (nextToken (c :: rest)).2 := by
  rw [tokens]
  split
  all_goals rename_i same; rw [same]

theorem tokens_nil : tokens [] = [] := tokens_eq []

theorem tokens_cons {first : Char} (visible : isBlank first = false) (rest : List Char) :
    tokens (first :: rest) =
      (nextToken (first :: rest)).1 :: tokens (nextToken (first :: rest)).2 := by
  have kept : (first :: rest).dropWhile isBlank = first :: rest := by simp [visible]
  rw [tokens_eq, kept]

theorem tokens_stringChars (text : String) (rest : List Char) :
    tokens (stringChars text ++ rest) = .string (some text) :: tokens rest := by
  obtain ⟨pieces, spells, read⟩ := stringPieces_flatMap text.toList rest
  have next : nextToken (stringChars text ++ rest) = (.string (some text), rest) := by
    rw [stringChars, List.cons_append, List.append_assoc, List.singleton_append]
    simp only [nextToken, read, piecesText?_of_spells spells, Option.map_some, String.ofList_toList]
  have shape : stringChars text ++ rest =
      '"' :: (text.toList.flatMap escapedChar ++ ['"'] ++ rest) := rfl
  rw [shape, tokens_cons (by decide), ← shape, next]

theorem tokens_numberChars (number : Number) {rest : List Char} (ends : EndsNumber rest) :
    ∃ numeral : Numeral, numeral.value? = number.reread ∧
      tokens (numberChars number ++ rest) = .number numeral :: tokens rest := by
  obtain ⟨numeral, read, worth⟩ := number.numeral?_append ends
  obtain ⟨first, others, shape, start⟩ := number.numberChars_eq_cons
  refine ⟨numeral, worth, ?_⟩
  rw [shape, List.cons_append] at read ⊢
  have visible : isBlank first = false := by
    rcases start with digit | rfl
    · by_contra blank
      simp only [isBlank, Bool.not_eq_false, Bool.or_eq_true, beq_iff_eq] at blank
      rcases blank with ((rfl | rfl) | rfl) | rfl <;> cases digit
    · decide
  have next : nextToken (first :: (others ++ rest)) = (.number numeral, rest) := by
    unfold nextToken
    split
    all_goals first
      | (rename_i same; rw [(List.cons.inj same).1] at start; exact absurd start (by decide))
      | rw [read]
  rw [tokens_cons visible, next]

/-! ## The node of a written value -/

mutual

/-- The node of a value that was written as text: each number is what its text is worth. -/
def Node.ofPrinted : Json → Node
  | .null => .null
  | .bool value => .bool value
  | .num value => .number value.reread
  | .str value => .string (some value)
  | .arr items => .array (ofPrintedItems items) true
  | .obj members => .object (ofPrintedMembers members) true

/-- The nodes of items that were written as text. -/
def Node.ofPrintedItems : List Json → List Node
  | [] => []
  | item :: rest => ofPrinted item :: ofPrintedItems rest

/-- The nodes of members that were written as text. -/
def Node.ofPrintedMembers : List (String × Json) → List (Option String × Node)
  | [] => []
  | (name, value) :: rest => (some name, ofPrinted value) :: ofPrintedMembers rest

end

theorem Node.ofPrintedItems_eq_map (items : List Json) :
    ofPrintedItems items = items.map ofPrinted := by
  induction items with
  | nil => rfl
  | cons item rest ih => rw [ofPrintedItems, ih, List.map_cons]

theorem Node.ofPrintedMembers_eq_map (members : List (String × Json)) :
    ofPrintedMembers members = members.map fun member => (some member.1, ofPrinted member.2) := by
  induction members with
  | nil => rfl
  | cons member rest ih => rw [ofPrintedMembers, ih, List.map_cons]

/-! ## The walk over a written value -/

namespace Node

/-- Go on reading a text. -/
def readOn (progress : Progress) (text : List Char) : Progress :=
  (tokens text).foldl advance progress

theorem readOn_mark {mark : Char} {token : Token} (visible : isBlank mark = false)
    (next : ∀ rest, nextToken (mark :: rest) = (token, rest)) (progress : Progress)
    (rest : List Char) :
    readOn progress (mark :: rest) = readOn (advance progress token) rest := by
  rw [readOn, tokens_cons visible, next, List.foldl_cons]
  rfl

theorem readOn_comma (progress : Progress) (rest : List Char) :
    readOn progress (',' :: rest) = readOn (advance progress .comma) rest :=
  readOn_mark (by decide) (fun _ => rfl) progress rest

theorem readOn_colon (progress : Progress) (rest : List Char) :
    readOn progress (':' :: rest) = readOn (advance progress .colon) rest :=
  readOn_mark (by decide) (fun _ => rfl) progress rest

theorem readOn_closeBracket (progress : Progress) (rest : List Char) :
    readOn progress (']' :: rest) = readOn (advance progress .closeBracket) rest :=
  readOn_mark (by decide) (fun _ => rfl) progress rest

theorem readOn_closeBrace (progress : Progress) (rest : List Char) :
    readOn progress ('}' :: rest) = readOn (advance progress .closeBrace) rest :=
  readOn_mark (by decide) (fun _ => rfl) progress rest

theorem readOn_stringChars (progress : Progress) (text : String) (rest : List Char) :
    readOn progress (stringChars text ++ rest) =
      readOn (advance progress (.string (some text))) rest := by
  rw [readOn, tokens_stringChars, List.foldl_cons]
  rfl

/-- Places where a value may stand. -/
def AwaitsValue : List Open → Prop
  | [] => True
  | .array _ .start :: _ => True
  | .array _ .afterComma :: _ => True
  | .object _ (.afterColon _) :: _ => True
  | _ => False

/-- Where a value may stand, any token but a closing bracket is taken as the start of one. -/
theorem advance_of_awaitsValue {containers : List Open} (awaits : AwaitsValue containers)
    {token : Token} (opens : token ≠ .closeBracket) :
    advance (.within containers) token = startValue containers token := by
  match containers with
  | [] => rfl
  | .array items .start :: outer => rw [advance, if_neg opens]
  | .array items .afterComma :: outer => rfl
  | .object members (.afterColon key) :: outer => rfl

/-- Reading a token where a value may stand. -/
theorem readOn_of_awaitsValue {containers : List Open} (awaits : AwaitsValue containers)
    {token : Token} {text rest : List Char} (read : tokens text = token :: tokens rest)
    (opens : token ≠ .closeBracket) :
    readOn (.within containers) text = readOn (startValue containers token) rest := by
  rw [readOn, read, List.foldl_cons, advance_of_awaitsValue awaits opens]
  rfl

theorem endsNumber_comma (rest : List Char) : EndsNumber (',' :: rest) := by
  intro c same
  cases same
  decide

theorem endsNumber_closeBracket (rest : List Char) : EndsNumber (']' :: rest) := by
  intro c same
  cases same
  decide

theorem endsNumber_closeBrace (rest : List Char) : EndsNumber ('}' :: rest) := by
  intro c same
  cases same
  decide

mutual

/-- Reading a written value puts its node where a value was awaited, and goes on behind it. -/
theorem readOn_chars (value : Json) {rest : List Char} (ends : EndsNumber rest)
    {containers : List Open} (awaits : AwaitsValue containers) :
    readOn (.within containers) (value.chars ++ rest) =
      readOn (give (ofPrinted value) containers) rest := by
  match value with
  | .null =>
      have read : tokens (Json.null.chars ++ rest) = .null :: tokens rest :=
        tokens_cons (by decide) _
      exact readOn_of_awaitsValue awaits read nofun
  | .bool true =>
      have read : tokens ((Json.bool true).chars ++ rest) = .bool true :: tokens rest :=
        tokens_cons (by decide) _
      exact readOn_of_awaitsValue awaits read nofun
  | .bool false =>
      have read : tokens ((Json.bool false).chars ++ rest) = .bool false :: tokens rest :=
        tokens_cons (by decide) _
      exact readOn_of_awaitsValue awaits read nofun
  | .num written =>
      obtain ⟨numeral, worth, read⟩ := tokens_numberChars written ends
      rw [chars, readOn_of_awaitsValue awaits read nofun, startValue, worth]
      rfl
  | .str written =>
      exact readOn_of_awaitsValue awaits (tokens_stringChars written rest) nofun
  | .arr items =>
      have read : tokens ((Json.arr items).chars ++ rest) =
          .openBracket :: tokens (itemChars items ++ ']' :: rest) := by
        rw [chars, List.cons_append, List.append_assoc]
        exact tokens_cons (by decide) _
      rw [readOn_of_awaitsValue awaits read nofun, startValue]
      match items with
      | [] =>
          rw [itemChars, List.nil_append, readOn_closeBracket]
          rfl
      | item :: others =>
          exact readOn_itemChars (item :: others) (List.cons_ne_nil _ _) (.inl rfl) containers rest
  | .obj members =>
      have read : tokens ((Json.obj members).chars ++ rest) =
          .openBrace :: tokens (memberChars members ++ '}' :: rest) := by
        rw [chars, List.cons_append, List.append_assoc]
        exact tokens_cons (by decide) _
      rw [readOn_of_awaitsValue awaits read nofun, startValue]
      match members with
      | [] =>
          rw [memberChars, List.nil_append, readOn_closeBrace]
          rfl
      | member :: others =>
          exact readOn_memberChars (member :: others) (List.cons_ne_nil _ _) (.inl rfl) containers
            rest

/-- Reading written items adds their nodes to the open array, and closes it. -/
theorem readOn_itemChars (items : List Json) (some : items ≠ []) {held : List Node}
    {place : ArrayPlace} (awaits : place = .start ∨ place = .afterComma) (outer : List Open)
    (rest : List Char) :
    readOn (.within (.array held place :: outer)) (itemChars items ++ ']' :: rest) =
      readOn (give (.array (held.reverse ++ ofPrintedItems items) true) outer) rest := by
  have here : AwaitsValue (.array held place :: outer) := by
    rcases awaits with rfl | rfl <;> trivial
  match items with
  | [] => exact absurd rfl some
  | [item] =>
      rw [itemChars, readOn_chars item (endsNumber_closeBracket rest) here, give,
        readOn_closeBracket, advance, if_neg nofun, if_pos rfl, List.reverse_cons]
      rfl
  | item :: next :: more =>
      rw [itemChars, List.append_assoc, List.cons_append,
        readOn_chars item (endsNumber_comma _) here, give, readOn_comma, advance, if_pos rfl,
        readOn_itemChars (next :: more) (List.cons_ne_nil _ _) (.inr rfl) outer rest,
        List.reverse_cons, List.append_assoc]
      rfl

/-- Reading written members adds them to the open object, and closes it. -/
theorem readOn_memberChars (members : List (String × Json)) (some : members ≠ [])
    {held : List (Option String × Node)} {place : ObjectPlace}
    (awaits : place = .start ∨ place = .afterComma) (outer : List Open) (rest : List Char) :
    readOn (.within (.object held place :: outer)) (memberChars members ++ '}' :: rest) =
      readOn (give (.object (held.reverse ++ ofPrintedMembers members) true) outer) rest := by
  have key : ∀ name, advance (.within (.object held place :: outer)) (.string name) =
      .within (.object held (.afterKey name) :: outer) := by
    rcases awaits with rfl | rfl <;> exact fun _ => rfl
  have there : ∀ name, AwaitsValue (.object held (.afterColon name) :: outer) := fun _ => trivial
  match members with
  | [] => exact absurd rfl some
  | [(name, value)] =>
      rw [memberChars, List.append_assoc, List.cons_append, readOn_stringChars, key, readOn_colon,
        advance, if_pos rfl, readOn_chars value (endsNumber_closeBrace rest) (there _), give,
        readOn_closeBrace, advance, if_neg nofun, if_pos rfl, List.reverse_cons]
      rfl
  | (name, value) :: next :: more =>
      rw [memberChars, List.append_assoc, List.cons_append, readOn_stringChars, key, readOn_colon,
        advance, if_pos rfl, List.append_assoc, List.cons_append,
        readOn_chars value (endsNumber_comma _) (there _), give, readOn_comma, advance,
        if_pos rfl,
        readOn_memberChars (next :: more) (List.cons_ne_nil _ _) (.inr rfl) outer rest,
        List.reverse_cons, List.append_assoc]
      rfl

end

/-- A written text is read to its end, as the node of the value. -/
theorem ofText_text (value : Json) : ofText value.text = (ofPrinted value, false) := by
  have read := @readOn_chars value [] nofun [] trivial
  rw [List.append_nil] at read
  have whole : (tokens value.chars).foldl advance (.within []) = .done (ofPrinted value) := by
    rw [← readOn, read, readOn, tokens_nil]
    rfl
  rw [ofText, text, String.toList_ofList, ofTokens, whole]

end Node

/-! ## Values that are worth themselves -/

/-- Every number in the value, at any depth, is worth itself when its text is read. -/
inductive Rereads : Json → Prop where
  | null : Rereads .null
  | bool (value : Bool) : Rereads (.bool value)
  | num (value : Number) : value.reread = some value → Rereads (.num value)
  | str (value : String) : Rereads (.str value)
  | arr (items : List Json) : (∀ item ∈ items, Rereads item) → Rereads (.arr items)
  | obj (members : List (String × Json)) : (∀ member ∈ members, Rereads member.2) →
      Rereads (.obj members)

/-- The text of such a value says what the value itself says. -/
theorem Rereads.ofPrinted {value : Json} (rereads : value.Rereads) :
    Node.ofPrinted value = Node.ofJson value := by
  induction rereads with
  | null => rfl
  | bool value => rfl
  | num value same => rw [Node.ofPrinted, same, Node.ofJson]
  | str value => rfl
  | arr items each ih =>
      rw [Node.ofPrinted, Node.ofJson, Node.ofPrintedItems_eq_map, ofItems_eq_map,
        List.map_congr_left ih]
  | obj members each ih =>
      have same : ∀ member ∈ members, (some member.1, Node.ofPrinted member.2) =
          (some member.1, Node.ofJson member.2) := fun member present => by
        rw [ih member present]
      rw [Node.ofPrinted, Node.ofJson, Node.ofPrintedMembers_eq_map, ofMembers_eq_map,
        List.map_congr_left same]

end Json

end Workbench
