/-
# Where tokens end

A token is read from the front of a text, and the part of the text that it takes up is its
lexeme. What stands behind a lexeme does not matter, but for its first character, and that
only behind a number: a digit, a point or an exponent mark would go on with it.

So texts can be put together and taken apart between tokens. The tokens of two texts one
behind the other are the tokens of the first and then those of the second, if the first is
not broken and the second does not go on with a number; and wherever a list of tokens is cut
in two, the text can be cut in two as well.
-/

import Mathlib.Data.List.TakeWhile
import Workbench.Proofs.Json.Text

namespace Workbench.Json

/-! ## Reading lexemes -/

/-- A text that may stand in the place of another one behind a lexeme. -/
def MayReplace (other after : List Char) : Prop :=
  EndsNumber other ∨ other.head? = after.head?

/-- Whatever is read takes up a lexeme, and is read again when the text behind the lexeme is
replaced. -/
def ReadsLexemes {α : Type} (read : List Char → Option (α × List Char)) : Prop :=
  ∀ text value after, read text = some (value, after) →
    ∃ lexeme, text = lexeme ++ after ∧
      ∀ other, MayReplace other after → read (lexeme ++ other) = some (value, other)

theorem endsNumber_nil : EndsNumber [] := nofun

/-- More text may stand behind a text that it does not go on with. -/
theorem mayReplace_append (text : List Char) {other : List Char} (ends : EndsNumber other) :
    MayReplace (text ++ other) text := by
  cases text with
  | nil => exact .inl ends
  | cons => exact .inr rfl

/-- The front of a text may stand in the place of the text. -/
theorem mayReplace_front (front behind : List Char) : MayReplace front (front ++ behind) := by
  cases front with
  | nil => exact .inl endsNumber_nil
  | cons => exact .inr rfl

theorem MayReplace.append {other after : List Char} (replaces : MayReplace other after)
    (lexeme : List Char) : MayReplace (lexeme ++ other) (lexeme ++ after) := by
  cases lexeme with
  | nil => exact replaces
  | cons first rest => exact .inr rfl

/-- Behind digits a replacement does not go on with digits. -/
theorem MayReplace.isDigit_head {other after : List Char} (replaces : MayReplace other after)
    (stops : ∀ c ∈ after.head?, isDigit c = false) : ∀ c ∈ other.head?, isDigit c = false := by
  rcases replaces with ends | same
  · exact fun c first => (ends c first).1
  · rwa [same]

/-- Reading nothing reads an empty lexeme. -/
theorem readsLexemes_some {α : Type} (value : α) :
    ReadsLexemes fun text => some (value, text) := by
  intro text found after read
  cases read
  exact ⟨[], rfl, fun other _ => rfl⟩

/-- Two lexemes one behind the other make up a lexeme. -/
theorem ReadsLexemes.bind {α β : Type} {first : List Char → Option (α × List Char)}
    {second : α → List Char → Option (β × List Char)} (front : ReadsLexemes first)
    (back : ∀ value, ReadsLexemes (second value)) :
    ReadsLexemes fun text => (first text).bind fun read => second read.1 read.2 := by
  intro text value after read
  obtain ⟨⟨found, between⟩, early, late⟩ := Option.bind_eq_some_iff.1 read
  obtain ⟨lexeme, whole, again⟩ := front text found between early
  obtain ⟨further, rest, onward⟩ := back found between value after late
  refine ⟨lexeme ++ further, by rw [whole, rest, List.append_assoc], fun other replaces => ?_⟩
  have middle : MayReplace (further ++ other) between := rest ▸ replaces.append further
  simp only [List.append_assoc, again _ middle, Option.bind_some]
  exact onward other replaces

/-! ## Numbers -/

theorem splitDigits_spec {text digits rest : List Char} (cut : splitDigits text = (digits, rest)) :
    text = digits ++ rest ∧ AllDigits digits ∧ ∀ c ∈ rest.head?, isDigit c = false := by
  cases cut
  refine ⟨List.takeWhile_append_dropWhile.symm, fun c => List.mem_takeWhile_imp, ?_⟩
  intro c first
  have stops := List.head?_dropWhile_not isDigit text
  rw [Option.mem_def.1 first] at stops
  exact stops

/-- Digits are cut off the same way when the text behind them is replaced. -/
theorem splitDigits_replace {text digits rest : List Char}
    (cut : splitDigits text = (digits, rest)) {other : List Char}
    (replaces : MayReplace other rest) : splitDigits (digits ++ other) = (digits, other) := by
  obtain ⟨-, all, stops⟩ := splitDigits_spec cut
  exact splitDigits_append all (replaces.isDigit_head stops)

theorem readsLexemes_wholePart? : ReadsLexemes wholePart? := by
  intro text digits after read
  have cut : splitDigits text = (digits, after) := by
    unfold wholePart? at read
    split at read <;> cases read <;> assumption
  refine ⟨digits, (splitDigits_spec cut).1, fun other replaces => ?_⟩
  rw [wholePart?, cut] at read
  rw [wholePart?, splitDigits_replace cut replaces]
  split at read
  · cases read
  · cases read
    rfl
  · cases read
  · cases read
    split <;> simp_all

theorem readsLexemes_fractionPart? : ReadsLexemes fractionPart? := by
  intro text fraction after read
  unfold fractionPart? at read
  split at read
  · rename_i digits
    cases cut : splitDigits digits with
    | mk found rest =>
        rw [cut] at read
        split at read
        · cases read
        · rename_i nonempty same
          cases same
          cases read
          refine ⟨'.' :: found, by rw [(splitDigits_spec cut).1]; rfl, fun other replaces => ?_⟩
          simp only [List.cons_append, fractionPart?, splitDigits_replace cut replaces]
  · rename_i noPoint
    cases read
    refine ⟨[], rfl, fun other replaces => ?_⟩
    rw [List.nil_append]
    unfold fractionPart?
    split
    · rename_i digits
      exfalso
      rcases replaces with ends | same
      · exact (ends '.' rfl).2.1 rfl
      · cases text with
        | nil => cases same
        | cons first rest =>
            cases same
            exact noPoint rest rfl
    · rfl

/-- A sign is followed by digits, and may be followed by any digits. -/
theorem exists_exponentSign (text : List Char) :
    ∃ sign, text = sign ++ (exponentSign text).2 ∧ ∀ digit rest, isDigit digit = true →
      exponentSign (sign ++ digit :: rest) = ((exponentSign text).1, digit :: rest) := by
  unfold exponentSign
  split
  · exact ⟨['-'], rfl, fun _ _ _ => rfl⟩
  · exact ⟨['+'], rfl, fun _ _ _ => rfl⟩
  · refine ⟨[], rfl, fun digit rest isDigit => ?_⟩
    rw [List.nil_append]
    split
    · rename_i same
      cases same
      cases isDigit
    · rename_i same
      cases same
      cases isDigit
    · rfl

/-- Where no exponent mark stands, no exponent is read. -/
theorem exponentPart?_of_head {text : List Char}
    (noMark : ∀ c ∈ text.head?, c ≠ 'e' ∧ c ≠ 'E') : exponentPart? text = some (none, text) := by
  cases text with
  | nil => rfl
  | cons first rest =>
      obtain ⟨small, capital⟩ := noMark first rfl
      simp [exponentPart?, small, capital]

theorem readsLexemes_exponentPart? : ReadsLexemes exponentPart? := by
  intro text exponent after read
  by_cases noMark : ∀ c ∈ text.head?, c ≠ 'e' ∧ c ≠ 'E'
  · rw [exponentPart?_of_head noMark] at read
    cases read
    refine ⟨[], rfl, fun other replaces => exponentPart?_of_head fun c first => ?_⟩
    rcases replaces with ends | same
    · exact (ends c first).2.2
    · exact noMark c (same ▸ first)
  · cases text with
    | nil => exact absurd nofun noMark
    | cons mark rest =>
        have isMark : (mark == 'e' || mark == 'E') = true := by
          by_contra other
          exact noMark fun c first => by simp_all
        obtain ⟨sign, whole, again⟩ := exists_exponentSign rest
        cases cut : splitDigits (exponentSign rest).2 with
        | mk found left =>
            obtain ⟨digits, all, -⟩ := splitDigits_spec cut
            simp only [exponentPart?, isMark, if_true, cut] at read
            cases found with
            | nil => cases read
            | cons digit more =>
                cases read
                refine ⟨mark :: (sign ++ digit :: more), ?_, fun other replaces => ?_⟩
                · rw [List.cons_append, List.append_assoc, ← digits, ← whole]
                · have signed := again digit (more ++ other) (all digit List.mem_cons_self)
                  have split := splitDigits_replace cut replaces
                  rw [List.cons_append] at split
                  simp only [exponentPart?, List.cons_append, List.append_assoc, isMark, if_true,
                    signed, split]

theorem readsLexemes_unsignedNumeral? (negative : Bool) :
    ReadsLexemes (unsignedNumeral? negative) := by
  have parts := readsLexemes_wholePart?.bind fun whole =>
    readsLexemes_fractionPart?.bind fun fraction =>
      readsLexemes_exponentPart?.bind fun exponent =>
        readsLexemes_some (Numeral.mk negative whole fraction exponent)
  exact parts

/-- A number without a sign begins with a digit. -/
theorem exists_digit_of_unsignedNumeral? {negative : Bool} {text after : List Char}
    {numeral : Numeral} (read : unsignedNumeral? negative text = some (numeral, after)) :
    ∃ first rest, text = first :: rest ∧ isDigit first = true := by
  simp only [unsignedNumeral?, Option.bind_eq_bind, Option.bind_eq_some_iff] at read
  obtain ⟨⟨whole, between⟩, first, -⟩ := read
  cases cut : splitDigits text with
  | mk digits rest =>
      obtain ⟨shape, all, -⟩ := splitDigits_spec cut
      rw [wholePart?, cut] at first
      cases digits with
      | nil => cases first
      | cons digit more => exact ⟨digit, more ++ rest, shape, all digit List.mem_cons_self⟩

/-- A number begins with a digit or a minus sign. -/
theorem exists_head_of_numeral? {text after : List Char} {numeral : Numeral}
    (read : numeral? text = some (numeral, after)) :
    ∃ first rest, text = first :: rest ∧ (isDigit first = true ∨ first = '-') := by
  unfold numeral? at read
  split at read
  · exact ⟨'-', _, rfl, .inr rfl⟩
  · obtain ⟨first, rest, shape, digit⟩ := exists_digit_of_unsignedNumeral? read
    exact ⟨first, rest, shape, .inl digit⟩

theorem readsLexemes_numeral? : ReadsLexemes numeral? := by
  intro text numeral after read
  unfold numeral? at read
  split at read
  · obtain ⟨lexeme, whole, again⟩ := readsLexemes_unsignedNumeral? true _ _ _ read
    exact ⟨'-' :: lexeme, by rw [whole]; rfl, fun other replaces => again other replaces⟩
  · rename_i noSign
    obtain ⟨lexeme, whole, again⟩ := readsLexemes_unsignedNumeral? false _ _ _ read
    refine ⟨lexeme, whole, fun other replaces => ?_⟩
    obtain ⟨first, rest, shape, digit⟩ := exists_digit_of_unsignedNumeral? (again other replaces)
    rw [← again other replaces, shape, numeral?]
    rintro tail same
    cases same
    cases digit

/-! ## Strings -/

/-- The lexeme of a string ends with its closing quote, whatever stands behind it. -/
theorem readsLexemes_stringPieces : ReadsLexemes stringPieces := by
  intro text pieces after read
  fun_induction stringPieces text generalizing pieces after with
  | case1 => cases read
  | case2 rest =>
      cases read
      exact ⟨['"'], rfl, fun _ _ => by rw [List.singleton_append, stringPieces]⟩
  | case3 => cases read
  | case4 a b c d rest value hex ih =>
      obtain ⟨⟨others, left⟩, inner, same⟩ := Option.map_eq_some_iff.1 read
      cases same
      obtain ⟨lexeme, rfl, again⟩ := ih _ _ inner
      refine ⟨'\\' :: 'u' :: a :: b :: c :: d :: lexeme, rfl, fun other replaces => ?_⟩
      simp only [List.cons_append, stringPieces, hex, again other replaces, Option.map_some]
  | case5 => cases read
  | case6 letter rest noUnit c short ih =>
      obtain ⟨⟨others, left⟩, inner, same⟩ := Option.map_eq_some_iff.1 read
      cases same
      obtain ⟨lexeme, rfl, again⟩ := ih _ _ inner
      refine ⟨'\\' :: letter :: lexeme, rfl, fun other replaces => ?_⟩
      have noUnits : ∀ a b c d tail, letter = 'u' → lexeme ++ other = a :: b :: c :: d :: tail →
          False := by
        rintro a b c d tail rfl
        cases short
      rw [List.cons_append, List.cons_append, stringPieces.eq_4 _ _ noUnits, short]
      simp only [again other replaces, Option.map_some]
  | case7 => cases read
  | case8 c rest noQuote noUnit noEscape plain ih =>
      obtain ⟨⟨others, left⟩, inner, same⟩ := Option.map_eq_some_iff.1 read
      cases same
      obtain ⟨lexeme, rfl, again⟩ := ih _ _ inner
      refine ⟨c :: lexeme, rfl, fun other replaces => ?_⟩
      have noBackslash : c ≠ '\\' := by
        rintro rfl
        exact plain (by decide)
      have noUnits : ∀ a b d e tail, c = '\\' → lexeme ++ other = 'u' :: a :: b :: d :: e :: tail →
          False := fun _ _ _ _ _ same => absurd same noBackslash
      have noEscapes : ∀ letter tail, c = '\\' → lexeme ++ other = letter :: tail → False :=
        fun _ _ same => absurd same noBackslash
      rw [List.cons_append, stringPieces.eq_5 _ _ noQuote noUnits noEscapes, if_neg plain]
      simp only [again other replaces, Option.map_some]

/-! ## Tokens -/

theorem nextToken_of_numeral? {text after : List Char} {numeral : Numeral}
    (read : numeral? text = some (numeral, after)) : nextToken text = (.number numeral, after) := by
  obtain ⟨first, rest, rfl, start⟩ := exists_head_of_numeral? read
  unfold nextToken
  split
  all_goals first
    | (rename_i same; rw [(List.cons.inj same).1] at start; exact absurd start (by decide))
    | rw [read]

/-- A token that is not broken takes up a lexeme, and is read again when the text behind the
lexeme is replaced. -/
theorem exists_lexeme {text after : List Char} {token : Token}
    (next : nextToken text = (token, after)) (sound : token ≠ .junk) :
    ∃ lexeme, text = lexeme ++ after ∧
      ∀ other, MayReplace other after → nextToken (lexeme ++ other) = (token, other) := by
  unfold nextToken at next
  split at next
  case h_10 rest =>
    split at next
    · rename_i pieces left read
      cases next
      obtain ⟨lexeme, rfl, again⟩ := readsLexemes_stringPieces _ _ _ read
      refine ⟨'"' :: lexeme, rfl, fun other replaces => ?_⟩
      simp only [List.cons_append, nextToken, again other replaces]
    · cases next
      exact absurd rfl sound
  case h_11 =>
    split at next
    · rename_i numeral left read
      cases next
      obtain ⟨lexeme, whole, again⟩ := readsLexemes_numeral? _ _ _ read
      exact ⟨lexeme, whole, fun other replaces => nextToken_of_numeral? (again other replaces)⟩
    · cases next
      exact absurd rfl sound
  case h_1 => cases next; exact ⟨['{'], rfl, fun _ _ => rfl⟩
  case h_2 => cases next; exact ⟨['}'], rfl, fun _ _ => rfl⟩
  case h_3 => cases next; exact ⟨['['], rfl, fun _ _ => rfl⟩
  case h_4 => cases next; exact ⟨[']'], rfl, fun _ _ => rfl⟩
  case h_5 => cases next; exact ⟨[':'], rfl, fun _ _ => rfl⟩
  case h_6 => cases next; exact ⟨[','], rfl, fun _ _ => rfl⟩
  case h_7 => cases next; exact ⟨['n', 'u', 'l', 'l'], rfl, fun _ _ => rfl⟩
  case h_8 => cases next; exact ⟨['t', 'r', 'u', 'e'], rfl, fun _ _ => rfl⟩
  case h_9 => cases next; exact ⟨['f', 'a', 'l', 's', 'e'], rfl, fun _ _ => rfl⟩

/-- The characters that are tokens by themselves. -/
def mark? : Token → Option Char
  | .openBrace => some '{'
  | .closeBrace => some '}'
  | .openBracket => some '['
  | .closeBracket => some ']'
  | .colon => some ':'
  | .comma => some ','
  | _ => none

theorem eq_cons_of_mark? {text after : List Char} {token : Token} {mark : Char}
    (next : nextToken text = (token, after)) (marked : mark? token = some mark) :
    text = mark :: after := by
  unfold nextToken at next
  split at next
  case h_10 => split at next <;> cases next <;> cases marked
  case h_11 => split at next <;> cases next <;> cases marked
  all_goals cases next; cases marked
  all_goals rfl

/-! ## Lists of tokens -/

/-- Texts of blanks only. -/
def Blank (text : List Char) : Prop := ∀ c ∈ text, isBlank c = true

theorem tokens_blank_append {lead : List Char} (blank : Blank lead) (rest : List Char) :
    tokens (lead ++ rest) = tokens rest := by
  rw [tokens_eq, tokens_eq rest, List.dropWhile_append_of_pos blank]

theorem tokens_of_blank {text : List Char} (blank : Blank text) : tokens text = [] := by
  rw [← List.append_nil text, tokens_blank_append blank, tokens_nil]

/-- A text has no tokens, or blanks and then a first token. -/
theorem blank_or_exists_visible (text : List Char) :
    Blank text ∨ ∃ lead first rest, Blank lead ∧ isBlank first = false ∧
      text = lead ++ first :: rest := by
  induction text with
  | nil => exact .inl nofun
  | cons c text ih =>
      cases visible : isBlank c with
      | false => exact .inr ⟨[], c, text, nofun, visible, rfl⟩
      | true =>
          rcases ih with blank | ⟨lead, first, rest, blank, sees, rfl⟩
          · exact .inl (List.forall_mem_cons.2 ⟨visible, blank⟩)
          · exact .inr ⟨c :: lead, first, rest, List.forall_mem_cons.2 ⟨visible, blank⟩, sees, rfl⟩

theorem blank_of_tokens_eq_nil {text : List Char} (none : tokens text = []) : Blank text := by
  rcases blank_or_exists_visible text with blank | ⟨lead, first, rest, blank, visible, rfl⟩
  · exact blank
  · rw [tokens_blank_append blank, tokens_cons visible] at none
    cases none

theorem exists_nextToken {text : List Char} {token : Token} {more : List Token}
    (some : tokens text = token :: more) :
    ∃ lead visible after, Blank lead ∧ text = lead ++ visible ∧
      nextToken visible = (token, after) ∧ tokens after = more ∧
      ∃ first rest, visible = first :: rest ∧ isBlank first = false := by
  rcases blank_or_exists_visible text with blank | ⟨lead, first, rest, blank, visible, rfl⟩
  · rw [tokens_of_blank blank] at some
    cases some
  · rw [tokens_blank_append blank, tokens_cons visible] at some
    cases some
    exact ⟨lead, first :: rest, _, blank, rfl, rfl, rfl, first, rest, rfl, visible⟩

/-- The first token is read again when the text behind it is replaced. -/
theorem exists_front {text : List Char} {token : Token} {more : List Token}
    (some : tokens text = token :: more) (sound : token ≠ .junk) :
    ∃ front after, text = front ++ after ∧ tokens after = more ∧
      ∀ other, MayReplace other after → tokens (front ++ other) = token :: tokens other := by
  obtain ⟨lead, visible, after, blank, rfl, next, rest, first, tail, shape, sees⟩ :=
    exists_nextToken some
  obtain ⟨lexeme, whole, again⟩ := exists_lexeme next sound
  refine ⟨lead ++ lexeme, after, by rw [whole, List.append_assoc], rest, fun other replaces => ?_⟩
  rw [List.append_assoc, tokens_blank_append blank]
  -- The lexeme is not empty, so it begins with the visible character.
  cases lexeme with
  | nil =>
      have shorter := length_nextToken (List.cons_ne_nil first tail)
      rw [← shape, next, whole] at shorter
      exact absurd shorter (Nat.lt_irrefl _)
  | cons head others =>
      rw [shape] at whole
      cases whole
      have same := again other replaces
      rw [List.cons_append] at same
      rw [List.cons_append, tokens_cons sees, same]

/-- Blanks and then a mark stand where the tokens begin with the mark. -/
theorem exists_mark {text : List Char} {token : Token} {more : List Token} {mark : Char}
    (some : tokens text = token :: more) (marked : mark? token = .some mark) :
    ∃ lead after, Blank lead ∧ text = lead ++ mark :: after ∧ tokens after = more := by
  obtain ⟨lead, visible, after, blank, rfl, next, rest, -⟩ := exists_nextToken some
  exact ⟨lead, after, blank, by rw [eq_cons_of_mark? next marked], rest⟩

/-- Texts are put together between tokens. -/
theorem tokens_append {text other : List Char} (sound : .junk ∉ tokens text)
    (ends : EndsNumber other) : tokens (text ++ other) = tokens text ++ tokens other := by
  generalize same : tokens text = found at sound
  induction found generalizing text with
  | nil => exact tokens_blank_append (blank_of_tokens_eq_nil same) other
  | cons token more ih =>
      simp only [List.mem_cons, not_or] at sound
      obtain ⟨here, there⟩ := sound
      obtain ⟨front, after, rfl, rest, again⟩ := exists_front same (Ne.symm here)
      rw [List.append_assoc, again _ (mayReplace_append after ends), ih rest there]
      rfl

/-- Texts are taken apart between tokens. -/
theorem exists_cut_of_tokens {text : List Char} {first second : List Token}
    (whole : tokens text = first ++ second) (sound : .junk ∉ first) :
    ∃ front behind, text = front ++ behind ∧ tokens front = first ∧ tokens behind = second := by
  induction first generalizing text with
  | nil => exact ⟨[], text, rfl, tokens_nil, whole⟩
  | cons token more ih =>
      simp only [List.mem_cons, not_or] at sound
      obtain ⟨here, there⟩ := sound
      obtain ⟨start, after, rfl, rest, again⟩ := exists_front whole (Ne.symm here)
      obtain ⟨front, behind, rfl, early, late⟩ := ih rest there
      refine ⟨start ++ front, behind, (List.append_assoc _ _ _).symm, ?_, late⟩
      rw [again _ (mayReplace_front front behind), early]

end Workbench.Json
