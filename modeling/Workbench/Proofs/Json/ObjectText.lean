/-
# Texts of objects and arrays

The text of an object is made of the texts of its members, whatever these are: each is a key,
a colon and a text that reads as a value, with blanks wherever they may stand. Such a text is
read as the object of the members, one by one and in their order, and every text that begins
with a brace and is read as an object is of this form. The text of an array is made of the
texts of its items in the same way.

So members can be moved, added and taken away in a text, and what the new text is read as is
known from what the old one was read as.
-/

import Workbench.Json.Codec
import Workbench.Proofs.Json.Lexeme
import Workbench.Proofs.Json.Walk

namespace Workbench.Json

/-! ## Parts of texts -/

/-- A text that is read as one complete value. -/
structure ValueText where
  chars : List Char
  node : Node
  reads : Node.ofTokens (tokens chars) = (node, false)
  complete : node.complete = true

/-- A key and a value. The key is a string that spells a text; how it spells it is left open. -/
structure MemberText where
  key : List Char
  name : String
  reads : tokens key = [.string (some name)]
  value : ValueText

/-- The characters of a member. -/
def MemberText.chars (member : MemberText) : List Char := member.key ++ ':' :: member.value.chars

/-- What a member is read as. -/
def MemberText.node (member : MemberText) : Option String × Node :=
  (some member.name, member.value.node)

/-- Texts with commas between them. -/
def commaSeparated : List (List Char) → List Char
  | [] => []
  | [text] => text
  | text :: next :: rest => text ++ ',' :: commaSeparated (next :: rest)

/-- The blanks around a container and behind its last part. -/
structure Spacing where
  before : List Char
  inside : List Char
  behind : List Char
  blank : Blank before ∧ Blank inside ∧ Blank behind

/-- No blanks at all. -/
def Spacing.none : Spacing := ⟨[], [], [], nofun, nofun, nofun⟩

/-- A container with its content and its blanks. -/
def Spacing.enclose (spacing : Spacing) (opening closing : Char) (content : List Char) :
    List Char :=
  spacing.before ++ opening :: (content ++ (spacing.inside ++ closing :: spacing.behind))

/-- The text of an object. -/
def objectText (spacing : Spacing) (members : List MemberText) : String :=
  String.ofList (spacing.enclose '{' '}' (commaSeparated (members.map MemberText.chars)))

/-- The text of an array. -/
def arrayText (spacing : Spacing) (items : List ValueText) : String :=
  String.ofList (spacing.enclose '[' ']' (commaSeparated (items.map ValueText.chars)))

/-! ## Reading the parts -/

theorem ValueText.walk (value : ValueText) :
    (tokens value.chars).foldl Node.advance (.within []) = .done value.node :=
  Node.foldl_eq_done_iff.2 ⟨value.reads, value.complete⟩

theorem endsNumber_of_isBlank {c : Char} (blank : isBlank c = true) (rest : List Char) :
    EndsNumber (c :: rest) := by
  intro first same
  cases same
  simp only [isBlank, Bool.or_eq_true, beq_iff_eq] at blank
  rcases blank with ((rfl | rfl) | rfl) | rfl <;> decide

theorem endsNumber_blank_append {lead rest : List Char} (blank : Blank lead)
    (ends : EndsNumber rest) : EndsNumber (lead ++ rest) := by
  cases lead with
  | nil => exact ends
  | cons c others => exact endsNumber_of_isBlank (blank c List.mem_cons_self) _

theorem endsNumber_colon (rest : List Char) : EndsNumber (':' :: rest) := by
  intro c same
  cases same
  decide

/-- Blanks behind a value belong to its text. -/
def ValueText.padded (value : ValueText) (blanks : List Char) (blank : Blank blanks) :
    ValueText where
  chars := value.chars ++ blanks
  node := value.node
  reads := by
    have ends := endsNumber_blank_append blank endsNumber_nil
    rw [List.append_nil] at ends
    rw [tokens_append (Node.junk_notMem_of_foldl value.walk) ends, tokens_of_blank blank,
      List.append_nil, value.reads]
  complete := value.complete

/-- The text of a value in memory. -/
def ValueText.written (value : Json) : ValueText where
  chars := value.chars
  node := Node.ofPrinted value
  reads := by
    have read := Node.ofText_text value
    rwa [Node.ofText, text, String.toList_ofList] at read
  complete := by cases value <;> rfl

/-- The text of a member in memory. -/
def MemberText.written (name : String) (value : Json) : MemberText where
  key := stringChars name
  name
  reads := by
    have read := tokens_stringChars name []
    rwa [List.append_nil, tokens_nil] at read
  value := .written value

namespace Node

variable {outer : List Open} {rest : List Char}

theorem readOn_blank_append {lead : List Char} (blank : Blank lead) (progress : Progress)
    (rest : List Char) : readOn progress (lead ++ rest) = readOn progress rest := by
  rw [readOn, tokens_blank_append blank]
  rfl

theorem readOn_valueText (value : ValueText) (ends : EndsNumber rest)
    (awaits : AwaitsValue outer) :
    readOn (.within outer) (value.chars ++ rest) = readOn (give value.node outer) rest := by
  rw [readOn, tokens_append (junk_notMem_of_foldl value.walk) ends, List.foldl_append]
  have inside := foldl_inside awaits value.walk
  rw [List.nil_append] at inside
  rw [inside]
  rfl

theorem readOn_memberText (member : MemberText) (ends : EndsNumber rest)
    {held : List (Option String × Node)} {place : ObjectPlace}
    (awaits : place = .start ∨ place = .afterComma) :
    readOn (.within (.object held place :: outer)) (member.chars ++ rest) =
      readOn (.within (.object (member.node :: held) .afterMember :: outer)) rest := by
  have key : advance (.within (.object held place :: outer)) (.string (some member.name)) =
      .within (.object held (.afterKey (some member.name)) :: outer) := by
    rcases awaits with rfl | rfl <;> rfl
  have there : AwaitsValue (.object held (.afterColon (some member.name)) :: outer) := trivial
  have sound : .junk ∉ tokens member.key := by
    rw [member.reads]
    simp
  rw [MemberText.chars, List.append_assoc, List.cons_append, readOn,
    tokens_append sound (endsNumber_colon _), member.reads, List.foldl_append,
    List.foldl_cons, List.foldl_nil, key, ← readOn, readOn_colon, advance, if_pos rfl,
    readOn_valueText member.value ends there]
  rfl

/-- Reading the members of an object adds their nodes, and closes the object. -/
theorem readOn_memberTexts (members : List MemberText) (some : members ≠ [])
    {held : List (Option String × Node)} {place : ObjectPlace}
    (awaits : place = .start ∨ place = .afterComma) (outer : List Open) {inside : List Char}
    (blank : Blank inside) (behind : List Char) :
    readOn (.within (.object held place :: outer))
        (commaSeparated (members.map MemberText.chars) ++ (inside ++ '}' :: behind)) =
      readOn (give (.object (held.reverse ++ members.map MemberText.node) true) outer) behind := by
  induction members generalizing held place with
  | nil => exact absurd rfl some
  | cons member others ih =>
      cases others with
      | nil =>
          have ends := endsNumber_blank_append blank (endsNumber_closeBrace behind)
          rw [List.map_singleton, commaSeparated, readOn_memberText member ends awaits,
            readOn_blank_append blank, readOn_closeBrace, advance, if_neg (by decide), if_pos rfl,
            List.reverse_cons]
          rfl
      | cons next more =>
          rw [List.map_cons, List.map_cons, commaSeparated, List.append_assoc, List.cons_append,
            readOn_memberText member (endsNumber_comma _) awaits, readOn_comma, advance,
            if_pos rfl, ← List.map_cons, ih (List.cons_ne_nil _ _) (.inr rfl), List.reverse_cons,
            List.append_assoc]
          rfl

/-- Reading the items of an array adds their nodes, and closes the array. -/
theorem readOn_itemTexts (items : List ValueText) (some : items ≠ []) {held : List Node}
    {place : ArrayPlace} (awaits : place = .start ∨ place = .afterComma) (outer : List Open)
    {inside : List Char} (blank : Blank inside) (behind : List Char) :
    readOn (.within (.array held place :: outer))
        (commaSeparated (items.map ValueText.chars) ++ (inside ++ ']' :: behind)) =
      readOn (give (.array (held.reverse ++ items.map ValueText.node) true) outer) behind := by
  induction items generalizing held place with
  | nil => exact absurd rfl some
  | cons item others ih =>
      have there : AwaitsValue (.array held place :: outer) := by
        rcases awaits with rfl | rfl <;> trivial
      cases others with
      | nil =>
          have ends := endsNumber_blank_append blank (endsNumber_closeBracket behind)
          rw [List.map_singleton, commaSeparated, readOn_valueText item ends there, give,
            readOn_blank_append blank, readOn_closeBracket, advance, if_neg (by decide), if_pos rfl,
            List.reverse_cons]
          rfl
      | cons next more =>
          rw [List.map_cons, List.map_cons, commaSeparated, List.append_assoc, List.cons_append,
            readOn_valueText item (endsNumber_comma _) there, give, readOn_comma, advance,
            if_pos rfl, ← List.map_cons, ih (List.cons_ne_nil _ _) (.inr rfl), List.reverse_cons,
            List.append_assoc]
          rfl

/-! ## Reading whole texts -/

theorem readOn_blank {blanks : List Char} (blank : Blank blanks) (progress : Progress) :
    readOn progress blanks = progress := by
  rw [readOn, tokens_of_blank blank]
  rfl

theorem readOn_openBrace (progress : Progress) (rest : List Char) :
    readOn progress ('{' :: rest) = readOn (advance progress .openBrace) rest :=
  readOn_mark (by decide) (fun _ => rfl) progress rest

theorem readOn_openBracket (progress : Progress) (rest : List Char) :
    readOn progress ('[' :: rest) = readOn (advance progress .openBracket) rest :=
  readOn_mark (by decide) (fun _ => rfl) progress rest

/-- A text is read as a complete value and nothing behind it if its walk is done. -/
theorem ofText_of_readOn {text : List Char} {node : Node}
    (walk : readOn (.within []) text = .done node) :
    ofText (String.ofList text) = (node, false) := by
  rw [ofText, String.toList_ofList, (foldl_eq_done_iff.1 walk).1]

theorem ofText_objectText (spacing : Spacing) (members : List MemberText) :
    ofText (objectText spacing members) =
      (.object (members.map MemberText.node) true, false) := by
  obtain ⟨before, inside, behind, first, second, third⟩ := spacing
  refine ofText_of_readOn ?_
  rw [Spacing.enclose, readOn_blank_append first, readOn_openBrace, advance, startValue]
  cases members with
  | nil =>
      rw [List.map_nil, commaSeparated, List.nil_append, readOn_blank_append second,
        readOn_closeBrace, advance, if_pos rfl]
      exact readOn_blank third _
  | cons member others =>
      rw [readOn_memberTexts _ (List.cons_ne_nil _ _) (.inl rfl) _ second]
      exact readOn_blank third _

theorem ofText_arrayText (spacing : Spacing) (items : List ValueText) :
    ofText (arrayText spacing items) = (.array (items.map ValueText.node) true, false) := by
  obtain ⟨before, inside, behind, first, second, third⟩ := spacing
  refine ofText_of_readOn ?_
  rw [Spacing.enclose, readOn_blank_append first, readOn_openBracket, advance, startValue]
  cases items with
  | nil =>
      rw [List.map_nil, commaSeparated, List.nil_append, readOn_blank_append second,
        readOn_closeBracket, advance, if_pos rfl]
      exact readOn_blank third _
  | cons item others =>
      rw [readOn_itemTexts _ (List.cons_ne_nil _ _) (.inl rfl) _ second]
      exact readOn_blank third _

/-! ## Taking texts apart -/

/-- All keys of an object spell texts. -/
def Named : Node → Prop
  | .object members _ => ∀ member ∈ members, ∃ name, member.1 = some name
  | _ => True

/-- Where a value follows and the object is read to its end, the value has a text. -/
theorem exists_valueText {text : List Char} {held : List (Option String × Node)}
    {name : Option String} {final : Node}
    (walk : readOn (.within (.object held (.afterColon name) :: outer)) text = .done final) :
    ∃ (value : ValueText) (rest : List Char), text = value.chars ++ rest ∧
      readOn (.within (.object ((name, value.node) :: held) .afterMember :: outer)) rest =
        .done final := by
  rw [readOn, ← List.nil_append (Open.object held (.afterColon name) :: outer)] at walk
  obtain ⟨first, second, node, whole, value, later⟩ := exists_value_of_foldl walk
  obtain ⟨front, rest, same, early, late⟩ :=
    exists_cut_of_tokens whole (junk_notMem_of_foldl value)
  obtain ⟨reads, complete⟩ := foldl_eq_done_iff.1 value
  refine ⟨⟨front, node, by rw [early, reads], complete⟩, rest, same, ?_⟩
  rw [readOn, late, later]

/-- A walk that is done took a first token, and did not stop there. -/
theorem exists_within_of_readOn {text : List Char} {containers : List Open} {final : Node}
    (walk : readOn (.within containers) text = .done final) :
    ∃ token more, tokens text = token :: more ∧
      more.foldl advance (advance (.within containers) token) = .done final ∧
      ∀ node trailing, advance (.within containers) token ≠ .stopped node trailing := by
  rw [readOn] at walk
  cases found : tokens text with
  | nil =>
      rw [found] at walk
      cases walk
  | cons token more =>
      rw [found, List.foldl_cons] at walk
      refine ⟨token, more, rfl, walk, fun node trailing stopped => ?_⟩
      rw [stopped, foldl_stopped] at walk
      cases walk

/-- Behind a key a colon stands, perhaps behind blanks. -/
theorem exists_colon {text : List Char} {held : List (Option String × Node)}
    {name : Option String} {final : Node}
    (walk : readOn (.within (.object held (.afterKey name) :: outer)) text = .done final) :
    ∃ lead rest, Blank lead ∧ text = lead ++ ':' :: rest ∧
      readOn (.within (.object held (.afterColon name) :: outer)) rest = .done final := by
  obtain ⟨token, more, found, later, goesOn⟩ := exists_within_of_readOn walk
  by_cases colon : token = .colon
  · subst colon
    obtain ⟨lead, rest, blank, same, tail⟩ := exists_mark found rfl
    exact ⟨lead, rest, blank, same, by rw [readOn, tail]; exact later⟩
  · exact absurd (if_neg colon) (goesOn _ _)

/-- Where a key is awaited and the object is read to its end, a key, a colon and the text of
a value stand. -/
theorem exists_member_of_readOn {text : List Char} {held : List (Option String × Node)}
    {final : Node}
    (walk : readOn (.within (.object held .afterComma :: outer)) text = .done final) :
    ∃ (key : List Char) (name : Option String) (value : ValueText) (rest : List Char),
      tokens key = [.string name] ∧ text = key ++ ':' :: (value.chars ++ rest) ∧
      readOn (.within (.object ((name, value.node) :: held) .afterMember :: outer)) rest =
        .done final := by
  obtain ⟨token, more, found, later, goesOn⟩ := exists_within_of_readOn walk
  cases token
  case string name =>
    have sound : Token.junk ∉ [Token.string name] := by simp
    obtain ⟨front, behind, rfl, early, late⟩ := exists_cut_of_tokens found sound
    subst late
    obtain ⟨lead, content, blank, rfl, atValue⟩ := exists_colon later
    obtain ⟨value, rest, rfl, onward⟩ := exists_valueText atValue
    refine ⟨front ++ lead, name, value, rest, ?_, by simp only [List.append_assoc], onward⟩
    have ends := endsNumber_blank_append blank endsNumber_nil
    rw [List.append_nil] at ends
    rw [tokens_append (early ▸ sound) ends, early, tokens_of_blank blank]
    rfl
  all_goals exact absurd rfl (goesOn _ _)

/-- Behind a member a comma or the closing brace stands, perhaps behind blanks. -/
theorem comma_or_closeBrace_of_readOn {text : List Char} {held : List (Option String × Node)}
    {final : Node}
    (walk : readOn (.within [.object held .afterMember]) text = .done final) :
    (∃ lead rest, Blank lead ∧ text = lead ++ ',' :: rest ∧
      readOn (.within [.object held .afterComma]) rest = .done final) ∨
    ∃ lead behind, Blank lead ∧ Blank behind ∧ text = lead ++ '}' :: behind ∧
      final = .object held.reverse true := by
  obtain ⟨token, more, found, later, goesOn⟩ := exists_within_of_readOn walk
  by_cases comma : token = .comma
  · subst comma
    obtain ⟨lead, rest, blank, same, tail⟩ := exists_mark found rfl
    exact .inl ⟨lead, rest, blank, same, by rw [readOn, tail]; exact later⟩
  · by_cases close : token = .closeBrace
    · subst close
      obtain ⟨lead, behind, blank, same, tail⟩ := exists_mark found rfl
      obtain ⟨none, equal⟩ := eq_nil_of_foldl_done later
      exact .inr ⟨lead, behind, blank, blank_of_tokens_eq_nil (tail.trans none), same, equal.symm⟩
    · have stops : advance (.within [.object held .afterMember]) token =
          .stopped (abandon [.object held .afterMember]) false := by
        rw [advance, if_neg comma, if_neg close]
      exact absurd stops (goesOn _ _)

/-- Where a key is awaited and the object is read to its end, the texts of members stand. -/
theorem exists_memberTexts {text : List Char} {held : List (Option String × Node)} {final : Node}
    (named : final.Named)
    (walk : readOn (.within [.object held .afterComma]) text = .done final) :
    ∃ (first : MemberText) (others : List MemberText) (inside behind : List Char),
      Blank inside ∧ Blank behind ∧
      text = commaSeparated ((first :: others).map MemberText.chars) ++ (inside ++ '}' :: behind) ∧
      final = .object (held.reverse ++ (first :: others).map MemberText.node) true := by
  obtain ⟨key, name, value, rest, reads, same, onward⟩ := exists_member_of_readOn walk
  rcases comma_or_closeBrace_of_readOn onward with
    ⟨lead, more, blank, rest_eq, atKey⟩ | ⟨inside, behind, blank, none, rfl, rfl⟩
  · have shorter : more.length < text.length := by
      rw [same, rest_eq]
      simp only [List.length_append, List.length_cons]
      omega
    obtain ⟨next, others, inside, behind, gap, none, rfl, rfl⟩ := exists_memberTexts named atKey
    obtain ⟨name, rfl⟩ := named (name, value.node) (by simp)
    -- The blanks before the comma have no place of their own and go to the value.
    refine ⟨⟨key, name, reads, value.padded lead blank⟩, next :: others, inside, behind, gap, none,
      ?_, ?_⟩
    · simp [same, rest_eq, commaSeparated, MemberText.chars, ValueText.padded]
    · simp [MemberText.node, ValueText.padded]
  · obtain ⟨name, rfl⟩ := named (name, value.node) (by simp)
    refine ⟨⟨key, name, reads, value⟩, [], inside, behind, blank, none, ?_, ?_⟩
    · simp [same, commaSeparated, MemberText.chars]
    · simp [MemberText.node]
termination_by text.length

/-- Every text that begins with a brace and is read to its end as a complete value with names
is the text of an object. -/
theorem exists_objectText {before rest : List Char} (blank : Blank before) {node : Node}
    (named : node.Named) (walk : readOn (.within []) (before ++ '{' :: rest) = .done node) :
    ∃ spacing members, String.ofList (before ++ '{' :: rest) = objectText spacing members ∧
      node = .object (members.map MemberText.node) true := by
  rw [readOn_blank_append blank, readOn_openBrace, advance, startValue] at walk
  obtain ⟨token, more, found, later, goesOn⟩ := exists_within_of_readOn walk
  by_cases close : token = .closeBrace
  · subst close
    obtain ⟨inside, behind, gap, rfl, tail⟩ := exists_mark found rfl
    obtain ⟨none, rfl⟩ := eq_nil_of_foldl_done later
    exact ⟨⟨before, inside, behind, blank, gap, blank_of_tokens_eq_nil (tail.trans none)⟩, [],
      rfl, rfl⟩
  · -- Behind the opening brace a key is read as it is behind a comma.
    have key : readOn (.within [.object [] .afterComma]) rest = .done node := by
      rw [← later, readOn, found, List.foldl_cons, advance, advance, if_neg close]
    obtain ⟨first, others, inside, behind, gap, none, rfl, rfl⟩ := exists_memberTexts named key
    exact ⟨⟨before, inside, behind, blank, gap, none⟩, first :: others, rfl, rfl⟩

end Node

end Workbench.Json
