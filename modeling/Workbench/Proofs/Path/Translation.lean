/-
# Paths in another alphabet

The same path can be written in characters and in bytes. Going from one to the other keeps its
shape if separators stay where they are and what stands between them stays empty, or a dot, only
if it was. Then a path is made absolute in either alphabet with the same result, and a path in
normal form stays in normal form.

Both directions are of this kind. This is clear of texts that are written in bytes. Bytes are read
as a text without regard for what they mean in a path, and bytes that spell none may be read as the
same text as others; but they never become a separator, and never a dot.
-/

import Workbench.Path.Basic
import Workbench.Proofs.Path.NormalForm
import Workbench.Proofs.Text.Utf8

namespace Workbench.Path

section Translates

variable {α β : Type} [Alphabet α] [Alphabet β]

/-- Paths keep their shape in another alphabet. -/
structure Translates (f : List α → List β) : Prop where
  append_separator (front back : List α) :
    f (front ++ separator :: back) = f front ++ separator :: f back
  whole {piece : List α} : separator ∉ piece → separator ∉ f piece
  eq_nil_iff {piece : List α} : f piece = [] ↔ piece = []
  eq_dot_iff {piece : List α} : f piece = [dot] ↔ piece = [dot]

namespace Translates

variable {f : List α → List β}

theorem map_nil (translates : Translates f) : f [] = [] := translates.eq_nil_iff.2 rfl

theorem map_separator (translates : Translates f) (rest : List α) :
    f (separator :: rest) = separator :: f rest := by
  have cut := translates.append_separator [] rest
  rwa [translates.map_nil] at cut

variable [DecidableEq α]

/-- A translation ends with a separator exactly if the path does. -/
theorem getLast?_map (translates : Translates f) (path : List α) :
    (f path).getLast? = some separator ↔ path.getLast? = some separator := by
  constructor
  · intro slash
    obtain ⟨front, name, rfl, other, ends⟩ := Text.exists_cut (· ≠ separator) path
    have whole : separator ∉ name := fun there => of_decide_eq_true (other _ there) rfl
    cases last : front.getLast? with
    | none =>
        rw [List.getLast?_eq_none_iff.1 last, List.nil_append] at slash
        exact absurd (List.mem_of_getLast? slash) (translates.whole whole)
    | some c =>
        obtain rfl : c = separator := by simpa using ends c last
        obtain ⟨start, rfl⟩ := List.getLast?_eq_some_iff.1 last
        by_cases empty : name = []
        · rw [empty, List.append_nil]
          exact last
        · have translated : f name ≠ [] := mt translates.eq_nil_iff.1 empty
          rw [List.append_assoc, List.singleton_append, translates.append_separator,
            List.getLast?_append_cons, List.getLast?_cons_of_ne_nil translated] at slash
          exact absurd (List.mem_of_getLast? slash) (translates.whole whole)
  · intro slash
    obtain ⟨front, rfl⟩ := List.getLast?_eq_some_iff.1 slash
    rw [translates.append_separator, translates.map_nil]
    exact List.getLast?_concat

variable [DecidableEq β]

theorem isComponent_map (translates : Translates f) (piece : List α) :
    isComponent (f piece) = isComponent piece := by
  rw [Bool.eq_iff_iff, isComponent_eq_true_iff, isComponent_eq_true_iff, Ne, Ne,
    translates.eq_nil_iff, translates.eq_dot_iff]

/-- The pieces are translated one by one. The induction is on the path, one piece after another. -/
theorem pieces_map (translates : Translates f) (path : List α) :
    pieces (f path) = (pieces path).map f := by
  have alone : ∀ piece : List α, separator ∉ piece →
      pieces (f piece) = (pieces piece).map f := by
    intro piece whole
    rw [pieces, pieces, Text.pieces_of_notMem (translates.whole whole),
      Text.pieces_of_notMem whole]
    rfl
  induction length : path.length using Nat.strong_induction_on generalizing path with
  | _ size ih =>
      by_cases inside : separator ∈ path
      · obtain ⟨piece, later, rfl, whole⟩ := List.eq_append_cons_of_mem inside
        have shorter : later.length < size := by
          rw [← length, List.length_append, List.length_cons]
          omega
        rw [translates.append_separator, pieces_append_separator, pieces_append_separator,
          List.map_append, alone piece whole, ih later.length shorter later rfl]
      · exact alone path inside

theorem components_map (translates : Translates f) (path : List α) :
    components (f path) = (components path).map f := by
  rw [components, components, translates.pieces_map, List.filter_map]
  congr 2
  exact funext translates.isComponent_map

theorem isAbsolute_map (translates : Translates f) (path : List α) :
    isAbsolute (f path) = isAbsolute path := by
  by_cases inside : separator ∈ path
  · obtain ⟨piece, later, rfl, whole⟩ := List.eq_append_cons_of_mem inside
    rw [translates.append_separator]
    by_cases empty : piece = []
    · subst empty
      rw [translates.map_nil, List.nil_append, List.nil_append, isAbsolute_separator,
        isAbsolute_separator]
    · have translated : f piece ≠ [] := mt translates.eq_nil_iff.1 empty
      rw [isAbsolute_append_of_ne_nil empty, isAbsolute_append_of_ne_nil translated,
        isAbsolute_of_notMem whole, isAbsolute_of_notMem (translates.whole whole)]
  · rw [isAbsolute_of_notMem inside, isAbsolute_of_notMem (translates.whole inside)]

theorem hasTwoLeading_map (translates : Translates f) (path : List α) :
    hasTwoLeading (f path) = hasTwoLeading path := by
  rw [hasTwoLeading_eq, hasTwoLeading_eq, translates.isAbsolute_map]
  cases rooted : isAbsolute path with
  | false => rfl
  | true =>
      obtain ⟨rest, rfl⟩ := exists_of_isAbsolute rooted
      rw [translates.map_separator, List.tail_cons, List.tail_cons, translates.isAbsolute_map]
      cases again : isAbsolute rest with
      | false => rfl
      | true =>
          obtain ⟨later, rfl⟩ := exists_of_isAbsolute again
          rw [translates.map_separator, List.tail_cons, List.tail_cons, translates.isAbsolute_map]

theorem push_map (translates : Translates f) (path name : List α) :
    f (push path name) = push (f path) (f name) := by
  by_cases slash : path.getLast? = some separator
  · obtain ⟨front, rfl⟩ := List.getLast?_eq_some_iff.1 slash
    rw [push_of_slash slash, push_of_slash ((translates.getLast?_map _).2 slash),
      List.append_assoc, List.singleton_append, translates.append_separator,
      translates.append_separator, translates.map_nil, List.append_assoc]
    rfl
  · rw [push_of_not_slash slash, push_of_not_slash (mt (translates.getLast?_map path).1 slash),
      translates.append_separator]

theorem foldl_push_map (translates : Translates f) (names : List (List α)) (path : List α) :
    f (names.foldl push path) = (names.map f).foldl push (f path) := by
  induction names generalizing path with
  | nil => rfl
  | cons name rest ih =>
      rw [List.foldl_cons, ih, translates.push_map, List.map_cons, List.foldl_cons]

theorem base_map (translates : Translates f) (workingDirectory path : List α) :
    f (base workingDirectory path) = base (f workingDirectory) (f path) := by
  rw [base, base, translates.isAbsolute_map, translates.hasTwoLeading_map]
  split
  · split
    · rw [translates.map_separator, translates.map_separator, translates.map_nil]
    · rw [translates.map_separator, translates.map_nil]
  · rfl

/-- A path is made absolute in either alphabet with the same result. -/
theorem absolute_map (translates : Translates f) (workingDirectory path : List α) :
    f (absolute workingDirectory path) = absolute (f workingDirectory) (f path) := by
  have joined : f ((components path).foldl push (base workingDirectory path)) =
      (components (f path)).foldl push (base (f workingDirectory) (f path)) := by
    rw [translates.foldl_push_map, translates.base_map, translates.components_map]
  by_cases slash : path.getLast? = some separator
  · rw [absolute, absolute, if_pos slash, if_pos ((translates.getLast?_map path).2 slash),
      translates.push_map, joined, translates.map_nil]
  · rw [absolute, absolute, if_neg slash, if_neg (mt (translates.getLast?_map path).1 slash),
      joined]

/-- A path in normal form stays so, since it is what it becomes when it is made absolute. -/
theorem normal_map (translates : Translates f) {path : List α} (normal : Normal path) :
    Normal (f path) := by
  rw [← absolute_of_normal normal [separator], translates.absolute_map, translates.map_separator,
    translates.map_nil]
  exact normal_absolute normal_separator (f path)

end Translates

end Translates

/-! ## Characters and bytes -/

theorem translates_charsOfUtf8 : Translates Text.charsOfUtf8 where
  append_separator front back := Text.charsOfUtf8_append_mark (by decide) front back
  whole {piece} absent := by
    intro present
    obtain ⟨byte, there, same⟩ := Text.exists_mem_of_mem_charsOfUtf8 present (by decide)
    obtain rfl : byte = separator := UInt8.toNat_inj.1 same
    exact absent there
  eq_nil_iff := Text.charsOfUtf8_eq_nil_iff
  eq_dot_iff := Text.charsOfUtf8_eq_singleton_iff (by decide)

/-- Reading undoes writing, so what writing might do wrong reading would show. -/
theorem translates_utf8OfChars : Translates Text.utf8OfChars where
  append_separator front back := by
    rw [Text.utf8OfChars_append]
    rfl
  whole {piece} absent := by
    intro present
    obtain ⟨front, back, shape⟩ := List.append_of_mem present
    have read := Text.charsOfUtf8_utf8OfChars piece
    rw [shape, translates_charsOfUtf8.append_separator] at read
    exact absent (read ▸ List.mem_append_right _ List.mem_cons_self)
  eq_nil_iff {piece} := by
    rw [← Text.charsOfUtf8_eq_nil_iff, Text.charsOfUtf8_utf8OfChars]
  eq_dot_iff {piece} := by
    rw [← translates_charsOfUtf8.eq_dot_iff, Text.charsOfUtf8_utf8OfChars]

/-- The text of a path that is made absolute is the text of its directory, made absolute with the
path. -/
theorem charsOfUtf8_absolute (workingDirectory : List UInt8) (path : String) :
    Text.charsOfUtf8 (absolute workingDirectory (Text.utf8 path)) =
      absolute (Text.charsOfUtf8 workingDirectory) path.toList := by
  rw [translates_charsOfUtf8.absolute_map, Text.utf8, Text.charsOfUtf8_utf8OfChars]

end Workbench.Path
