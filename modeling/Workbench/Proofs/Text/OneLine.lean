/-
# What is left of a text on one line

A line shows the first characters of a text, each in its place, with a space wherever the text
would end the line. Behind them stands nothing if that was the whole text, and three dots if it was
not. This describes the line completely, and it is said here without the function that makes it.

Which texts are left alone follows: those without line ends that are short enough, or that have just
the three dots behind the limit. A text that was put on one line is of one sort or the other, so
doing it again with the same limit changes nothing.
-/

import Mathlib.Data.List.Forall2
import Workbench.Text.OneLine

namespace Workbench.Text

/-- The character ends a line. -/
def IsBreak (c : Char) : Prop := c = '\n' ∨ c = '\r'

/-- A character is shown as another on one line: as a space if it ends a line, and otherwise as
itself. -/
inductive ShownAs : Char → Char → Prop where
  | space {c : Char} : IsBreak c → ShownAs c ' '
  | itself {c : Char} : ¬ IsBreak c → ShownAs c c

/-- A line shows a text up to a limit: as many characters as fit, one for one, and behind them
nothing if these are all, or else three dots. -/
structure ShowsUpTo (limit : Nat) (text line : List Char) : Prop where
  shown : List.Forall₂ ShownAs (text.take limit) (line.take (min limit text.length))
  ending : line.drop (min limit text.length) =
    if text.length ≤ limit then [] else ['.', '.', '.']

/-! ## Characters -/

theorem shownAs_iff {c shown : Char} : ShownAs c shown ↔ shown = withoutBreak c := by
  unfold withoutBreak
  constructor
  · intro isShown
    cases isShown with
    | space ends => exact (if_pos ends).symm
    | itself stays => exact (if_neg stays).symm
  · rintro rfl
    split
    · rename_i ends
      exact .space ends
    · rename_i stays
      exact .itself stays

theorem forall₂_shownAs_iff {text line : List Char} :
    List.Forall₂ ShownAs text line ↔ line = text.map withoutBreak := by
  have relation : ShownAs = fun c shown => withoutBreak c = shown := by
    ext c shown
    rw [shownAs_iff, eq_comm]
  rw [relation, ← List.forall₂_map_left_iff, List.forall₂_eq_eq_eq, eq_comm]

theorem not_isBreak_withoutBreak (c : Char) : ¬ IsBreak (withoutBreak c) := by
  unfold withoutBreak
  split
  · exact (by decide : ¬ (' ' = '\n' ∨ ' ' = '\r'))
  · assumption

theorem map_withoutBreak_eq_self_iff {text : List Char} :
    text.map withoutBreak = text ↔ ∀ c ∈ text, ¬ IsBreak c := by
  constructor
  · intro same c there
    rw [← same] at there
    obtain ⟨original, -, rfl⟩ := List.mem_map.1 there
    exact not_isBreak_withoutBreak original
  · intro unbroken
    have each : ∀ c ∈ text, withoutBreak c = id c := fun c there => if_neg (unbroken c there)
    rw [List.map_congr_left each, List.map_id]

/-! ## Lines -/

variable {limit : Nat} {text : List Char}

theorem oneLineChars_eq (limit : Nat) (text : List Char) :
    oneLineChars limit text =
      (text.take limit).map withoutBreak ++ if text.length ≤ limit then [] else ellipsis := by
  rw [oneLineChars, List.length_map]
  by_cases short : text.length ≤ limit
  · rw [if_neg (Nat.not_lt.2 short), if_pos short, List.take_of_length_le short, List.append_nil]
  · rw [if_pos (Nat.not_le.1 short), if_neg short, List.map_take]

theorem length_oneLineChars (limit : Nat) (text : List Char) :
    (oneLineChars limit text).length =
      min limit text.length + if text.length ≤ limit then 0 else 3 := by
  rw [oneLineChars_eq, List.length_append, List.length_map, List.length_take]
  split <;> rfl

/-- What is put on one line ends no line. -/
theorem not_isBreak_of_mem_oneLineChars {c : Char} (there : c ∈ oneLineChars limit text) :
    ¬ IsBreak c := by
  have dots : ∀ dot ∈ ellipsis, ¬ IsBreak dot := by simp [ellipsis, IsBreak]
  rw [oneLineChars_eq, List.mem_append] at there
  rcases there with shown | ending
  · obtain ⟨original, -, rfl⟩ := List.mem_map.1 shown
    exact not_isBreak_withoutBreak original
  · split at ending
    · cases ending
    · exact dots c ending

/-- A line is determined by the text that it shows. -/
theorem showsUpTo_iff {line : List Char} :
    ShowsUpTo limit text line ↔ line = oneLineChars limit text := by
  have size : ((text.take limit).map withoutBreak).length = min limit text.length := by
    rw [List.length_map, List.length_take]
  rw [oneLineChars_eq]
  constructor
  · rintro ⟨shown, ending⟩
    rw [← List.take_append_drop (min limit text.length) line, ending, forall₂_shownAs_iff.1 shown]
    rfl
  · rintro rfl
    exact ⟨forall₂_shownAs_iff.2 (List.take_left' size), List.drop_left' size⟩

/-- The texts that are left alone: they end no line where they are shown, and they are short enough
or look cut off already. -/
theorem oneLineChars_eq_self_iff :
    oneLineChars limit text = text ↔
      (∀ c ∈ text.take limit, ¬ IsBreak c) ∧
        (text.length ≤ limit ∨ text.drop limit = ellipsis) := by
  have sides : oneLineChars limit text = text ↔
      (text.take limit).map withoutBreak = text.take limit ∧
        (if text.length ≤ limit then [] else ellipsis) = text.drop limit := by
    constructor
    · intro same
      refine List.append_inj ?_ (List.length_map withoutBreak)
      rw [← oneLineChars_eq, same, List.take_append_drop]
    · rintro ⟨shown, ending⟩
      rw [oneLineChars_eq, shown, ending, List.take_append_drop]
  rw [sides, map_withoutBreak_eq_self_iff]
  refine and_congr_right fun _ => ?_
  split
  · rename_i short
    exact iff_of_true (List.drop_of_length_le short).symm (.inl short)
  · rename_i long
    rw [eq_comm, or_iff_right long]

/-- A text on one line is left alone with the same limit. -/
theorem oneLineChars_oneLineChars (limit : Nat) (text : List Char) :
    oneLineChars limit (oneLineChars limit text) = oneLineChars limit text := by
  refine oneLineChars_eq_self_iff.2 ⟨fun c there => ?_, ?_⟩
  · exact not_isBreak_of_mem_oneLineChars (List.mem_of_mem_take there)
  · by_cases short : text.length ≤ limit
    · left
      rw [length_oneLineChars, if_pos short]
      exact Nat.min_le_left _ _
    · right
      have ending := (showsUpTo_iff.2 (Eq.refl (oneLineChars limit text))).ending
      rwa [if_neg short, Nat.min_eq_left (Nat.le_of_not_le short)] at ending

/-! ## Texts -/

/-- What becomes of a text that is put on one line, for every text and every limit. The line has no
line end in it. It shows as many characters of the text as the limit allows, each in its place and
only line ends replaced, and then ends, with three dots exactly if the text has more; no other line
does so. It has at most three characters more than the limit. Put on one line again, it stays as it
is. Characters are counted and cut as they are, whatever number of bytes they take. -/
theorem lines_show_texts_up_to_the_limit (limit : Nat) (text : String) :
    let line := oneLine limit text
    ('\n' ∉ line.toList ∧ '\r' ∉ line.toList) ∧
      (∀ other : String, ShowsUpTo limit text.toList other.toList ↔ other = line) ∧
      line.length ≤ limit + 3 ∧
      oneLine limit line = line := by
  intro line
  have chars : line.toList = oneLineChars limit text.toList := String.toList_ofList
  refine ⟨?_, fun other => ?_, ?_, ?_⟩
  · rw [chars]
    exact ⟨fun there => not_isBreak_of_mem_oneLineChars there (.inl rfl),
      fun there => not_isBreak_of_mem_oneLineChars there (.inr rfl)⟩
  · rw [showsUpTo_iff, ← chars, String.toList_inj]
  · have shown : min limit text.toList.length ≤ limit := Nat.min_le_left _ _
    rw [← String.length_toList, chars, length_oneLineChars]
    split <;> omega
  · rw [← String.toList_inj]
    calc (oneLine limit line).toList
        = oneLineChars limit line.toList := String.toList_ofList
      _ = oneLineChars limit (oneLineChars limit text.toList) := by rw [chars]
      _ = oneLineChars limit text.toList := oneLineChars_oneLineChars limit text.toList
      _ = line.toList := chars.symm

/-- The cut may fall between the two characters of one line end. -/
example : oneLine 2 "é\r\nx" = "é ..." := by decide

end Workbench.Text
