/-
# What stands at the ends of a text

Characters of one sort are cut off at the end of a text, and sometimes at its beginning as well.
What is left ends with a character of another sort, or it is empty; this and the sort of what was
cut off determine it. So a trimmed text can be told from the text that it comes from, as white
space, what is left, and white space, without saying how the white space was found.
-/

import Mathlib.Data.List.DropRight
import Workbench.Text.Blank

namespace Workbench.Text

variable {α : Type} {p : α → Bool}

/-- A text is cut where the characters of one sort at its end begin. -/
theorem exists_cut (p : α → Bool) (text : List α) :
    ∃ front back, text = front ++ back ∧ (∀ c ∈ back, p c = true) ∧
      ∀ last, front.getLast? = some last → p last = false := by
  refine ⟨text.rdropWhile p, text.rtakeWhile p, List.rdropWhile_append_rtakeWhile.symm,
    fun c there => List.mem_rtakeWhile_imp there, fun last found => ?_⟩
  have some : text.rdropWhile p ≠ [] := by
    intro none
    rw [none] at found
    cases found
  have fails := List.rdropWhile_last_not p text some
  rw [List.getLast?_eq_some_getLast some, Option.some.injEq] at found
  rwa [found, Bool.not_eq_true] at fails

/-- There is only one place for such a cut. -/
theorem rdropWhile_append_of_getLast? {front back : List α} (all : ∀ c ∈ back, p c = true)
    (other : ∀ last, front.getLast? = some last → p last = false) :
    (front ++ back).rdropWhile p = front := by
  have reversed : ∀ c ∈ back.reverse, p c = true := fun c there =>
    all c (List.mem_reverse.1 there)
  rw [List.rdropWhile, List.reverse_append, List.dropWhile_append_of_pos reversed]
  refine List.rdropWhile_eq_self_iff.2 fun some last => ?_
  rw [other _ (List.getLast?_eq_some_getLast some)] at last
  exact Bool.false_ne_true last

/-- The same at the beginning of a text. -/
theorem dropWhile_append_of_head? {front back : List α} (all : ∀ c ∈ front, p c = true)
    (other : ∀ first, back.head? = some first → p first = false) :
    (front ++ back).dropWhile p = back := by
  rw [List.dropWhile_append_of_pos all]
  cases back with
  | nil => rfl
  | cons first rest => exact List.dropWhile_cons_of_neg (Bool.eq_false_iff.1 (other first rfl))

/-! ## White space -/

/-- A text has white space around another, which has none at its own ends. -/
structure Surrounds (text inner : List Char) : Prop where
  around : ∃ lead trail, text = lead ++ (inner ++ trail) ∧ (∀ c ∈ lead, isBlank c = true) ∧
    ∀ c ∈ trail, isBlank c = true
  begins : ∀ first, inner.head? = some first → isBlank first = false
  ends : ∀ last, inner.getLast? = some last → isBlank last = false

theorem toList_trim (text : String) :
    (trim text).toList = (text.toList.dropWhile isBlank).rdropWhile isBlank :=
  String.toList_ofList

theorem surrounds_trim (text : String) : Surrounds text.toList (trim text).toList := by
  obtain ⟨inner, trail, cut, blank, ends⟩ := exists_cut isBlank (text.toList.dropWhile isBlank)
  have left : (trim text).toList = inner := by
    rw [toList_trim, cut, rdropWhile_append_of_getLast? blank ends]
  rw [left]
  refine ⟨⟨text.toList.takeWhile isBlank, trail, ?_, ?_, blank⟩, ?_, ends⟩
  · rw [← cut, List.takeWhile_append_dropWhile]
  · exact fun c there => List.mem_takeWhile_imp there
  · intro first found
    have visible := List.head?_dropWhile_not isBlank text.toList
    rw [cut, List.head?_append, found] at visible
    exact visible

/-- A text is trimmed to what it has white space around. -/
theorem trim_eq_iff {text inner : String} :
    trim text = inner ↔ Surrounds text.toList inner.toList := by
  constructor
  · rintro rfl
    exact surrounds_trim text
  · rintro ⟨⟨lead, trail, cut, blankLead, blankTrail⟩, begins, ends⟩
    rw [← String.toList_inj, toList_trim, cut]
    cases visible : inner.toList with
    | nil =>
        have blank : ∀ c ∈ lead ++ ([] ++ trail), isBlank c = true := by
          intro c there
          exact (List.mem_append.1 there).elim (blankLead c) (blankTrail c)
        rw [List.dropWhile_eq_nil_iff.2 blank, List.rdropWhile_nil]
    | cons first rest =>
        rw [visible] at begins ends
        have start : ∀ c, (first :: rest ++ trail).head? = some c → isBlank c = false := begins
        rw [dropWhile_append_of_head? blankLead start,
          rdropWhile_append_of_getLast? blankTrail ends]

end Workbench.Text
