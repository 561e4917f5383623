/-
# Cutting at a mark

A list is cut into pieces wherever a mark stands in it. The marks are dropped, and every
mark has a piece on either side, so there is one piece more than there are marks.
-/

namespace Workbench.Text

variable {α : Type} [DecidableEq α]

/-- The pieces between marks. There is always at least one. -/
def pieces (mark : α) : List α → List (List α)
  | [] => [[]]
  | c :: rest =>
      if c = mark then [] :: pieces mark rest
      else
        match pieces mark rest with
        | first :: others => (c :: first) :: others
        | [] => [[c]]

/-- What stands before the first mark, all of it if there is none. -/
def before (mark : α) (list : List α) : List α := list.takeWhile (· ≠ mark)

/-- What stands after the first mark, nothing if there is none. -/
def after (mark : α) (list : List α) : List α := (list.dropWhile (· ≠ mark)).drop 1

variable {mark : α}

theorem pieces_mark (rest : List α) : pieces mark (mark :: rest) = [] :: pieces mark rest := by
  rw [pieces, if_pos rfl]

theorem exists_pieces (mark : α) (list : List α) :
    ∃ first others, pieces mark list = first :: others := by
  induction list with
  | nil => exact ⟨[], [], rfl⟩
  | cons c rest ih =>
      obtain ⟨first, others, shape⟩ := ih
      rw [pieces, shape]
      split
      · exact ⟨_, _, rfl⟩
      · exact ⟨_, _, rfl⟩

/-- Cutting at one mark cuts both sides. -/
theorem pieces_append_mark (first second : List α) :
    pieces mark (first ++ mark :: second) = pieces mark first ++ pieces mark second := by
  induction first with
  | nil => exact pieces_mark second
  | cons c rest ih =>
      obtain ⟨piece, others, shape⟩ := exists_pieces mark rest
      rw [List.cons_append, pieces, pieces, ih, shape]
      split
      · rfl
      · rfl

theorem pieces_of_notMem {list : List α} (absent : mark ∉ list) : pieces mark list = [list] := by
  induction list with
  | nil => rfl
  | cons c rest ih =>
      obtain ⟨other, later⟩ := List.ne_and_not_mem_of_not_mem_cons absent
      rw [pieces, if_neg other.symm, ih later]

theorem notMem_of_mem_pieces {list piece : List α} (present : piece ∈ pieces mark list) :
    mark ∉ piece := by
  induction list generalizing piece with
  | nil =>
      rw [pieces, List.mem_singleton] at present
      exact present ▸ List.not_mem_nil
  | cons c rest ih =>
      obtain ⟨first, others, shape⟩ := exists_pieces mark rest
      rw [pieces, shape] at present
      rw [shape] at ih
      split at present
      · rcases List.mem_cons.1 present with rfl | there
        · exact List.not_mem_nil
        · exact ih there
      · rename_i other
        rcases List.mem_cons.1 present with rfl | there
        · intro inside
          rcases List.mem_cons.1 inside with same | later
          · exact other same.symm
          · exact ih List.mem_cons_self later
        · exact ih (List.mem_cons_of_mem _ there)

end Workbench.Text
