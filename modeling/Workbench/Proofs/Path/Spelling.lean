/-
# How paths are spelled

A path from the root goes from name to name. Slashes stand between the names, and any number of
them may stand in one place, at the end too; a dot that stands alone between slashes names nothing.
The many spellings of one way are described here piece by piece. The components of a path are what
it spells, so two paths have the same components exactly if they are spellings of the same names.
-/

import Workbench.Proofs.Path.NormalForm

namespace Workbench.Path

variable {α : Type} [DecidableEq α] [Alphabet α]

/-- A path from the root spells the names that it leads through. The two dots are a name like any
other. -/
inductive Spells : List α → List (List α) → Prop where
  | root : Spells [separator] []
  | slash {path : List α} {names : List (List α)} :
      Spells path names → Spells (path ++ [separator]) names
  | dot {path : List α} {names : List (List α)} :
      Spells path names → path.getLast? = some separator → Spells (path ++ [dot]) names
  | name {path name : List α} {names : List (List α)} :
      Spells path names → path.getLast? = some separator → IsName name →
      Spells (path ++ name) (names ++ [name])

theorem components_append_slash (path : List α) :
    components (path ++ [separator]) = components path := by
  rw [components_append_separator]
  exact List.append_nil _

/-- Behind a slash a piece adds its own components. -/
theorem components_append_of_slash {path : List α} (slash : path.getLast? = some separator)
    (piece : List α) : components (path ++ piece) = components path ++ components piece := by
  rw [← push_of_slash slash, components_push]

namespace Spells

variable {path : List α} {names : List (List α)}

theorem isAbsolute (spelled : Spells path names) : isAbsolute path = true := by
  induction spelled with
  | root => exact isAbsolute_separator []
  | slash _ ih => exact isAbsolute_append ih _
  | dot _ _ ih => exact isAbsolute_append ih _
  | name _ _ _ ih => exact isAbsolute_append ih _

theorem components_eq (spelled : Spells path names) : components path = names := by
  induction spelled with
  | root => exact components_separator []
  | slash _ ih => rw [components_append_slash, ih]
  | dot _ slash ih => rw [components_append_of_slash slash, ih, components_dot, List.append_nil]
  | name _ slash named ih => rw [components_append_of_slash slash, ih, named.components_eq]

/-- Behind a slash a piece is a name, or it is silent. -/
theorem append_piece (spelled : Spells path names) (slash : path.getLast? = some separator)
    {piece : List α} (whole : separator ∉ piece) :
    Spells (path ++ piece) (names ++ components piece) := by
  by_cases component : isComponent piece = true
  · have named : IsName piece := ⟨component, whole⟩
    rw [named.components_eq]
    exact spelled.name slash named
  · have silent : piece = [] ∨ piece = [Path.dot] := by
      by_contra neither
      exact component (isComponent_eq_true_iff.2 (not_or.1 neither))
    rcases silent with rfl | rfl
    · rw [components_nil, List.append_nil, List.append_nil]
      exact spelled
    · rw [components_dot, List.append_nil]
      exact spelled.dot slash

/-- Behind a slash any text goes on with what it names. The induction is on the text, one piece
after another. -/
theorem append (spelled : Spells path names) (slash : path.getLast? = some separator)
    (rest : List α) : Spells (path ++ rest) (names ++ components rest) := by
  induction length : rest.length using Nat.strong_induction_on generalizing path names rest with
  | _ size ih =>
      by_cases inside : separator ∈ rest
      · obtain ⟨piece, later, rfl, whole⟩ := List.eq_append_cons_of_mem inside
        have shorter : later.length < size := by
          rw [← length, List.length_append, List.length_cons]
          omega
        have start : Spells (path ++ piece ++ [separator]) (names ++ components piece) :=
          (spelled.append_piece slash whole).slash
        have built := ih later.length shorter start List.getLast?_concat later rfl
        have same : path ++ piece ++ [separator] ++ later =
            path ++ (piece ++ separator :: later) := by simp
        rwa [same, List.append_assoc names, ← components_append_separator] at built
      · exact spelled.append_piece slash inside

end Spells

/-- A path from the root spells its components and nothing else. -/
theorem spells_iff {path : List α} {names : List (List α)} :
    Spells path names ↔ isAbsolute path = true ∧ components path = names := by
  constructor
  · intro spelled
    exact ⟨spelled.isAbsolute, spelled.components_eq⟩
  · rintro ⟨rooted, rfl⟩
    obtain ⟨rest, rfl⟩ := exists_of_isAbsolute rooted
    rw [components_separator]
    exact Spells.root.append rfl rest

/-- Two paths from the root lead through the same names. -/
def SameWay (first second : List α) : Prop :=
  ∃ names, Spells first names ∧ Spells second names

theorem sameWay_iff {first second : List α} :
    SameWay first second ↔
      isAbsolute first = true ∧ isAbsolute second = true ∧
        components first = components second := by
  constructor
  · rintro ⟨names, one, other⟩
    exact ⟨one.isAbsolute, other.isAbsolute, one.components_eq.trans other.components_eq.symm⟩
  · rintro ⟨one, other, same⟩
    exact ⟨_, spells_iff.2 ⟨one, same⟩, spells_iff.2 ⟨other, rfl⟩⟩

end Workbench.Path
