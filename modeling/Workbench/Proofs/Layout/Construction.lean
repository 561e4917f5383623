/-
# The order in which a tree is built

The steps of a layout build a tree, so a step needs all of its ancestors to be there when its
turn comes. The check of a layout asks less of a step, only that its parent was inserted. But it
asks that of every step, so the paths that it has let pass are closed: the ancestors of each of
them are among them. Among closed paths a path has all of its ancestors exactly if it has its
parent.

Layouts are cut in two here to say which steps come before a step: a layout that reads as some
steps in front, a step, and the rest behind it.
-/

import Mathlib.Data.List.Basic
import Mathlib.Data.List.Induction
import Workbench.Layout

namespace Workbench

/-- A path leads to a place above that of another path. The root of a tree has no path, so the
empty path is nobody's ancestor. -/
def IndexPath.IsAncestor (ancestor path : IndexPath) : Prop :=
  ancestor ≠ [] ∧ ancestor <+: path ∧ ancestor ≠ path

/-- The ancestors of a path are its parent and the ancestors of its parent. -/
theorem IndexPath.isAncestor_iff {ancestor path : IndexPath} (some : path ≠ []) :
    ancestor.IsAncestor path ↔ ancestor ≠ [] ∧
      (ancestor = path.dropLast ∨ ancestor.IsAncestor path.dropLast) := by
  have rebuilt := List.dropLast_concat_getLast some
  have above : ancestor <+: path ∧ ancestor ≠ path ↔ ancestor <+: path.dropLast := by
    constructor
    · rintro ⟨front, other⟩
      rw [← rebuilt, List.prefix_concat_iff, rebuilt] at front
      exact front.resolve_left other
    · intro front
      refine ⟨front.trans (List.dropLast_prefix path), ?_⟩
      rintro rfl
      have shorter := front.length_le
      have long := List.length_pos_iff.2 some
      rw [List.length_dropLast] at shorter
      omega
  rw [IsAncestor, IsAncestor, above]
  by_cases same : ancestor = path.dropLast
  · simp [same]
  · simp only [same, false_or, ne_eq, not_false_eq_true, and_true, and_self_left]

namespace Layout

/-- The paths of the steps, in order. -/
def paths (layout : Layout) : List IndexPath := layout.map LayoutStep.indexPath

/-- A path names a place in a tree, and all of its ancestors have been inserted. -/
structure HasPlace (inserted : List IndexPath) (path : IndexPath) : Prop where
  named : path ≠ []
  ancestors : ∀ ancestor : IndexPath, ancestor.IsAncestor path → ancestor ∈ inserted

/-- Every step has a place among the steps before it. -/
def InOrder (layout : Layout) : Prop :=
  ∀ (front : Layout) (step : LayoutStep) (back : Layout), layout = front ++ step :: back →
    HasPlace front.paths step.indexPath

/-- What is said about a step that has no place. -/
def refusal (position : Nat) (path : IndexPath) : LayoutError :=
  if path = [] then .emptyIndexPath position else .parentNotInserted position path

theorem HasPlace.mono {inserted others : List IndexPath} {path : IndexPath}
    (place : HasPlace inserted path) (more : inserted ⊆ others) : HasPlace others path :=
  ⟨place.named, fun ancestor above => more (place.ancestors ancestor above)⟩

/-! ## Layouts in order -/

theorem inOrder_nil : InOrder [] := by
  intro front step back impossible
  simp at impossible

/-- A layout stays in order when a step that has a place is put behind it. -/
theorem InOrder.concat {layout : Layout} (ordered : layout.InOrder) {step : LayoutStep}
    (place : HasPlace layout.paths step.indexPath) : InOrder (layout ++ [step]) := by
  intro front other back split
  rcases List.eq_nil_or_concat' back with rfl | ⟨others, last, rfl⟩
  · obtain ⟨rfl, same⟩ := List.append_inj' split rfl
    cases same
    exact place
  · rw [← List.cons_append, ← List.append_assoc] at split
    obtain ⟨rfl, -⟩ := List.append_inj' split rfl
    exact ordered front other others rfl

/-- What stands in front of a layout in order is in order. -/
theorem InOrder.of_append {layout rest : Layout} (ordered : InOrder (layout ++ rest)) :
    layout.InOrder := by
  rintro front step back rfl
  exact ordered front step (back ++ rest) (List.append_assoc ..)

/-- A step without descendants can be taken out of a layout in order. -/
theorem InOrder.without {front back : Layout} {step : LayoutStep}
    (ordered : InOrder (front ++ step :: back))
    (childless : ∀ other ∈ front ++ back, ¬ step.indexPath.IsAncestor other.indexPath) :
    InOrder (front ++ back) := by
  intro first other later split
  have alone : ¬ step.indexPath.IsAncestor other.indexPath := childless other (by simp [split])
  have behind : ∀ middle : Layout, first = front ++ middle → back = middle ++ other :: later →
      HasPlace first.paths other.indexPath := by
    rintro middle rfl rfl
    have place := ordered (front ++ step :: middle) other later (by simp)
    refine ⟨place.named, fun ancestor above => ?_⟩
    have there := place.ancestors ancestor above
    rw [paths, List.map_append, List.map_cons, List.mem_append, List.mem_cons] at there
    rw [paths, List.map_append, List.mem_append]
    rcases there with inFront | rfl | between
    · exact .inl inFront
    · exact absurd above alone
    · exact .inr between
  rcases List.append_eq_append_iff.1 split with ⟨middle, rest, same⟩ | ⟨middle, rest, same⟩
  · exact behind middle rest same
  · cases middle with
    | nil => exact behind [] (by simpa using rest.symm) same.symm
    | cons head between =>
        subst rest
        cases same
        exact ordered first other (between ++ step :: back) (by simp)

/-- The paths of a layout in order are closed: each has a place among them. -/
theorem InOrder.closed {layout : Layout} (ordered : layout.InOrder) {path : IndexPath}
    (there : path ∈ layout.paths) : HasPlace layout.paths path := by
  obtain ⟨step, present, rfl⟩ := List.mem_map.1 there
  obtain ⟨front, back, rfl⟩ : ∃ front back : Layout, layout = front ++ step :: back :=
    List.append_of_mem present
  exact (ordered front step back rfl).mono (by simp [paths])

/-- Among the paths of a layout in order a path has a place exactly if its parent is there. -/
theorem InOrder.hasPlace_iff {layout : Layout} (ordered : layout.InOrder) {path : IndexPath} :
    HasPlace layout.paths path ↔
      path ≠ [] ∧ (path.dropLast = [] ∨ path.dropLast ∈ layout.paths) := by
  constructor
  · intro place
    refine ⟨place.named, or_iff_not_imp_left.2 fun parent => ?_⟩
    exact place.ancestors _ ((IndexPath.isAncestor_iff place.named).2 ⟨parent, .inl rfl⟩)
  · rintro ⟨named, parent⟩
    refine ⟨named, fun ancestor above => ?_⟩
    obtain ⟨some, rfl | higher⟩ := (IndexPath.isAncestor_iff named).1 above
    · exact parent.resolve_left some
    · have place : path.dropLast ∈ layout.paths := parent.resolve_left fun root => by
        rw [root] at higher
        exact some (List.prefix_nil.1 higher.2.1)
      exact (ordered.closed place).ancestors ancestor higher

/-- Either a layout is in order, or some step is the first that has no place. -/
theorem inOrder_or_exists_first (layout : Layout) :
    layout.InOrder ∨
      ∃ (front : Layout) (step : LayoutStep) (back : Layout), layout = front ++ step :: back ∧
        front.InOrder ∧ ¬ HasPlace front.paths step.indexPath := by
  induction layout using List.reverseRecOn with
  | nil => exact .inl inOrder_nil
  | append_singleton layout last ih =>
      rcases ih with ordered | ⟨front, step, back, rfl, ordered, homeless⟩
      · by_cases place : HasPlace (paths layout) last.indexPath
        · exact .inl (ordered.concat place)
        · exact .inr ⟨layout, last, [], rfl, ordered, place⟩
      · exact .inr ⟨front, step, back ++ [last], by simp, ordered, homeless⟩

/-! ## The check -/

/-- One step of the check, behind steps that are in order. It looks for the parent, and so it
finds out whether the step has a place. -/
theorem checkFrom_cons {layout : Layout} (ordered : layout.InOrder) (step : LayoutStep)
    (rest : Layout) :
    (HasPlace layout.paths step.indexPath →
      checkFrom layout.length layout.paths.reverse (step :: rest) =
        checkFrom (layout ++ [step]).length (paths (layout ++ [step])).reverse rest) ∧
    (¬ HasPlace layout.paths step.indexPath →
      checkFrom layout.length layout.paths.reverse (step :: rest) =
        .error (refusal layout.length step.indexPath)) := by
  have paths_concat : (paths (layout ++ [step])).reverse =
      step.indexPath :: layout.paths.reverse := by simp [paths]
  rw [ordered.hasPlace_iff, paths_concat, List.length_append]
  by_cases named : step.indexPath = []
  · simp [checkFrom, refusal, named]
  · by_cases parent : step.indexPath.dropLast = [] ∨ step.indexPath.dropLast ∈ layout.paths
    · simp [checkFrom, named, parent]
    · simp [checkFrom, refusal, named, parent]

/-- The check lets pass what is in order, and goes on with what stands behind it. -/
theorem validate_append {layout : Layout} (ordered : layout.InOrder) (rest : Layout) :
    validate (layout ++ rest) = checkFrom layout.length layout.paths.reverse rest := by
  induction layout using List.reverseRecOn generalizing rest with
  | nil => rfl
  | append_singleton layout last ih =>
      have place := ordered layout last [] rfl
      rw [List.append_assoc, ih ordered.of_append, List.singleton_append,
        (checkFrom_cons ordered.of_append last rest).1 place]

/-- A layout in order is accepted. -/
theorem validate_of_inOrder {layout : Layout} (ordered : layout.InOrder) :
    layout.validate = .ok () := by
  have passed := validate_append ordered []
  rwa [List.append_nil] at passed

/-- The first step that has no place is refused. -/
theorem validate_of_first {front back : Layout} {step : LayoutStep} (ordered : front.InOrder)
    (homeless : ¬ HasPlace front.paths step.indexPath) :
    validate (front ++ step :: back) = .error (refusal front.length step.indexPath) :=
  (validate_append ordered _).trans ((checkFrom_cons ordered step back).2 homeless)

theorem validate_eq_ok_iff (layout : Layout) : layout.validate = .ok () ↔ layout.InOrder := by
  refine ⟨fun passed => ?_, validate_of_inOrder⟩
  rcases layout.inOrder_or_exists_first with done | ⟨front, step, back, rfl, ordered, homeless⟩
  · exact done
  · rw [validate_of_first ordered homeless] at passed
    cases passed

theorem validate_eq_error_iff (layout : Layout) (problem : LayoutError) :
    layout.validate = .error problem ↔
      ∃ (front : Layout) (step : LayoutStep) (back : Layout), layout = front ++ step :: back ∧
        front.InOrder ∧ ¬ HasPlace front.paths step.indexPath ∧
        problem = refusal front.length step.indexPath := by
  constructor
  · intro refused
    rcases layout.inOrder_or_exists_first with done | ⟨front, step, back, rfl, ordered, homeless⟩
    · rw [validate_of_inOrder done] at refused
      cases refused
    · rw [validate_of_first ordered homeless, Except.error.injEq] at refused
      exact ⟨front, step, back, rfl, ordered, homeless, refused.symm⟩
  · rintro ⟨front, step, back, rfl, ordered, homeless, rfl⟩
    exact validate_of_first ordered homeless

/-- The check accepts exactly the layouts whose steps can build a tree in their order, where
each step comes after steps for all of its ancestors. Of any other layout it refuses the first
step for which this fails: if the step has no path it says so, and otherwise it says that the
parent is not there yet. So whatever stands in front of an accepted layout is accepted, and a
step can be taken out that no other step descends from. -/
theorem layouts_are_accepted_in_construction_order (layout : Layout) :
    (layout.validate = .ok () ↔ layout.InOrder) ∧
    (∀ problem, layout.validate = .error problem ↔
      ∃ (front : Layout) (step : LayoutStep) (back : Layout), layout = front ++ step :: back ∧
        front.InOrder ∧ ¬ HasPlace front.paths step.indexPath ∧
        problem = refusal front.length step.indexPath) ∧
    (∀ front : Layout, front <+: layout → layout.validate = .ok () → front.validate = .ok ()) ∧
    ∀ (front : Layout) (step : LayoutStep) (back : Layout), layout = front ++ step :: back →
      (∀ other ∈ front ++ back, ¬ step.indexPath.IsAncestor other.indexPath) →
      layout.validate = .ok () → validate (front ++ back) = .ok () := by
  refine ⟨validate_eq_ok_iff layout, validate_eq_error_iff layout, ?_, ?_⟩
  · rintro front ⟨rest, rfl⟩ passed
    have ordered := (validate_eq_ok_iff _).1 passed
    exact validate_of_inOrder ordered.of_append
  · rintro front step back rfl childless passed
    have ordered := (validate_eq_ok_iff _).1 passed
    exact validate_of_inOrder (ordered.without childless)

end Layout

end Workbench
