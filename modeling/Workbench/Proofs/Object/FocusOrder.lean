/-
# The order of focus

The client lists its windows in the order in which they were in front. What this means after any
number of focuses is said here without looking at the steps: first come the windows that were
focused, the one that was focused last before all others, and then those that never were, in the
order in which they stood at first. The proof adds one focus at the end and moves one window.

A list in which a window stands twice has no such order. A focus then moves the first of its
places to the front, so even then no window is lost or gained.
-/

import Mathlib.Data.List.Nodup
import Workbench.Object.Client

namespace Workbench

namespace Client

variable (client : Client) (windowId : String)

/-! ## One focus -/

theorem windowIds_focusWindow_of_mem {client : Client} {windowId : String}
    (listed : windowId ∈ client.windowIds) :
    (client.focusWindow windowId).1.windowIds = windowId :: client.windowIds.erase windowId := by
  rw [focusWindow]
  by_cases front : client.windowIds.head? = some windowId
  · obtain ⟨rest, list⟩ := List.head?_eq_some_iff.1 front
    rw [if_neg fun both => both.2 front, list, List.erase_cons_head]
  · rw [if_pos ⟨listed, front⟩]

theorem windowIds_focusWindow_of_not_mem {client : Client} {windowId : String}
    (unknown : windowId ∉ client.windowIds) :
    (client.focusWindow windowId).1.windowIds = client.windowIds := by
  rw [focusWindow, if_neg fun both => unknown both.1]

/-- No window is lost and none is gained by a focus. -/
theorem perm_focusWindow : (client.focusWindow windowId).1.windowIds.Perm client.windowIds := by
  by_cases listed : windowId ∈ client.windowIds
  · rw [windowIds_focusWindow_of_mem listed]
    exact (List.perm_cons_erase listed).symm
  · rw [windowIds_focusWindow_of_not_mem listed]

/-- A focus reports a change exactly if there is one. -/
theorem focusWindow_changes_iff :
    (client.focusWindow windowId).2 = true ↔
      (client.focusWindow windowId).1.windowIds ≠ client.windowIds := by
  rw [focusWindow]
  split
  · rename_i moved
    refine iff_of_true rfl fun same => moved.2 ?_
    exact (congrArg List.head? same).symm
  · exact iff_of_false Bool.false_ne_true fun differs => differs rfl

/-- Listing a window reports a change exactly if there is one. -/
theorem addWindow_changes_iff :
    (client.addWindow windowId).2 = true ↔
      (client.addWindow windowId).1.windowIds ≠ client.windowIds := by
  rw [addWindow]
  split
  · exact iff_of_false Bool.false_ne_true fun differs => differs rfl
  · refine iff_of_true rfl fun same => ?_
    exact List.cons_ne_nil windowId [] (List.append_right_eq_self.1 same)

end Client

/-! ## Any number of focuses -/

/-- One window was focused after the last focus of another. -/
def FocusedAfter (focused : List String) (later earlier : String) : Prop :=
  ∃ before since, focused = before ++ later :: since ∧ earlier ∉ later :: since

namespace FocusedAfter

variable {focused : List String} {later earlier : String}

theorem ne (after : FocusedAfter focused later earlier) : later ≠ earlier := by
  rintro rfl
  obtain ⟨before, since, -, never⟩ := after
  exact never List.mem_cons_self

/-- The focus of a third window makes no difference to the earlier one. -/
theorem append (after : FocusedAfter focused later earlier) {windowId : String}
    (other : earlier ≠ windowId) : FocusedAfter (focused ++ [windowId]) later earlier := by
  obtain ⟨before, since, rfl, never⟩ := after
  refine ⟨before, since ++ [windowId], by rw [List.append_assoc, List.cons_append], ?_⟩
  rw [← List.cons_append, List.mem_append, List.mem_singleton]
  exact not_or.2 ⟨never, other⟩

theorem last {windowId : String} (other : earlier ≠ windowId) :
    FocusedAfter (focused ++ [windowId]) windowId earlier :=
  ⟨focused, [], rfl, by simpa using other⟩

end FocusedAfter

/-- The list of the client after focuses: first the windows that were focused, the latest first,
then the others in the order in which they stood at first. -/
def FocusOrder (first focused now : List String) : Prop :=
  ∃ front, now = front ++ first.filter (· ∉ focused) ∧
    (∀ windowId, windowId ∈ front ↔ windowId ∈ first ∧ windowId ∈ focused) ∧
    front.Pairwise (FocusedAfter focused)

namespace FocusOrder

variable {first focused now : List String}

/-- Before any focus the list is as it is. -/
theorem start (first : List String) : FocusOrder first [] first :=
  ⟨[], by simp, by simp, .nil⟩

theorem mem_iff (ordered : FocusOrder first focused now) (windowId : String) :
    windowId ∈ now ↔ windowId ∈ first := by
  obtain ⟨front, rfl, members, -⟩ := ordered
  rw [List.mem_append, members, List.mem_filter, decide_eq_true_iff]
  tauto

theorem nodup (ordered : FocusOrder first focused now) (distinct : first.Nodup) : now.Nodup := by
  obtain ⟨front, rfl, members, latestFirst⟩ := ordered
  refine List.nodup_append.2 ⟨latestFirst.imp FocusedAfter.ne, distinct.filter _, ?_⟩
  rintro windowId inFront other inRest rfl
  have never := (List.mem_filter.1 inRest).2
  exact of_decide_eq_true never ((members windowId).1 inFront).2

/-- A window that is not listed makes no difference. -/
theorem append_of_not_mem (ordered : FocusOrder first focused now) {windowId : String}
    (unknown : windowId ∉ first) : FocusOrder first (focused ++ [windowId]) now := by
  obtain ⟨front, rfl, members, latestFirst⟩ := ordered
  have other : ∀ {listed : String}, listed ∈ first → listed ≠ windowId := by
    rintro listed there rfl
    exact unknown there
  refine ⟨front, ?_, ?_, ?_⟩
  · congr 1
    refine List.filter_congr fun listed there => ?_
    simp [other there]
  · intro listed
    rw [members, List.mem_append, List.mem_singleton]
    exact and_congr_right fun there => (or_iff_left (other there)).symm
  · refine latestFirst.imp_of_mem fun _ inFront after => ?_
    exact after.append (other ((members _).1 inFront).1)

/-- A window that is listed comes to the front of all that were focused before. -/
theorem cons_erase (ordered : FocusOrder first focused now) (distinct : first.Nodup)
    {windowId : String} (listed : windowId ∈ first) :
    FocusOrder first (focused ++ [windowId]) (windowId :: now.erase windowId) := by
  rw [(ordered.nodup distinct).erase_eq_filter]
  obtain ⟨front, rfl, members, latestFirst⟩ := ordered
  refine ⟨windowId :: front.filter (· != windowId), ?_, ?_, ?_⟩
  · rw [List.filter_append, List.filter_filter, List.cons_append]
    congr 2
    refine List.filter_congr fun other _ => ?_
    by_cases same : other = windowId <;> simp [same]
  · intro other
    rw [List.mem_cons, List.mem_filter, members, bne_iff_ne, List.mem_append, List.mem_singleton]
    by_cases same : other = windowId
    · subst same
      simp [listed]
    · simp [same]
  · refine List.pairwise_cons.2 ⟨fun other there => ?_, ?_⟩
    · exact .last (bne_iff_ne.1 (List.mem_filter.1 there).2)
    · refine (latestFirst.filter _).imp_of_mem fun _ there after => ?_
      exact after.append (bne_iff_ne.1 (List.mem_filter.1 there).2)

/-- One more focus keeps the order. -/
theorem focusWindow {client : Client} (ordered : FocusOrder first focused client.windowIds)
    (distinct : first.Nodup) (windowId : String) :
    FocusOrder first (focused ++ [windowId]) (client.focusWindow windowId).1.windowIds := by
  by_cases listed : windowId ∈ first
  · rw [Client.windowIds_focusWindow_of_mem ((ordered.mem_iff windowId).2 listed)]
    exact ordered.cons_erase distinct listed
  · rw [Client.windowIds_focusWindow_of_not_mem (mt (ordered.mem_iff windowId).1 listed)]
    exact ordered.append_of_not_mem listed

end FocusOrder

end Workbench
