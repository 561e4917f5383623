/-
# References between objects

The client lists windows, a window shows a tab of a workspace, and tabs own blocks. In a sound
graph each of these references leads to an object, no window is listed twice, and the tabs
share out the blocks: every block is listed in one place and nowhere else.

Objects are added in an order in which references lead backwards, so a graph stays sound. Only
a block has to come together with its entry in a tab; between the two it would be lost.
-/

import Workbench.Proofs.Graph.Objects

namespace Workbench.ObjectGraph

/-- Whether a workspace has a tab, and the tab is there. -/
def Hosts (graph : ObjectGraph) (workspaceId tabId : String) : Prop :=
  (∃ workspace : Workspace, workspace ∈ graph .workspace ∧ workspace.oid = workspaceId ∧
    tabId ∈ workspace.tabIds) ∧ graph.Names .tab tabId

/-- Every reference leads to an object, and the tabs share out the blocks. -/
structure Sound (graph : ObjectGraph) : Prop where
  /-- The client lists windows that are there, none of them twice. -/
  listed : ∀ client : Client, client ∈ graph .client →
    client.windowIds.Nodup ∧ ∀ id ∈ client.windowIds, graph.Names .window id
  /-- A window shows a tab of its workspace. -/
  shown : ∀ window : Window, window ∈ graph .window →
    graph.Hosts window.workspaceId window.activeTabId
  /-- The lists of all tabs together are a list of all blocks. -/
  placed : ((graph .tab).flatMap Tab.blockIds).Perm ((graph .block).map Block.oid)

variable {graph : ObjectGraph}

/-! ## Adding objects -/

theorem Hosts.add {workspaceId tabId : String} (hosts : graph.Hosts workspaceId tabId)
    (kind : Kind) (object : kind.Object) : (graph.add kind object).Hosts workspaceId tabId := by
  obtain ⟨⟨workspace, there, same, has⟩, named⟩ := hosts
  exact ⟨⟨workspace, mem_add there kind object, same, has⟩, named.add kind object⟩

/-- A workspace that is not replaced keeps its tabs. -/
theorem Hosts.put {workspaceId tabId : String} (hosts : graph.Hosts workspaceId tabId)
    {kind : Kind} (kept : kind ≠ .workspace) (object : kind.Object) :
    (graph.put kind object).Hosts workspaceId tabId := by
  obtain ⟨⟨workspace, there, same, has⟩, named⟩ := hosts
  refine ⟨⟨workspace, ?_, same, has⟩, named.put kind object⟩
  rw [put_of_ne graph (Ne.symm kept)]
  exact there

namespace Sound

theorem empty : Sound .empty where
  listed := fun _ impossible => absurd impossible List.not_mem_nil
  shown := fun _ impossible => absurd impossible List.not_mem_nil
  placed := List.Perm.refl []

section Adding

variable (sound : graph.Sound) (kind : Kind) (object : kind.Object)

include sound

/-- What is not a client leaves the lists of windows alone. -/
theorem listed_add (notClient : kind ≠ .client) (client : Client)
    (there : client ∈ graph.add kind object .client) :
    client.windowIds.Nodup ∧
      ∀ id ∈ client.windowIds, (graph.add kind object).Names .window id := by
  rw [add_of_ne graph (Ne.symm notClient)] at there
  obtain ⟨once, known⟩ := sound.listed client there
  exact ⟨once, fun id listed => (known id listed).add kind object⟩

/-- What is not a window leaves the windows alone. -/
theorem shown_add (notWindow : kind ≠ .window) (window : Window)
    (there : window ∈ graph.add kind object .window) :
    (graph.add kind object).Hosts window.workspaceId window.activeTabId := by
  rw [add_of_ne graph (Ne.symm notWindow)] at there
  exact (sound.shown window there).add kind object

/-- What is neither a tab nor a block leaves the blocks where they are. -/
theorem placed_add (notTab : kind ≠ .tab) (notBlock : kind ≠ .block) :
    ((graph.add kind object .tab).flatMap Tab.blockIds).Perm
      ((graph.add kind object .block).map Block.oid) := by
  rw [add_of_ne graph (Ne.symm notTab), add_of_ne graph (Ne.symm notBlock)]
  exact sound.placed

/-- A client without windows refers to nothing. -/
theorem add_client {client : Client} (without : client.windowIds = []) :
    (graph.add .client client).Sound where
  listed := by
    intro held there
    rw [add_self, List.mem_append, List.mem_singleton] at there
    rcases there with old | rfl
    · obtain ⟨once, known⟩ := sound.listed held old
      exact ⟨once, fun id listed => (known id listed).add .client client⟩
    · rw [without]
      exact ⟨List.nodup_nil, fun _ impossible => absurd impossible List.not_mem_nil⟩
  shown := sound.shown_add .client client (by decide)
  placed := sound.placed_add .client client (by decide) (by decide)

/-- A tab without blocks takes no block from another tab. -/
theorem add_tab {tab : Tab} (without : tab.blockIds = []) : (graph.add .tab tab).Sound where
  listed := sound.listed_add .tab tab (by decide)
  shown := sound.shown_add .tab tab (by decide)
  placed := by
    rw [add_self, add_of_ne graph (by decide), List.flatMap_append, List.flatMap_singleton,
      without, List.append_nil]
    exact sound.placed

/-- A workspace may have any tabs; it is the windows that need them. -/
theorem add_workspace (workspace : Workspace) : (graph.add .workspace workspace).Sound where
  listed := sound.listed_add .workspace workspace (by decide)
  shown := sound.shown_add .workspace workspace (by decide)
  placed := sound.placed_add .workspace workspace (by decide) (by decide)

/-- A window can be added once its workspace has its tab. -/
theorem add_window {window : Window}
    (hosted : graph.Hosts window.workspaceId window.activeTabId) :
    (graph.add .window window).Sound where
  listed := sound.listed_add .window window (by decide)
  shown := by
    intro held there
    rw [add_self, List.mem_append, List.mem_singleton] at there
    rcases there with old | rfl
    · exact (sound.shown held old).add .window window
    · exact hosted.add .window held
  placed := sound.placed_add .window window (by decide) (by decide)

end Adding

/-- The client can be replaced by one that lists windows that are there, none of them twice. -/
theorem put_client (sound : graph.Sound) {client : Client} (once : client.windowIds.Nodup)
    (known : ∀ id ∈ client.windowIds, graph.Names .window id) :
    (graph.put .client client).Sound where
  listed := by
    intro held there
    rw [put_self] at there
    obtain ⟨old, inGraph, rfl⟩ := List.mem_map.1 there
    split
    · exact ⟨once, fun id listed => (known id listed).put .client client⟩
    · obtain ⟨oldOnce, oldKnown⟩ := sound.listed old inGraph
      exact ⟨oldOnce, fun id listed => (oldKnown id listed).put .client client⟩
  shown := by
    intro window there
    rw [put_of_ne graph (by decide)] at there
    exact @Hosts.put graph _ _ (sound.shown window there) .client (by decide) client
  placed := by
    rw [put_of_ne graph (by decide), put_of_ne graph (by decide)]
    exact sound.placed

/-! ## A block in a tab -/

/-- When one tab gets a block, so do the tabs together. -/
theorem perm_flatMap_put {tabs : List Tab} (distinct : (tabs.map Tab.oid).Nodup)
    {owner tab : Tab} (there : owner ∈ tabs) (same : tab.oid = owner.oid) {id : String}
    (more : tab.blockIds = owner.blockIds ++ [id]) :
    ((tabs.map fun held => if held.oid = tab.oid then tab else held).flatMap Tab.blockIds).Perm
      (tabs.flatMap Tab.blockIds ++ [id]) := by
  induction tabs with
  | nil => exact absurd there List.not_mem_nil
  | cons first rest ih =>
      obtain ⟨alone, distinctRest⟩ := List.nodup_cons.1 distinct
      rw [List.map_cons, List.flatMap_cons, List.flatMap_cons]
      rcases List.mem_cons.1 there with rfl | later
      · have others : (rest.map fun held => if held.oid = tab.oid then tab else held) = rest := by
          refine (List.map_congr_left ?_).trans (List.map_id' rest)
          intro held inRest
          apply if_neg
          intro equal
          exact alone (List.mem_map.2 ⟨held, inRest, equal.trans same⟩)
        rw [others, if_pos same.symm, more, List.append_assoc, List.append_assoc]
        exact List.Perm.append_left _ List.perm_append_comm
      · have apart : first.oid ≠ tab.oid :=
          fun equal => alone (List.mem_map.2 ⟨owner, later, same.symm.trans equal.symm⟩)
        rw [if_neg apart, List.append_assoc]
        exact List.Perm.append_left _ (ih distinctRest later)

/-- A block and its entry in a tab keep the graph sound together. -/
theorem add_block (sound : graph.Sound) (distinct : ((graph .tab).map Tab.oid).Nodup)
    {block : Block} {owner tab : Tab} (there : owner ∈ graph .tab) (same : tab.oid = owner.oid)
    (more : tab.blockIds = owner.blockIds ++ [block.oid]) :
    ((graph.add .block block).put .tab tab).Sound where
  listed := by
    intro client inGraph
    rw [put_of_ne _ (by decide), add_of_ne graph (by decide)] at inGraph
    obtain ⟨once, known⟩ := sound.listed client inGraph
    exact ⟨once, fun id listed => ((known id listed).add .block block).put .tab tab⟩
  shown := by
    intro window inGraph
    rw [put_of_ne _ (by decide), add_of_ne graph (by decide)] at inGraph
    exact @Hosts.put _ _ _ ((sound.shown window inGraph).add .block block) .tab (by decide) tab
  placed := by
    rw [put_self, put_of_ne _ (by decide), add_self, add_of_ne graph (by decide), List.map_append]
    exact (perm_flatMap_put distinct there same more).trans (sound.placed.append_right _)

/-! ## Where a block is -/

/-- Every block that a tab lists is there. -/
theorem names_of_mem_blockIds (sound : graph.Sound) {tab : Tab} (there : tab ∈ graph .tab)
    {id : String} (listed : id ∈ tab.blockIds) : graph.Names .block id := by
  have together : id ∈ (graph .tab).flatMap Tab.blockIds :=
    List.mem_flatMap.2 ⟨tab, there, listed⟩
  obtain ⟨block, inGraph, same⟩ := List.mem_map.1 (sound.placed.mem_iff.1 together)
  exact ⟨block, inGraph, same⟩

/-- What is listed once by several tabs together is listed once by one of them, and by no
other. -/
theorem exists_only_tab {tabs : List Tab} {id : String}
    (once : (tabs.flatMap Tab.blockIds).count id = 1) :
    ∃ tab ∈ tabs, tab.blockIds.count id = 1 ∧ ∀ other ∈ tabs, id ∈ other.blockIds → other = tab := by
  induction tabs with
  | nil => cases once
  | cons first rest ih =>
      rw [List.flatMap_cons, List.count_append] at once
      by_cases here : id ∈ first.blockIds
      · have positive : 0 < first.blockIds.count id := List.count_pos_iff.2 here
        have nowhereElse : (rest.flatMap Tab.blockIds).count id = 0 := by omega
        refine ⟨first, List.mem_cons_self, by omega, ?_⟩
        intro other there listed
        rcases List.mem_cons.1 there with same | later
        · exact same
        · exact absurd (List.mem_flatMap.2 ⟨other, later, listed⟩)
            (List.count_eq_zero.1 nowhereElse)
      · rw [List.count_eq_zero.2 here, Nat.zero_add] at once
        obtain ⟨tab, there, count, only⟩ := ih once
        refine ⟨tab, List.mem_cons_of_mem first there, count, ?_⟩
        intro other inList listed
        rcases List.mem_cons.1 inList with rfl | later
        · exact absurd listed here
        · exact only other later listed

/-- Every block is listed once, by one tab only. -/
theorem exists_only_owner (sound : graph.Sound) (distinct : ((graph .block).map Block.oid).Nodup)
    {block : Block} (there : block ∈ graph .block) :
    ∃ tab : Tab, tab ∈ graph .tab ∧ tab.blockIds.count block.oid = 1 ∧
      ∀ other : Tab, other ∈ graph .tab → block.oid ∈ other.blockIds → other = tab := by
  apply exists_only_tab
  rw [sound.placed.count_eq]
  exact List.count_eq_one_of_mem distinct (List.mem_map_of_mem there)

end Sound

end Workbench.ObjectGraph
