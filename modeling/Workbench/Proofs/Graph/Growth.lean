/-
# Graphs that grow

Requests only ever add to a graph. Windows stay as they were created, the client goes on listing
the windows that it lists, and a tab gets its blocks at the end. So what was said about a
graph once, that a window shows a tab or that a tab lists blocks in an order, stays true.
-/

import Workbench.Proofs.Graph.Objects

namespace Workbench.ObjectGraph

/-- What one graph says of the client, the windows, the tabs and the blocks, the other says too. -/
structure Grows (before after : ObjectGraph) : Prop where
  clients : ∀ client : Client, client ∈ before .client →
    ∃ later : Client, later ∈ after .client ∧ client.windowIds ⊆ later.windowIds
  windows : ∀ window : Window, window ∈ before .window → window ∈ after .window
  tabs : ∀ tab : Tab, tab ∈ before .tab →
    ∃ later : Tab, later ∈ after .tab ∧ later.oid = tab.oid ∧ tab.blockIds <+: later.blockIds
  blocks : ∀ oid, before.Names .block oid → after.Names .block oid

namespace Grows

theorem refl (graph : ObjectGraph) : graph.Grows graph where
  clients client there := ⟨client, there, List.Subset.refl _⟩
  windows _ there := there
  tabs tab there := ⟨tab, there, rfl, List.prefix_rfl⟩
  blocks _ named := named

theorem trans {first second third : ObjectGraph} (early : first.Grows second)
    (late : second.Grows third) : first.Grows third where
  clients client there := by
    obtain ⟨between, inSecond, lists⟩ := early.clients client there
    obtain ⟨later, inThird, stillLists⟩ := late.clients between inSecond
    exact ⟨later, inThird, List.Subset.trans lists stillLists⟩
  windows window there := late.windows window (early.windows window there)
  tabs tab there := by
    obtain ⟨between, inSecond, same, more⟩ := early.tabs tab there
    obtain ⟨later, inThird, stillSame, stillMore⟩ := late.tabs between inSecond
    exact ⟨later, inThird, stillSame.trans same, more.trans stillMore⟩
  blocks oid named := late.blocks oid (early.blocks oid named)

variable {graph : ObjectGraph}

theorem add (kind : Kind) (object : kind.Object) : graph.Grows (graph.add kind object) where
  clients client there := ⟨client, mem_add there kind object, List.Subset.refl _⟩
  windows _ there := mem_add there kind object
  tabs tab there := ⟨tab, mem_add there kind object, rfl, List.prefix_rfl⟩
  blocks _ named := named.add kind object

/-- Another client may take the place of a client if it lists the same windows and perhaps more. -/
theorem put_client (distinct : ((graph .client).map Client.oid).Nodup) {client edited : Client}
    (there : client ∈ graph .client) (same : edited.oid = client.oid)
    (lists : client.windowIds ⊆ edited.windowIds) :
    graph.Grows (graph.put .client edited) where
  clients held inGraph := by
    rcases @mem_put_self graph .client held inGraph edited with ⟨replaced, now⟩ | still
    · have alone := List.inj_on_of_nodup_map distinct inGraph there (replaced.trans same)
      exact ⟨edited, now, alone ▸ lists⟩
    · exact ⟨held, still, List.Subset.refl _⟩
  windows _ inGraph := mem_put_of_ne inGraph (by decide) _
  tabs tab inGraph := ⟨tab, mem_put_of_ne inGraph (by decide) _, rfl, List.prefix_rfl⟩
  blocks _ named := named.put .client edited

/-- Another tab may take the place of a tab if it lists more blocks at the end. -/
theorem put_tab (distinct : ((graph .tab).map Tab.oid).Nodup) {tab filled : Tab}
    (there : tab ∈ graph .tab) (same : filled.oid = tab.oid)
    (more : tab.blockIds <+: filled.blockIds) : graph.Grows (graph.put .tab filled) where
  clients client inGraph := ⟨client, mem_put_of_ne inGraph (by decide) _, List.Subset.refl _⟩
  windows _ inGraph := mem_put_of_ne inGraph (by decide) _
  tabs held inGraph := by
    rcases @mem_put_self graph .tab held inGraph filled with ⟨replaced, now⟩ | still
    · have alone := List.inj_on_of_nodup_map distinct inGraph there (replaced.trans same)
      exact ⟨filled, now, replaced.symm, alone ▸ more⟩
    · exact ⟨held, still, rfl, List.prefix_rfl⟩
  blocks _ named := named.put .tab filled

end Grows

end Workbench.ObjectGraph
