/-
# Announced blocks

A window is told to insert a block once the block is stored. All that was told so far fits the
graph: it was told to listed windows, about blocks of the tab that the window shows, about each
block once, and about the blocks of a tab in the order in which the tab lists them. The tab may
list more blocks than were announced, because blocks are also created without an announcement,
and because an announcement may come too late, after the failure of a request.

This stays true when the graph grows, and a block that is announced right after it was created
fits as well: it is the last of its tab, so every earlier announcement is about a block before it.
-/

import Workbench.Event
import Workbench.Proofs.Graph.Growth

namespace Workbench

/-- An event, with the window that it is sent to. -/
abbrev Sending := String × WindowEvent

namespace Sending

/-- The block that a window is told to insert. -/
def blockId (sending : Sending) : String := sending.2.action.blockId

/-- The tab of the block. -/
def tabId (sending : Sending) : String := sending.2.action.tabId

end Sending

/-- The blocks of a tab that were announced, in the order in which this happened. -/
def announcedIn (tabId : String) (sent : List Sending) : List String :=
  (sent.filter fun sending => sending.tabId = tabId).map Sending.blockId

namespace ObjectGraph

/-- The client lists a window, and the window shows a tab. -/
def Shows (graph : ObjectGraph) (windowId tabId : String) : Prop :=
  (∃ client : Client, client ∈ graph .client ∧ windowId ∈ client.windowIds) ∧
    ∃ window : Window, window ∈ graph .window ∧ window.oid = windowId ∧
      window.activeTabId = tabId

theorem Shows.grows {before after : ObjectGraph} {windowId tabId : String}
    (shows : before.Shows windowId tabId) (grows : before.Grows after) :
    after.Shows windowId tabId := by
  obtain ⟨⟨client, there, lists⟩, window, inGraph, named⟩ := shows
  obtain ⟨later, still, more⟩ := grows.clients client there
  exact ⟨⟨later, still, more lists⟩, window, grows.windows window inGraph, named⟩

/-- Everything that was sent fits the graph. -/
structure Announced (graph : ObjectGraph) (sent : List Sending) : Prop where
  addressed : ∀ sending ∈ sent, sending.2.windowId = sending.1
  shown : ∀ sending ∈ sent, graph.Shows sending.1 sending.tabId
  stored : ∀ sending ∈ sent, graph.Names .block sending.blockId
  listed : ∀ sending ∈ sent, ∃ tab : Tab, tab ∈ graph .tab ∧ tab.oid = sending.tabId ∧
    (announcedIn sending.tabId sent).Sublist tab.blockIds
  once : (sent.map Sending.blockId).Nodup

/-- A block is the last of its tab, and was not announced yet. -/
structure Unannounced (graph : ObjectGraph) (sent : List Sending) (tabId blockId : String) :
    Prop where
  stored : graph.Names .block blockId
  last : ∃ (tab : Tab) (early : List String), tab ∈ graph .tab ∧ tab.oid = tabId ∧
    tab.blockIds = early ++ [blockId] ∧ (announcedIn tabId sent).Sublist early
  fresh : blockId ∉ sent.map Sending.blockId

namespace Announced

variable {graph grown : ObjectGraph} {sent : List Sending}

theorem nothing (graph : ObjectGraph) : graph.Announced [] where
  addressed _ impossible := absurd impossible List.not_mem_nil
  shown _ impossible := absurd impossible List.not_mem_nil
  stored _ impossible := absurd impossible List.not_mem_nil
  listed _ impossible := absurd impossible List.not_mem_nil
  once := List.nodup_nil

theorem grows (announced : graph.Announced sent) (grows : graph.Grows grown) :
    grown.Announced sent where
  addressed := announced.addressed
  shown sending there := (announced.shown sending there).grows grows
  stored sending there := grows.blocks _ (announced.stored sending there)
  listed sending there := by
    obtain ⟨tab, inGraph, same, lists⟩ := announced.listed sending there
    obtain ⟨later, still, sameOid, more⟩ := grows.tabs tab inGraph
    exact ⟨later, still, sameOid.trans same, lists.trans more.sublist⟩
  once := announced.once

/-- What was announced for a tab so far is listed by the tab, if the tab is there. -/
theorem sublist (announced : graph.Announced sent) (distinct : ((graph .tab).map Tab.oid).Nodup)
    {tab : Tab} (there : tab ∈ graph .tab) : (announcedIn tab.oid sent).Sublist tab.blockIds := by
  cases some : announcedIn tab.oid sent with
  | nil => exact List.nil_sublist _
  | cons blockId rest =>
      have first : blockId ∈ announcedIn tab.oid sent := some ▸ List.mem_cons_self
      obtain ⟨sending, ofTab, -⟩ := List.mem_map.1 first
      obtain ⟨wasSent, same⟩ := List.mem_filter.1 ofTab
      have same : sending.tabId = tab.oid := by simpa using same
      obtain ⟨other, inGraph, named, lists⟩ := announced.listed sending wasSent
      cases List.inj_on_of_nodup_map distinct inGraph there (named.trans same)
      rw [same, some] at lists
      exact lists

/-- All that a window was told is about the tab that it shows. -/
theorem tabId_of_sentTo (announced : graph.Announced sent)
    (distinct : ((graph .window).map Window.oid).Nodup) {window : Window}
    (there : window ∈ graph .window) {sending : Sending} (wasSent : sending ∈ sent)
    (toWindow : sending.1 = window.oid) : sending.tabId = window.activeTabId := by
  obtain ⟨-, other, inGraph, named, shows⟩ := announced.shown sending wasSent
  cases List.inj_on_of_nodup_map distinct inGraph there (named.trans toWindow)
  exact shows.symm

/-- The blocks that a window was told about come in the order in which its tab lists them. -/
theorem sublist_of_sentTo (announced : graph.Announced sent)
    (distinctWindows : ((graph .window).map Window.oid).Nodup)
    (distinctTabs : ((graph .tab).map Tab.oid).Nodup) {window : Window} {tab : Tab}
    (windowThere : window ∈ graph .window) (tabThere : tab ∈ graph .tab)
    (shows : tab.oid = window.activeTabId) :
    ((sent.filter fun sending => sending.1 = window.oid).map Sending.blockId).Sublist
      tab.blockIds := by
  have ofTab : (sent.filter fun sending => sending.1 = window.oid) =
      (sent.filter fun sending => sending.tabId = tab.oid).filter
        fun sending => sending.1 = window.oid := by
    rw [List.filter_filter]
    refine List.filter_congr fun sending wasSent => ?_
    by_cases toWindow : sending.1 = window.oid
    · have same := announced.tabId_of_sentTo distinctWindows windowThere wasSent toWindow
      simp [toWindow, same, shows]
    · simp [toWindow]
  rw [ofTab]
  exact (List.filter_sublist.map _).trans (announced.sublist distinctTabs tabThere)

/-- A block is announced to a window that shows its tab. -/
theorem announce (announced : graph.Announced sent) {event : WindowEvent} {windowId : String}
    (addressed : event.windowId = windowId) (shows : graph.Shows windowId event.action.tabId)
    (next : graph.Unannounced sent event.action.tabId event.action.blockId) :
    graph.Announced (sent ++ [(windowId, event)]) := by
  have more (tabId : String) : announcedIn tabId (sent ++ [(windowId, event)]) =
      announcedIn tabId sent ++
        if event.action.tabId = tabId then [event.action.blockId] else [] := by
    rw [announcedIn, List.filter_append, List.map_append]
    refine congrArg _ ?_
    by_cases same : event.action.tabId = tabId <;> simp [Sending.tabId, Sending.blockId, same]
  have both {told : Sending → Prop} (old : ∀ sending ∈ sent, told sending)
      (new : told (windowId, event)) : ∀ sending ∈ sent ++ [(windowId, event)], told sending :=
    List.forall_mem_append.2 ⟨old, List.forall_mem_singleton.2 new⟩
  refine ⟨both announced.addressed addressed, both announced.shown shows,
    both announced.stored next.stored, ?_, ?_⟩
  · intro sending there
    rw [more]
    by_cases same : event.action.tabId = sending.tabId
    · obtain ⟨tab, early, inGraph, named, lists, before⟩ := next.last
      refine ⟨tab, inGraph, named.trans same, ?_⟩
      rw [if_pos same, lists, ← same]
      exact before.append_right _
    · rcases List.mem_append.1 there with old | new
      · rw [if_neg same, List.append_nil]
        exact announced.listed sending old
      · exact absurd (List.mem_singleton.1 new ▸ rfl) same
  · rw [List.map_append, List.nodup_append]
    refine ⟨announced.once, List.nodup_singleton _, ?_⟩
    intro blockId old other new same
    rw [List.map_singleton, List.mem_singleton] at new
    rw [same, new] at old
    exact next.fresh old

end Announced

end ObjectGraph

end Workbench
