/-
# Building the graph

Every request adds to a sound graph in steps that keep it sound, so it does not matter at which
of its store calls a request fails. This needs a condition for the middle of a request: a
window is stored because its workspace was stored before, and it is listed because it
is stored. The conditions below say what a request may rely on when it begins, and what the
next one may rely on if it succeeds. A failure promises nothing but a sound graph.

Nothing is asked of the identifiers that are drawn. One that is taken makes its creation fail.
-/

import Workbench.Proofs.Graph.References
import Workbench.Proofs.Graph.Steps
import Workbench.Proofs.Request.Run

namespace Workbench

open ObjectGraph

/-! ## Store calls -/

/-- From a sound graph with a property the call leads to a sound graph, which has another property
if the call succeeds. -/
def StoreCall.Builds (before : ObjectGraph → Prop) (call : StoreCall)
    (after : call.Value → ObjectGraph → Prop) : Prop :=
  ∀ moment context table graph, Table.Holds table graph → graph.Sound → before graph →
    ∃ grown, (call.run moment context table).table.Holds grown ∧ grown.Sound ∧
      ∀ value, (call.run moment context table).result = .ok value → after value grown

namespace StoreCall.Builds

variable {before : ObjectGraph → Prop}

/-- A call that does not touch the table. -/
theorem of_table_eq {call : StoreCall}
    (silent : ∀ moment context table, (call.run moment context table).table = table) :
    call.Builds before fun _ _ => True := by
  intro moment context table graph holds sound _
  rw [silent]
  exact ⟨graph, holds, sound, fun _ _ => trivial⟩

theorem getSingleton (kind : Kind) : (getSingleton kind).Builds before fun _ _ => True := by
  apply of_table_eq
  intro moment context table
  simp only [run, Store.getSingleton]
  split <;> rfl

theorem mustGet (kind : Kind) (oid : String) :
    (mustGet kind oid).Builds before fun _ _ => True :=
  of_table_eq fun _ _ _ => rfl

/-- A creation of an object that the graph can take. -/
theorem create {kind : Kind} {object : kind.Object} {after : kind.Object → ObjectGraph → Prop}
    (plain : kind.metadata object = .empty)
    (takes : ∀ graph : ObjectGraph, graph.Sound → before graph →
      (graph.add kind (kind.withVersion object 1)).Sound ∧
        after (kind.withVersion object 1) (graph.add kind (kind.withVersion object 1))) :
    (create kind object).Builds before after := by
  intro moment context table graph holds sound pre
  obtain ⟨grownSound, promised⟩ := takes graph sound pre
  rcases holds.create_cases moment context plain with ⟨problem, failed, same⟩ | ⟨created, grown⟩
  · refine ⟨graph, same, sound, ?_⟩
    intro value impossible
    cases failed.symm.trans impossible
  · refine ⟨_, grown, grownSound, ?_⟩
    intro value same
    cases created.symm.trans same
    exact promised

/-- An edit of the client after which it lists windows that are there, none of them twice. -/
theorem modifyClient {edit : Client → Client × Bool}
    (keeps : ∀ (graph : ObjectGraph) (client : Client), graph.Sound → before graph →
      client ∈ graph .client → ∀ edited, edit client = (edited, true) →
        edited.metadata = client.metadata ∧ edited.windowIds.Nodup ∧
          ∀ id ∈ edited.windowIds, graph.Names .window id) :
    (modifySingleton .client edit).Builds before fun _ _ => True := by
  intro moment context table graph holds sound pre
  rcases holds.modifyClient_cases moment context fun client inGraph edited answer =>
      (keeps graph client sound pre inGraph edited answer).1 with
    same | ⟨client, edited, inGraph, answer, grown⟩
  · exact ⟨graph, same, sound, fun _ _ => trivial⟩
  · obtain ⟨-, once, known⟩ := keeps graph client sound pre inGraph edited answer
    exact ⟨_, grown, sound.put_client once known, fun _ _ => trivial⟩

/-- A client without windows can always be added. -/
theorem newClient (oid : String) :
    (StoreCall.create .client (Client.new oid)).Builds before fun _ _ => True :=
  create rfl fun _ sound _ => ⟨sound.add_client rfl, trivial⟩

theorem newTab (oid name : String) :
    (StoreCall.create .tab (Tab.new oid name)).Builds before
      fun tab graph => graph.Names .tab (Tab.oid tab) :=
  create rfl fun _ sound _ => ⟨sound.add_tab rfl, names_add_self _⟩

/-- A workspace with a tab that is there. -/
theorem newWorkspace (oid name tabId : String) :
    (StoreCall.create .workspace (Workspace.addTab (.new oid name) tabId)).Builds
      (fun graph => graph.Names .tab tabId)
      fun workspace graph => graph.Hosts (Workspace.oid workspace) tabId := by
  refine create rfl fun graph sound named => ⟨sound.add_workspace _, ⟨?_, named.add .workspace _⟩⟩
  exact ⟨⟨oid, 1, name, [tabId], .empty⟩,
    by simp [Kind.withVersion, Workspace.addTab, Workspace.new], rfl, List.mem_singleton_self tabId⟩

/-- A window with a workspace that has its tab. -/
theorem newWindow (oid workspaceId tabId : String) :
    (StoreCall.create .window (Window.new oid workspaceId tabId)).Builds
      (fun graph => graph.Hosts workspaceId tabId)
      fun window graph => graph.Names .window (Window.oid window) :=
  create rfl fun _ sound hosted => ⟨sound.add_window hosted, names_add_self _⟩

/-- A window that is there is put at the end of the list unless it is listed. -/
theorem addWindow (windowId : String) :
    (modifySingleton .client fun client => Client.addWindow client windowId).Builds
      (fun graph => graph.Names .window windowId) fun _ _ => True := by
  apply modifyClient
  intro graph client sound named inGraph edited answer
  obtain ⟨once, known⟩ := sound.listed client inGraph
  unfold Client.addWindow at answer
  split at answer
  · cases answer
  · rename_i absent
    cases answer
    refine ⟨rfl, ?_, ?_⟩
    · exact List.nodup_append.2 ⟨once, List.nodup_singleton _, by
        intro id there other same
        rintro rfl
        exact absent (List.mem_singleton.1 same ▸ there)⟩
    · intro id listed
      rcases List.mem_append.1 listed with old | new
      · exact known id old
      · exact List.mem_singleton.1 new ▸ named

/-- Bringing a window to the front lists the same windows in another order. -/
theorem focusWindow (windowId : String) :
    (modifySingleton .client fun client => Client.focusWindow client windowId).Builds before
      fun _ _ => True := by
  apply modifyClient
  intro graph client sound _ inGraph edited answer
  obtain ⟨once, known⟩ := sound.listed client inGraph
  unfold Client.focusWindow at answer
  split at answer
  · rename_i present
    cases answer
    have reordered := List.perm_cons_erase present.1
    exact ⟨rfl, reordered.nodup_iff.1 once, fun id listed => known id (reordered.mem_iff.2 listed)⟩
  · cases answer

/-- A stamp leaves the list of windows alone. -/
theorem stamping (time : Int64) :
    (modifySingleton .client fun client =>
      ({ (client : Client) with tosAgreed := time }, true)).Builds before fun _ _ => True := by
  apply modifyClient
  intro graph client sound _ inGraph edited answer
  cases answer
  exact ⟨rfl, sound.listed client inGraph⟩

/-- The creation of a block in a tab. -/
theorem blockCreation (oid tabId : String) (definition : BlockDefinition) :
    (blockCreation oid tabId definition).Builds before fun _ _ => True := by
  intro moment context table graph holds sound _
  rcases holds.blockCreation_cases moment context oid tabId definition with
    ⟨problem, -, same⟩ | ⟨owner, inGraph, rfl, -, grown⟩
  · exact ⟨graph, same, sound, fun _ _ => trivial⟩
  · refine ⟨_, grown, ?_, fun _ _ => trivial⟩
    exact sound.add_block (holds.nodup_oids .tab) inGraph rfl rfl

end StoreCall.Builds

/-! ## Requests -/

/-- From a sound graph with a property the request leads to a sound graph, wherever it fails, and
the graph has another property if the request succeeds. -/
def Request.Builds {α : Type} (before : ObjectGraph → Prop) (request : Request α)
    (after : α → ObjectGraph → Prop) : Prop :=
  ∀ ticks time context world graph, Table.Holds world.table graph → graph.Sound → before graph →
    ∃ grown, (play ticks time context world request).world.table.Holds grown ∧ grown.Sound ∧
      ∀ value, (play ticks time context world request).answer = .ok value → after value grown

namespace Request.Builds

variable {α β : Type} {before between : ObjectGraph → Prop}

/-- A request that does not touch the table keeps what it may rely on. -/
theorem of_table_eq {request : Request α}
    (silent : ∀ ticks time context world,
      (play ticks time context world request).world.table = world.table) :
    request.Builds before fun _ => before := by
  intro ticks time context world graph holds sound pre
  rw [silent]
  exact ⟨graph, holds, sound, fun _ _ => pre⟩

theorem pure {after : α → ObjectGraph → Prop} {value : α}
    (enough : ∀ graph : ObjectGraph, before graph → after value graph) :
    (pure value : Request α).Builds before after := by
  intro ticks time context world graph holds sound pre
  rw [play_pure]
  refine ⟨graph, holds, sound, ?_⟩
  intro other same
  cases same
  exact enough graph pre

theorem throw {after : α → ObjectGraph → Prop} (problem : RequestError) :
    (throw problem : Request α).Builds before after := by
  intro ticks time context world graph holds sound _
  rw [play_throw]
  refine ⟨graph, holds, sound, ?_⟩
  intro value impossible
  cases impossible

/-- A request may rely on what the one before it promised. -/
theorem bind {request : Request α} {rest : α → Request β} {middle : α → ObjectGraph → Prop}
    {after : β → ObjectGraph → Prop} (first : request.Builds before middle)
    (later : ∀ value, (rest value).Builds (middle value) after) :
    (request >>= rest).Builds before after := by
  intro ticks time context world graph holds sound pre
  obtain ⟨grown, holdsGrown, soundGrown, promised⟩ := first ticks time context world graph holds
    sound pre
  rw [play_bind]
  generalize play ticks time context world request = reached at holdsGrown promised
  obtain ⟨⟨answer, laterContext, laterWorld⟩, laterTime⟩ := reached
  cases answer with
  | error problem =>
      refine ⟨grown, holdsGrown, soundGrown, ?_⟩
      intro value impossible
      cases impossible
  | ok value => exact later value ticks _ _ _ grown holdsGrown soundGrown (promised value rfl)

/-- What is promised may be weakened. -/
theorem mono {request : Request α} {first second : α → ObjectGraph → Prop}
    (builds : request.Builds before first)
    (weaker : ∀ value graph, first value graph → second value graph) :
    request.Builds before second := by
  intro ticks time context world graph holds sound pre
  obtain ⟨grown, holdsGrown, soundGrown, promised⟩ := builds ticks time context world graph holds
    sound pre
  exact ⟨grown, holdsGrown, soundGrown, fun value same => weaker value grown (promised value same)⟩

theorem attempt {storeCall : StoreCall} {after : storeCall.Value → ObjectGraph → Prop}
    (builds : storeCall.Builds before after) :
    (attempt storeCall).Builds before fun _ _ => True := by
  intro ticks time context world graph holds sound pre
  obtain ⟨grown, holdsGrown, soundGrown, -⟩ := builds (ticks time).moment context world.table graph
    holds sound pre
  rw [play_attempt]
  exact ⟨grown, holdsGrown, soundGrown, fun _ _ => trivial⟩

theorem call {storeCall : StoreCall} {after : storeCall.Value → ObjectGraph → Prop}
    (operation : String) (builds : storeCall.Builds before after) :
    (call operation storeCall).Builds before after := by
  intro ticks time context world graph holds sound pre
  obtain ⟨grown, holdsGrown, soundGrown, promised⟩ := builds (ticks time).moment context
    world.table graph holds sound pre
  rw [play_call, completionOf]
  refine ⟨grown, holdsGrown, soundGrown, ?_⟩
  intro value same
  cases result : (storeCall.run (ticks time).moment context world.table).result with
  | error problem =>
      rw [result] at same
      cases same
  | ok other =>
      rw [result] at same
      cases same
      exact promised value result

theorem freshOid : Request.freshOid.Builds before fun _ => before :=
  of_table_eq fun _ _ _ _ => rfl

theorem send (windowId : String) (event : WindowEvent) :
    (send windowId event).Builds before fun _ => before :=
  of_table_eq fun _ _ _ _ => rfl

theorem limited {body : Request α} {after : α → ObjectGraph → Prop} (timeout : UInt64)
    (builds : body.Builds before after) : (limited timeout body).Builds before after := by
  intro ticks time context world graph holds sound pre
  rw [play_limited]
  exact builds ticks (time + 1) _ world graph holds sound pre

/-- A request that is settled promises nothing, because it may have failed. -/
theorem settle {body : Request α} {after : α → ObjectGraph → Prop}
    (builds : body.Builds before after) : (settle body).Builds before fun _ _ => True := by
  intro ticks time context world graph holds sound pre
  obtain ⟨grown, holdsGrown, soundGrown, -⟩ := builds ticks time context world graph holds sound pre
  rw [play_settle]
  exact ⟨grown, holdsGrown, soundGrown, fun _ _ => trivial⟩

/-! ### The requests of the program -/

theorem createBlock (tabId : String) (definition : BlockDefinition) :
    (createBlock tabId definition).Builds before fun _ _ => True :=
  bind freshOid fun oid =>
    bind (call _ (.blockCreation oid tabId definition)) fun _ => pure fun _ _ => trivial

theorem createViewBlock (surroundings : Surroundings) (tabId target : String)
    (options : ViewOptions) :
    (createViewBlock surroundings tabId target options).Builds before fun _ _ => True := by
  unfold Request.createViewBlock
  split
  · exact throw _
  · exact bind (createBlock tabId _) fun _ => pure fun _ _ => trivial

/-- Each object of a new window is there before another refers to it. -/
theorem makeWindow : makeWindow.Builds before fun _ _ => True :=
  bind freshOid fun tabId => bind (call _ (.newTab tabId tabName)) fun tab =>
    bind freshOid fun workspaceId =>
      bind (call _ (.newWorkspace workspaceId workspaceName (Tab.oid tab))) fun workspace =>
        bind freshOid fun windowId =>
          bind (call _ (.newWindow windowId (Workspace.oid workspace) (Tab.oid tab))) fun window =>
            bind (call _ (.addWindow (Window.oid window))) fun _ => pure fun _ _ => trivial

theorem focusWindow (windowId : String) :
    (focusWindow windowId).Builds before fun _ _ => True :=
  bind (call _ (.focusWindow windowId)) fun _ => pure fun _ _ => trivial

theorem findOrCreateClient : findOrCreateClient.Builds before fun _ _ => True := by
  refine bind (attempt (.getSingleton .client)) ?_
  intro found
  split
  · exact pure fun _ _ => trivial
  · refine bind freshOid fun oid => bind (attempt (.newClient oid)) ?_
    intro created
    split
    · exact pure fun _ _ => trivial
    · exact call _ (.getSingleton .client)
    · exact throw _
  · exact throw _

theorem ensureInitialData : ensureInitialData.Builds before fun _ _ => True := by
  apply bind findOrCreateClient
  intro client
  split
  · exact bind makeWindow fun _ => call _ (.getSingleton .client)
  · exact pure fun _ _ => trivial

theorem insertSteps (windowId tabId : String) (layout : Layout) :
    (insertSteps windowId tabId layout).Builds before fun _ _ => True := by
  induction layout generalizing before with
  | nil => exact pure fun _ _ => trivial
  | cons step rest ih =>
      exact bind (createBlock tabId _) fun _ => bind (send windowId _) fun _ => ih

theorem bootstrapLayout (config : Config) (layout : Layout) :
    (bootstrapLayout config layout).Builds before fun _ _ => True := by
  unfold Request.bootstrapLayout
  split
  · exact throw _
  · refine limited _ (bind (call _ (.getSingleton .client)) ?_)
    intro client
    split
    · exact throw _
    · exact bind (call _ (.mustGet .window _)) fun _ => insertSteps _ _ layout

theorem agreeToTerms (config : Config) :
    (agreeToTerms config).Builds before fun _ _ => True :=
  bind (of_table_eq fun _ _ _ _ => rfl) fun _ =>
    bind (of_table_eq fun _ _ _ _ => rfl) fun time => bind (call _ (.stamping time)) fun _ =>
      bind (settle (bootstrapLayout config .starter)) fun _ =>
        mono (of_table_eq fun _ _ _ _ => rfl) fun _ _ _ => trivial

end Request.Builds

/-! ## Any calls -/

/-- What can be asked for that adds to the graph or changes it. -/
inductive GraphCall where
  | createClient
  | ensureInitialData
  | makeWindow
  | focusWindow (windowId : String)
  | agreeToTerms (config : Config)
  | bootstrapLayout (config : Config) (layout : Layout)
  | createBlock (tabId : String) (definition : BlockDefinition)
  | createViewBlock (surroundings : Surroundings) (tabId target : String) (options : ViewOptions)

namespace GraphCall

/-- The request for a call. What it gives back is of no concern to the calls after it. -/
def request : GraphCall → Request Unit
  | createClient => do let _ ← Request.attempt (.create .client (Client.new (← Request.freshOid)))
  | ensureInitialData => do let _ ← Request.ensureInitialData
  | makeWindow => do let _ ← Request.makeWindow
  | focusWindow windowId => Request.focusWindow windowId
  | agreeToTerms config => do let _ ← Request.agreeToTerms config
  | bootstrapLayout config layout => Request.bootstrapLayout config layout
  | createBlock tabId definition => do let _ ← Request.createBlock tabId definition
  | createViewBlock surroundings tabId target options => do
      let _ ← Request.createViewBlock surroundings tabId target options

/-- Every call leads from sound graphs to sound graphs, however it ends. -/
theorem builds_request (call : GraphCall) :
    call.request.Builds (fun _ => True) fun _ _ => True := by
  cases call with
  | createClient =>
      exact .bind .freshOid fun oid => .bind (.attempt (.newClient oid)) fun _ => .pure fun _ h => h
  | ensureInitialData => exact .bind .ensureInitialData fun _ => .pure fun _ h => h
  | makeWindow => exact .bind .makeWindow fun _ => .pure fun _ h => h
  | focusWindow windowId => exact .focusWindow windowId
  | agreeToTerms config => exact .bind (.agreeToTerms config) fun _ => .pure fun _ h => h
  | bootstrapLayout config layout => exact .bootstrapLayout config layout
  | createBlock tabId definition =>
      exact .bind (.createBlock tabId definition) fun _ => .pure fun _ h => h
  | createViewBlock surroundings tabId target options =>
      exact .bind (.createViewBlock surroundings tabId target options) fun _ => .pure fun _ h => h

end GraphCall

/-- One call with all that surrounds it: its context, the bus that it finds, and what happens
around it, which is also what makes it fail. -/
structure GraphRequest where
  call : GraphCall
  ticks : Nat → Tick
  time : Nat
  context : Context
  bus : Bus

namespace GraphRequest

/-- The table after a request. -/
def play (table : Table) (asked : GraphRequest) : Table :=
  (Request.play asked.ticks asked.time asked.context ⟨table, asked.bus⟩
    asked.call.request).world.table

/-- However many requests there were, the table holds a sound graph. -/
theorem holds_playAll {table : Table} {graph : ObjectGraph} (holds : table.Holds graph)
    (sound : graph.Sound) (requests : List GraphRequest) :
    ∃ grown, (requests.foldl play table).Holds grown ∧ grown.Sound := by
  induction requests generalizing table graph with
  | nil => exact ⟨graph, holds, sound⟩
  | cons asked rest ih =>
      obtain ⟨grown, holdsGrown, soundGrown, -⟩ := asked.call.builds_request asked.ticks asked.time
        asked.context ⟨table, asked.bus⟩ graph holds sound trivial
      exact ih holdsGrown soundGrown

end GraphRequest

/-- References lead to stored objects in every store that calls lead to from the empty one, wherever
the calls fail: the client lists windows, none twice; a window shows a tab of its
workspace, and the tab is there; tabs list blocks; and a block is listed once, by one tab. -/
theorem references_lead_to_stored_objects (requests : List GraphRequest) :
    ∃ graph : ObjectGraph, (requests.foldl GraphRequest.play .empty).Holds graph ∧
      (∀ client : Client, client ∈ graph .client → client.windowIds.Nodup ∧
        ∀ id ∈ client.windowIds, graph.Names .window id) ∧
      (∀ window : Window, window ∈ graph .window →
        (∃ workspace : Workspace, workspace ∈ graph .workspace ∧
          workspace.oid = window.workspaceId ∧ window.activeTabId ∈ workspace.tabIds) ∧
        graph.Names .tab window.activeTabId) ∧
      (∀ tab : Tab, tab ∈ graph .tab → ∀ id ∈ tab.blockIds, graph.Names .block id) ∧
      ∀ block : Block, block ∈ graph .block →
        ∃ tab : Tab, tab ∈ graph .tab ∧ tab.blockIds.count block.oid = 1 ∧
          ∀ other : Tab, other ∈ graph .tab → block.oid ∈ other.blockIds → other = tab := by
  obtain ⟨graph, holds, sound⟩ := GraphRequest.holds_playAll .empty .empty requests
  refine ⟨graph, holds, sound.listed, sound.shown, ?_, ?_⟩
  · intro tab there id listed
    exact sound.names_of_mem_blockIds there listed
  · intro block there
    exact sound.exists_only_owner (holds.nodup_oids .block) there

end Workbench
