/-
# Requests that announce blocks

Store and bus share no transaction, so nothing but the order of steps keeps announcements true.
A request creates a block in the tab that a window shows, and only after that was committed it
tells the window. Here this is followed through all requests: whatever is sent fits the
graph at that moment, and no later step makes it untrue.

A request may rely on more than that in its middle, such as that a block was created last. The
conditions say what, as they do where the graph is built. Besides, everything that is
said of a graph stays true while it grows.
-/

import Workbench.Proofs.Bus.Entered
import Workbench.Proofs.Graph.Announced
import Workbench.Proofs.Graph.Building
import Workbench.Proofs.Request.BusSteps

namespace Workbench

open ObjectGraph

/-- What may be relied on between two steps. -/
abbrev Assertion := ObjectGraph → List Sending → Prop

/-- What is relied on where nothing is. -/
abbrev Assertion.any : Assertion := fun _ _ => True

/-! ## Store calls -/

/-- The call makes the graph grow, and if it succeeds, something may be relied on. -/
def StoreCall.Extends (before : Assertion) (call : StoreCall) (after : call.Value → Assertion) :
    Prop :=
  ∀ moment context table graph sent, Table.Holds table graph → graph.Announced sent →
    before graph sent →
      ∃ grown, (call.run moment context table).table.Holds grown ∧ graph.Grows grown ∧
        ∀ value, (call.run moment context table).result = .ok value → after value grown sent

namespace StoreCall.Extends

variable {before : Assertion}

/-- The client that was looked up is there. -/
theorem getClient :
    (getSingleton .client).Extends before fun client graph _ => client ∈ graph .client := by
  intro moment context table graph sent holds _ _
  have notBlock : Kind.client ≠ .block := by decide
  obtain ⟨still, found⟩ := holds.getSingleton_cases moment context notBlock
  exact ⟨graph, still, .refl graph, found⟩

/-- The window that was looked up is there. -/
theorem getWindow (windowId : String) :
    (mustGet .window windowId).Extends before
      fun window graph _ => window ∈ graph .window ∧ Window.oid window = windowId := by
  intro moment context table graph sent holds _ _
  have notBlock : Kind.window ≠ .block := by decide
  obtain ⟨still, found⟩ := holds.mustGet_cases moment context notBlock windowId
  exact ⟨graph, still, .refl graph, found⟩

theorem create {kind : Kind} {object : kind.Object} (plain : kind.metadata object = .empty) :
    (create kind object).Extends before fun _ => .any := by
  intro moment context table graph sent holds _ _
  rcases holds.create_cases moment context plain with ⟨problem, -, still⟩ | ⟨-, grown⟩
  · exact ⟨graph, still, .refl graph, fun _ _ => trivial⟩
  · exact ⟨_, grown, .add kind _, fun _ _ => trivial⟩

/-- An edit of the client after which it lists all windows that it listed. -/
theorem modifyClient {edit : Client → Client × Bool}
    (keeps : ∀ client edited, edit client = (edited, true) → edited.metadata = client.metadata ∧
      edited.oid = client.oid ∧ client.windowIds ⊆ edited.windowIds) :
    (modifySingleton .client edit).Extends before fun _ => .any := by
  intro moment context table graph sent holds _ _
  rcases holds.modifyClient_cases moment context fun client _ edited answer =>
      (keeps client edited answer).1 with
    still | ⟨client, edited, inGraph, answer, grown⟩
  · exact ⟨graph, still, .refl graph, fun _ _ => trivial⟩
  · obtain ⟨-, same, lists⟩ := keeps client edited answer
    exact ⟨_, grown, .put_client (holds.nodup_oids .client) inGraph same lists,
      fun _ _ => trivial⟩

theorem addWindow (windowId : String) :
    (modifySingleton .client fun client => Client.addWindow client windowId).Extends before
      fun _ => .any := by
  apply modifyClient
  intro client edited answer
  unfold Client.addWindow at answer
  split at answer
  · cases answer
  · cases answer
    exact ⟨rfl, rfl, List.subset_append_left _ _⟩

theorem focusWindow (windowId : String) :
    (modifySingleton .client fun client => Client.focusWindow client windowId).Extends before
      fun _ => .any := by
  apply modifyClient
  intro client edited answer
  unfold Client.focusWindow at answer
  split at answer
  · rename_i present
    cases answer
    exact ⟨rfl, rfl, (List.perm_cons_erase present.1).subset⟩
  · cases answer

theorem stamping (time : Int64) :
    (modifySingleton .client fun client =>
      ({ (client : Client) with tosAgreed := time }, true)).Extends before fun _ => .any := by
  apply modifyClient
  intro client edited answer
  cases answer
  exact ⟨rfl, rfl, List.Subset.refl _⟩

/-- A block that was created in a tab is the last of the tab, and not announced yet. -/
theorem blockCreation (oid tabId : String) (definition : BlockDefinition) :
    (blockCreation oid tabId definition).Extends before
      fun both graph sent => graph.Unannounced sent tabId (Block.oid both.1) := by
  intro moment context table graph sent holds announced _
  rcases holds.blockCreation_cases moment context oid tabId definition with
    ⟨problem, failed, still⟩ | ⟨owner, inGraph, rfl, succeeded, holdsGrown⟩
  · refine ⟨graph, still, .refl graph, ?_⟩
    intro both impossible
    cases failed.symm.trans impossible
  · let block : Block := ⟨oid, 1, definition.metadata⟩
    let filled : Tab :=
      ⟨owner.oid, owner.version + 1, owner.name, owner.blockIds ++ [oid], owner.metadata⟩
    have notBlock : Kind.tab ≠ .block := by decide
    have tabs : graph.add .block block .tab = graph .tab := add_of_ne graph notBlock block
    have distinct := holds.nodup_oids .tab
    have there : owner ∈ graph.add .block block .tab := tabs ▸ inGraph
    have longer : (graph.add .block block).Grows ((graph.add .block block).put .tab filled) :=
      .put_tab (tabs ▸ distinct) there rfl (List.prefix_append _ _)
    refine ⟨_, holdsGrown, (Grows.add .block block).trans longer, ?_⟩
    intro both same
    cases succeeded.symm.trans same
    have stored : (graph.add .block block).Names .block oid := @names_add_self graph .block block
    refine ⟨stored.put .tab filled, ⟨filled, owner.blockIds, ?_, rfl, rfl, ?_⟩, ?_⟩
    · exact @mem_put _ .tab owner filled there rfl
    · exact announced.sublist distinct inGraph
    · intro told
      obtain ⟨sending, wasSent, same⟩ := List.mem_map.1 told
      obtain ⟨held, before, named⟩ := announced.stored sending wasSent
      -- the new block has an identifier that no stored block has
      have blocks := holdsGrown.nodup_oids .block
      rw [put_of_ne _ notBlock.symm, add_self, List.map_append, List.nodup_append] at blocks
      exact blocks.2.2 _ (List.mem_map_of_mem before) _ (List.mem_map_of_mem List.mem_cons_self)
        (named.trans same)

end StoreCall.Extends

/-! ## Requests -/

/-- The request makes the graph grow, what it sends fits the graph, and if it succeeds, something
may be relied on. -/
def Request.Announces {α : Type} (before : Assertion) (request : Request α)
    (after : α → Assertion) : Prop :=
  ∀ ticks time context world graph sent, Table.Holds world.table graph → graph.Announced sent →
    before graph sent →
      let later := sent ++ (busSteps ticks time context world request).sent
      ∃ grown, (play ticks time context world request).world.table.Holds grown ∧
        graph.Grows grown ∧ grown.Announced later ∧
        ∀ value, (play ticks time context world request).answer = .ok value →
          after value grown later

namespace Request.Announces

variable {α β : Type} {before : Assertion}

/-- A request that neither sends nor writes. -/
theorem of_silent {request : Request α}
    (silent : ∀ ticks time context world, busSteps ticks time context world request = [] ∧
      (play ticks time context world request).world.table = world.table) :
    request.Announces before fun _ => before := by
  intro ticks time context world graph sent holds announced pre
  obtain ⟨steps, table⟩ := silent ticks time context world
  simp only [steps, table, BusHistory.sent, List.filterMap_nil, List.append_nil]
  exact ⟨graph, holds, .refl graph, announced, fun _ _ => pre⟩

theorem pure {after : α → Assertion} {value : α}
    (enough : ∀ graph sent, before graph sent → after value graph sent) :
    (pure value : Request α).Announces before after := by
  intro ticks time context world graph sent holds announced pre later
  have same : later = sent := List.append_nil sent
  rw [same]
  refine ⟨graph, holds, .refl graph, announced, ?_⟩
  intro other given
  cases given
  exact enough graph sent pre

theorem throw {after : α → Assertion} (problem : RequestError) :
    (throw problem : Request α).Announces before after := by
  intro ticks time context world graph sent holds announced _ later
  have same : later = sent := List.append_nil sent
  rw [same]
  exact ⟨graph, holds, .refl graph, announced, nofun⟩

/-- A request may rely on what the one before it promised. -/
theorem bind {request : Request α} {rest : α → Request β} {middle : α → Assertion}
    {after : β → Assertion} (first : request.Announces before middle)
    (second : ∀ value, (rest value).Announces (middle value) after) :
    (request >>= rest).Announces before after := by
  intro ticks time context world graph sent holds announced pre
  obtain ⟨grown, holdsGrown, grows, announcedGrown, promised⟩ :=
    first ticks time context world graph sent holds announced pre
  rw [play_bind, busSteps_bind]
  generalize play ticks time context world request = reached at holdsGrown promised
  obtain ⟨⟨answer, laterContext, laterWorld⟩, laterTime⟩ := reached
  cases answer with
  | error problem =>
      simp only [List.append_nil]
      exact ⟨grown, holdsGrown, grows, announcedGrown, nofun⟩
  | ok value =>
      obtain ⟨last, holdsLast, growsLast, announcedLast, promisedLast⟩ :=
        second value ticks laterTime laterContext laterWorld grown _ holdsGrown announcedGrown
          (promised value rfl)
      simp only [BusHistory.sent_append, ← List.append_assoc]
      exact ⟨last, holdsLast, grows.trans growsLast, announcedLast, promisedLast⟩

/-- What may be relied on before and is true of a graph while it grows may be relied on after. -/
theorem keeping {request : Request α} {after : α → Assertion} {kept : ObjectGraph → Prop}
    (announces : request.Announces before after)
    (now : ∀ graph sent, before graph sent → kept graph)
    (lasts : ∀ graph grown : ObjectGraph, kept graph → graph.Grows grown → kept grown) :
    request.Announces before fun value graph sent => after value graph sent ∧ kept graph := by
  intro ticks time context world graph sent holds announced pre
  obtain ⟨grown, holdsGrown, grows, announcedGrown, promised⟩ :=
    announces ticks time context world graph sent holds announced pre
  exact ⟨grown, holdsGrown, grows, announcedGrown, fun value given =>
    ⟨promised value given, lasts graph grown (now graph sent pre) grows⟩⟩

/-- More may be there to rely on, and less may be promised. -/
theorem mono {request : Request α} {stronger : Assertion} {first second : α → Assertion}
    (announces : request.Announces before first)
    (enough : ∀ graph sent, stronger graph sent → before graph sent)
    (weaker : ∀ value graph sent, first value graph sent → second value graph sent) :
    request.Announces stronger second := by
  intro ticks time context world graph sent holds announced pre
  obtain ⟨grown, holdsGrown, grows, announcedGrown, promised⟩ :=
    announces ticks time context world graph sent holds announced (enough graph sent pre)
  exact ⟨grown, holdsGrown, grows, announcedGrown, fun value given =>
    weaker value grown _ (promised value given)⟩

theorem attempt {storeCall : StoreCall} {after : storeCall.Value → Assertion}
    (reaches : storeCall.Extends before after) :
    (attempt storeCall).Announces before fun _ => .any := by
  intro ticks time context world graph sent holds announced pre
  obtain ⟨grown, holdsGrown, grows, -⟩ := reaches (ticks time).moment context world.table graph
    sent holds announced pre
  have steps : busSteps ticks time context world (Request.attempt storeCall) = [] :=
    busSteps_perform ..
  simp only [steps, play_attempt, BusHistory.sent, List.filterMap_nil, List.append_nil]
  exact ⟨grown, holdsGrown, grows, announced.grows grows, fun _ _ => trivial⟩

theorem call {storeCall : StoreCall} {after : storeCall.Value → Assertion} (operation : String)
    (reaches : storeCall.Extends before after) :
    (call operation storeCall).Announces before after := by
  intro ticks time context world graph sent holds announced pre
  obtain ⟨grown, holdsGrown, grows, promised⟩ := reaches (ticks time).moment context world.table
    graph sent holds announced pre
  simp only [busSteps_call, play_call, completionOf, BusHistory.sent, List.filterMap_nil,
    List.append_nil]
  refine ⟨grown, holdsGrown, grows, announced.grows grows, ?_⟩
  intro value given
  cases result : (storeCall.run (ticks time).moment context world.table).result with
  | error problem =>
      rw [result] at given
      cases given
  | ok other =>
      rw [result] at given
      cases given
      exact promised value result

theorem freshOid : Request.freshOid.Announces before fun _ => before :=
  of_silent fun _ _ _ _ => ⟨rfl, rfl⟩

/-- A block may be announced after it was created. -/
theorem send (windowId : String) (event : WindowEvent) (addressed : event.windowId = windowId) :
    (send windowId event).Announces
      (fun graph sent => graph.Unannounced sent event.action.tabId event.action.blockId ∧
        graph.Shows windowId event.action.tabId)
      fun _ graph _ => graph.Shows windowId event.action.tabId := by
  intro ticks time context world graph sent holds announced pre
  simp only [busSteps_send, play_send]
  exact ⟨graph, holds, .refl graph, announced.announce addressed pre.2 pre.1, fun _ _ => pre.2⟩

theorem limited {body : Request α} {after : α → Assertion} (timeout : UInt64)
    (announces : body.Announces before after) : (limited timeout body).Announces before after := by
  intro ticks time context world graph sent holds announced pre
  rw [busSteps_limited, play_limited]
  exact announces ticks (time + 1) _ world graph sent holds announced pre

/-- A request that is settled promises nothing, because it may have failed. -/
theorem settle {body : Request α} {after : α → Assertion}
    (announces : body.Announces before after) : (settle body).Announces before fun _ => .any := by
  intro ticks time context world graph sent holds announced pre
  obtain ⟨grown, holdsGrown, grows, announcedGrown, -⟩ :=
    announces ticks time context world graph sent holds announced pre
  rw [busSteps_settle, play_settle]
  exact ⟨grown, holdsGrown, grows, announcedGrown, fun _ _ => trivial⟩

/-! ### The requests of the program -/

/-- A block that was created may be announced. -/
theorem createBlock (tabId : String) (definition : BlockDefinition) :
    (createBlock tabId definition).Announces before
      fun block graph sent => graph.Unannounced sent tabId block.oid :=
  bind freshOid fun oid =>
    bind (call _ (.blockCreation oid tabId definition)) fun _ => pure fun _ _ created => created

theorem createViewBlock (surroundings : Surroundings) (tabId target : String)
    (options : ViewOptions) :
    (createViewBlock surroundings tabId target options).Announces before fun _ => .any := by
  unfold Request.createViewBlock
  split
  · exact throw _
  · exact bind (createBlock tabId _) fun _ => pure fun _ _ _ => trivial

theorem makeWindow : makeWindow.Announces before fun _ => .any :=
  bind freshOid fun _ => bind (call _ (.create rfl)) fun _ =>
    bind freshOid fun _ => bind (call _ (.create rfl)) fun _ =>
      bind freshOid fun _ => bind (call _ (.create rfl)) fun window =>
        bind (call _ (.addWindow (Window.oid window))) fun _ => pure fun _ _ _ => trivial

theorem focusWindow (windowId : String) :
    (focusWindow windowId).Announces before fun _ => .any :=
  bind (call _ (.focusWindow windowId)) fun _ => pure fun _ _ _ => trivial

theorem findOrCreateClient : findOrCreateClient.Announces before fun _ => .any := by
  refine bind (attempt .getClient) ?_
  intro found
  split
  · exact pure fun _ _ _ => trivial
  · refine bind freshOid fun oid => bind (attempt (.create rfl)) ?_
    intro created
    split
    · exact pure fun _ _ _ => trivial
    · exact mono (call _ .getClient) (fun _ _ pre => pre) fun _ _ _ _ => trivial
    · exact throw _
  · exact throw _

theorem ensureInitialData : ensureInitialData.Announces before fun _ => .any := by
  apply bind findOrCreateClient
  intro client
  split
  · refine bind makeWindow fun _ => ?_
    exact mono (call _ .getClient) (fun _ _ pre => pre) fun _ _ _ _ => trivial
  · exact pure fun _ _ _ => trivial

/-- Each block is announced before the next is created, so it is still the last of its tab. -/
theorem insertSteps (windowId tabId : String) (layout : Layout) :
    (insertSteps windowId tabId layout).Announces (fun graph _ => graph.Shows windowId tabId)
      fun _ => .any := by
  induction layout with
  | nil => exact pure fun _ _ _ => trivial
  | cons step rest ih =>
      have created := (createBlock tabId step.definition).keeping
        (fun graph _ (shows : graph.Shows windowId tabId) => shows)
        fun _ _ shows grows => shows.grows grows
      exact bind created fun block =>
        bind (send windowId (insertion windowId tabId block.oid step) rfl) fun _ => ih

theorem bootstrapLayout (config : Config) (layout : Layout) :
    (bootstrapLayout config layout).Announces before fun _ => .any := by
  unfold Request.bootstrapLayout
  split
  · exact throw _
  · refine limited _ (bind (call _ .getClient) fun client => ?_)
    split
    · exact throw _
    · rename_i windowId others front
      have listed (graph : ObjectGraph) (_ : List Sending) (there : client ∈ graph .client) :
          ∃ client : Client, client ∈ graph .client ∧ windowId ∈ client.windowIds :=
        ⟨client, there, front ▸ List.mem_cons_self⟩
      refine bind (keeping (call _ (.getWindow windowId)) listed ?_) fun window => ?_
      · intro graph grown lists grows
        obtain ⟨client, there, lists⟩ := lists
        obtain ⟨later, still, more⟩ := grows.clients client there
        exact ⟨later, still, more lists⟩
      · have steps := insertSteps windowId (Window.activeTabId window) layout
        refine steps.mono ?_ fun _ _ _ _ => trivial
        rintro graph sent ⟨⟨there, named⟩, lists⟩
        exact ⟨lists, window, there, named, rfl⟩

theorem agreeToTerms (config : Config) :
    (agreeToTerms config).Announces before fun _ => .any :=
  bind (of_silent fun _ _ _ _ => ⟨rfl, rfl⟩) fun _ =>
    bind (of_silent fun _ _ _ _ => ⟨rfl, rfl⟩) fun time =>
      bind (call _ (.stamping time)) fun _ =>
        bind (settle (bootstrapLayout config .starter)) fun _ =>
          of_silent fun _ _ _ _ => ⟨rfl, rfl⟩

end Request.Announces

/-- What a call sends fits the graph, however the call ends. -/
theorem GraphCall.announces_request (call : GraphCall) :
    call.request.Announces .any fun _ => .any := by
  cases call with
  | createClient =>
      exact .bind .freshOid fun oid => .bind (.attempt (.create rfl)) fun _ => .pure fun _ _ h => h
  | ensureInitialData => exact .bind .ensureInitialData fun _ => .pure fun _ _ h => h
  | makeWindow => exact .bind .makeWindow fun _ => .pure fun _ _ h => h
  | focusWindow windowId => exact .focusWindow windowId
  | agreeToTerms config => exact .bind (.agreeToTerms config) fun _ => .pure fun _ _ h => h
  | bootstrapLayout config layout => exact .bootstrapLayout config layout
  | createBlock tabId definition =>
      exact .bind (.createBlock tabId definition) fun _ => .pure fun _ _ _ => trivial
  | createViewBlock surroundings tabId target options =>
      exact .bind (.createViewBlock surroundings tabId target options) fun _ =>
        .pure fun _ _ h => h

/-! ## Whole lives -/

/-- What can happen: a request is handled, with whatever happens around it, or something is done
to the bus. Nobody but requests sends. -/
inductive Happening where
  | handled (call : GraphCall) (ticks : Nat → Tick) (time : Nat) (context : Context)
  | onBus (step : BusStep) (silent : step.sending? = none)

namespace Happening

/-- The world after something happened. -/
def perform (world : World) : Happening → World
  | handled call ticks time context =>
      (Request.play ticks time context world call.request).world
  | onBus step _ => { world with bus := step.perform world.bus }

/-- What was done to the bus. -/
def busSteps (world : World) : Happening → BusHistory
  | handled call ticks time context => Request.busSteps ticks time context world call.request
  | onBus step _ => [step]

end Happening

namespace World

/-- Nothing is stored, and nobody is registered. -/
def empty : World := ⟨.empty, .empty⟩

/-- The world after all that happened. -/
def after (world : World) (life : List Happening) : World := life.foldl Happening.perform world

/-- All that was done to the bus, the earliest first. -/
def history (world : World) : List Happening → BusHistory
  | [] => []
  | first :: rest => first.busSteps world ++ (first.perform world).history rest

/-- The bus is what was done to it. -/
theorem bus_after (world : World) (life : List Happening) :
    (world.after life).bus = world.bus.after (world.history life) := by
  induction life generalizing world with
  | nil => rfl
  | cons first rest ih =>
      have now : (first.perform world).bus = world.bus.after (first.busSteps world) := by
        cases first with
        | handled call ticks time context => exact Program.run_bus ticks time context world _
        | onBus step silent => rfl
      rw [history, Bus.after_append, ← now]
      exact ih (first.perform world)

/-- Whatever happens, everything that was ever sent fits the graph. -/
theorem announced_after {world : World} {graph : ObjectGraph} {sent : List Sending}
    (holds : world.table.Holds graph) (announced : graph.Announced sent) (life : List Happening) :
    ∃ grown, (world.after life).table.Holds grown ∧
      grown.Announced (sent ++ (world.history life).sent) := by
  induction life generalizing world graph sent with
  | nil => exact ⟨graph, holds, (List.append_nil sent).symm ▸ announced⟩
  | cons first rest ih =>
      rw [history, BusHistory.sent_append, ← List.append_assoc]
      cases first with
      | handled call ticks time context =>
          obtain ⟨grown, holdsGrown, -, announcedGrown, -⟩ :=
            call.announces_request ticks time context world graph sent holds announced trivial
          exact ih holdsGrown announcedGrown
      | onBus step silent =>
          have nothing : BusHistory.sent [step] = [] := by
            rw [BusHistory.sent, List.filterMap_cons, silent, List.filterMap_nil]
          rw [Happening.busSteps, nothing, List.append_nil]
          exact ih holds announced

end World

/-- A program keeps the rows in shape, whatever it does. -/
theorem Program.holdsObjects_run {α : Type} (program : Program α) (ticks : Nat → Tick)
    (time : Nat) (context : Context) {world : World} (holds : world.table.HoldsObjects) :
    (program.run ticks time context world).world.table.HoldsObjects := by
  induction program generalizing time context world with
  | done value => exact holds
  | step effect next ih =>
      refine ih _ _ _ ?_
      cases effect with
      | storeCall call => exact holds.call (ticks time).moment context call
      | _ => exact holds

theorem World.holdsObjects_after {world : World} (holds : world.table.HoldsObjects)
    (life : List Happening) : (world.after life).table.HoldsObjects := by
  induction life generalizing world with
  | nil => exact holds
  | cons first rest ih =>
      refine @ih (first.perform world) ?_
      cases first with
      | handled call ticks time context =>
          exact Program.holdsObjects_run call.request.run ticks time context holds
      | onBus step silent => exact holds

/-- There is no other client than the one that is there. -/
theorem Table.Holds.client_eq {table : Table} {graph : ObjectGraph} (holds : table.Holds graph)
    (objects : table.HoldsObjects) {client : Client} (there : client ∈ graph .client) :
    graph .client = [client] := by
  have few := objects.single .client rfl
  rw [holds.rows, List.length_map] at few
  obtain ⟨only, alone⟩ := List.length_eq_one_iff.1
    (Nat.le_antisymm few (List.length_pos_of_mem there))
  rw [alone, List.mem_singleton] at there
  rw [alone, there]

/-- Announced blocks are stored. Take any calls from an empty store and an empty bus on, each of
which may fail at any of its steps, and between them registrations, receivers that are dropped,
and events that are taken; only the calls send. Then every event that ever entered the queue of a
receiver names the window to which the receiver was handed out. The client lists this window, the
window shows the tab that the event names, and the tab lists the block that the event names, which
is stored. No two events name the same block, and the blocks of the events that entered the queues
of a window come in the order in which its tab lists them. What entered the queue of a receiver is
what its holder was given and what still waits, unless the receiver was dropped. -/
theorem announced_blocks_are_stored (life : List Happening) :
    let finish := World.empty.after life
    let history := World.empty.history life
    let entries := Bus.empty.entered history
    finish.bus = Bus.empty.after history ∧
    (∀ receiver, .drop receiver ∉ history →
      Bus.empty.yielded receiver history ++ finish.bus.pending receiver =
        (entries.filter fun entry => entry.1 = receiver).map Prod.snd) ∧
    ∃ graph : ObjectGraph, finish.table.Holds graph ∧
      (∀ entry ∈ entries, ∃ (windowId : String) (client : Client) (window : Window) (tab : Tab),
        history.registrants[entry.1]? = some windowId ∧ entry.2.windowId = windowId ∧
        graph .client = [client] ∧ windowId ∈ client.windowIds ∧
        window ∈ graph .window ∧ window.oid = windowId ∧
        window.activeTabId = entry.2.action.tabId ∧
        tab ∈ graph .tab ∧ tab.oid = entry.2.action.tabId ∧
        entry.2.action.blockId ∈ tab.blockIds ∧ graph.Names .block entry.2.action.blockId) ∧
      (entries.map fun entry => entry.2.action.blockId).Nodup ∧
      ∀ (windowId : String) (window : Window) (tab : Tab), window ∈ graph .window →
        window.oid = windowId → tab ∈ graph .tab → tab.oid = window.activeTabId →
        ((entries.filter fun entry => history.registrants[entry.1]? = some windowId).map
          fun entry => entry.2.action.blockId).Sublist tab.blockIds := by
  intro finish history entries
  obtain ⟨graph, holds, announced⟩ :=
    @World.announced_after .empty .empty [] .empty (.nothing _) life
  rw [List.nil_append] at announced
  have bus : finish.bus = Bus.empty.after history := World.bus_after .empty life
  refine ⟨bus, ?_, graph, holds, ?_, ?_, ?_⟩
  · intro receiver kept
    rw [bus]
    exact Bus.yielded_append_pending Bus.wired_empty kept
  · intro entry there
    obtain ⟨windowId, handed, wasSent⟩ := Bus.sent_of_entered history there
    obtain ⟨⟨client, inGraph, lists⟩, window, stored, named, shows⟩ := announced.shown _ wasSent
    obtain ⟨tab, tabStored, tabNamed, blocks⟩ := announced.listed _ wasSent
    have told : entry.2.action.blockId ∈ announcedIn entry.2.action.tabId history.sent :=
      List.mem_map.2 ⟨_, List.mem_filter.2 ⟨wasSent, decide_eq_true rfl⟩, rfl⟩
    have objects : finish.table.HoldsObjects :=
      World.holdsObjects_after Table.holdsObjects_empty life
    exact ⟨windowId, client, window, tab, handed, announced.addressed _ wasSent,
      holds.client_eq objects inGraph, lists, stored, named, shows, tabStored, tabNamed,
      blocks.subset told, announced.stored _ wasSent⟩
  · have events := (Bus.events_sublist_sent history).map fun event => event.action.blockId
    rw [List.map_map, List.map_map] at events
    exact announced.once.sublist events
  · rintro windowId window tab windowThere rfl tabThere shows
    have events := (Bus.events_sublist_sentTo history window.oid).map
      fun event => event.action.blockId
    rw [List.map_map, List.map_map] at events
    exact events.trans (announced.sublist_of_sentTo (holds.nodup_oids .window)
      (holds.nodup_oids .tab) windowThere tabThere shows)

/-- A window that registered is told about a block that is bootstrapped afterwards. -/
example :
    let ticks (oid : String) : Nat → Tick := fun _ => ⟨.quiet 0, oid, 5⟩
    let step : LayoutStep := ⟨[0], none, .empty⟩
    let life : List Happening :=
      [.handled .ensureInitialData (ticks "a") 0 ⟨1, none⟩, .onBus (.register "a") rfl,
        .handled (.bootstrapLayout (.default .debug) [step]) (ticks "b") 0 ⟨1, none⟩]
    (Bus.empty.entered (World.empty.history life)).map
      (fun entry => (entry.1, entry.2.windowId, entry.2.action.blockId)) = [(0, "a", "b")] := by
  decide +kernel

end Workbench
