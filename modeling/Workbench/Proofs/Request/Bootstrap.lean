/-
# What is left of a layout

Bootstrapping a layout ends early, with nothing changed, when the layout is not in order or
when the window in front cannot be found. Otherwise the layout goes into the active tab of
that window up to the first block that cannot be created: the blocks before it are stored,
noted in the journal and announced to the window, in order, and nothing of the rest is.

The reads may come too late as well, after the deadline or while the lock is taken. The
engine is assumed to let them through; the creations may fail in every way.
-/

import Workbench.Proofs.Bus
import Workbench.Proofs.Request.BlockSeries
import Workbench.Proofs.Request.Run
import Workbench.Proofs.Store.Unhindered

namespace Workbench

/-- A reply under another deadline. -/
def Reply.withDeadline {α : Type} (reply : Reply α) (deadline : Instant) : Reply α :=
  { reply with context := reply.context.withDeadline deadline }

namespace BlockSeries

/-- How the request ends that creates the series. -/
def answer (series : BlockSeries) : Except RequestError Unit :=
  match series.failure with
  | none => .ok ()
  | some cause => .error (.store "creating block in tab" cause)

/-- The events that announce the blocks, each with the step that it was created for. -/
def insertions (series : BlockSeries) (windowId tabId : String) (layout : Layout) :
    List WindowEvent :=
  List.zipWith (fun block step => Request.insertion windowId tabId (Block.oid block) step)
    series.blocks layout

end BlockSeries

namespace Request

variable (ticks : Nat → Tick)

/-! ## The steps of a layout -/

theorem play_createBlock (time : Nat) (context : Context) (world : World) (tabId : String)
    (definition : BlockDefinition) :
    play ticks time context world (createBlock tabId definition) =
      let outcome := (blockCreation (ticks time).freshOid tabId definition).run
        (ticks (time + 1)).moment context world.table
      ⟨⟨(outcome.result.mapError (.store "creating block in tab")).map Prod.fst,
        outcome.context, { world with table := outcome.table }⟩, time + 2⟩ := by
  rw [createBlock, play_bind, play_freshOid]
  show play ticks (time + 1) context world (call "creating block in tab" (blockCreation
    (ticks time).freshOid tabId definition) >>= fun both => pure both.1) = _
  rw [play_bind, play_call, completionOf]
  generalize (blockCreation (ticks time).freshOid tabId definition).run
    (ticks (time + 1)).moment context world.table = outcome
  obtain ⟨result, later, table⟩ := outcome
  cases result <;> rfl

/-- Inserting the steps of a layout stores the series of their blocks, and tells the window
about each block that was stored. -/
theorem play_insertSteps (windowId tabId : String) (layout : Layout) (time : Nat)
    (context : Context) (world : World) :
    (play ticks time context world (insertSteps windowId tabId layout)).toReply =
      let series := BlockSeries.create ticks tabId time context world.table layout
      ⟨series.answer, series.context,
        ⟨series.table, world.bus.sendAll windowId (series.insertions windowId tabId layout)⟩⟩ := by
  induction layout generalizing time context world with
  | nil =>
      show (play ticks time context world (pure ())).toReply = _
      rw [play_pure]
      rfl
  | cons step rest ih =>
      rw [insertSteps, play_bind, play_createBlock]
      unfold BlockSeries.create
      generalize (blockCreation (ticks time).freshOid tabId step.definition).run
        (ticks (time + 1)).moment context world.table = outcome
      obtain ⟨result, later, table⟩ := outcome
      cases result with
      | error cause => rfl
      | ok both =>
          show (play ticks (time + 2) later { world with table }
            (send windowId (insertion windowId tabId both.1.oid step) >>= fun _ =>
              insertSteps windowId tabId rest)).toReply = _
          rw [play_bind, play_send]
          exact ih (time + 3) later _

/-! ## Finding the window in front -/

section Applying

variable {time : Nat} {context : Context} {world : World} (layout : Layout)

/-- Without the client nothing is done. -/
theorem play_applyLayout_of_client_error {problem : StoreError}
    (failed : (ticks time).moment.enter context *>
      Store.demandSingleton (ticks time).moment .client world.table = .error problem) :
    (play ticks time context world (applyLayout layout)).toReply =
      ⟨.error (.store "finding client" problem), context, world⟩ := by
  have run : (StoreCall.getSingleton .client).run (ticks time).moment context world.table =
      ⟨.error problem, context, world.table⟩ :=
    congrArg (Store.unchanged context world.table) failed
  rw [applyLayout, play_bind, play_call, run]
  rfl

variable {client : Client}
    (read : (ticks time).moment.enter context *>
      Store.demandSingleton (ticks time).moment .client world.table = .ok client)

include read

theorem play_applyLayout_of_client :
    play ticks time context world (applyLayout layout) =
      play ticks (time + 1) context world (
        match Client.windowIds client with
        | [] => throw (.invariantViolation "error bootstrapping layout, no windows exist")
        | windowId :: _ => do
            let window ← call "getting window" (.mustGet .window windowId)
            insertSteps windowId (Window.activeTabId window) layout) := by
  have run : (StoreCall.getSingleton .client).run (ticks time).moment context world.table =
      ⟨.ok client, context, world.table⟩ :=
    congrArg (Store.unchanged context world.table) read
  rw [applyLayout, play_bind, play_call, run]
  rfl

/-- Without windows nothing is done. -/
theorem play_applyLayout_of_no_windows (without : client.windowIds = []) :
    (play ticks time context world (applyLayout layout)).toReply =
      ⟨.error (.invariantViolation "error bootstrapping layout, no windows exist"), context,
        world⟩ := by
  rw [play_applyLayout_of_client ticks layout read, without]
  show (play ticks (time + 1) context world (throw _)).toReply = _
  rw [play_throw]

variable {windowId : String} {others : List String} (front : client.windowIds = windowId :: others)

include front

/-- Without the window in front nothing is done. -/
theorem play_applyLayout_of_window_error {problem : StoreError}
    (failed : (ticks (time + 1)).moment.enter context *>
      Store.demandObject (ticks (time + 1)).moment .window windowId world.table =
        .error problem) :
    (play ticks time context world (applyLayout layout)).toReply =
      ⟨.error (.store "getting window" problem), context, world⟩ := by
  have run : (StoreCall.mustGet .window windowId).run (ticks (time + 1)).moment context
      world.table = ⟨.error problem, context, world.table⟩ :=
    congrArg (Store.unchanged context world.table) failed
  rw [play_applyLayout_of_client ticks layout read, front]
  show (play ticks (time + 1) context world (call "getting window" (.mustGet .window windowId) >>=
    fun window => insertSteps windowId (Window.activeTabId window) layout)).toReply = _
  rw [play_bind, play_call, run]
  rfl

/-- With the window in front the steps are inserted into its active tab. -/
theorem play_applyLayout_of_window {window : Window}
    (found : (ticks (time + 1)).moment.enter context *>
      Store.demandObject (ticks (time + 1)).moment .window windowId world.table = .ok window) :
    play ticks time context world (applyLayout layout) =
      play ticks (time + 2) context world
        (insertSteps windowId (Window.activeTabId window) layout) := by
  have run : (StoreCall.mustGet .window windowId).run (ticks (time + 1)).moment context
      world.table = ⟨.ok window, context, world.table⟩ :=
    congrArg (Store.unchanged context world.table) found
  rw [play_applyLayout_of_client ticks layout read, front]
  show play ticks (time + 1) context world (call "getting window" (.mustGet .window windowId) >>=
    fun window => insertSteps windowId (Window.activeTabId window) layout) = _
  rw [play_bind, play_call, run]
  rfl

end Applying

/-! ## The layout as a whole -/

section Bootstrapping

variable (time : Nat) (context : Context) (world : World) (config : Config) {layout : Layout}

theorem play_bootstrapLayout_of_invalid {cause : LayoutError}
    (invalid : layout.validate = .error cause) :
    (play ticks time context world (bootstrapLayout config layout)).toReply =
      ⟨.error (.invalidLayout cause), context, world⟩ := by
  rw [bootstrapLayout, invalid]
  show (play ticks time context world (throw _)).toReply = _
  rw [play_throw]

/-- A layout in order is applied under an earlier deadline, which is not in force any more
afterwards. -/
theorem play_bootstrapLayout_of_valid (valid : layout.validate = .ok ()) :
    (play ticks time context world (bootstrapLayout config layout)).toReply =
      (play ticks (time + 1) (context.narrow (ticks time).moment.now config.bootstrapTimeout)
        world (applyLayout layout)).toReply.withDeadline context.deadline := by
  rw [bootstrapLayout, valid]
  show (play ticks time context world (limited config.bootstrapTimeout
    (applyLayout layout))).toReply = _
  rw [play_limited]
  rfl

end Bootstrapping

end Request

/-- What is left of a layout whose blocks were created in a tab and announced to a window, as
far as the series of the creations came. -/
structure LayoutLeaves (windowId tabId : String) (layout : Layout) (context : Context)
    (world : World) (series : BlockSeries) (reply : Reply (Except RequestError Unit)) : Prop where
  /-- All steps were done exactly if no creation failed. -/
  count : series.made.length ≤ layout.length ∧
    (series.failure = none ↔ series.made.length = layout.length)
  /-- The failure of the first creation that failed is reported. -/
  answer : reply.answer = series.answer
  /-- The blocks are those of the first steps, in order. -/
  blocks : series.blocks.map (fun block => (block.version, block.metadata)) =
    (layout.take series.made.length).map fun step => (1, step.definition.metadata)
  /-- Without the tab nothing is created. -/
  noTab : world.table.find? Kind.tab.name tabId = none →
    series.made = [] ∧ reply.world.table = world.table
  /-- The tab has the new blocks behind the old ones, all other rows are as they were, and the
  rows of the blocks follow. -/
  tab : ∀ row before, world.table.find? Kind.tab.name tabId = some row →
    Kind.tab.ofRow row = .ok before →
    (∃ after, Tab.Gained before series.blocks after ∧ reply.world.table.rows =
      world.table.rows.map (Kind.tab.putRow after) ++ series.blocks.map Kind.block.toRow) ∧
    ∀ early block after late, series.made = early ++ (block, after) :: late →
      Tab.Gained before (early.map Prod.fst ++ [block]) after
  /-- The journal has a record of each block, followed by one of the tab with that block; the
  deadline is as before. -/
  journal : reply.context = context.recordAll series.records
  /-- The live channel of the window has the events that announce the blocks, in order, and
  nothing else happened to the bus. -/
  queue : ∀ channel, world.bus.liveChannel? windowId = some channel →
    reply.world.bus = world.bus.append channel (series.insertions windowId tabId layout)
  /-- Without a live channel nothing is queued anywhere. -/
  noQueue : world.bus.liveChannel? windowId = none →
    reply.world.bus.channels = world.bus.channels ∧
      ∀ other, other ≠ windowId →
        reply.world.bus.registration? other = world.bus.registration? other

/-- What is read from a tab's row gains the same blocks as what is in it. -/
theorem Tab.Gained.of_ofRow {stored before after : Tab} {blocks : List Block}
    (read : Kind.tab.ofRow (Kind.tab.toRow stored) = .ok before)
    (gained : stored.Gained blocks after) : before.Gained blocks after := by
  obtain ⟨metadata, -, rfl⟩ := (Kind.tab.ofRow_toRow_eq_ok_iff stored before).1 read
  exact ⟨gained.oid, gained.name, gained.version, gained.blockIds⟩

/-- The series of a layout's blocks leaves this, created under an earlier deadline. -/
theorem layoutLeaves_create (ticks : Nat → Tick) (time : Nat) {context limited : Context}
    (restored : limited.withDeadline context.deadline = context) {world : World}
    (holds : world.table.HoldsObjects) (windowId tabId : String) (layout : Layout) :
    let series := BlockSeries.create ticks tabId time limited world.table layout
    LayoutLeaves windowId tabId layout context world series
      ⟨series.answer, series.context.withDeadline context.deadline,
        ⟨series.table, world.bus.sendAll windowId (series.insertions windowId tabId layout)⟩⟩ := by
  intro series
  have queue := @Bus.sendAll_of_live world.bus windowId
  have noQueue := @Bus.sendAll_of_not_live world.bus windowId
  cases found : world.table.find? Kind.tab.name tabId with
  | none =>
      obtain ⟨failure, ended, nothing⟩ :=
        BlockSeries.create_of_missing ticks layout found time limited
      have same : series = ⟨[], failure, limited, world.table⟩ := nothing
      rw [same]
      exact {
        count := ⟨Nat.zero_le _, ended⟩
        answer := rfl
        blocks := rfl
        noTab := fun _ => ⟨rfl, rfl⟩
        tab := by
          intro row before impossible
          rw [found] at impossible
          cases impossible
        journal := restored
        queue := fun channel live => queue live _
        noQueue := fun dead => noQueue dead _ }
  | some row =>
      obtain ⟨stored, rfl, rfl⟩ := holds.of_find? found
      have fills : series.Fills stored layout limited world.table :=
        BlockSeries.fills_create ticks layout found time limited
      exact {
        count := fills.count
        answer := rfl
        blocks := fills.blocks
        noTab := by
          intro impossible
          rw [found] at impossible
          cases impossible
        tab := by
          intro row before here read
          cases here.symm.trans found
          obtain ⟨after, gained, rows⟩ := fills.rows
          refine ⟨⟨after, gained.of_ofRow read, rows⟩, ?_⟩
          intro early block between late split
          exact (fills.tabs early block between late split).of_ofRow read
        journal := by
          show series.context.withDeadline context.deadline = _
          rw [fills.context, Context.withDeadline_recordAll, restored]
        queue := fun channel live => queue live _
        noQueue := fun dead => noQueue dead _ }

/-- Bootstrapping a layout from any reachable table. If the layout is not in order, or the
client, its windows or the window in front are missing, or a read comes too late, it says so
and changes nothing. Otherwise it leaves what the series of the block creations leaves, which
comes as far as the first creation that fails, for whatever reason. -/
theorem layout_is_kept_up_to_the_first_failure (ticks : Nat → Tick) (time : Nat)
    (context : Context) (world : World) (config : Config) (layout : Layout)
    (reached : world.table.Reached) :
    let reply := (Request.play ticks time context world
      (Request.bootstrapLayout config layout)).toReply
    let refused (error : RequestError) (category : ErrorCategory) : Prop :=
      reply = ⟨.error error, context, world⟩ ∧ error.category = category
    let limited := context.narrow (ticks time).moment.now config.bootstrapTimeout
    (∀ cause, layout.validate = .error cause → refused (.invalidLayout cause) .invariantViolation) ∧
    (layout.validate = .ok () →
      ((ticks (time + 1)).moment.enter limited = .error .deadlineExceeded →
        refused (.store "finding client" .deadlineExceeded) .deadlineExceeded) ∧
      ((ticks (time + 1)).moment.LetsThrough limited (.selectFirst Kind.client.name)
          world.table →
        (world.table.ofKind Kind.client.name = [] →
          refused (.store "finding client" (.singletonMissing .client)) .notFound) ∧
        ∀ clientRow clientRows client,
          world.table.ofKind Kind.client.name = clientRow :: clientRows →
          Kind.client.ofRow clientRow = .ok client →
          (Client.windowIds client = [] →
            refused (.invariantViolation "error bootstrapping layout, no windows exist")
              .invariantViolation) ∧
          ∀ windowId others, Client.windowIds client = windowId :: others →
            ((ticks (time + 2)).moment.enter limited = .error .deadlineExceeded →
              refused (.store "getting window" .deadlineExceeded) .deadlineExceeded) ∧
            ((ticks (time + 2)).moment.LetsThrough limited
                (.selectOne Kind.window.name windowId) world.table →
              (world.table.find? Kind.window.name windowId = none →
                refused (.store "getting window" (.notFound .window windowId)) .notFound) ∧
              ∀ windowRow window,
                world.table.find? Kind.window.name windowId = some windowRow →
                Kind.window.ofRow windowRow = .ok window →
                LayoutLeaves windowId (Window.activeTabId window) layout context world
                  (BlockSeries.create ticks (Window.activeTabId window) (time + 3) limited
                    world.table layout)
                  reply))) := by
  intro reply refused limited
  constructor
  · intro cause invalid
    exact ⟨Request.play_bootstrapLayout_of_invalid ticks time context world config invalid, rfl⟩
  intro valid
  have restored : limited.withDeadline context.deadline = context := rfl
  have applied : reply = (Request.play ticks (time + 1) limited world
      (Request.applyLayout layout)).toReply.withDeadline context.deadline :=
    Request.play_bootstrapLayout_of_valid ticks time context world config valid
  constructor
  · intro late
    have failed : (ticks (time + 1)).moment.enter limited *>
        Store.demandSingleton (ticks (time + 1)).moment .client world.table =
          .error .deadlineExceeded := by
      rw [late]
      rfl
    rw [Request.play_applyLayout_of_client_error ticks layout failed] at applied
    exact ⟨applied, rfl⟩
  intro clientThrough
  have clientRead := Store.enter_demandSingleton_eq clientThrough
  constructor
  · intro missing
    rw [missing] at clientRead
    rw [Request.play_applyLayout_of_client_error ticks layout clientRead] at applied
    exact ⟨applied, rfl⟩
  intro clientRow clientRows client oldest decodedClient
  rw [oldest] at clientRead
  have read := clientRead.trans decodedClient
  constructor
  · intro without
    rw [Request.play_applyLayout_of_no_windows ticks layout read without] at applied
    exact ⟨applied, rfl⟩
  intro windowId others front
  constructor
  · intro late
    have failed : (ticks (time + 2)).moment.enter limited *>
        Store.demandObject (ticks (time + 2)).moment .window windowId world.table =
          .error .deadlineExceeded := by
      rw [late]
      rfl
    rw [Request.play_applyLayout_of_window_error ticks layout read front failed] at applied
    exact ⟨applied, rfl⟩
  intro windowThrough
  have windowRead := Store.enter_demandObject_eq windowThrough
  constructor
  · intro missing
    rw [missing] at windowRead
    rw [Request.play_applyLayout_of_window_error ticks layout read front windowRead] at applied
    exact ⟨applied, rfl⟩
  intro windowRow window here decodedWindow
  rw [here] at windowRead
  have found := windowRead.trans decodedWindow
  rw [Request.play_applyLayout_of_window ticks layout read front found,
    Request.play_insertSteps] at applied
  rw [applied]
  exact layoutLeaves_create ticks (time + 3) restored reached.holdsObjects windowId
    (Window.activeTabId window) layout

/-- A layout of two steps where the same identifier is drawn for both blocks: the first block
is stored and announced, and the second is refused. -/
theorem one_step_is_kept_and_the_next_fails :
    let ticks : Nat → Tick := fun _ => ⟨.quiet 0, "b", 0⟩
    let create (kind : Kind) (object : kind.Object) (table : Table) : Table :=
      ((StoreCall.create kind object).run (.quiet 0) ⟨1, none⟩ table).table
    let client : Client := ⟨"c", 1, ["w"], 0, .empty⟩
    let window : Window := ⟨"w", 1, "s", "t", .empty⟩
    let tab : Tab := ⟨"t", 1, "Main", [], .empty⟩
    let block : Block := ⟨"b", 1, .empty⟩
    let world : World :=
      ⟨create .tab tab (create .window window (create .client client .empty)),
        (Bus.empty.register "w").2⟩
    let layout : Layout := [Layout.starterStep [0] [], Layout.starterStep [1] []]
    let reply := (Request.play ticks 0 ⟨1, some []⟩ world
      (Request.bootstrapLayout (.default .debug) layout)).toReply
    reply.answer = .error (.store "creating block in tab" (.alreadyExists .block "b")) ∧
      (∃ after : Tab, after.version = 2 ∧ after.blockIds = ["b"] ∧
        reply.world.table.rows = [Kind.client.toRow client, Kind.window.toRow window,
          Kind.tab.toRow after, Kind.block.toRow block]) ∧
      reply.world.bus = world.bus.append 0
        [Request.insertion "w" "t" "b" (Layout.starterStep [0] [])] := by
  intro ticks create client window tab block world layout reply
  let filled : Tab := ⟨"t", 2, "Main", ["b"], .empty⟩
  have reached : world.table.Reached := .call (.call (.call .empty _ _ _) _ _ _) _ _ _
  have plain : ∀ (kind : Kind) (object : kind.Object), kind.metadata object = .empty →
      kind.ofRow (kind.toRow object) = .ok object := by
    intro kind object same
    apply kind.ofRow_toRow
    rw [same]
    exact Meta.withinLimits_empty
  have through : ∀ statement,
      (Moment.quiet 0).LetsThrough ⟨1, some []⟩ statement world.table :=
    fun _ => ⟨rfl, rfl, rfl⟩
  obtain ⟨-, found⟩ := (layout_is_kept_up_to_the_first_failure ticks 0 ⟨1, some []⟩ world
    (.default .debug) layout reached).2 rfl
  obtain ⟨-, inFront⟩ :=
    (found (through _)).2 (Kind.client.toRow client) [] client rfl (plain .client client rfl)
  obtain ⟨-, leaves⟩ := (inFront "w" [] rfl).2 (through _)
  have left : LayoutLeaves "w" "t" layout ⟨1, some []⟩ world
      (BlockSeries.create ticks "t" 3 ⟨1, some []⟩ world.table layout) reply :=
    leaves (Kind.window.toRow window) window rfl (plain .window window rfl)
  have made : ∃ context after, BlockSeries.create ticks "t" 3 ⟨1, some []⟩ world.table layout =
      ⟨[(block, filled)], some (.alreadyExists .block "b"), context, after⟩ := by
    have here : world.table.find? Kind.tab.name tab.oid = some (Kind.tab.toRow tab) := rfl
    have quiet : (Moment.quiet 0).Unhindered ⟨1, some []⟩ := ⟨rfl, rfl, fun _ _ => rfl⟩
    have first := blockCreation_of_unhindered quiet here (plain .tab tab rfl) "b" .empty
    rcases blockCreation_cases (.quiet 0) ⟨1, some []⟩ here "b" .empty with
      ⟨problem, failed⟩ | ⟨later, after, -, rows, there, succeeded⟩
    · rw [failed] at first
      cases first
    · rw [succeeded] at first
      cases first
      have taken : after.find? "block" "b" = some (Kind.block.toRow block) := by
        rw [Table.find?_eq_some_iff, rows]
        exact ⟨List.mem_append_right _ List.mem_cons_self, rfl⟩
      let between : Context := Context.recordAll ⟨1, some []⟩
        [.ofObject .created .block block, .ofObject .updated .tab filled]
      have still : (Moment.quiet 0).Unhindered between := ⟨rfl, rfl, fun _ _ => rfl⟩
      have second := blockCreation_of_unhindered still there (plain .tab filled rfl) "b" .empty
      have refused := StoreCall.run_of_error (second.trans (if_pos (congrArg Option.isSome taken)))
      have rest : BlockSeries.create ticks "t" 6 between after [Layout.starterStep [1] []] =
          ⟨[], some (.alreadyExists .block "b"), between, after⟩ :=
        BlockSeries.create_of_failed refused []
      refine ⟨between, after, (BlockSeries.create_of_succeeded succeeded _).trans ?_⟩
      exact congrArg (fun series => { series with made := (block, filled) :: series.made }) rest
  obtain ⟨context, after, made⟩ := made
  rw [made] at left
  refine ⟨left.answer, ?_, left.queue 0 rfl⟩
  obtain ⟨⟨after, gained, rows⟩, -⟩ := left.tab _ tab rfl (plain .tab tab rfl)
  obtain ⟨oid, version, name, blockIds, metadata⟩ := after
  obtain ⟨rfl, rfl, rfl, rfl⟩ := gained
  exact ⟨_, rfl, rfl, rows⟩

end Workbench
