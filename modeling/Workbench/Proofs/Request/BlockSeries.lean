/-
# Series of attached blocks

The blocks of a layout are created one after another in one tab, until a creation fails. Each
creation adds one row and rewrites the row of the tab, so after the series there are as many
new rows as there were creations, and the tab lists exactly the new blocks behind the old
ones. This holds for every point at which a series can break off.

Between two creations the tab is read from its row again, and its metadata is then what the
text of the metadata is worth. That is why nothing is said about the metadata of the tab; all
else about it is exact.
-/

import Workbench.Proofs.Store.Reached
import Workbench.Proofs.Store.Unhindered
import Workbench.Request.Bootstrap

namespace Workbench

/-! ## One block more -/

/-- The tab is an earlier tab with these blocks put at the end, one write for each. -/
structure Tab.Gained (before : Tab) (blocks : List Block) (after : Tab) : Prop where
  oid : after.oid = before.oid
  name : after.name = before.name
  version : after.version = before.version + Int64.ofNat blocks.length
  blockIds : after.blockIds = before.blockIds ++ blocks.map Block.oid

namespace Tab.Gained

theorem refl (tab : Tab) : tab.Gained [] tab :=
  ⟨rfl, rfl, (Int64.add_zero _).symm, (List.append_nil _).symm⟩

theorem trans {first second third : Tab} {early late : List Block}
    (before : first.Gained early second) (after : second.Gained late third) :
    first.Gained (early ++ late) third := by
  refine ⟨after.oid.trans before.oid, after.name.trans before.name, ?_, ?_⟩
  · rw [after.version, before.version, List.length_append, Int64.ofNat_add, Int64.add_assoc]
  · rw [after.blockIds, before.blockIds, List.map_append, List.append_assoc]

end Tab.Gained

/-- A row with the object written to it, if it is the object's row. -/
def Kind.putRow (kind : Kind) (object : kind.Object) (row : Row) : Row :=
  if row.key = (kind.name, kind.oid object) then kind.toRow object else row

namespace Kind

variable {kind : Kind}

theorem overwriteRow_eq_putRow (object : kind.Object) :
    Table.overwriteRow kind.name (kind.oid object) (kind.version object)
      (kind.objectCodec.encode object) = kind.putRow object := by
  funext row
  by_cases same : row.key = (kind.name, kind.oid object)
  · rw [Table.overwriteRow_of_eq same, putRow, if_pos same]
    rfl
  · rw [Table.overwriteRow_of_ne same, putRow, if_neg same]

/-- The rows of other kinds stay as they are. -/
theorem putRow_toRow_of_ne {other : Kind} (apart : other ≠ kind) (object : kind.Object)
    (held : other.Object) : kind.putRow object (other.toRow held) = other.toRow held := by
  apply if_neg
  intro same
  exact apart (Kind.eq_of_name_eq (congrArg Prod.fst same))

/-- Of two writes to one row only the later counts. -/
theorem putRow_putRow {first second : kind.Object} (same : kind.oid second = kind.oid first)
    (row : Row) : kind.putRow second (kind.putRow first row) = kind.putRow second row := by
  unfold putRow
  rw [same]
  by_cases here : row.key = (kind.name, kind.oid first)
  · have key : (kind.toRow first).key = (kind.name, kind.oid first) := rfl
    rw [if_pos here, if_pos here, if_pos key]
  · rw [if_neg here, if_neg here]

/-- Writing what is stored already changes no row. -/
theorem map_putRow_of_find? {table : Table} {object : kind.Object}
    (stored : table.find? kind.name (kind.oid object) = some (kind.toRow object)) :
    table.rows.map (kind.putRow object) = table.rows := by
  have each : ∀ row ∈ table.rows, kind.putRow object row = row := by
    intro row present
    unfold putRow
    by_cases same : row.key = (kind.name, kind.oid object)
    · rw [Table.find?_eq_some_iff.2 ⟨present, same⟩, Option.some.injEq] at stored
      rw [if_pos same, stored]
    · rw [if_neg same]
  rw [List.map_congr_left each, List.map_id']

end Kind

/-- The creation of a block in a tab. -/
def blockCreation (oid tabId : String) (definition : BlockDefinition) : StoreCall :=
  .createAttached .block .tab (Block.ofDefinition oid definition) tabId
    fun tab block => Tab.addBlock tab (Block.oid block)

/-- Without the tab no block is created. -/
theorem blockCreation_of_missing (moment : Moment) (context : Context) {table : Table}
    {tabId : String} (missing : table.find? Kind.tab.name tabId = none) (oid : String)
    (definition : BlockDefinition) :
    ∃ problem, (blockCreation oid tabId definition).run moment context table =
      ⟨.error problem, context, table⟩ := by
  rcases Store.createAttached_cases moment context table .block .tab
      (Block.ofDefinition oid definition) tabId
      (fun tab block => Tab.addBlock tab (Block.oid block)) with
    failed | ⟨row, owner, between, after, found, -⟩
  · exact failed
  · rw [missing] at found
    exact absurd found.symm (Option.some_ne_none row)

/-- The creation of a block in a tab changes nothing, or it adds the row of the block and
puts the block at the end of the tab. -/
theorem blockCreation_cases (moment : Moment) (context : Context) {table : Table} {stored : Tab}
    (here : table.find? Kind.tab.name stored.oid = some (Kind.tab.toRow stored)) (oid : String)
    (definition : BlockDefinition) :
    (∃ problem, (blockCreation oid stored.oid definition).run moment context table =
        ⟨.error problem, context, table⟩) ∨
      ∃ (tab : Tab) (after : Table),
        let block : Block := ⟨oid, 1, definition.metadata⟩
        stored.Gained [block] tab ∧
        after.rows = table.rows.map (Kind.tab.putRow tab) ++ [Kind.block.toRow block] ∧
        after.find? Kind.tab.name tab.oid = some (Kind.tab.toRow tab) ∧
        (blockCreation oid stored.oid definition).run moment context table =
          ⟨.ok (block, tab),
            context.recordAll [.ofObject .created .block block, .ofObject .updated .tab tab],
            after⟩ := by
  rcases Store.createAttached_cases moment context table .block .tab
      (Block.ofDefinition oid definition) stored.oid
      (fun tab block => Tab.addBlock tab (Block.oid block)) with
    ⟨problem, failed⟩ | ⟨row, owner, between, after, found, decoded, creation, change, succeeded⟩
  · exact .inl ⟨problem, failed⟩
  · right
    have same : Kind.tab.toRow stored = row := Option.some.inj (here.symm.trans found)
    rw [← same] at decoded
    obtain ⟨metadata, -, rfl⟩ := (Kind.tab.ofRow_toRow_eq_ok_iff stored owner).1 decoded
    let block : Block := ⟨oid, 1, definition.metadata⟩
    let tab : Tab :=
      ⟨stored.oid, stored.version + 1, stored.name, stored.blockIds ++ [oid], metadata⟩
    have inserts : RowWrite.Takes table ⟨.created, .block, block⟩ between := creation
    have writes : RowWrite.Takes between ⟨.updated, .tab, tab⟩ after := change
    refine ⟨tab, after, ⟨rfl, rfl, rfl, rfl⟩, ?_, ?_, succeeded⟩
    · cases inserts with
      | created first alone inserted =>
          cases writes with
          | updated expected raised swapped =>
              obtain ⟨-, written⟩ := Table.replace?_eq_some_iff.1 swapped
              obtain ⟨-, rows⟩ := Table.insert?_eq_some_iff.1 inserted
              rw [written, Table.rows_overwrite, Kind.overwriteRow_eq_putRow, rows, List.map_append,
                List.map_singleton, Kind.putRow_toRow_of_ne (by decide)]
    · cases writes with
      | updated expected raised swapped =>
          rw [Table.find?_of_replace? swapped]
          exact if_pos rfl

/-- When nothing stands in the way, a block is created in a readable tab unless the
identifier that was drawn is taken. -/
theorem blockCreation_of_unhindered {moment : Moment} {context : Context} {table : Table}
    {stored tab : Tab} (unhindered : moment.Unhindered context)
    (here : table.find? Kind.tab.name stored.oid = some (Kind.tab.toRow stored))
    (read : Kind.tab.ofRow (Kind.tab.toRow stored) = .ok tab) (oid : String)
    (definition : BlockDefinition) :
    ((blockCreation oid stored.oid definition).run moment context table).result =
      if (table.find? Kind.block.name oid).isSome then .error (.alreadyExists .block oid)
      else .ok (⟨oid, 1, definition.metadata⟩,
        { tab with version := tab.version + 1, blockIds := tab.blockIds ++ [oid] }) := by
  obtain ⟨metadata, -, rfl⟩ := (Kind.tab.ofRow_toRow_eq_ok_iff stored tab).1 read
  let block : Block := ⟨oid, 1, definition.metadata⟩
  have inserting := @Store.insertNew_eq moment .block table unhindered.sound rfl
    (Block.ofDefinition oid definition)
  have first : Kind.block.withVersion (Block.ofDefinition oid definition) 1 = block := rfl
  rw [first] at inserting
  show (Store.createAttached moment context table .block .tab (Block.ofDefinition oid definition)
    stored.oid fun tab block => Tab.addBlock tab (Block.oid block)).result = _
  cases inserted : table.insert? (Kind.block.toRow block) with
  | none =>
      have taken : (table.find? Kind.block.name oid).isSome := Table.insert?_eq_none_iff.1 inserted
      rw [inserted] at inserting
      rw [if_pos taken, Store.createAttached_of_refused unhindered here read inserting]
      rfl
  | some longer =>
      rw [inserted] at inserting
      have free : table.find? Kind.block.name oid = none := (Table.insert?_eq_some_iff.1 inserted).1
      have still := Table.find?_of_insert?_of_find? inserted here
      let edit (owner : Kind.tab.Object) (created : Kind.block.Object) : Kind.tab.Object :=
        Tab.addBlock owner (Block.oid created)
      rw [Store.createAttached_of_inserted edit unhindered here read inserting still rfl, free]
      rfl

/-! ## The series -/

/-- What a series of creations leaves behind: the blocks that were created, each with the tab
as it was stored then, and the failure that ended the series, if one did. -/
structure BlockSeries where
  made : List (Block × Tab)
  failure : Option StoreError
  context : Context
  table : Table

namespace BlockSeries

/-- Create the blocks of a layout in a tab, up to the first creation that fails. A creation
takes two ticks, and the next begins one tick later. -/
def create (ticks : Nat → Tick) (tabId : String) (time : Nat) (context : Context) (table : Table) :
    Layout → BlockSeries
  | [] => ⟨[], none, context, table⟩
  | step :: rest =>
      let outcome := (blockCreation (ticks time).freshOid tabId step.definition).run
        (ticks (time + 1)).moment context table
      match outcome.result with
      | .error cause => ⟨[], some cause, outcome.context, outcome.table⟩
      | .ok both =>
          let later := create ticks tabId (time + 3) outcome.context outcome.table rest
          { later with made := both :: later.made }

section Steps

variable {ticks : Nat → Tick} {tabId : String} {time : Nat} {context between : Context}
  {table after : Table} {step : LayoutStep}

/-- The first creation that fails ends the series. -/
theorem create_of_failed {cause : StoreError}
    (failed : (blockCreation (ticks time).freshOid tabId step.definition).run
      (ticks (time + 1)).moment context table = ⟨.error cause, between, after⟩) (rest : Layout) :
    create ticks tabId time context table (step :: rest) = ⟨[], some cause, between, after⟩ := by
  simp only [create, failed]

/-- After a creation that succeeded the series goes on with the rest of the layout. -/
theorem create_of_succeeded {both : Block × Tab}
    (succeeded : (blockCreation (ticks time).freshOid tabId step.definition).run
      (ticks (time + 1)).moment context table = ⟨.ok both, between, after⟩) (rest : Layout) :
    create ticks tabId time context table (step :: rest) =
      let later := create ticks tabId (time + 3) between after rest
      { later with made := both :: later.made } := by
  simp only [create, succeeded]

end Steps

/-- The blocks that were created, in order. -/
def blocks (series : BlockSeries) : List Block := series.made.map Prod.fst

/-- The records of the creations: each block, and then the tab with the block in it. -/
def records (series : BlockSeries) : List UpdateRecord :=
  series.made.flatMap fun both =>
    [.ofObject .created .block both.1, .ofObject .updated .tab both.2]

/-- What holds of a series of creations in a stored tab, wherever it ended. -/
structure Fills (stored : Tab) (layout : Layout) (context : Context) (table : Table)
    (series : BlockSeries) : Prop where
  /-- At most the whole layout was created, and all of it exactly if no creation failed. -/
  count : series.made.length ≤ layout.length ∧
    (series.failure = none ↔ series.made.length = layout.length)
  /-- The blocks are those of the first steps, in order. -/
  blocks : series.blocks.map (fun block => (block.version, block.metadata)) =
    (layout.take series.made.length).map fun step => (1, step.definition.metadata)
  /-- The records were appended to the journal, and the deadline was left alone. -/
  context : series.context = context.recordAll series.records
  /-- The tab has the new blocks behind the old ones, all other rows are as they were, and the
  rows of the blocks follow. -/
  rows : ∃ tab, stored.Gained series.blocks tab ∧ series.table.rows =
    table.rows.map (Kind.tab.putRow tab) ++ series.blocks.map Kind.block.toRow
  /-- Each creation put its block behind the blocks of the creations before it. -/
  tabs : ∀ early block tab late, series.made = early ++ (block, tab) :: late →
    stored.Gained (early.map Prod.fst ++ [block]) tab

/-- A series that made nothing. -/
theorem fills_nothing {stored : Tab} {layout : Layout} {context : Context} {table : Table}
    {failure : Option StoreError}
    (here : table.find? Kind.tab.name stored.oid = some (Kind.tab.toRow stored))
    (ended : failure = none ↔ 0 = layout.length) :
    Fills stored layout context table ⟨[], failure, context, table⟩ where
  count := ⟨Nat.zero_le _, ended⟩
  blocks := rfl
  context := rfl
  rows := by
    refine ⟨stored, Tab.Gained.refl stored, ?_⟩
    show table.rows = table.rows.map (Kind.tab.putRow stored) ++ []
    rw [List.append_nil, Kind.map_putRow_of_find? here]
  tabs := by
    intro early block tab late impossible
    exact absurd impossible.symm (List.append_ne_nil_of_right_ne_nil _ (List.cons_ne_nil _ _))

/-- A series after a creation that succeeded. -/
theorem fills_more {step : LayoutStep} {rest : Layout} {context : Context}
    {table after : Table} {block : Block} {stored tab : Tab} {later : BlockSeries}
    (written : (block.version, block.metadata) = (1, step.definition.metadata))
    (gained : stored.Gained [block] tab)
    (rows : after.rows = table.rows.map (Kind.tab.putRow tab) ++ [Kind.block.toRow block])
    (follows : Fills tab rest
      (context.recordAll [.ofObject .created .block block, .ofObject .updated .tab tab]) after
      later) :
    Fills stored (step :: rest) context table
      { later with made := (block, tab) :: later.made } where
  count := by
    obtain ⟨few, all⟩ := follows.count
    exact ⟨Nat.succ_le_succ few, all.trans Nat.succ_inj.symm⟩
  blocks := congrArg₂ List.cons written follows.blocks
  context := by
    show later.context = context.recordAll ([_, _] ++ later.records)
    rw [follows.context, Context.recordAll_append]
  rows := by
    obtain ⟨last, gainedLater, rowsLater⟩ := follows.rows
    refine ⟨last, gained.trans gainedLater, ?_⟩
    have twice : (table.rows.map (Kind.tab.putRow tab)).map (Kind.tab.putRow last) =
        table.rows.map (Kind.tab.putRow last) := by
      rw [List.map_map]
      apply List.map_congr_left
      intro row _
      exact @Kind.putRow_putRow .tab tab last gainedLater.oid row
    show later.table.rows = _
    rw [rowsLater, rows, List.map_append, List.map_singleton, twice, List.append_assoc,
      Kind.putRow_toRow_of_ne (by decide)]
    rfl
  tabs := by
    intro early other found late split
    cases early with
    | nil =>
        obtain ⟨same, -⟩ := List.cons.inj split
        cases same
        exact gained
    | cons first early =>
        obtain ⟨same, splitLater⟩ := List.cons.inj split
        cases same
        exact gained.trans (follows.tabs early other found late splitLater)

/-- Every series in a stored tab is of this kind. -/
theorem fills_create (ticks : Nat → Tick) (layout : Layout) {table : Table} {stored : Tab}
    (here : table.find? Kind.tab.name stored.oid = some (Kind.tab.toRow stored)) (time : Nat)
    (context : Context) :
    Fills stored layout context table (create ticks stored.oid time context table layout) := by
  induction layout generalizing time context table stored with
  | nil => exact fills_nothing here (iff_of_true rfl rfl)
  | cons step rest ih =>
      rcases blockCreation_cases (ticks (time + 1)).moment context here (ticks time).freshOid
          step.definition with
        ⟨problem, failed⟩ | ⟨tab, after, gained, rows, there, succeeded⟩
      · rw [create_of_failed failed]
        exact fills_nothing here (iff_of_false (by simp) (by simp))
      · rw [create_of_succeeded succeeded]
        have follows := ih there (time + 3) (context.recordAll
          [.ofObject .created .block (⟨(ticks time).freshOid, 1, step.definition.metadata⟩ : Block),
            .ofObject .updated .tab tab])
        rw [gained.oid] at follows
        exact fills_more rfl gained rows follows

/-- In a tab that is not there nothing is created. -/
theorem create_of_missing (ticks : Nat → Tick) {tabId : String} (layout : Layout) {table : Table}
    (missing : table.find? Kind.tab.name tabId = none) (time : Nat) (context : Context) :
    ∃ failure, (failure = none ↔ 0 = layout.length) ∧
      create ticks tabId time context table layout = ⟨[], failure, context, table⟩ := by
  cases layout with
  | nil => exact ⟨none, iff_of_true rfl rfl, rfl⟩
  | cons step rest =>
      obtain ⟨problem, failed⟩ := blockCreation_of_missing (ticks (time + 1)).moment context missing
        (ticks time).freshOid step.definition
      exact ⟨some problem, iff_of_false (by simp) (by simp), create_of_failed failed rest⟩

end BlockSeries

end Workbench
