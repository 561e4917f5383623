/-
# Store calls on a graph

What the store calls of requests do to a graph that the table holds. A call that fails leaves the
graph as it is. A creation adds an object, an edit of the client puts another client in its
place, and the creation of a block in a tab adds the block and puts a longer tab in the place of
the tab.

Objects that are created have no metadata of their own, and edits leave it alone. That is why
they can be read again.
-/

import Workbench.Proofs.Graph.Objects
import Workbench.Proofs.Request.BlockSeries

namespace Workbench

/-- What was read after the store was entered was read. -/
theorem Moment.read_of_enter {moment : Moment} {context : Context} {α : Type}
    {read : Except StoreError α} {value : α} (loaded : moment.enter context *> read = .ok value) :
    read = .ok value := by
  cases entered : moment.enter context with
  | error problem =>
      rw [entered] at loaded
      cases loaded
  | ok _ =>
      rw [entered] at loaded
      exact loaded

namespace Table.Holds

open StoreCall

variable {table : Table} {graph : ObjectGraph} {kind : Kind}

/-! ## Looking -/

variable (holds : table.Holds graph) (moment : Moment) (context : Context)

include holds

/-- A look at a singleton gives an object of the graph. -/
theorem getSingleton_cases (notBlock : kind ≠ .block) :
    let outcome := (getSingleton kind).run moment context table
    outcome.table.Holds graph ∧
      ∀ value, outcome.result = .ok value → value ∈ graph kind := by
  intro outcome
  have run : outcome = match kind.ensureSingleton with
      | .error problem => Store.unchanged context table (.error problem)
      | .ok _ => Store.reading moment context table (Store.demandSingleton moment kind) := rfl
  rw [run]
  cases kind.ensureSingleton with
  | error problem => exact ⟨holds, nofun⟩
  | ok _ =>
      refine ⟨holds, fun value loaded => ?_⟩
      obtain ⟨row, there, decoded⟩ := Store.row_of_demandSingleton (Moment.read_of_enter loaded)
      exact (holds.of_ofRow notBlock there decoded).1

/-- A look at an object that must be there gives the object of the graph. -/
theorem mustGet_cases (notBlock : kind ≠ .block) (oid : String) :
    let outcome := (mustGet kind oid).run moment context table
    outcome.table.Holds graph ∧
      ∀ value, outcome.result = .ok value → value ∈ graph kind ∧ kind.oid value = oid := by
  refine ⟨holds, fun value loaded => ?_⟩
  obtain ⟨row, found, decoded⟩ := Store.row_of_demandObject (Moment.read_of_enter loaded)
  exact holds.of_find? notBlock found decoded

/-! ## Writing -/

/-- A creation fails, or adds its object with version one. -/
theorem create_cases {object : kind.Object} (plain : kind.metadata object = .empty) :
    let outcome := (create kind object).run moment context table
    let created := kind.withVersion object 1
    (∃ problem, outcome.result = .error problem ∧ outcome.table.Holds graph) ∨
      outcome.result = .ok created ∧ outcome.table.Holds (graph.add kind created) := by
  intro outcome created
  rcases Store.create_cases moment context table kind object with
    ⟨problem, failed⟩ | ⟨later, creation, succeeded⟩
  · have same : outcome = ⟨.error problem, context, table⟩ := failed
    rw [same]
    exact .inl ⟨problem, rfl, holds⟩
  · have wrote : outcome = ⟨.ok created, _, later⟩ := succeeded
    rw [wrote]
    refine .inr ⟨rfl, ?_⟩
    refine holds.created creation fun _ => ?_
    apply kind.ofRow_toRow
    rw [Kind.metadata_withVersion, plain]
    exact Meta.withinLimits_empty

/-- An edit of the client changes nothing, or puts the edited client in the place of the client. -/
theorem modifyClient_cases {edit : Client → Client × Bool}
    (plain : ∀ client : Client, client ∈ graph .client → ∀ edited, edit client = (edited, true) →
      edited.metadata = client.metadata) :
    let outcome := (modifySingleton .client edit).run moment context table
    outcome.table.Holds graph ∨
      ∃ client edited : Client, client ∈ graph .client ∧ edit client = (edited, true) ∧
        outcome.table.Holds (graph.put .client { edited with version := edited.version + 1 }) := by
  intro outcome
  have single : outcome = Store.modifyWith moment context table .client
      (Store.demandSingleton moment .client) edit := rfl
  rw [single]
  rcases Store.modifyWith_edits moment context table .client
      (Store.demandSingleton moment .client) edit with
    ⟨problem, failed⟩ | ⟨client, edited, changed, loaded, answer, ended⟩
  · rw [failed]
    exact .inl holds
  · cases changed with
    | false =>
        rw [ended]
        exact .inl holds
    | true =>
        obtain ⟨after, change, wrote⟩ := ended
        obtain ⟨row, there, decoded⟩ := Store.row_of_demandSingleton loaded
        obtain ⟨inGraph, rfl⟩ := holds.of_ofRow (by decide) there decoded
        refine .inr ⟨client, edited, inGraph, answer, ?_⟩
        rw [wrote]
        refine holds.updated change fun _ => ?_
        exact Kind.client.ofRow_toRow_of_metadata_eq decoded (plain client inGraph edited answer)

/-- The creation of a block in a tab fails, or adds the block to the graph and to the tab. -/
theorem blockCreation_cases (oid tabId : String) (definition : BlockDefinition) :
    let outcome := (blockCreation oid tabId definition).run moment context table
    let block : Block := ⟨oid, 1, definition.metadata⟩
    (∃ problem, outcome.result = .error problem ∧ outcome.table.Holds graph) ∨
      ∃ owner : Tab, owner ∈ graph .tab ∧ owner.oid = tabId ∧
        let filled : Tab :=
          ⟨tabId, owner.version + 1, owner.name, owner.blockIds ++ [oid], owner.metadata⟩
        outcome.result = .ok (block, filled) ∧
          outcome.table.Holds ((graph.add .block block).put .tab filled) := by
  intro outcome block
  rcases Store.createAttached_cases moment context table .block .tab
      (Block.ofDefinition oid definition) tabId
      (fun tab block => Tab.addBlock tab (Block.oid block)) with
    ⟨problem, failed⟩ | ⟨row, owner, between, after, found, decoded, creation, change, succeeded⟩
  · have same : outcome = ⟨.error problem, context, table⟩ := failed
    rw [same]
    exact .inl ⟨problem, rfl, holds⟩
  · obtain ⟨inGraph, rfl⟩ := holds.of_find? (by decide) found decoded
    have wrote : outcome = ⟨.ok _, _, after⟩ := succeeded
    rw [wrote]
    refine .inr ⟨owner, inGraph, rfl, rfl, ?_⟩
    have holdsBlock := holds.created creation fun notBlock => absurd rfl notBlock
    refine holdsBlock.updated change fun _ => ?_
    exact Kind.tab.ofRow_toRow_of_metadata_eq (holds.read .tab (by decide) owner inGraph) rfl

end Table.Holds

end Workbench
