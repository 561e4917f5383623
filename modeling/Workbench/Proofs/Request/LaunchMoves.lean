/-
# The moves of a first launch among others

A launch goes on from one stage to the next, whatever other launches did in between. It can rely
on little: that the client stays once it is there, that windows stay listed, and that nobody else
takes the identifier that it drew. In return it adds rows and windows under that identifier only.

What a move does to the list of windows is counted. A move that finds the client without windows
leads to one more window, and the move that lists it comes later.
-/

import Workbench.Proofs.Request.Crowd
import Workbench.Proofs.Request.LaunchStages
import Workbench.Proofs.Store.ClientRow

namespace Workbench

/-! ## Looks that find no windows -/

/-- A store call that gives back a client without windows: a look at the client, or its creation. -/
def StoreCall.findsNoWindow : (call : StoreCall) → Except StoreError call.Value → Bool
  | getSingleton .client, (.ok client : Except StoreError Client) => client.windowIds.isEmpty
  | create .client _, (.ok client : Except StoreError Client) => client.windowIds.isEmpty
  | _, _ => false

/-- An effect that gives back a client without windows. -/
def Effect.findsNoWindow : (effect : Effect) → effect.Answer → Bool
  | storeCall call => fun answer : Except StoreError call.Value => call.findsNoWindow answer
  | _ => fun _ => false

/-! ## How a table grows -/

namespace Table

/-- There is a row under the identifier, of whatever kind. -/
def Has (table : Table) (oid : String) : Prop := ∃ row ∈ table.rows, row.oid = oid

/-- The client lists the window. -/
def Lists (table : Table) (windowId : String) : Prop :=
  ∃ client, table.client? = some client ∧ windowId ∈ client.windowIds

/-- Rows and listed windows are added under one identifier at most, and what the client listed it
still lists. -/
structure GrowsBy (drawn : Option String) (before after : Table) : Prop where
  has : ∀ oid, after.Has oid → before.Has oid ∨ drawn = some oid
  lists : ∀ oid, after.Lists oid → before.Lists oid ∨ drawn = some oid
  keeps : ∀ client, before.client? = some client →
    ∃ later, after.client? = some later ∧ client.windowIds ⊆ later.windowIds

theorem GrowsBy.refl (drawn : Option String) (table : Table) : GrowsBy drawn table table :=
  ⟨fun _ => .inl, fun _ => .inl, fun client stored => ⟨client, stored, List.Subset.refl _⟩⟩

theorem Lists.congr {first second : Table} {windowId : String}
    (same : first.client? = second.client?) : first.Lists windowId ↔ second.Lists windowId := by
  rw [Lists, Lists, same]

/-- A new row adds its identifier. -/
theorem has_of_created {before after : Table} {kind : Kind} {object : kind.Object}
    (takes : RowWrite.Takes before ⟨.created, kind, object⟩ after) {oid : String}
    (used : after.Has oid) : before.Has oid ∨ some (kind.oid object) = some oid := by
  cases takes with
  | created first alone inserted =>
      obtain ⟨row, there, same⟩ := used
      rw [(insert?_eq_some_iff.1 inserted).2, List.mem_append, List.mem_singleton] at there
      rcases there with old | rfl
      · exact .inl ⟨row, old, same⟩
      · exact .inr (congrArg some same)

/-- An object other than the client adds its identifier. -/
theorem growsBy_of_created {before after : Table} {kind : Kind} {object : kind.Object}
    (takes : RowWrite.Takes before ⟨.created, kind, object⟩ after) (other : kind ≠ .client) :
    GrowsBy (some (kind.oid object)) before after := by
  have same : after.client? = before.client? := client?_congr (takes.ofKind_of_ne other)
  refine ⟨fun _ => has_of_created takes, fun _ there => .inl ((Lists.congr same).1 there), ?_⟩
  intro client stored
  exact ⟨client, same.trans stored, List.Subset.refl _⟩

/-- The first client adds its identifier, and lists no window. -/
theorem growsBy_of_newClient {before after : Table} {client : Client}
    (takes : RowWrite.Takes before ⟨.created, .client, client⟩ after)
    (none : before.ofKind Kind.client.name = []) (stored : after.client? = some client)
    (without : client.windowIds = []) : GrowsBy (some client.oid) before after := by
  refine ⟨fun _ => has_of_created takes, ?_, ?_⟩
  · rintro oid ⟨held, now, listed⟩
    cases stored.symm.trans now
    rw [without] at listed
    cases listed
  · intro held before
    rw [client?, none] at before
    cases before

/-- Listing a window adds its identifier. -/
theorem growsBy_of_listed {before after : Table} {client : Client} {windowId : String}
    {metadata : Meta} (keys : after.rows.map Row.key = before.rows.map Row.key)
    (stored : before.client? = some client)
    (now : after.client? = some { (ClientEdit.list windowId).applied client with metadata }) :
    GrowsBy (some windowId) before after := by
  have mem := (ClientEdit.list windowId).mem_windowIds_applied client
  refine ⟨?_, ?_, ?_⟩
  · rintro oid ⟨row, there, same⟩
    have key : row.key ∈ before.rows.map Row.key := keys ▸ List.mem_map_of_mem there
    obtain ⟨old, present, sameKey⟩ := List.mem_map.1 key
    exact .inl ⟨old, present, (congrArg Prod.snd sameKey).trans same⟩
  · rintro oid ⟨held, stands, listed⟩
    cases now.symm.trans stands
    rcases (mem oid).1 listed with old | new
    · exact .inl ⟨client, stored, old⟩
    · cases new
      exact .inr rfl
  · intro held before
    cases stored.symm.trans before
    exact ⟨_, now, fun oid old => (mem oid).2 (.inl old)⟩

/-- There is no client yet and no window was listed, or the client lists as many windows as were
listed. -/
def ClientStands (table : Table) (listed : Nat) : Prop :=
  (table.ofKind Kind.client.name = [] ∧ listed = 0) ∨
    ∃ client, table.client? = some client ∧ client.windowIds.Nodup ∧
      client.windowIds.length = listed

end Table

namespace LaunchStage

/-! ## What holds at a stage -/

/-- The identifier that a launch drew and still needs. -/
def drawn : LaunchStage → Option String
  | createClient oid | createTab oid | createWorkspace _ oid | createWindow _ _ oid => some oid
  | list window => some window.oid
  | _ => none

/-- How many moves a launch has left at most. -/
def left : LaunchStage → Nat
  | look => 12
  | drawClient => 11
  | createClient _ => 10
  | lookAgain => 9
  | drawTab => 8
  | createTab _ => 7
  | drawWorkspace _ => 6
  | createWorkspace _ _ => 5
  | drawWindow _ _ => 4
  | createWindow _ _ _ => 3
  | list _ => 2
  | lookBack => 1
  | ended _ _ | failed _ => 0

/-- One if the launch has listed a window. -/
def listed : LaunchStage → Nat
  | lookBack => 1
  | ended made _ => made.toNat
  | _ => 0

/-- One if the launch has found the client without windows. -/
def making : LaunchStage → Nat
  | look | drawClient | createClient _ | lookAgain | failed _ => 0
  | ended made _ => made.toNat
  | _ => 1

/-- What a launch can rely on at a stage, whatever other launches do. -/
def Sound (table : Table) : LaunchStage → Prop
  | look | drawClient | createClient _ => True
  | lookAgain | drawTab | drawWorkspace _ | drawWindow _ _ => ∃ client, table.client? = some client
  | createTab oid | createWorkspace _ oid | createWindow _ _ oid =>
      (∃ client, table.client? = some client) ∧ ¬ table.Has oid ∧ ¬ table.Lists oid
  | list window => (∃ client, table.client? = some client) ∧ ¬ table.Lists window.oid
  | lookBack => ∃ client, table.client? = some client ∧ client.windowIds ≠ []
  | ended _ found => found.windowIds ≠ [] ∧
      ∃ client, table.client? = some client ∧ found.windowIds ⊆ client.windowIds
  | failed _ => False

/-- What holds at the stage of one launch holds after a move of another that needs another
identifier. -/
theorem Sound.grows {stage : LaunchStage} {before after : Table} {other : Option String}
    (sound : stage.Sound before) (grows : before.GrowsBy other after)
    (apart : ∀ oid, stage.drawn = some oid → other ≠ some oid) : stage.Sound after := by
  have still : (∃ client, before.client? = some client) → ∃ client, after.client? = some client := by
    rintro ⟨client, stored⟩
    obtain ⟨later, now, -⟩ := grows.keeps client stored
    exact ⟨later, now⟩
  have unused : ∀ oid, other ≠ some oid → ¬ before.Has oid → ¬ after.Has oid :=
    fun oid different free used => (grows.has oid used).elim free different
  have unlisted : ∀ oid, other ≠ some oid → ¬ before.Lists oid → ¬ after.Lists oid :=
    fun oid different free used => (grows.lists oid used).elim free different
  cases stage with
  | look | drawClient | createClient => trivial
  | lookAgain | drawTab | drawWorkspace | drawWindow => exact still sound
  | createTab oid | createWorkspace _ oid | createWindow _ _ oid =>
      exact ⟨still sound.1, unused oid (apart oid rfl) sound.2.1,
        unlisted oid (apart oid rfl) sound.2.2⟩
  | list window => exact ⟨still sound.1, unlisted window.oid (apart _ rfl) sound.2⟩
  | lookBack =>
      obtain ⟨client, stored, some⟩ := sound
      obtain ⟨later, now, more⟩ := grows.keeps client stored
      exact ⟨later, now, fun none => some (List.subset_nil.1 (none ▸ more))⟩
  | ended made found =>
      obtain ⟨some, client, stored, listed⟩ := sound
      obtain ⟨later, now, more⟩ := grows.keeps client stored
      exact ⟨some, later, now, List.Subset.trans listed more⟩
  | failed => exact sound.elim

/-! ## Launches that have come to their end -/

/-- A launch that can do nothing more has answered with a client. -/
theorem eq_ended {stage : LaunchStage} {table : Table} (sound : stage.Sound table)
    (stays : stage.step? = none) : ∃ made client, stage = ended made client := by
  cases stage with
  | ended made client => exact ⟨made, client, rfl⟩
  | failed => exact sound.elim
  | look | drawClient | createClient | lookAgain | drawTab | createTab | drawWorkspace
  | createWorkspace | drawWindow | createWindow | list | lookBack => cases stays

theorem step?_eq_none_of_left {stage : LaunchStage} (spent : stage.left = 0) :
    stage.step? = none := by
  cases stage with
  | ended | failed => rfl
  | look | drawClient | createClient | lookAgain | drawTab | createTab | drawWorkspace
  | createWorkspace | drawWindow | createWindow | list | lookBack => cases spent

/-- A launch that has answered has listed a window if it found none. -/
theorem listed_eq_making {stage : LaunchStage} {made : Bool} {client : Client}
    (isEnded : stage = ended made client) :
    stage.listed = stage.making ∧ stage.listed ≤ 1 := by
  rw [isEnded]
  exact ⟨rfl, Bool.toNat_le made⟩

/-! ## One move of a launch -/

/-- No effect of a launch touches the deadline. -/
theorem deadline_perform {stage : LaunchStage} {effect : Effect}
    {next : effect.Answer → LaunchStage} (goes : stage.step? = some ⟨effect, next⟩) (tick : Tick)
    (context : Context) (world : World) :
    (effect.perform tick context world).context.deadline = context.deadline := by
  cases stage with
  | drawClient | drawTab | drawWorkspace | drawWindow =>
      cases goes
      rfl
  | ended | failed => cases goes
  | look | createClient | lookAgain | createTab | createWorkspace | createWindow | list | lookBack =>
      cases goes
      exact StoreCall.deadline_run ..

/-- A launch went on from a stage to the next. -/
structure Advances (fresh : String) (finds : Bool) (stage next : LaunchStage)
    (before after : Table) : Prop where
  grows : before.GrowsBy stage.drawn after
  sound : next.Sound after
  drawn : next.drawn = none ∨ next.drawn = stage.drawn ∨ next.drawn = some fresh
  left : next.left < stage.left
  client : ∀ listed, before.ClientStands (listed + stage.listed) →
    after.ClientStands (listed + next.listed)
  making : next.making = stage.making + finds.toNat

section Advances

variable {fresh : String} {stage next : LaunchStage} {table : Table}

/-- A launch needs the identifier that it drew now, or one that it needed before. -/
theorem Advances.of_drawn {finds : Bool} {after : Table} {oid : String}
    (advances : Advances fresh finds stage next table after) (needs : next.drawn = some oid) :
    stage.drawn = some oid ∨ oid = fresh := by
  rcases advances.drawn with none | same | new
  · rw [none] at needs
    cases needs
  · exact .inl (same.symm.trans needs)
  · exact .inr (Option.some.inj (needs.symm.trans new))

/-- A move that leaves the table as it is. -/
theorem Advances.of_unchanged {finds : Bool} (sound : next.Sound table)
    (drawn : next.drawn = none ∨ next.drawn = some fresh) (left : next.left < stage.left)
    (listed : next.listed = stage.listed) (making : next.making = stage.making + finds.toNat) :
    Advances fresh finds stage next table table where
  grows := .refl _ table
  sound
  drawn := drawn.imp_right .inr
  left
  client := by simp only [listed, imp_self, implies_true]
  making

/-- After a look at the client the launch goes on with it. -/
theorem advances_found {client : Client} (stored : table.client? = some client)
    (early : 8 < stage.left) (unlisted : stage.listed = 0) (unmade : stage.making = 0) :
    Advances fresh client.windowIds.isEmpty stage (found client) table table := by
  rw [found]
  cases windows : client.windowIds with
  | nil =>
      simp only [List.isEmpty_nil, if_true]
      exact .of_unchanged ⟨client, stored⟩ (.inl rfl) early unlisted.symm (by rw [unmade]; rfl)
  | cons first others =>
      simp only [List.isEmpty_cons, Bool.false_eq_true, if_false]
      have some : client.windowIds ≠ [] := windows ▸ List.cons_ne_nil first others
      exact .of_unchanged ⟨some, client, stored, List.Subset.refl _⟩ (.inl rfl)
        (Nat.lt_of_le_of_lt (Nat.zero_le 8) early) unlisted.symm (by rw [unmade]; rfl)

/-- After an object other than the client was created, the launch goes on with it. -/
theorem Advances.of_created {kind : Kind} {object : kind.Object} {after : Table}
    (takes : RowWrite.Takes table ⟨.created, kind, object⟩ after) (other : kind ≠ .client)
    (drawn : stage.drawn = some (kind.oid object)) (sound : next.Sound after)
    (still : next.drawn = none ∨ next.drawn = some (kind.oid object))
    (left : next.left < stage.left)
    (listed : next.listed = stage.listed) (making : next.making = stage.making) :
    Advances fresh false stage next table after where
  grows := drawn ▸ Table.growsBy_of_created takes other
  sound
  drawn := still.imp_right fun needs => .inl (needs.trans drawn.symm)
  left
  client count stands := by
    rw [listed]
    have same := takes.ofKind_of_ne other
    rcases stands with ⟨none, zero⟩ | ⟨client, stored, distinct, length⟩
    · exact .inl ⟨same.trans none, zero⟩
    · exact .inr ⟨client, (Table.client?_congr same).trans stored, distinct, length⟩
  making

/-- The client is still there after another object was created. -/
theorem exists_client_of_created {kind : Kind} {object : kind.Object} {after : Table}
    (takes : RowWrite.Takes table ⟨.created, kind, object⟩ after) (other : kind ≠ .client)
    (stored : ∃ client, table.client? = some client) : ∃ client, after.client? = some client := by
  rw [Table.client?_congr (takes.ofKind_of_ne other)]
  exact stored

/-- After the client was created, the launch goes on to make a window. -/
theorem advances_newClient {client : Client} {after : Table}
    (takes : RowWrite.Takes table ⟨.created, .client, client⟩ after)
    (none : table.ofKind Kind.client.name = []) (without : client.windowIds = [])
    (plain : client.metadata = .empty) (drawn : stage = createClient client.oid)
    (nextStage : next = drawTab) : Advances fresh true stage next table after := by
  subst drawn
  subst nextStage
  have stored : after.client? = some client := by
    refine Table.client?_eq_some_iff.2 ⟨Kind.client.toRow client, ?_, Kind.client.ofRow_toRow ?_⟩
    · rw [takes.ofKind_of_created, none, List.nil_append]
    · rw [Kind.metadata, plain]
      exact Meta.withinLimits_empty
  refine ⟨Table.growsBy_of_newClient takes none stored without, ⟨client, stored⟩, .inl rfl,
    (by decide : 8 < 10), ?_, rfl⟩
  rintro count (⟨-, zero⟩ | ⟨held, before, -⟩)
  · refine .inr ⟨client, stored, without ▸ List.nodup_nil, ?_⟩
    rw [without]
    exact zero.symm
  · rw [Table.client?, none] at before
    cases before

/-- An object of which there may be several is created under an identifier that is not in use. -/
theorem create_of_unused {moment : Moment} {context : Context}
    (unhindered : moment.Unhindered context) (kind : Kind) (several : kind.isSingleton = false)
    (object : kind.Object) (free : ¬ table.Has (kind.oid object)) :
    ∃ after, RowWrite.Takes table ⟨.created, kind, kind.withVersion object 1⟩ after ∧
      (StoreCall.create kind object).run moment context table =
        ⟨.ok (kind.withVersion object 1),
          context.record (.ofObject .created kind (kind.withVersion object 1)), after⟩ := by
  apply StoreCall.create_of_free unhindered
  · rw [Store.ensureNoSingleton, several]
    rfl
  · rw [Table.find?_eq_none_iff]
    exact fun row there same => free ⟨row, there, congrArg Prod.snd same⟩

/-- The window is put at the end of the list. -/
theorem advances_list {window : Window} {client : Client} {tick : Tick} {context : Context}
    {world : World} (holds : world.table.HoldsObjects) (stored : world.table.client? = some client)
    (without : ¬ world.table.Lists window.oid) (unhindered : tick.moment.Unhindered context) :
    let call : StoreCall :=
      .modifySingleton .client fun client => Client.addWindow client window.oid
    let reply := (Effect.storeCall call).perform tick context world
    Advances fresh ((Effect.storeCall call).findsNoWindow reply.answer) (list window)
      (onSuccess (α := Client) "adding window to client" (fun _ => lookBack) reply.answer)
      world.table reply.world.table := by
  intro call reply
  let edit : ClientEdit := .list window.oid
  have absent : window.oid ∉ client.windowIds := fun listed => without ⟨client, stored, listed⟩
  obtain ⟨answer, went⟩ := edit.exists_result_of_unhindered tick.moment context holds stored
    unhindered
  rcases edit.run_cases tick.moment context holds stored with
    ⟨problem, failed⟩ | ⟨listed, later, after, metadata, ran, now⟩
  · rw [failed] at went
    cases went
  have keys := edit.keys_run tick.moment context world.table
  have done : call.run tick.moment context world.table = ⟨.ok listed, later, after⟩ := ran
  rw [ran] at keys
  simp only [reply, Effect.perform, done]
  refine ⟨Table.growsBy_of_listed keys stored now, ?_, .inl rfl, (by decide : 1 < 2), ?_, rfl⟩
  · refine ⟨_, now, fun none => ?_⟩
    have there := (edit.mem_windowIds_applied client window.oid).2 (.inr rfl)
    rw [none] at there
    cases there
  · rintro count (⟨none, -⟩ | ⟨held, before, distinct, length⟩)
    · rw [Table.client?, none] at stored
      cases stored
    · cases stored.symm.trans before
      refine .inr ⟨_, now, edit.nodup_windowIds_applied client distinct, ?_⟩
      have windows : (edit.applied client).windowIds = client.windowIds ++ [window.oid] := by
        rw [edit.windowIds_applied]
        show (client.addWindow window.oid).1.windowIds = _
        rw [Client.addWindow, if_neg absent]
      show (edit.applied client).windowIds.length = _
      rw [windows, List.length_append, length]
      rfl

end Advances

/-- When nothing stands in its way, a launch goes on from each stage to a later one. -/
theorem advance {stage : LaunchStage} {effect : Effect} {next : effect.Answer → LaunchStage}
    (goes : stage.step? = some ⟨effect, next⟩) {tick : Tick} {context : Context} {world : World}
    (holds : world.table.HoldsObjects) (sound : stage.Sound world.table)
    (stands : ∃ listed, world.table.ClientStands listed)
    (unhindered : tick.moment.Unhindered context) (unused : ¬ world.table.Has tick.freshOid)
    (unlisted : ¬ world.table.Lists tick.freshOid) :
    let reply := effect.perform tick context world
    Advances tick.freshOid (effect.findsNoWindow reply.answer) stage (next reply.answer)
      world.table reply.world.table := by
  have client : world.table.ofKind Kind.client.name = [] ∨
      ∃ client, world.table.client? = some client := by
    obtain ⟨listed, ⟨none, -⟩ | ⟨client, stored, -⟩⟩ := stands
    · exact .inl none
    · exact .inr ⟨client, stored⟩
  cases stage with
  | look =>
      cases goes
      rcases client with none | ⟨client, stored⟩
      · simp only [Effect.perform, StoreCall.getSingleton_of_none unhindered none]
        exact .of_unchanged trivial (.inl rfl) (by decide) rfl rfl
      · simp only [Effect.perform, StoreCall.getSingleton_of_some unhindered stored]
        exact advances_found stored (by decide) rfl rfl
  | drawClient =>
      cases goes
      exact .of_unchanged trivial (.inr rfl) (Nat.lt_succ_self 10) rfl rfl
  | createClient oid =>
      cases goes
      rcases client with none | ⟨client, stored⟩
      · obtain ⟨after, takes, ran⟩ :=
          StoreCall.createClient_of_none unhindered none (Client.new oid)
        simp only [Effect.perform, ran]
        exact advances_newClient takes none rfl rfl rfl rfl
      · simp only [Effect.perform, StoreCall.createClient_of_some unhindered stored]
        exact .of_unchanged ⟨client, stored⟩ (.inl rfl) (by decide : 9 < 10) rfl rfl
  | lookAgain =>
      cases goes
      obtain ⟨client, stored⟩ := sound
      simp only [Effect.perform, StoreCall.getSingleton_of_some unhindered stored]
      exact advances_found stored (by decide) rfl rfl
  | drawTab =>
      cases goes
      exact .of_unchanged ⟨sound, unused, unlisted⟩ (.inr rfl) (Nat.lt_succ_self 7) rfl rfl
  | createTab oid =>
      cases goes
      obtain ⟨there, free, -⟩ := sound
      obtain ⟨after, takes, ran⟩ :=
        create_of_unused unhindered .tab rfl (Tab.new oid Request.tabName) free
      simp only [Effect.perform, ran]
      exact .of_created takes nofun rfl (exists_client_of_created takes nofun there) (.inl rfl)
        (by decide : 6 < 7) rfl rfl
  | drawWorkspace tab =>
      cases goes
      exact .of_unchanged ⟨sound, unused, unlisted⟩ (.inr rfl) (Nat.lt_succ_self 5) rfl rfl
  | createWorkspace tab oid =>
      cases goes
      obtain ⟨there, free, -⟩ := sound
      obtain ⟨after, takes, ran⟩ := create_of_unused unhindered .workspace rfl
        (Workspace.addTab (.new oid Request.workspaceName) tab.oid) free
      simp only [Effect.perform, ran]
      exact .of_created takes nofun rfl (exists_client_of_created takes nofun there) (.inl rfl)
        (by decide : 4 < 5) rfl rfl
  | drawWindow tab workspace =>
      cases goes
      exact .of_unchanged ⟨sound, unused, unlisted⟩ (.inr rfl) (Nat.lt_succ_self 3) rfl rfl
  | createWindow tab workspace oid =>
      cases goes
      obtain ⟨there, free, without⟩ := sound
      obtain ⟨after, takes, ran⟩ :=
        create_of_unused unhindered .window rfl (Window.new oid workspace.oid tab.oid) free
      have same : after.client? = world.table.client? :=
        Table.client?_congr (takes.ofKind_of_ne nofun)
      simp only [Effect.perform, ran]
      exact .of_created takes nofun rfl
        ⟨exists_client_of_created takes nofun there, fun listed =>
          without ((Table.Lists.congr same).1 listed)⟩
        (.inr rfl) (by decide : 2 < 3) rfl rfl
  | list window =>
      cases goes
      obtain ⟨⟨client, stored⟩, without⟩ := sound
      exact advances_list holds stored without unhindered
  | lookBack =>
      cases goes
      obtain ⟨client, stored, some⟩ := sound
      simp only [Effect.perform, StoreCall.getSingleton_of_some unhindered stored]
      have finds : client.windowIds.isEmpty = false := by simpa using some
      exact .of_unchanged ⟨some, client, stored, List.Subset.refl _⟩ (.inl rfl) (by decide : 0 < 1) rfl
        (congrArg (1 + ·.toNat) finds).symm
  | ended | failed => cases goes

end LaunchStage

end Workbench
