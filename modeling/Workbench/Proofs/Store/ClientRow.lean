/-
# The client of a store

Requests do three things to the client: they put a window at the end of its list, they bring a
window to the front, and they stamp it with the time of an acceptance. Each is an edit in one
store call. All other calls that requests make spare the client.

After an edit that goes through, the client is the edited one. Only its metadata may be another,
because it is read from its text once more; that it can be read is certain, because it could be
read before.
-/

import Workbench.Proofs.Object.Rewritten
import Workbench.Proofs.Store.Conflicts

namespace Workbench

/-! ## The client of a table -/

namespace Table

/-- The client, if there is one only and it can be read. -/
def client? (table : Table) : Option Client :=
  match table.ofKind Kind.client.name with
  | [row] => (Kind.client.ofRow row).toOption
  | _ => none

theorem client?_eq_some_iff {table : Table} {client : Client} :
    table.client? = some client ↔
      ∃ row, table.ofKind Kind.client.name = [row] ∧ Kind.client.ofRow row = .ok client := by
  rw [client?]
  constructor
  · intro found
    split at found
    · rename_i row single
      refine ⟨row, single, ?_⟩
      cases decoded : Kind.client.ofRow row with
      | error problem =>
          rw [decoded] at found
          cases found
      | ok held =>
          rw [decoded] at found
          cases found
          rfl
    · cases found
  · rintro ⟨row, single, decoded⟩
    rw [single]
    simp only [decoded]
    rfl

/-- The client that is stored names its row, and has its version. -/
theorem row_of_client? {table : Table} {client : Client} (holds : table.HoldsObjects)
    (stored : table.client? = some client) :
    ∃ row, table.ofKind Kind.client.name = [row] ∧ Kind.client.ofRow row = .ok client ∧
      table.find? Kind.client.name client.oid = some row ∧ row.version = client.version := by
  obtain ⟨row, single, decoded⟩ := client?_eq_some_iff.1 stored
  obtain ⟨-, found, version⟩ := holds.of_oldest single decoded
  exact ⟨row, single, decoded, found, version⟩

/-- What is loaded of the client is the client. -/
theorem eq_of_demandSingleton {moment : Moment} {table : Table} {client held : Client}
    (stored : table.client? = some client)
    (loaded : Store.demandSingleton moment .client table = .ok held) : held = client := by
  obtain ⟨row, single, decoded⟩ := client?_eq_some_iff.1 stored
  obtain ⟨found, there, read⟩ := Store.row_of_demandSingleton loaded
  rw [single, List.mem_singleton] at there
  rw [there, decoded, Except.ok.injEq] at read
  exact read.symm

theorem client?_congr {first second : Table}
    (same : first.ofKind Kind.client.name = second.ofKind Kind.client.name) :
    first.client? = second.client? := by
  rw [client?, client?, same]

end Table

/-! ## Calls that spare the client -/

/-- A call that reads, or that creates objects of other kinds, perhaps in an owner of yet another
kind. -/
inductive StoreCall.SparesClient : StoreCall → Prop where
  | getSingleton (kind : Kind) : SparesClient (.getSingleton kind)
  | mustGet (kind : Kind) (oid : String) : SparesClient (.mustGet kind oid)
  | create {kind : Kind} (object : kind.Object) : kind ≠ .client →
      SparesClient (.create kind object)
  | createAttached {child parent : Kind} (object : child.Object) (parentOid : String)
      (edit : parent.Object → child.Object → parent.Object) : child ≠ .client →
      parent ≠ .client → child ≠ parent →
      (∀ owner created, parent.oid (edit owner created) = parent.oid owner ∧
        parent.version (edit owner created) = parent.version owner) →
      SparesClient (.createAttached child parent object parentOid edit)

/-- The rows that such a call writes are rows of other kinds. -/
theorem StoreCall.SparesClient.kind_ne {call : StoreCall} (spares : call.SparesClient)
    (before after : Table) (value : call.Value) :
    ∀ write ∈ call.written before after value, write.kind ≠ .client := by
  cases spares with
  | getSingleton | mustGet => exact fun _ impossible => absurd impossible List.not_mem_nil
  | create object other =>
      intro write written
      rw [List.mem_singleton.1 written]
      exact other
  | createAttached object parentOid edit otherChild otherParent =>
      intro write written
      rcases List.mem_cons.1 written with rfl | written
      · exact otherChild
      · rw [List.mem_singleton.1 written]
        exact otherParent

/-- The client is afterwards as it was, and the call does not fail because it was too late. -/
theorem StoreCall.SparesClient.run {call : StoreCall} (spares : call.SparesClient)
    (moment : Moment) (context : Context) {table : Table} (holds : table.HoldsObjects) :
    (call.run moment context table).table.ofKind Kind.client.name =
        table.ofKind Kind.client.name ∧
      Store.Uncontested (call.run moment context table).result := by
  constructor
  · have ended := call.ends moment context table
    generalize call.run moment context table = outcome at ended
    cases ended with
    | failed problem => rfl
    | succeeded value after writes => exact writes.ofKind_of_ne (spares.kind_ne table after value)
  · cases spares with
    | getSingleton kind => exact Store.uncontested_getSingleton moment context kind
    | mustGet kind oid => exact Store.uncontested_mustGet moment context kind oid
    | create object => exact Store.uncontested_create moment context _ object
    | createAttached object parentOid edit _ _ _ keeps =>
        exact Store.uncontested_createAttached moment context holds keeps object parentOid

/-! ## Edits of the client -/

/-- What a request does to the client. -/
inductive ClientEdit where
  /-- Put a window at the end of the list. -/
  | list (windowId : String)
  /-- Bring a window to the front. -/
  | focus (windowId : String)
  /-- Note the time of an acceptance. -/
  | stamp (time : Int64)

namespace ClientEdit

/-- The edited client, and whether the edit changed anything. -/
def apply : ClientEdit → Client → Client × Bool
  | list windowId, client => client.addWindow windowId
  | focus windowId, client => client.focusWindow windowId
  | stamp time, client => ({ client with tosAgreed := time }, true)

/-- The store call of an edit. -/
def call (edit : ClientEdit) : StoreCall := .modifySingleton .client edit.apply

/-- The client after an edit that went through. -/
def applied (edit : ClientEdit) (client : Client) : Client :=
  Kind.client.applyEdit client edit.apply

variable (edit : ClientEdit) (client : Client)

/-- An edit that changes nothing gives the client back as it is, and none but list, time and
version of the client ever change. -/
theorem apply_cases :
    edit.apply client = (client, false) ∨
      ∃ windowIds tosAgreed, edit.apply client = ({ client with windowIds, tosAgreed }, true) := by
  cases edit with
  | list windowId =>
      rw [apply, Client.addWindow]
      split
      · exact .inl rfl
      · exact .inr ⟨_, _, rfl⟩
  | focus windowId =>
      rw [apply, Client.focusWindow]
      split
      · exact .inr ⟨_, _, rfl⟩
      · exact .inl rfl
  | stamp time => exact .inr ⟨_, _, rfl⟩

theorem keepsKey : Kind.client.KeepsKey edit.apply := by
  intro client
  rcases edit.apply_cases client with same | ⟨windowIds, tosAgreed, changed⟩
  · rw [same]
    exact ⟨rfl, rfl⟩
  · rw [changed]
    exact ⟨rfl, rfl⟩

theorem metadata_applied : (edit.applied client).metadata = client.metadata := by
  rw [applied, Kind.applyEdit]
  rcases edit.apply_cases client with same | ⟨windowIds, tosAgreed, changed⟩
  · rw [same]
    rfl
  · rw [changed]
    rfl

theorem windowIds_applied :
    (edit.applied client).windowIds = (edit.apply client).1.windowIds := by
  rw [applied, Kind.applyEdit]
  rcases edit.apply_cases client with same | ⟨windowIds, tosAgreed, changed⟩
  · rw [same]
    rfl
  · rw [changed]
    rfl

/-- The version counts the edits that reported a change. -/
theorem version_applied :
    (edit.applied client).version =
      client.version + Int64.ofNat (edit.apply client).2.toNat := by
  rw [applied, Kind.applyEdit]
  rcases edit.apply_cases client with same | ⟨windowIds, tosAgreed, changed⟩
  · rw [same]
    exact (Int64.add_zero _).symm
  · rw [changed]
    rfl

theorem tosAgreed_applied :
    (edit.applied client).tosAgreed =
      match edit with
      | stamp time => time
      | _ => client.tosAgreed := by
  rw [applied, Kind.applyEdit]
  cases edit with
  | list windowId =>
      rw [apply, Client.addWindow]
      split <;> rfl
  | focus windowId =>
      rw [apply, Client.focusWindow]
      split <;> rfl
  | stamp time => rfl

/-- The listed windows are those that were listed before, and the one that is put on the list. -/
theorem mem_windowIds_applied (windowId : String) :
    windowId ∈ (edit.applied client).windowIds ↔
      windowId ∈ client.windowIds ∨ edit = list windowId := by
  rw [windowIds_applied]
  cases edit with
  | list listed =>
      rw [apply, Client.addWindow, list.injEq]
      split
      · rename_i present
        constructor
        · exact .inl
        · rintro (old | rfl)
          · exact old
          · exact present
      · rw [List.mem_append, List.mem_singleton]
        exact or_congr_right eq_comm
  | focus focused =>
      have same : windowId ∈ (client.focusWindow focused).1.windowIds ↔
          windowId ∈ client.windowIds := by
        rw [Client.focusWindow]
        split
        · rename_i present
          exact (List.perm_cons_erase present.1).mem_iff.symm
        · exact Iff.rfl
      simp only [apply, same, reduceCtorEq, or_false]
  | stamp time => simp only [apply, reduceCtorEq, or_false]

/-- No window is listed twice. -/
theorem nodup_windowIds_applied (distinct : client.windowIds.Nodup) :
    (edit.applied client).windowIds.Nodup := by
  rw [windowIds_applied]
  cases edit with
  | list listed =>
      rw [apply, Client.addWindow]
      split
      · exact distinct
      · rename_i absent
        exact List.nodup_append.2 ⟨distinct, List.nodup_singleton _, by
          rintro windowId old _ last rfl
          exact absent (List.mem_singleton.1 last ▸ old)⟩
  | focus focused =>
      rw [apply, Client.focusWindow]
      split
      · rename_i present
        exact (List.perm_cons_erase present.1).nodup_iff.1 distinct
      · exact distinct
  | stamp time => exact distinct

/-- A listed window is brought to the front. -/
theorem head?_windowIds_applied {windowId : String} (listed : windowId ∈ client.windowIds) :
    ((focus windowId).applied client).windowIds.head? = some windowId := by
  rw [windowIds_applied, apply, Client.focusWindow]
  split
  · rfl
  · rename_i unchanged
    by_contra behind
    exact unchanged ⟨listed, behind⟩

/-! ### Running an edit -/

theorem run_call (moment : Moment) (context : Context) (table : Table) :
    edit.call.run moment context table =
      Store.modifyWith moment context table .client (Store.demandSingleton moment .client)
        edit.apply :=
  rfl

/-- An edit leaves every row under its key. -/
theorem keys_run (moment : Moment) (context : Context) (table : Table) :
    (edit.call.run moment context table).table.rows.map Row.key = table.rows.map Row.key := by
  rw [run_call]
  rcases Store.modifyWith_edits moment context table .client
      (Store.demandSingleton moment .client) edit.apply with
    ⟨problem, failed⟩ | ⟨held, edited, changed, -, -, ended⟩
  · rw [failed]
  · cases changed with
    | false => rw [ended]
    | true =>
        obtain ⟨after, takes, wrote⟩ := ended
        rw [wrote]
        cases takes with
        | updated expected raised swapped =>
            obtain ⟨-, rfl⟩ := Table.replace?_eq_some_iff.1 swapped
            rw [Table.rows_overwrite, List.map_map]
            exact List.map_congr_left fun row _ => Table.key_overwriteRow ..

section Running

variable {client} {table : Table} (moment : Moment) (context : Context)
  (holds : table.HoldsObjects) (stored : table.client? = some client)

include holds stored

/-- The client is read and written under one lock, so an edit is not too late. -/
theorem uncontested_run : Store.Uncontested (edit.call.run moment context table).result := by
  obtain ⟨row, -, -, found, version⟩ := Table.row_of_client? holds stored
  exact Store.uncontested_modifyWith moment context edit.keepsKey
    (Store.uncontested_demandSingleton moment .client table) fun held loaded => by
      rw [Table.eq_of_demandSingleton stored loaded]
      exact ⟨row, found, version⟩

/-- An edit fails, or it finds nothing to change, or the edited client is written and recorded. What
is stored afterwards is the edited client, with what its metadata is read as. -/
theorem run_edits :
    (∃ problem, edit.call.run moment context table = ⟨.error problem, context, table⟩) ∨
    ((edit.apply client).2 = false ∧ edit.applied client = client ∧
      edit.call.run moment context table = ⟨.ok client, context, table⟩) ∨
    (edit.apply client).2 = true ∧ ∃ after metadata,
      RowWrite.Takes table ⟨.updated, .client, edit.applied client⟩ after ∧
      edit.call.run moment context table =
        ⟨.ok (edit.applied client),
          context.record (.ofObject .updated .client (edit.applied client)), after⟩ ∧
      after.client? = some { edit.applied client with metadata } := by
  obtain ⟨row, single, decoded⟩ := Table.client?_eq_some_iff.1 stored
  rw [run_call]
  rcases Store.modifyWith_edits moment context table .client
      (Store.demandSingleton moment .client) edit.apply with
    ⟨problem, failed⟩ | ⟨held, edited, changed, loaded, answer, ended⟩
  · exact .inl ⟨problem, failed⟩
  · right
    obtain rfl := Table.eq_of_demandSingleton stored loaded
    cases changed with
    | false =>
        left
        have same : edited = held := by
          rcases edit.apply_cases held with unchanged | ⟨windowIds, tosAgreed, changed⟩
          · exact (Prod.mk.inj (answer.symm.trans unchanged)).1
          · cases (Prod.mk.inj (answer.symm.trans changed)).2
        subst same
        refine ⟨congrArg Prod.snd answer, ?_, ended⟩
        rw [applied, Kind.applyEdit, answer]
        rfl
    | true =>
        right
        obtain ⟨after, takes, wrote⟩ := ended
        have raised : edit.applied held =
            Kind.client.withVersion edited (Kind.client.version edited + 1) := by
          have sameVersion := (edit.keepsKey held).2
          rw [answer] at sameVersion
          rw [applied, Kind.applyEdit, answer, if_pos rfl, ← sameVersion]
        rw [← raised] at takes wrote
        obtain ⟨⟨before, -, rfl, -, -⟩, -⟩ := holds.of_oldest single decoded
        obtain ⟨metadata, read⟩ := Kind.client.exists_ofRow_toRow decoded
          (edit.metadata_applied held)
        exact ⟨congrArg Prod.snd answer, after, metadata, takes, wrote,
          Table.client?_eq_some_iff.2 ⟨_, takes.ofKind_of_single single, read⟩⟩

/-- An edit fails and changes nothing, or the client is afterwards the edited one, with what its
metadata is read as. -/
theorem run_cases :
    (∃ problem, edit.call.run moment context table = ⟨.error problem, context, table⟩) ∨
    ∃ answer later after metadata,
      edit.call.run moment context table = ⟨.ok answer, later, after⟩ ∧
      after.client? = some { edit.applied client with metadata } := by
  rcases edit.run_edits moment context holds stored with
    failed | ⟨-, same, unchanged⟩ | ⟨-, after, metadata, -, wrote, now⟩
  · exact .inl failed
  · refine .inr ⟨_, _, _, client.metadata, unchanged, ?_⟩
    rw [same]
    exact stored
  · exact .inr ⟨_, _, after, metadata, wrote, now⟩

/-- When nothing stands in the way of an edit, it goes through. -/
theorem exists_result_of_unhindered (unhindered : moment.Unhindered context) :
    ∃ answer, (edit.call.run moment context table).result = .ok answer := by
  obtain ⟨row, single, decoded, found, version⟩ := Table.row_of_client? holds stored
  obtain ⟨sameOid, sameVersion⟩ := edit.keepsKey client
  have entered : (moment.enter context *> Store.demandSingleton moment .client table) =
      .ok client := by
    rw [unhindered.enter, Store.demandSingleton_eq (unhindered.sound _ _), single]
    exact decoded
  rw [run_call, Store.modifyWith, entered]
  rcases answer : edit.apply client with ⟨edited, changed⟩
  rw [answer] at sameOid sameVersion
  cases changed with
  | false => exact ⟨edited, by simp only [answer]; rfl⟩
  | true =>
      have wrote := @Store.writeExisting_eq moment .client table unhindered.sound edited
      have fits : row.version = Kind.client.version edited := version.trans sameVersion.symm
      have there : table.find? Kind.client.name (Kind.client.oid edited) = some row := by
        rw [sameOid]
        exact found
      rw [there] at wrote
      simp only [if_pos fits] at wrote
      simp only [answer, wrote]
      exact ⟨_, rfl⟩

end Running

end ClientEdit

/-! ## Looks and creations that nothing stands in the way of -/

namespace StoreCall

variable {moment : Moment} {context : Context} {table : Table}
  (unhindered : moment.Unhindered context)

include unhindered

theorem run_getSingleton :
    (getSingleton .client).run moment context table =
      ⟨Store.demandSingleton moment .client table, context, table⟩ := by
  have entered : (getSingleton .client).run moment context table =
      ⟨moment.enter context *> Store.demandSingleton moment .client table, context, table⟩ := rfl
  rw [entered, unhindered.enter]
  rfl

theorem getSingleton_of_none (none : table.ofKind Kind.client.name = []) :
    (getSingleton .client).run moment context table =
      ⟨.error (.singletonMissing .client), context, table⟩ := by
  rw [run_getSingleton unhindered, Store.demandSingleton_eq (unhindered.sound _ _), none]

theorem getSingleton_of_some {client : Client} (stored : table.client? = some client) :
    (getSingleton .client).run moment context table = ⟨.ok client, context, table⟩ := by
  obtain ⟨row, single, decoded⟩ := Table.client?_eq_some_iff.1 stored
  rw [run_getSingleton unhindered, Store.demandSingleton_eq (unhindered.sound _ _), single]
  simp only [decoded]

/-- A second client is refused. -/
theorem createClient_of_some {client : Client} (stored : table.client? = some client)
    (object : Client) :
    (create .client object).run moment context table =
      ⟨.error (.alreadyExists .client client.oid), context, table⟩ := by
  obtain ⟨row, single, decoded⟩ := Table.client?_eq_some_iff.1 stored
  have check : Store.ensureNoSingleton moment .client table =
      .error (.alreadyExists .client client.oid) :=
    Store.ensureNoSingleton_of_some (unhindered.sound _ _) rfl single decoded
  have refused : Store.insertNew moment .client object table =
      .error (.alreadyExists .client client.oid) := by
    rw [Store.insertNew, check]
    rfl
  rw [run, Store.create, unhindered.enter, refused]
  rfl

/-- An object is created if its kind allows it and its identifier is free. -/
theorem create_of_free {kind : Kind} {object : kind.Object}
    (alone : Store.ensureNoSingleton moment kind table = .ok ())
    (free : table.find? kind.name (kind.oid object) = none) :
    ∃ after, RowWrite.Takes table ⟨.created, kind, kind.withVersion object 1⟩ after ∧
      (create kind object).run moment context table =
        ⟨.ok (kind.withVersion object 1),
          context.record (.ofObject .created kind (kind.withVersion object 1)), after⟩ := by
  obtain ⟨longer, -, added⟩ := Store.insertNew_of_free unhindered.sound alone free
  obtain ⟨-, takes⟩ := Store.takes_of_insertNew added
  refine ⟨longer, takes, ?_⟩
  rw [run, Store.create, unhindered.enter, added]
  rfl

/-- The first client is created. -/
theorem createClient_of_none (none : table.ofKind Kind.client.name = []) (object : Client) :
    ∃ after, RowWrite.Takes table ⟨.created, .client, { object with version := 1 }⟩ after ∧
      (create .client object).run moment context table =
        ⟨.ok { object with version := 1 },
          context.record (.ofObject .created .client { object with version := 1 }), after⟩ := by
  have alone : Store.ensureNoSingleton moment .client table = .ok () :=
    Store.ensureNoSingleton_of_none (unhindered.sound _ _) none
  refine create_of_free unhindered alone ?_
  rw [Table.find?_eq_none_iff]
  intro row present same
  have there : row ∈ table.ofKind Kind.client.name := by
    rw [Table.ofKind, List.mem_filter, decide_eq_true_iff]
    exact ⟨present, congrArg Prod.fst same⟩
  rw [none] at there
  exact List.not_mem_nil there

end StoreCall

end Workbench
