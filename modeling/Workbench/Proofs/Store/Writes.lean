/-
# What a store call can do

A store call either fails and leaves everything as it was, or it succeeds, and then its
writes and its records belong together one for one. This module says so once for all
calls; whatever is true of runs of calls follows from it and does not look into the
calls again.

A write is described by the row that it leaves behind. Whether a table took a write is a
matter of the table alone: a creation needs a free key, and a change needs the row with
the version right below. The journal plays no part in it.
-/

import Workbench.Proofs.Store.Rows
import Workbench.Store.Call

namespace Workbench

/-- A row that was written, with the object that was handed back for it. -/
structure RowWrite where
  updateType : UpdateType
  kind : Kind
  object : kind.Object

namespace RowWrite

/-- The row as it stands after the write. -/
def row (write : RowWrite) : Row := write.kind.toRow write.object

/-- The record that describes the write. -/
def record (write : RowWrite) : UpdateRecord :=
  .ofObject write.updateType write.kind write.object

/-- A table takes a write and becomes another table. A created row has version one and
stands at the end, and it is the first of its kind if the kind is a singleton kind; a changed
row stood under the same key with the version below. -/
inductive Takes : Table → RowWrite → Table → Prop where
  | created {before after : Table} {kind : Kind} {object : kind.Object} :
      kind.version object = 1 → (kind.isSingleton = true → before.ofKind kind.name = []) →
      before.insert? (kind.toRow object) = some after →
      Takes before ⟨.created, kind, object⟩ after
  | updated {before after : Table} {kind : Kind} {object : kind.Object} (expected : Int64) :
      kind.version object = expected + 1 →
      before.replace? kind.name (kind.oid object) expected (kind.version object)
        (kind.objectCodec.encode object) = some after →
      Takes before ⟨.updated, kind, object⟩ after

end RowWrite

/-- A table takes several writes, one after another. -/
inductive Table.Writes : Table → List RowWrite → Table → Prop where
  | none (table : Table) : Writes table [] table
  | more {before between after : Table} {write : RowWrite} {rest : List RowWrite} :
      write.Takes before between → Writes between rest after →
      Writes before (write :: rest) after

namespace Table.Writes

theorem single {before after : Table} {write : RowWrite} (takes : write.Takes before after) :
    Writes before [write] after :=
  .more takes (.none after)

/-- Writes that follow other writes. -/
theorem append {before between after : Table} {first second : List RowWrite}
    (early : Writes before first between) (late : Writes between second after) :
    Writes before (first ++ second) after := by
  induction early with
  | none table => exact late
  | more takes _ ih => exact .more takes (ih late)

end Table.Writes

namespace Context

/-- Append several records. -/
def recordAll (context : Context) (entries : List UpdateRecord) : Context :=
  entries.foldl record context

theorem recordAll_eq (context : Context) (entries : List UpdateRecord) :
    context.recordAll entries = { context with journal := context.journal.map (· ++ entries) } := by
  induction entries generalizing context with
  | nil =>
      obtain ⟨deadline, journal⟩ := context
      cases journal <;> simp [recordAll]
  | cons entry rest ih =>
      have unfolded : context.recordAll (entry :: rest) = (context.record entry).recordAll rest :=
        rfl
      rw [unfolded, ih]
      obtain ⟨deadline, journal⟩ := context
      cases journal <;> simp [record]

theorem recordAll_append (context : Context) (first second : List UpdateRecord) :
    context.recordAll (first ++ second) = (context.recordAll first).recordAll second :=
  List.foldl_append

/-- Records do not depend on the deadline under which they are made. -/
theorem withDeadline_recordAll (context : Context) (entries : List UpdateRecord)
    (deadline : Instant) :
    (context.recordAll entries).withDeadline deadline =
      (context.withDeadline deadline).recordAll entries := by
  rw [recordAll_eq, recordAll_eq]
  rfl

@[simp]
theorem journal_recordAll (context : Context) (entries : List UpdateRecord) :
    (context.recordAll entries).journal = context.journal.map (· ++ entries) := by
  rw [recordAll_eq]

end Context

namespace StoreCall

/-- The rows that a successful call wrote, in order, each with the object that the call
handed back for it. An edit hands back an object whether or not it wrote one; it wrote one
exactly if the rows are no longer the same. -/
def written (before after : Table) : (call : StoreCall) → call.Value → List RowWrite
  | get _ _, _ => []
  | mustGet _ _, _ => []
  | getSingleton _, _ => []
  | getAll _, _ => []
  | create kind _, object => [⟨.created, kind, object⟩]
  | createAttached child parent _ _ _, (object, owner) =>
      [⟨.created, child, object⟩, ⟨.updated, parent, owner⟩]
  | update kind _, object => [⟨.updated, kind, object⟩]
  | modify kind _ _, object => if after.rows = before.rows then [] else [⟨.updated, kind, object⟩]
  | modifySingleton kind _, object =>
      if after.rows = before.rows then [] else [⟨.updated, kind, object⟩]

/-- The two ways in which a call can end. -/
inductive Ends (context : Context) (table : Table) (call : StoreCall) :
    Outcome call.Value → Prop where
  /-- Nothing has changed. -/
  | failed (problem : StoreError) : Ends context table call ⟨.error problem, context, table⟩
  /-- The table took the writes, and each has its record. -/
  | succeeded (value : call.Value) (after : Table) :
      Table.Writes table (call.written table after value) after →
      Ends context table call
        ⟨.ok value, context.recordAll ((call.written table after value).map RowWrite.record), after⟩

end StoreCall

/-! ## The two writing steps -/

namespace Store

variable {moment : Moment} {kind : Kind} {table : Table}

/-- A sequence of steps gives a value exactly if each of them does. -/
theorem bind_eq_ok_iff {α β : Type} {first : Except StoreError α}
    {next : α → Except StoreError β} {value : β} :
    first >>= next = .ok value ↔ ∃ middle, first = .ok middle ∧ next middle = .ok value := by
  cases first with
  | error problem =>
      constructor
      · intro impossible
        cases impossible
      · intro ⟨middle, impossible, _⟩
        cases impossible
  | ok middle =>
      constructor
      · intro done
        exact ⟨middle, rfl, done⟩
      · intro ⟨other, same, done⟩
        cases same
        exact done

/-- What was loaded from a row is what the row gave back. -/
theorem map_some_eq_ok_iff {α : Type} {read : Except StoreError α} {found : Option α} :
    some <$> read = .ok found ↔ ∃ object, read = .ok object ∧ found = some object := by
  constructor
  · intro loaded
    cases read with
    | error problem => cases loaded
    | ok object =>
        cases loaded
        exact ⟨object, rfl, rfl⟩
  · rintro ⟨object, rfl, rfl⟩
    rfl

/-- An object that was demanded is what its row gives back. -/
theorem row_of_demandObject {oid : String} {object : kind.Object}
    (demanded : demandObject moment kind oid table = .ok object) :
    ∃ row, table.find? kind.name oid = some row ∧ kind.ofRow row = .ok object := by
  obtain ⟨found, read, answered⟩ := bind_eq_ok_iff.1 demanded
  obtain ⟨-, -, loaded⟩ := bind_eq_ok_iff.1 read
  cases there : table.find? kind.name oid with
  | none =>
      rw [there] at loaded
      cases loaded
      cases answered
  | some row =>
      rw [there] at loaded
      obtain ⟨held, decoded, rfl⟩ := map_some_eq_ok_iff.1 loaded
      cases answered
      exact ⟨row, rfl, decoded⟩

/-- A singleton that was demanded is what the oldest row of its kind gives back. -/
theorem row_of_demandSingleton {object : kind.Object}
    (demanded : demandSingleton moment kind table = .ok object) :
    ∃ row ∈ table.ofKind kind.name, kind.ofRow row = .ok object := by
  obtain ⟨found, read, answered⟩ := bind_eq_ok_iff.1 demanded
  obtain ⟨-, -, loaded⟩ := bind_eq_ok_iff.1 read
  cases rows : table.ofKind kind.name with
  | nil =>
      rw [rows] at loaded
      cases loaded
      cases answered
  | cons row others =>
      rw [rows] at loaded
      obtain ⟨held, decoded, rfl⟩ := map_some_eq_ok_iff.1 loaded
      cases answered
      exact ⟨row, List.mem_cons_self, decoded⟩

/-- A singleton kind passes its check only while it has no row. -/
theorem ofKind_of_ensureNoSingleton {nothing : Unit}
    (passed : ensureNoSingleton moment kind table = .ok nothing)
    (single : kind.isSingleton = true) : table.ofKind kind.name = [] := by
  unfold ensureNoSingleton at passed
  rw [if_pos single] at passed
  obtain ⟨found, read, answered⟩ := bind_eq_ok_iff.1 passed
  obtain ⟨-, -, loaded⟩ := bind_eq_ok_iff.1 read
  cases rows : table.ofKind kind.name with
  | nil => rfl
  | cons row others =>
      rw [rows] at loaded
      obtain ⟨object, -, rfl⟩ := map_some_eq_ok_iff.1 loaded
      cases answered

/-- An insertion that goes through adds the object with version one. -/
theorem takes_of_insertNew {object created : kind.Object} {longer : Table}
    (inserted : insertNew moment kind object table = .ok (created, longer)) :
    created = kind.withVersion object 1 ∧
      RowWrite.Takes table ⟨.created, kind, created⟩ longer := by
  obtain ⟨_, alone, probing⟩ := bind_eq_ok_iff.1 inserted
  obtain ⟨-, -, adding⟩ := bind_eq_ok_iff.1 probing
  cases added : table.insert? (kind.toRow (kind.withVersion object 1)) with
  | none =>
      simp only [added] at adding
      cases adding
  | some after =>
      simp only [added] at adding
      obtain ⟨-, -, done⟩ := bind_eq_ok_iff.1 adding
      cases done
      exact ⟨rfl, .created (Kind.version_withVersion ..) (ofKind_of_ensureNoSingleton alone) added⟩

/-- A write to an existing object that does not go through leaves object and table as they
were, the version included; one that goes through raises the version by one. -/
theorem writeExisting_cases (moment : Moment) (kind : Kind) (object : kind.Object)
    (table : Table) :
    (∃ problem, writeExisting moment kind object table = ⟨.error problem, object, table⟩) ∨
      ∃ after,
        writeExisting moment kind object table =
          ⟨.ok (), kind.withVersion object (kind.version object + 1), after⟩ ∧
        RowWrite.Takes table
          ⟨.updated, kind, kind.withVersion object (kind.version object + 1)⟩ after := by
  simp only [writeExisting, Kind.oid_withVersion, Kind.withVersion_withVersion,
    Kind.withVersion_version]
  split
  · rename_i problem _
    exact .inl ⟨problem, rfl⟩
  · split
    · rename_i after swapped
      refine .inr ⟨after, rfl, .updated (kind.version object) (Kind.version_withVersion ..) ?_⟩
      rw [Kind.oid_withVersion, Kind.version_withVersion]
      exact swapped
    · exact .inl ⟨_, rfl⟩

end Store

namespace RowWrite.Takes

variable {before after : Table} {kind : Kind} {object : kind.Object}

/-- A change raises the version, so it cannot leave its row as it was, -/
theorem find?_ne (takes : Takes before ⟨.updated, kind, object⟩ after) :
    after.find? kind.name (kind.oid object) ≠ before.find? kind.name (kind.oid object) := by
  cases takes with
  | updated expected raised swapped =>
      intro same
      obtain ⟨⟨row, found, fits⟩, -⟩ := Table.replace?_eq_some_iff.1 swapped
      have now := Table.find?_of_replace? swapped kind.name (kind.oid object)
      rw [if_pos rfl, same, found, Option.some.injEq] at now
      have versions : expected = expected + 1 := by
        rw [← raised, ← fits, now]
      grind

/-- nor the rows. -/
theorem rows_ne (takes : Takes before ⟨.updated, kind, object⟩ after) :
    after.rows ≠ before.rows := by
  intro same
  apply takes.find?_ne
  rw [Table.ext same]

end RowWrite.Takes

/-! ## Every call -/

namespace Store

open StoreCall

variable (moment : Moment) (context : Context) (table : Table)

theorem ends_reading {call : StoreCall} (result : Except StoreError call.Value)
    (silent : ∀ value, call.written table table value = []) :
    Ends context table call (unchanged context table result) := by
  cases result with
  | error problem => exact .failed problem
  | ok value =>
      have writes : Table.Writes table (call.written table table value) table := by
        rw [silent value]
        exact .none table
      have ended := @Ends.succeeded context table call value table writes
      rw [silent value] at ended
      exact ended

/-- A creation that goes through inserts the object with version one. -/
theorem create_cases (kind : Kind) (object : kind.Object) :
    (∃ problem, create moment context table kind object = ⟨.error problem, context, table⟩) ∨
      ∃ after,
        let created := kind.withVersion object 1
        RowWrite.Takes table ⟨.created, kind, created⟩ after ∧
        create moment context table kind object =
          ⟨.ok created, context.record (.ofObject .created kind created), after⟩ := by
  unfold create
  cases entered : moment.enter context with
  | error problem => exact .inl ⟨problem, rfl⟩
  | ok _ =>
      cases inserted : insertNew moment kind object table with
      | error problem => exact .inl ⟨problem, rfl⟩
      | ok both =>
          obtain ⟨created, longer⟩ := both
          obtain ⟨rfl, takes⟩ := takes_of_insertNew inserted
          exact .inr ⟨longer, takes, rfl⟩

theorem ends_create (kind : Kind) (object : kind.Object) :
    Ends context table (.create kind object) (create moment context table kind object) := by
  rcases create_cases moment context table kind object with
    ⟨problem, failed⟩ | ⟨after, takes, succeeded⟩
  · rw [failed]
    exact .failed problem
  · rw [succeeded]
    exact @Ends.succeeded _ _ (.create kind object) _ after (.single takes)

/-- An attached creation that goes through inserts the new object and writes to its owner, as
the owner was in the table. -/
theorem createAttached_cases (child parent : Kind) (object : child.Object) (parentOid : String)
    (edit : parent.Object → child.Object → parent.Object) :
    (∃ problem, createAttached moment context table child parent object parentOid edit =
        ⟨.error problem, context, table⟩) ∨
      ∃ row owner between after,
        table.find? parent.name parentOid = some row ∧ parent.ofRow row = .ok owner ∧
        let created := child.withVersion object 1
        let edited := edit owner created
        let raised := parent.withVersion edited (parent.version edited + 1)
        RowWrite.Takes table ⟨.created, child, created⟩ between ∧
        RowWrite.Takes between ⟨.updated, parent, raised⟩ after ∧
        createAttached moment context table child parent object parentOid edit =
          ⟨.ok (created, raised),
            context.recordAll [.ofObject .created child created, .ofObject .updated parent raised],
            after⟩ := by
  unfold createAttached
  cases attached : attach moment context table child parent object parentOid edit with
  | error problem => exact .inl ⟨problem, rfl⟩
  | ok all =>
      right
      obtain ⟨-, -, beginning⟩ := bind_eq_ok_iff.1 attached
      obtain ⟨-, -, loading⟩ := bind_eq_ok_iff.1 beginning
      obtain ⟨owner, loaded, inserting⟩ := bind_eq_ok_iff.1 loading
      obtain ⟨⟨first, longer⟩, inserted, writing⟩ := bind_eq_ok_iff.1 inserting
      obtain ⟨_, wrote, committing⟩ := bind_eq_ok_iff.1 writing
      obtain ⟨-, -, done⟩ := bind_eq_ok_iff.1 committing
      obtain ⟨row, found, decoded⟩ := row_of_demandObject loaded
      obtain ⟨rfl, creation⟩ := takes_of_insertNew inserted
      rcases writeExisting_cases moment parent (edit owner (child.withVersion object 1)) longer with
        ⟨problem, refused⟩ | ⟨after, went, takes⟩
      · rw [refused] at wrote
        cases wrote
      · rw [went] at done
        cases done
        exact ⟨row, owner, longer, after, found, decoded, creation, takes, rfl⟩

theorem ends_createAttached (child parent : Kind) (object : child.Object) (parentOid : String)
    (edit : parent.Object → child.Object → parent.Object) :
    Ends context table (.createAttached child parent object parentOid edit)
      (createAttached moment context table child parent object parentOid edit) := by
  rcases createAttached_cases moment context table child parent object parentOid edit with
    ⟨problem, failed⟩ | ⟨row, owner, between, after, -, -, creation, change, succeeded⟩
  · rw [failed]
    exact .failed problem
  · rw [succeeded]
    exact @Ends.succeeded _ _ (.createAttached child parent object parentOid edit) _ after
      (.more creation (.single change))

/-- An update ends as any call does; when it fails, the caller holds what was passed in. -/
theorem ends_update (kind : Kind) (object : kind.Object) :
    Ends context table (.update kind object)
      ((StoreCall.update kind object).run moment context table) ∧
      ∀ problem, (update moment context table kind object).1.result = .error problem →
        (update moment context table kind object).2 = object := by
  simp only [run, update]
  cases entered : moment.enter context with
  | error problem => exact ⟨.failed problem, fun _ _ => rfl⟩
  | ok _ =>
      rcases writeExisting_cases moment kind object table with
        ⟨problem, refused⟩ | ⟨after, wrote, takes⟩
      · rw [refused]
        exact ⟨.failed problem, fun _ _ => rfl⟩
      · rw [wrote]
        refine ⟨@Ends.succeeded _ _ (.update kind object) _ after (.single takes), ?_⟩
        intro problem impossible
        cases impossible

/-- An edit that goes through was made on the object that was loaded. If it changed nothing
there was no write, and otherwise the edited object was written. -/
theorem modifyWith_edits (kind : Kind) (load : Table → Except StoreError kind.Object)
    (edit : kind.Object → kind.Object × Bool) :
    (∃ problem, modifyWith moment context table kind load edit =
        ⟨.error problem, context, table⟩) ∨
      ∃ held edited changed, load table = .ok held ∧ edit held = (edited, changed) ∧
        match changed with
        | false => modifyWith moment context table kind load edit = ⟨.ok edited, context, table⟩
        | true =>
            ∃ after,
              let raised := kind.withVersion edited (kind.version edited + 1)
              RowWrite.Takes table ⟨.updated, kind, raised⟩ after ∧
              modifyWith moment context table kind load edit =
                ⟨.ok raised, context.record (.ofObject .updated kind raised), after⟩ := by
  unfold modifyWith
  cases entered : moment.enter context with
  | error problem => exact .inl ⟨problem, rfl⟩
  | ok _ =>
      cases loaded : load table with
      | error problem => exact .inl ⟨problem, rfl⟩
      | ok held =>
          rcases answer : edit held with ⟨edited, changed⟩
          have read : (Except.ok () *> Except.ok held : Except StoreError kind.Object) =
              .ok held := rfl
          simp only [read]
          cases changed with
          | false =>
              simp only [answer]
              exact .inr ⟨held, edited, false, rfl, answer, rfl⟩
          | true =>
              simp only [answer]
              rcases writeExisting_cases moment kind edited table with
                ⟨problem, refused⟩ | ⟨after, wrote, takes⟩
              · rw [refused]
                exact .inl ⟨problem, rfl⟩
              · rw [wrote]
                exact .inr ⟨held, edited, true, rfl, answer, after, takes, rfl⟩

/-- Both kinds of edits end alike: what is handed back was written exactly if the rows are
no longer the same. -/
theorem modifyWith_cases (kind : Kind) (load : Table → Except StoreError kind.Object)
    (edit : kind.Object → kind.Object × Bool) :
    (∃ problem, modifyWith moment context table kind load edit =
        ⟨.error problem, context, table⟩) ∨
      ∃ object after,
        Table.Writes table (if after.rows = table.rows then [] else [⟨.updated, kind, object⟩])
          after ∧
        modifyWith moment context table kind load edit =
          ⟨.ok object,
            context.recordAll
              ((if after.rows = table.rows then [] else
                [⟨.updated, kind, object⟩] : List RowWrite).map RowWrite.record),
            after⟩ := by
  rcases modifyWith_edits moment context table kind load edit with
    failed | ⟨held, edited, changed, -, -, ended⟩
  · exact .inl failed
  · right
    cases changed with
    | false =>
        refine ⟨edited, table, ?_, ?_⟩
        · rw [if_pos rfl]
          exact .none table
        · rw [if_pos rfl]
          exact ended
    | true =>
        obtain ⟨after, takes, wrote⟩ := ended
        refine ⟨kind.withVersion edited (kind.version edited + 1), after, ?_, ?_⟩
        · rw [if_neg takes.rows_ne]
          exact .single takes
        · rw [if_neg takes.rows_ne]
          exact wrote

theorem ends_modify (kind : Kind) (oid : String) (edit : kind.Object → kind.Object × Bool) :
    Ends context table (.modify kind oid edit) (modify moment context table kind oid edit) := by
  rcases modifyWith_cases moment context table kind (demandObject moment kind oid) edit with
    ⟨problem, failed⟩ | ⟨object, after, writes, succeeded⟩
  · rw [modify, failed]
    exact .failed problem
  · rw [modify, succeeded]
    exact @Ends.succeeded _ _ (.modify kind oid edit) object after writes

theorem ends_modifySingleton (kind : Kind) (edit : kind.Object → kind.Object × Bool) :
    Ends context table (.modifySingleton kind edit)
      (modifySingleton moment context table kind edit) := by
  unfold modifySingleton
  cases kind.ensureSingleton with
  | error problem => exact .failed problem
  | ok _ =>
      rcases modifyWith_cases moment context table kind (demandSingleton moment kind) edit with
        ⟨problem, failed⟩ | ⟨object, after, writes, succeeded⟩
      · rw [failed]
        exact .failed problem
      · rw [succeeded]
        exact @Ends.succeeded _ _ (.modifySingleton kind edit) object after writes

end Store

/-- Every call ends in one of the two ways. -/
theorem StoreCall.ends (moment : Moment) (context : Context) (table : Table) (call : StoreCall) :
    call.Ends context table (call.run moment context table) := by
  cases call with
  | get kind oid => exact Store.ends_reading context table _ fun _ => rfl
  | mustGet kind oid => exact Store.ends_reading context table _ fun _ => rfl
  | getSingleton kind =>
      simp only [run, Store.getSingleton]
      cases kind.ensureSingleton with
      | error problem => exact .failed problem
      | ok _ => exact Store.ends_reading context table _ fun _ => rfl
  | getAll kind => exact Store.ends_reading context table _ fun _ => rfl
  | create kind object => exact Store.ends_create moment context table kind object
  | createAttached child parent object parentOid edit =>
      exact Store.ends_createAttached moment context table child parent object parentOid edit
  | update kind object => exact (Store.ends_update moment context table kind object).1
  | modify kind oid edit => exact Store.ends_modify moment context table kind oid edit
  | modifySingleton kind edit => exact Store.ends_modifySingleton moment context table kind edit

/-- A store call leaves the deadline alone. -/
theorem StoreCall.deadline_run (call : StoreCall) (moment : Moment) (context : Context)
    (table : Table) : (call.run moment context table).context.deadline = context.deadline := by
  have ended := call.ends moment context table
  generalize call.run moment context table = outcome at ended
  cases ended with
  | failed problem => rfl
  | succeeded value after writes =>
      show (context.recordAll _).deadline = _
      rw [Context.recordAll_eq]

/-- A call that failed did nothing else. -/
theorem StoreCall.run_of_error {moment : Moment} {context : Context} {table : Table}
    {call : StoreCall} {problem : StoreError}
    (failed : (call.run moment context table).result = .error problem) :
    call.run moment context table = ⟨.error problem, context, table⟩ := by
  have ended := call.ends moment context table
  generalize call.run moment context table = outcome at ended failed
  cases ended with
  | failed reason =>
      cases failed
      rfl
  | succeeded value after writes => cases failed

/-- A store call that fails leaves no trace, whatever made it fail and wherever in the call it
did: rows and their order, journal and deadline are as before, and an update gives the
caller's object back as it was passed in, with the version that it had. -/
theorem failed_call_leaves_no_trace (moment : Moment) (context : Context) (table : Table)
    (call : StoreCall) (problem : StoreError)
    (failed : (call.run moment context table).result = .error problem) :
    (call.run moment context table).table.rows = table.rows ∧
      (call.run moment context table).context.journal = context.journal ∧
      (call.run moment context table).context.deadline = context.deadline ∧
      ∀ (kind : Kind) (object : kind.Object), call = .update kind object →
        (Store.update moment context table kind object).1.result = .error problem ∧
          (Store.update moment context table kind object).2 = object := by
  have nothing := StoreCall.run_of_error failed
  refine ⟨by rw [nothing], by rw [nothing], by rw [nothing], ?_⟩
  rintro kind object rfl
  have refused : (Store.update moment context table kind object).1.result = .error problem := by
    simp only [StoreCall.run] at failed
    cases result : (Store.update moment context table kind object).1.result with
    | error reason =>
        rw [result] at failed
        cases failed
        rfl
    | ok _ =>
        rw [result] at failed
        cases failed
  exact ⟨refused, (Store.ends_update moment context table kind object).2 problem refused⟩

/-- A stale copy of a tab: the update is refused, and the copy keeps its stale version. -/
theorem stale_update_leaves_no_trace :
    let table : Table := ⟨[⟨"tab", "t", 2, "written by someone else"⟩], by decide⟩
    let copy : Tab := ⟨"t", 1, "mine", [], .empty⟩
    let outcome := (StoreCall.update .tab copy).run (.quiet 0) ⟨1, some []⟩ table
    outcome.result = .error (.versionConflict .tab "t" 1 2) ∧
      outcome.table.rows = table.rows ∧ outcome.context.journal = some [] ∧
      (Store.update (.quiet 0) ⟨1, some []⟩ table .tab copy).2 = copy := by
  intro table copy outcome
  have refused : outcome.result = .error (.versionConflict .tab "t" 1 2) := by rfl
  obtain ⟨rows, journal, -, update⟩ :=
    failed_call_leaves_no_trace (.quiet 0) ⟨1, some []⟩ table (.update .tab copy) _ refused
  exact ⟨refused, rows, journal, (update .tab copy rfl).2⟩

end Workbench
