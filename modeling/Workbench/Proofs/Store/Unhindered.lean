/-
# Store calls that nothing stands in the way of

What a store call does is decided by the table alone, once the context is live, the lock can
be had and the engine lets every statement through. This module says exactly what the parts
of a call do then: what is read, and whether a write goes through.
-/

import Workbench.Proofs.Store.Writes

namespace Workbench

/-- The context is live, the lock can be had, and no statement fails. -/
structure Moment.Unhindered (moment : Moment) (context : Context) : Prop where
  live : context.isExpired moment.now = false
  unlocked : moment.lockedOut = false
  sound : ∀ statement table, moment.failure statement table = none

/-- The context is live, the lock can be had, and this statement does not fail. -/
structure Moment.LetsThrough (moment : Moment) (context : Context) (statement : Statement)
    (table : Table) : Prop where
  live : context.isExpired moment.now = false
  unlocked : moment.lockedOut = false
  sound : moment.failure statement table = none

namespace Moment

theorem attempt_eq_ok {moment : Moment} {statement : Statement} {table : Table}
    (sound : moment.failure statement table = none) : moment.attempt statement table = .ok () := by
  rw [attempt, sound]

theorem enter_eq_ok {moment : Moment} {context : Context}
    (live : context.isExpired moment.now = false) (unlocked : moment.lockedOut = false) :
    moment.enter context = .ok () := by
  rw [enter, live, unlocked]
  rfl

theorem Unhindered.enter {moment : Moment} {context : Context}
    (unhindered : moment.Unhindered context) : moment.enter context = .ok () :=
  enter_eq_ok unhindered.live unhindered.unlocked

/-- Whether something stands in the way of a call depends on the deadline of the context only. -/
theorem Unhindered.congr {moment : Moment} {first second : Context}
    (unhindered : moment.Unhindered first) (same : second.deadline = first.deadline) :
    moment.Unhindered second := by
  refine ⟨?_, unhindered.unlocked, unhindered.sound⟩
  have live := unhindered.live
  rw [Context.isExpired] at live ⊢
  rw [same]
  exact live

theorem LetsThrough.enter {moment : Moment} {context : Context} {statement : Statement}
    {table : Table} (through : moment.LetsThrough context statement table) :
    moment.enter context = .ok () :=
  enter_eq_ok through.live through.unlocked

end Moment

namespace Store

variable {moment : Moment} {kind : Kind} {table : Table}

/-! ## Reading -/

theorem readObject_eq {oid : String}
    (sound : moment.failure (.selectOne kind.name oid) table = none) :
    readObject moment kind oid table =
      match table.find? kind.name oid with
      | none => .ok none
      | some row => (kind.ofRow row).map some := by
  rw [readObject, Moment.attempt_eq_ok sound]
  cases table.find? kind.name oid <;> rfl

/-- An object that must be there is missing, or is what its row gives back. -/
theorem demandObject_eq {oid : String}
    (sound : moment.failure (.selectOne kind.name oid) table = none) :
    demandObject moment kind oid table =
      match table.find? kind.name oid with
      | none => .error (.notFound kind oid)
      | some row => kind.ofRow row := by
  rw [demandObject, readObject_eq sound]
  cases table.find? kind.name oid with
  | none => rfl
  | some row => cases decoded : kind.ofRow row <;> simp only [decoded] <;> rfl

/-- An object that must be there is read if its row can be. -/
theorem demandObject_of_find? {oid : String} {row : Row} {object : kind.Object}
    (sound : moment.failure (.selectOne kind.name oid) table = none)
    (found : table.find? kind.name oid = some row) (read : kind.ofRow row = .ok object) :
    demandObject moment kind oid table = .ok object := by
  rw [demandObject_eq sound, found]
  exact read

/-- A singleton that must be there is missing, or is what the oldest row of the kind gives
back. -/
theorem demandSingleton_eq (sound : moment.failure (.selectFirst kind.name) table = none) :
    demandSingleton moment kind table =
      match table.ofKind kind.name with
      | [] => .error (.singletonMissing kind)
      | row :: _ => kind.ofRow row := by
  rw [demandSingleton, readSingleton, Moment.attempt_eq_ok sound]
  cases table.ofKind kind.name with
  | nil => rfl
  | cons row others => cases decoded : kind.ofRow row <;> simp [decoded] <;> rfl

variable {context : Context} {oid : String}

/-- What is read from the store if a read is let through. -/
theorem enter_demandObject_eq
    (through : moment.LetsThrough context (.selectOne kind.name oid) table) :
    (moment.enter context *> demandObject moment kind oid table) =
      match table.find? kind.name oid with
      | none => .error (.notFound kind oid)
      | some row => kind.ofRow row := by
  rw [through.enter]
  exact demandObject_eq through.sound

/-- What is read of a singleton if a read is let through. -/
theorem enter_demandSingleton_eq
    (through : moment.LetsThrough context (.selectFirst kind.name) table) :
    (moment.enter context *> demandSingleton moment kind table) =
      match table.ofKind kind.name with
      | [] => .error (.singletonMissing kind)
      | row :: _ => kind.ofRow row := by
  rw [through.enter]
  exact demandSingleton_eq through.sound

/-! ## Writing -/

/-- Nothing is in the way of a kind that may have several objects, -/
theorem ensureNoSingleton_of_several (several : kind.isSingleton = false) :
    ensureNoSingleton moment kind table = .ok () := by
  rw [ensureNoSingleton, several]
  rfl

/-- or that has none yet. -/
theorem ensureNoSingleton_of_none
    (sound : moment.failure (.selectFirst kind.name) table = none)
    (none : table.ofKind kind.name = []) : ensureNoSingleton moment kind table = .ok () := by
  rw [ensureNoSingleton, readSingleton, Moment.attempt_eq_ok sound, none]
  split <;> rfl

/-- The object of a singleton kind is in the way of a second one, and is named. -/
theorem ensureNoSingleton_of_some
    (sound : moment.failure (.selectFirst kind.name) table = none)
    (single : kind.isSingleton = true) {row : Row} {rows : List Row}
    (oldest : table.ofKind kind.name = row :: rows) {object : kind.Object}
    (read : kind.ofRow row = .ok object) :
    ensureNoSingleton moment kind table = .error (.alreadyExists kind (kind.oid object)) := by
  rw [ensureNoSingleton, if_pos single, readSingleton, Moment.attempt_eq_ok sound, oldest]
  simp only [read]
  rfl

/-- An object is inserted if its kind allows it and its identifier is free. -/
theorem insertNew_of_free (sound : ∀ statement table, moment.failure statement table = none)
    {object : kind.Object} (alone : ensureNoSingleton moment kind table = .ok ())
    (free : table.find? kind.name (kind.oid object) = none) :
    ∃ longer, table.insert? (kind.toRow (kind.withVersion object 1)) = some longer ∧
      insertNew moment kind object table = .ok (kind.withVersion object 1, longer) := by
  obtain ⟨longer, inserted⟩ :
      ∃ longer, table.insert? (kind.toRow (kind.withVersion object 1)) = some longer := by
    cases inserted : table.insert? (kind.toRow (kind.withVersion object 1)) with
    | some longer => exact ⟨longer, rfl⟩
    | none =>
        have taken := Table.insert?_eq_none_iff.1 inserted
        rw [Kind.toRow, Kind.oid_withVersion, free] at taken
        cases taken
  refine ⟨longer, inserted, ?_⟩
  simp only [insertNew, alone, Moment.attempt_eq_ok (sound _ _), inserted]
  rfl

/-- An object of which there may be several is inserted unless its identifier is taken. -/
theorem insertNew_eq (sound : ∀ statement table, moment.failure statement table = none)
    (several : kind.isSingleton = false) (object : kind.Object) :
    insertNew moment kind object table =
      match table.insert? (kind.toRow (kind.withVersion object 1)) with
      | none => .error (.alreadyExists kind (kind.oid object))
      | some longer => .ok (kind.withVersion object 1, longer) := by
  simp only [insertNew, ensureNoSingleton_of_several several, Moment.attempt_eq_ok (sound _ _)]
  cases table.insert? (kind.toRow (kind.withVersion object 1)) <;> rfl

/-- A write to an existing object that the engine refuses changes nothing. -/
theorem writeExisting_of_failure {object : kind.Object} {failure : EngineFailure}
    (failed : moment.failure (.update kind.name (kind.oid object) (kind.version object)
      (kind.version object + 1)
      (kind.objectCodec.encode (kind.withVersion object (kind.version object + 1)))) table =
        some failure) :
    writeExisting moment kind object table = ⟨.error (.ofFailure failure), object, table⟩ := by
  have refused : moment.attempt (.update kind.name (kind.oid object) (kind.version object)
      (kind.version object + 1)
      (kind.objectCodec.encode (kind.withVersion object (kind.version object + 1)))) table =
        .error (.ofFailure failure) := by
    rw [Moment.attempt, failed]
  simp only [writeExisting, refused, Kind.oid_withVersion, Kind.withVersion_withVersion,
    Kind.withVersion_version]

/-- A write to an object whose row has the version that the object carries. Only the write
itself is asked of the engine. -/
theorem writeExisting_of_fits {object : kind.Object} {row : Row}
    (sound : moment.failure (.update kind.name (kind.oid object) (kind.version object)
      (kind.version object + 1)
      (kind.objectCodec.encode (kind.withVersion object (kind.version object + 1)))) table = none)
    (found : table.find? kind.name (kind.oid object) = some row)
    (fits : row.version = kind.version object) :
    writeExisting moment kind object table =
      ⟨.ok (), kind.withVersion object (kind.version object + 1),
        table.overwrite kind.name (kind.oid object) (kind.version object + 1)
          (kind.objectCodec.encode (kind.withVersion object (kind.version object + 1)))⟩ := by
  simp only [writeExisting, Kind.oid_withVersion, Moment.attempt_eq_ok sound, Table.replace?,
    found, if_pos fits]

/-- A write to an existing object goes through exactly if there is a row with the version
that the object carries. Otherwise it says what is the matter with the row. -/
theorem writeExisting_eq (sound : ∀ statement table, moment.failure statement table = none)
    (object : kind.Object) :
    writeExisting moment kind object table =
      match table.find? kind.name (kind.oid object) with
      | none => ⟨.error (.notFound kind (kind.oid object)), object, table⟩
      | some row =>
          if row.version = kind.version object then
            ⟨.ok (), kind.withVersion object (kind.version object + 1),
              table.overwrite kind.name (kind.oid object) (kind.version object + 1)
                (kind.objectCodec.encode (kind.withVersion object (kind.version object + 1)))⟩
          else
            ⟨.error (.versionConflict kind (kind.oid object) (kind.version object) row.version),
              object, table⟩ := by
  simp only [writeExisting, refusal, Moment.attempt_eq_ok (sound _ _), Kind.oid_withVersion,
    Kind.withVersion_withVersion, Kind.withVersion_version, Table.replace?]
  cases found : table.find? kind.name (kind.oid object) with
  | none => rfl
  | some row =>
      by_cases same : row.version = kind.version object
      · simp only [if_pos same]
      · simp only [if_neg same]

/-- An edit goes through if the row that the edited object names has its version. -/
theorem modifyWith_of_fits (unhindered : moment.Unhindered context)
    {load : Table → Except StoreError kind.Object} {edit : kind.Object → kind.Object × Bool}
    {object edited : kind.Object} (loaded : load table = .ok object)
    (changed : edit object = (edited, true)) {row : Row}
    (found : table.find? kind.name (kind.oid edited) = some row)
    (fits : row.version = kind.version edited) :
    let raised := kind.withVersion edited (kind.version edited + 1)
    modifyWith moment context table kind load edit =
      ⟨.ok raised, context.record (.ofObject .updated kind raised),
        table.overwrite kind.name (kind.oid edited) (kind.version edited + 1)
          (kind.objectCodec.encode raised)⟩ := by
  have entered : moment.enter context *> load table = .ok object := by
    rw [unhindered.enter, loaded]
    rfl
  simp only [modifyWith, entered, changed,
    writeExisting_of_fits (unhindered.sound _ _) found fits]

/-! ## Attached creations -/

section Attach

variable {child parent : Kind} {object : child.Object} {parentOid : String}
  {edit : parent.Object → child.Object → parent.Object}

/-- Without the owner it does not matter what else is wrong. -/
theorem createAttached_of_missing (unhindered : moment.Unhindered context)
    (missing : table.find? parent.name parentOid = none) :
    createAttached moment context table child parent object parentOid edit =
      ⟨.error (.notFound parent parentOid), context, table⟩ := by
  have demanded : demandObject moment parent parentOid table =
      .error (.notFound parent parentOid) := by
    rw [demandObject_eq (unhindered.sound _ _), missing]
  rw [createAttached, attach, unhindered.enter, Moment.attempt_eq_ok (unhindered.sound _ _),
    demanded]
  rfl

variable {row : Row} {owner : parent.Object} (unhindered : moment.Unhindered context)
  (found : table.find? parent.name parentOid = some row) (read : parent.ofRow row = .ok owner)

include unhindered found read

/-- With the owner there it matters next whether the object can be inserted. -/
theorem createAttached_of_refused {problem : StoreError}
    (refused : insertNew moment child object table = .error problem) :
    createAttached moment context table child parent object parentOid edit =
      ⟨.error problem, context, table⟩ := by
  have demanded := demandObject_of_find? (unhindered.sound _ _) found read
  rw [createAttached, attach, unhindered.enter, Moment.attempt_eq_ok (unhindered.sound _ _),
    demanded, refused]
  rfl

variable (edit) in
/-- Both writes go through if the object can be inserted, and the row that the edited owner
names has its version then. -/
theorem createAttached_of_inserted {created : child.Object} {longer : Table} {held : Row}
    (inserted : insertNew moment child object table = .ok (created, longer))
    (still : longer.find? parent.name (parent.oid (edit owner created)) = some held)
    (fits : held.version = parent.version (edit owner created)) :
    let edited := edit owner created
    let attached := parent.withVersion edited (parent.version edited + 1)
    createAttached moment context table child parent object parentOid edit =
      ⟨.ok (created, attached),
        context.recordAll [.ofObject .created child created, .ofObject .updated parent attached],
        longer.overwrite parent.name (parent.oid edited) (parent.version edited + 1)
          (parent.objectCodec.encode attached)⟩ := by
  intro edited attached
  have sound := unhindered.sound
  have demanded := demandObject_of_find? (sound _ _) found read
  let written := writeExisting moment parent edited longer
  have writing : written = _ := writeExisting_of_fits (sound _ _) still fits
  have both : attach moment context table child parent object parentOid edit =
      .ok ((created, written.object), written.table) := by
    refine bind_eq_ok_iff.2 ⟨(), unhindered.enter, ?_⟩
    refine bind_eq_ok_iff.2 ⟨(), Moment.attempt_eq_ok (sound _ _), ?_⟩
    refine bind_eq_ok_iff.2 ⟨owner, demanded, ?_⟩
    refine bind_eq_ok_iff.2 ⟨(created, longer), inserted, ?_⟩
    refine bind_eq_ok_iff.2 ⟨(), congrArg Written.result writing, ?_⟩
    exact bind_eq_ok_iff.2 ⟨(), Moment.attempt_eq_ok (sound _ _), rfl⟩
  rw [createAttached, both, writing]
  rfl

end Attach

end Store

end Workbench
