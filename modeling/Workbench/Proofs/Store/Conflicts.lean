/-
# Store calls that are never too late

A write to an existing object compares versions, and is refused if someone else wrote the object
since it was read. That can only happen where an object is carried from one call to the next. A
call that reads an object and writes it under the same lock finds the version that it read, and a
call that creates or reads compares no versions at all.
-/

import Workbench.Proofs.Store.LostUpdate

namespace Workbench

/-- Whether the error says that someone else wrote the object. -/
def StoreError.isConflict : StoreError → Bool
  | .versionConflict _ _ _ _ => true
  | _ => false

theorem StoreError.isConflict_ofFailure (failure : EngineFailure) :
    (ofFailure failure).isConflict = false := by
  unfold ofFailure
  split <;> rfl

namespace Store

/-- If it is an error, it is not that someone else wrote the object. -/
def Uncontested {α : Type} (result : Except StoreError α) : Prop :=
  ∀ problem, result = .error problem → problem.isConflict = false

namespace Uncontested

variable {α β : Type}

theorem ok (value : α) : Uncontested (.ok value : Except StoreError α) := by
  intro problem impossible
  cases impossible

theorem error {problem : StoreError} (other : problem.isConflict = false) :
    Uncontested (.error problem : Except StoreError α) := by
  intro reason same
  cases same
  exact other

theorem bind {first : Except StoreError α} {next : α → Except StoreError β}
    (here : Uncontested first) (later : ∀ value, first = .ok value → Uncontested (next value)) :
    Uncontested (first >>= next) := by
  cases result : first with
  | error problem => exact error (here problem result)
  | ok value => exact later value result

theorem seqRight {first : Except StoreError α} {second : Except StoreError β}
    (here : Uncontested first) (later : Uncontested second) : Uncontested (first *> second) := by
  cases result : first with
  | error problem => exact error (here problem result)
  | ok value =>
      cases second with
      | error problem => exact error (later problem rfl)
      | ok other => exact ok other

theorem map {first : Except StoreError α} (here : Uncontested first) (change : α → β) :
    Uncontested (change <$> first) := by
  cases result : first with
  | error problem => exact error (here problem result)
  | ok value => exact ok (change value)

end Uncontested

section Parts

variable (moment : Moment) (context : Context) (kind : Kind) (table : Table)

theorem uncontested_attempt (statement : Statement) :
    Uncontested (moment.attempt statement table) := by
  unfold Moment.attempt
  split
  · exact .error (StoreError.isConflict_ofFailure _)
  · exact .ok ()

theorem uncontested_enter : Uncontested (moment.enter context) := by
  unfold Moment.enter
  split
  · exact .error rfl
  · exact .ok ()

theorem uncontested_ofRow (row : Row) : Uncontested (kind.ofRow row) := by
  unfold Kind.ofRow
  split
  · exact .ok _
  · exact .error rfl

theorem uncontested_demandObject (oid : String) :
    Uncontested (demandObject moment kind oid table) := by
  refine .bind (.bind (uncontested_attempt moment table _) fun _ _ => ?_) fun found _ => ?_
  · split
    · exact .map (uncontested_ofRow kind _) some
    · exact .ok none
  · split
    · exact .ok _
    · exact .error rfl

theorem uncontested_readSingleton : Uncontested (readSingleton moment kind table) := by
  refine .bind (uncontested_attempt moment table _) fun _ _ => ?_
  split
  · exact .map (uncontested_ofRow kind _) some
  · exact .ok none

theorem uncontested_demandSingleton : Uncontested (demandSingleton moment kind table) := by
  refine .bind (uncontested_readSingleton moment kind table) fun found _ => ?_
  split
  · exact .ok _
  · exact .error rfl

theorem uncontested_ensureNoSingleton : Uncontested (ensureNoSingleton moment kind table) := by
  unfold ensureNoSingleton
  split
  · refine .bind (uncontested_readSingleton moment kind table) fun found _ => ?_
    split
    · exact .error rfl
    · exact .ok ()
  · exact .ok ()

theorem uncontested_insertNew (object : kind.Object) :
    Uncontested (insertNew moment kind object table) := by
  refine .bind (uncontested_ensureNoSingleton moment kind table) fun _ _ =>
    .bind (uncontested_attempt moment table _) fun _ _ => ?_
  simp only
  split
  · exact .error rfl
  · exact .bind (uncontested_attempt moment table _) fun _ _ => .ok _

variable {kind table}

/-- A write is not too late if the row has the version that the object carries. -/
theorem uncontested_writeExisting {object : kind.Object} {row : Row}
    (found : table.find? kind.name (kind.oid object) = some row)
    (fits : row.version = kind.version object) :
    Uncontested (writeExisting moment kind object table).result := by
  simp only [writeExisting, Kind.oid_withVersion]
  split
  · rename_i problem refused
    exact .error (uncontested_attempt moment table _ problem refused)
  · rw [Table.replace?, found]
    simp only [if_pos fits]
    exact .ok ()

end Parts

/-! ## Calls that read and write at once -/

section Calls

variable (moment : Moment) (context : Context) {kind : Kind} {table : Table}

/-- An object that was read names the row that it was read from, and has its version. -/
theorem find?_of_demandObject (holds : table.HoldsObjects) {oid : String} {object : kind.Object}
    (demanded : demandObject moment kind oid table = .ok object) :
    ∃ row, table.find? kind.name (kind.oid object) = some row ∧
      row.version = kind.version object := by
  obtain ⟨row, found, decoded⟩ := row_of_demandObject demanded
  obtain ⟨rfl, version⟩ := holds.oid_version_of_find? found decoded
  exact ⟨row, found, version.symm⟩

/-- An edit of an object that was just read is not too late. -/
theorem uncontested_modifyWith {load : Table → Except StoreError kind.Object}
    {edit : kind.Object → kind.Object × Bool} (keeps : kind.KeepsKey edit)
    (loading : Uncontested (load table))
    (fits : ∀ object, load table = .ok object → ∃ row,
      table.find? kind.name (kind.oid object) = some row ∧ row.version = kind.version object) :
    Uncontested (modifyWith moment context table kind load edit).result := by
  unfold modifyWith
  split
  · rename_i problem failed
    exact .error (Uncontested.seqRight (uncontested_enter moment context) loading problem failed)
  · rename_i object entered
    obtain ⟨-, -, loaded⟩ : ∃ nothing, moment.enter context = .ok nothing ∧
        load table = .ok object := bind_eq_ok_iff.1 entered
    obtain ⟨row, found, version⟩ := fits object loaded
    obtain ⟨sameOid, sameVersion⟩ := keeps object
    split
    · exact .ok _
    · rename_i edited answer
      rw [answer] at sameOid sameVersion
      have writing : Uncontested (writeExisting moment kind edited table).result :=
        uncontested_writeExisting moment (by rw [sameOid]; exact found)
          (version.trans sameVersion.symm)
      simp only
      split
      · rename_i problem refused
        exact .error (writing problem refused)
      · exact .ok _

/-- The owner of a new object was just read, so the write to it is not too late. -/
theorem uncontested_createAttached (holds : table.HoldsObjects) {child parent : Kind}
    {edit : parent.Object → child.Object → parent.Object}
    (keeps : ∀ owner created, parent.oid (edit owner created) = parent.oid owner ∧
      parent.version (edit owner created) = parent.version owner)
    (object : child.Object) (parentOid : String) :
    Uncontested (createAttached moment context table child parent object parentOid edit).result := by
  have attaching :
      Uncontested (attach moment context table child parent object parentOid edit) := by
    refine .bind (uncontested_enter moment context) fun _ _ =>
      .bind (uncontested_attempt moment table _) fun _ _ =>
      .bind (uncontested_demandObject moment parent table parentOid) fun owner loaded =>
      .bind (uncontested_insertNew moment child table object) fun both inserted => ?_
    obtain ⟨created, longer⟩ := both
    obtain ⟨row, found, version⟩ := find?_of_demandObject moment holds loaded
    obtain ⟨sameOid, sameVersion⟩ := keeps owner created
    obtain ⟨-, takes⟩ := takes_of_insertNew inserted
    have still : longer.find? parent.name (parent.oid (edit owner created)) = some row := by
      cases takes with
      | created first alone added => rw [sameOid, Table.find?_of_insert?_of_find? added found]
    refine .bind (uncontested_writeExisting moment still (version.trans sameVersion.symm))
      fun _ _ => .bind (uncontested_attempt moment _ _) fun _ _ => .ok _
  unfold createAttached
  split
  · rename_i problem failed
    exact .error (attaching problem failed)
  · exact .ok _

theorem uncontested_create (kind : Kind) (object : kind.Object) :
    Uncontested (create moment context table kind object).result := by
  unfold create
  split
  · rename_i problem failed
    exact .error (Uncontested.seqRight (uncontested_enter moment context)
      (uncontested_insertNew moment kind table object) problem failed)
  · exact .ok _

theorem uncontested_mustGet (kind : Kind) (oid : String) :
    Uncontested (mustGet moment context table kind oid).result :=
  .seqRight (uncontested_enter moment context) (uncontested_demandObject moment kind table oid)

theorem uncontested_getSingleton (kind : Kind) :
    Uncontested (getSingleton moment context table kind).result := by
  simp only [getSingleton, Kind.ensureSingleton]
  split
  · rename_i problem refused
    split at refused
    · cases refused
    · cases refused
      exact .error rfl
  · exact .seqRight (uncontested_enter moment context)
      (uncontested_demandSingleton moment kind table)

end Calls

end Store

end Workbench
