/-
# Creating an object in the hands of its owner

An attached creation looks for the owner first, then for whatever stands in the way of the new
object, and only then writes. With nothing else in the way these two looks decide how it ends. The
owner that is written is the one that was read in the same step, so the write to it cannot come
too late, even if owner and object are of one kind: the new object has an identifier that no row
of its kind had, so it is not the owner.
-/

import Workbench.Proofs.Store.Listing

namespace Workbench

namespace Table

/-- An object with the second identifier stands in the way of a new one with the first. It has
that identifier itself, or there may be only one object of the kind. -/
def Occupied (table : Table) (kind : Kind) (oid holder : String) : Prop :=
  (holder = oid ∧ (table.find? kind.name oid).isSome = true) ∨
    (kind.isSingleton = true ∧ ∃ row ∈ table.ofKind kind.name, row.oid = holder)

/-- In the way of an object of which there may be several is only the one that has its
identifier, -/
theorem occupied_iff_of_several {table : Table} {kind : Kind} (several : kind.isSingleton = false)
    {oid holder : String} : table.Occupied kind oid holder ↔
      holder = oid ∧ (table.find? kind.name oid).isSome = true := by
  simp [Occupied, several]

/-- and in the way of a singleton is the one that there is. -/
theorem HoldsObjects.occupied_iff_of_single {table : Table} (holds : table.HoldsObjects)
    {kind : Kind} (single : kind.isSingleton = true) {oid holder : String} :
    table.Occupied kind oid holder ↔
      ∃ row, table.ofKind kind.name = [row] ∧ row.oid = holder := by
  constructor
  · rintro (⟨rfl, taken⟩ | ⟨-, row, present, rfl⟩)
    · obtain ⟨row, found⟩ := Option.isSome_iff_exists.1 taken
      exact ⟨row, holds.ofKind_eq_singleton single found, (kind_oid_of_find? found).2⟩
    · exact ⟨row, holds.ofKind_eq_singleton single (mem_ofKind_iff.1 present), rfl⟩
  · rintro ⟨row, rows, rfl⟩
    exact .inr ⟨single, row, rows ▸ List.mem_singleton_self row, rfl⟩

/-- At most one object stands in the way of a new one. -/
theorem HoldsObjects.eq_of_occupied {table : Table} (holds : table.HoldsObjects) {kind : Kind}
    {oid first second : String} (here : table.Occupied kind oid first)
    (there : table.Occupied kind oid second) : first = second := by
  cases single : kind.isSingleton with
  | true =>
      obtain ⟨row, rows, rfl⟩ := (holds.occupied_iff_of_single single).1 here
      obtain ⟨other, others, rfl⟩ := (holds.occupied_iff_of_single single).1 there
      rw [rows, List.singleton_inj] at others
      rw [others]
  | false =>
      rw [occupied_iff_of_several single] at here there
      rw [here.1, there.1]

end Table

namespace Store

/-- A new object is inserted unless something stands in its way, and then that is named. -/
theorem insertNew_cases {moment : Moment} {table : Table}
    (sound : ∀ statement table, moment.failure statement table = none)
    (holds : table.HoldsObjects) (readable : table.Readable) (kind : Kind) (object : kind.Object) :
    (∃ holder, table.Occupied kind (kind.oid object) holder ∧
        insertNew moment kind object table = .error (.alreadyExists kind holder)) ∨
      (∀ holder, ¬ table.Occupied kind (kind.oid object) holder) ∧
        ∃ longer, table.insert? (kind.toRow (kind.withVersion object 1)) = some longer ∧
          insertNew moment kind object table = .ok (kind.withVersion object 1, longer) := by
  cases single : kind.isSingleton with
  | true =>
      simp only [holds.occupied_iff_of_single single]
      cases rows : table.ofKind kind.name with
      | nil =>
          have free : table.find? kind.name (kind.oid object) = none := by
            cases found : table.find? kind.name (kind.oid object) with
            | none => rfl
            | some row =>
                rw [holds.ofKind_eq_singleton single found] at rows
                cases rows
          have alone := ensureNoSingleton_of_none (sound _ _) rows
          refine .inr ⟨?_, insertNew_of_free sound alone free⟩
          rintro holder ⟨row, impossible, -⟩
          cases impossible
      | cons row others =>
          have there : row ∈ table.ofKind kind.name := rows ▸ List.mem_cons_self
          have only := holds.ofKind_eq_singleton single (Table.mem_ofKind_iff.1 there)
          obtain ⟨existing, read⟩ := readable kind row there
          have named := (holds.of_ofKind there read).1.symm
          refine .inl ⟨kind.oid existing, ⟨row, rows ▸ only, named⟩, ?_⟩
          rw [insertNew, ensureNoSingleton_of_some (sound _ _) single rows read]
          rfl
  | false =>
      simp only [Table.occupied_iff_of_several single]
      cases found : table.find? kind.name (kind.oid object) with
      | none =>
          refine .inr ⟨?_, insertNew_of_free sound (ensureNoSingleton_of_several single) found⟩
          rintro holder ⟨-, impossible⟩
          cases impossible
      | some row =>
          refine .inl ⟨kind.oid object, ⟨rfl, rfl⟩, ?_⟩
          have refused : table.insert? (kind.toRow (kind.withVersion object 1)) = none := by
            rw [Table.insert?_eq_none_iff, Kind.toRow, Kind.oid_withVersion]
            exact Option.isSome_iff_exists.2 ⟨row, found⟩
          rw [insertNew_eq sound single, refused]

end Store

/-! ## Attached creations -/

/-- An attached creation has put a row behind all others and the edited owner in the place of
its old row, and it has handed back both objects and recorded both. -/
structure Outcome.Attaches {child parent : Kind} (outcome : Outcome (child.Object × parent.Object))
    (context : Context) (table : Table) (old : Row) (created : child.Object)
    (attached : parent.Object) : Prop where
  result : outcome.result = .ok (created, attached)
  context : outcome.context = context.recordAll
    [.ofObject .created child created, .ofObject .updated parent attached]
  key : (parent.toRow attached).key = old.key
  rows : ∃ front back, table.rows = front ++ old :: back ∧
    outcome.table.rows = front ++ parent.toRow attached :: back ++ [child.toRow created]

namespace Store

variable {table : Table} {moment : Moment} {context : Context} {child parent : Kind}
  {object : child.Object} {parentOid : String}
  {edit : parent.Object → child.Object → parent.Object}

/-- With the owner there and nothing in the way of the new object, both are written. -/
theorem attaches_of_inserted (unhindered : moment.Unhindered context) {old : Row}
    (found : table.find? parent.name parentOid = some old) {owner : parent.Object}
    (read : parent.ofRow old = .ok owner)
    (own : parent.oid owner = parentOid ∧ parent.version owner = old.version) {longer : Table}
    (inserted : table.insert? (child.toRow (child.withVersion object 1)) = some longer)
    (inserting : insertNew moment child object table = .ok (child.withVersion object 1, longer))
    (keeps : ∀ owner created, parent.oid (edit owner created) = parent.oid owner ∧
      parent.version (edit owner created) = parent.version owner) :
    let created := child.withVersion object 1
    (createAttached moment context table child parent object parentOid edit).Attaches context table
      old created (parent.withVersion (edit owner created) (old.version + 1)) := by
  intro created
  obtain ⟨keepsOid, keepsVersion⟩ := keeps owner created
  have named : parent.oid (edit owner created) = parentOid := keepsOid.trans own.1
  have current : parent.version (edit owner created) = old.version := keepsVersion.trans own.2
  have still := Table.find?_of_insert?_of_find? inserted found
  rw [← named] at still
  rw [createAttached_of_inserted edit unhindered found read inserting still current.symm, current,
    named]
  let attached := parent.withVersion (edit owner created) (old.version + 1)
  have writes : parent.toRow attached =
      ⟨parent.name, parentOid, old.version + 1, parent.objectCodec.encode attached⟩ := by
    rw [Kind.toRow, Kind.oid_withVersion, Kind.version_withVersion, named]
  refine ⟨rfl, rfl, ?_, ?_⟩
  · rw [writes, (Table.find?_eq_some_iff.1 found).2]
    rfl
  · rw [writes]
    exact Table.rows_overwrite_of_insert? inserted found _ _

end Store

/-- How an attached creation ends is decided by the rows alone, if nothing else stands in the way
and the edit leaves identifier and version of the owner alone. The kinds may be the same.

Without the owner's row the owner is reported, whatever else is wrong. With it, an object that
stands in the way of the new one is reported. Otherwise the call succeeds, with the new object at
version one and with the owner that was stored, edited once and raised by one. The new row then
comes behind all others, the owner's row holds the edited owner, and all other rows are where and
what they were. -/
theorem attached_creation_is_decided_by_the_rows {table : Table} (reached : table.Reached)
    (readable : table.Readable) {moment : Moment} {context : Context}
    (unhindered : moment.Unhindered context) (child parent : Kind) (object : child.Object)
    (parentOid : String) (edit : parent.Object → child.Object → parent.Object)
    (keeps : ∀ owner created, parent.oid (edit owner created) = parent.oid owner ∧
      parent.version (edit owner created) = parent.version owner) :
    let outcome := Store.createAttached moment context table child parent object parentOid edit
    let created := child.withVersion object 1
    (outcome.result = .error (.notFound parent parentOid) ↔
      table.find? parent.name parentOid = none) ∧
    (∀ holder, outcome.result = .error (.alreadyExists child holder) ↔
      (table.find? parent.name parentOid).isSome = true ∧
        table.Occupied child (child.oid object) holder) ∧
    (∀ old, table.find? parent.name parentOid = some old →
      (∀ holder, ¬ table.Occupied child (child.oid object) holder) →
      ∃ owner, parent.ofRow old = .ok owner ∧
        let attached := parent.withVersion (edit owner created) (old.version + 1)
        outcome.Attaches context table old created attached ∧
          (old.version ≠ Int64.maxValue →
            (parent.version attached).toInt = old.version.toInt + 1)) ∧
    ∀ problem, outcome.result = .error problem →
      outcome.table = table ∧ outcome.context = context := by
  intro outcome created
  have holds := reached.holdsObjects
  let call : StoreCall := .createAttached child parent object parentOid edit
  have silent : ∀ problem, outcome.result = .error problem →
      outcome.table = table ∧ outcome.context = context := by
    intro problem failed
    have nothing : outcome = _ := @StoreCall.run_of_error moment context table call problem failed
    exact ⟨congrArg Outcome.table nothing, congrArg Outcome.context nothing⟩
  cases found : table.find? parent.name parentOid with
  | none =>
      have missing : outcome.result = .error (.notFound parent parentOid) :=
        congrArg Outcome.result (Store.createAttached_of_missing unhindered found)
      exact ⟨by simp [missing], by simp [missing], by simp, silent⟩
  | some old =>
      have there : old ∈ table.ofKind parent.name := by
        rw [Table.mem_ofKind_iff, (Table.kind_oid_of_find? found).2, found]
      obtain ⟨owner, read⟩ := readable parent old there
      rcases Store.insertNew_cases unhindered.sound holds readable child object with
        ⟨holder, occupied, refused⟩ | ⟨free, longer, inserted, inserting⟩
      · have taken : outcome.result = .error (.alreadyExists child holder) :=
          congrArg Outcome.result (Store.createAttached_of_refused unhindered found read refused)
        refine ⟨by simp [taken], ?_, fun _ _ free => absurd occupied (free holder), silent⟩
        intro other
        rw [taken]
        constructor
        · intro same
          cases same
          exact ⟨rfl, occupied⟩
        · rintro ⟨-, here⟩
          rw [holds.eq_of_occupied occupied here]
      · have attaches : outcome.Attaches context table old created _ :=
          Store.attaches_of_inserted unhindered found read (holds.oid_version_of_find? found read)
            inserted inserting keeps
        refine ⟨by simp [attaches.result], ?_, ?_, silent⟩
        · intro holder
          rw [attaches.result]
          simp [free holder]
        · rintro _ ⟨⟩ -
          refine ⟨owner, read, attaches, ?_⟩
          rw [Kind.version_withVersion]
          exact toInt_add_one

/-- A tab is created in the hands of another tab. It goes behind the block that came in between,
and it could not have had the identifier of its owner. -/
theorem a_tab_is_created_in_the_hands_of_a_tab :
    let owner : Tab := ⟨"t", 1, "Main", [], .empty⟩
    let block : Block := ⟨"b", 1, .empty⟩
    let turns : List Turn :=
      [⟨0, .quiet 0, .create .tab owner⟩, ⟨1, .quiet 0, .create .block block⟩]
    let table := (SharedStore.playAll ⟨fun _ => ⟨1, none⟩, .empty⟩ turns).table
    let attach (oid : String) :=
      Store.createAttached (.quiet 0) ⟨1, some []⟩ table .tab .tab (Tab.new oid "Side") "t"
        fun (owner created : Tab) => owner.addBlock created.oid
    (attach "u").Attaches ⟨1, some []⟩ table (Kind.tab.toRow owner)
        (⟨"u", 1, "Side", [], .empty⟩ : Tab) (⟨"t", 2, "Main", ["u"], .empty⟩ : Tab) ∧
      (attach "t").result = .error (.alreadyExists .tab "t") := by
  intro owner block turns table attach
  have rows : table.rows = [Kind.tab.toRow owner, Kind.block.toRow block] := rfl
  have reached : table.Reached := SharedStore.reached_playAll .empty turns
  have readable : table.Readable := by
    apply Table.readable_of_rows
    intro row there
    rw [rows] at there
    rcases List.mem_pair.1 there with rfl | rfl
    · exact ⟨.tab, _, rfl, Kind.tab.ofRow_toRow Meta.withinLimits_empty⟩
    · exact ⟨.block, _, rfl, Kind.block.ofRow_toRow Meta.withinLimits_empty⟩
  have unhindered : Moment.Unhindered (.quiet 0) ⟨1, some []⟩ := ⟨rfl, rfl, fun _ _ => rfl⟩
  have decided (oid : String) :=
    attached_creation_is_decided_by_the_rows reached readable unhindered .tab .tab
    (Tab.new oid "Side") "t" (fun (owner created : Tab) => owner.addBlock created.oid)
    fun _ _ => ⟨rfl, rfl⟩
  have free : ∀ holder, ¬ table.Occupied .tab "u" holder := by
    rintro holder (⟨-, taken⟩ | ⟨single, -⟩)
    · cases taken
    · cases single
  refine ⟨?_, ((decided "t").2.1 "t").2 ⟨rfl, .inl ⟨rfl, rfl⟩⟩⟩
  obtain ⟨held, read, attaches, -⟩ := (decided "u").2.2.1 _ rfl free
  have same : held = owner := by
    have stored : Kind.tab.ofRow (Kind.tab.toRow owner) = .ok owner :=
      Kind.tab.ofRow_toRow Meta.withinLimits_empty
    exact Except.ok.inj (read.symm.trans stored)
  subst same
  exact attaches

end Workbench
