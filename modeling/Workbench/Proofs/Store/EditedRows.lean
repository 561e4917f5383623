/-
# Which row an edit writes to

An edit is made on the object that was asked for, and what comes of it is written to the row that
the edited object names. Nothing makes these two rows one: an edit may give its object another
identifier. The write then goes to the row with that identifier, if there is one with the version
that the edited object carries, and the row that was asked for stays as it was. So a call of this
kind touches only the row that it was asked for exactly if the edit leaves the identifier alone.

The theorem below says this of single edits and of the edit of the owner in an attached creation,
for any table and for any edit. Two tabs are enough for an edit to strike the wrong one.
-/

import Workbench.Proofs.Store.Listing

namespace Workbench

/-! ## One row written to -/

/-- The tables have rows under the same keys in the same places, and under all keys but one they
have the same rows. -/
structure Table.SameBut (before after : Table) (kind oid : String) : Prop where
  keys : after.rows.map Row.key = before.rows.map Row.key
  others : ∀ otherKind otherOid, (otherKind, otherOid) ≠ (kind, oid) →
    after.find? otherKind otherOid = before.find? otherKind otherOid

/-- One row was written to, the one that the object names. It holds the object now, and had the
version below before. -/
structure Table.Receives (before after : Table) {kind : Kind} (object : kind.Object) : Prop where
  sameBut : before.SameBut after kind.name (kind.oid object)
  overwritten : ∃ old, before.find? kind.name (kind.oid object) = some old ∧
    kind.version object = old.version + 1
  stored : after.find? kind.name (kind.oid object) = some (kind.toRow object)

namespace RowWrite.Takes

variable {before after : Table} {kind : Kind} {object : kind.Object}

theorem receives (takes : Takes before ⟨.updated, kind, object⟩ after) :
    before.Receives after object where
  sameBut := by
    refine ⟨takes.keys_of_updated, fun otherKind otherOid apart => ?_⟩
    exact (takes.find?_after otherKind otherOid).trans (if_neg apart.symm)
  overwritten := by
    cases takes with
    | updated expected raised swapped =>
        obtain ⟨⟨old, found, fits⟩, -⟩ := Table.replace?_eq_some_iff.1 swapped
        exact ⟨old, found, fits ▸ raised⟩
  stored := (takes.find?_after kind.name (kind.oid object)).trans (if_pos rfl)

/-- Only the row of one identifier was touched exactly if it is that of the written object. -/
theorem sameBut_iff (takes : Takes before ⟨.updated, kind, object⟩ after) (oid : String) :
    before.SameBut after kind.name oid ↔ kind.oid object = oid := by
  constructor
  · intro same
    by_contra apart
    exact takes.find?_ne (same.others _ _ fun keys => apart (congrArg Prod.snd keys))
  · rintro rfl
    exact takes.receives.sameBut

end RowWrite.Takes

/-! ## Edits -/

/-- What an edit comes to is written to the row that the edited object names.

An edit of one object changes no row, or it goes through, and then the edited object is handed
back with the next version and its own row holds it. This is the only row that was touched, and
it is the row that was asked for exactly if the edit leaves the identifier alone.

In an attached creation the same is true of the owner, in the table that has the new object
behind its other rows. -/
theorem edits_are_written_where_the_edited_object_says (moment : Moment) (context : Context)
    (table : Table) :
    (∀ (kind : Kind) (oid : String) (edit : kind.Object → kind.Object × Bool),
      let outcome := Store.modify moment context table kind oid edit
      outcome.table = table ∨
        ∃ row held edited, table.find? kind.name oid = some row ∧ kind.ofRow row = .ok held ∧
          (table.Reached → kind.oid held = oid) ∧ edit held = (edited, true) ∧
          let raised := kind.withVersion edited (kind.version edited + 1)
          outcome.result = .ok raised ∧ table.Receives outcome.table raised ∧
            (table.SameBut outcome.table kind.name oid ↔ kind.oid edited = oid)) ∧
    ∀ (child parent : Kind) (object : child.Object) (parentOid : String)
        (edit : parent.Object → child.Object → parent.Object),
      let outcome := Store.createAttached moment context table child parent object parentOid edit
      outcome.table = table ∨
        ∃ row owner, ∃ longer : Table, table.find? parent.name parentOid = some row ∧
          parent.ofRow row = .ok owner ∧ (table.Reached → parent.oid owner = parentOid) ∧
          let created := child.withVersion object 1
          let edited := edit owner created
          let raised := parent.withVersion edited (parent.version edited + 1)
          outcome.result = .ok (created, raised) ∧
            longer.rows = table.rows ++ [child.toRow created] ∧
            longer.Receives outcome.table raised ∧
            (longer.SameBut outcome.table parent.name parentOid ↔
              parent.oid edited = parentOid) := by
  constructor
  · intro kind oid edit outcome
    rcases Store.modifyWith_edits moment context table kind (Store.demandObject moment kind oid)
      edit with ⟨problem, failed⟩ | ⟨held, edited, changed, loaded, answer, ended⟩
    · exact .inl (congrArg Outcome.table failed)
    · cases changed with
      | false => exact .inl (congrArg Outcome.table ended)
      | true =>
          right
          obtain ⟨after, takes, wrote⟩ := ended
          obtain ⟨row, found, read⟩ := Store.row_of_demandObject loaded
          have named (reached : table.Reached) : kind.oid held = oid :=
            (reached.holdsObjects.oid_version_of_find? found read).1
          have went : outcome = _ := wrote
          have frame := takes.sameBut_iff oid
          rw [Kind.oid_withVersion] at frame
          rw [went]
          exact ⟨row, held, edited, found, read, named, answer, rfl, takes.receives, frame⟩
  · intro child parent object parentOid edit outcome
    rcases Store.createAttached_cases moment context table child parent object parentOid edit with
      ⟨problem, failed⟩ | ⟨row, owner, longer, after, found, read, creation, change, wrote⟩
    · exact .inl (congrArg Outcome.table failed)
    · right
      have named (reached : table.Reached) : parent.oid owner = parentOid :=
        (reached.holdsObjects.oid_version_of_find? found read).1
      have went : outcome = _ := wrote
      have frame := change.sameBut_iff parentOid
      rw [Kind.oid_withVersion] at frame
      rw [went]
      exact ⟨row, owner, longer, found, read, named, rfl, creation.rows_of_created.1,
        change.receives, frame⟩

/-- Two tabs are created, and an edit of the first gives it the identifier of the second. The call
succeeds, the first tab stays as it was, and the second is overwritten. The same happens if a
block is created in the hands of the first tab and the edit of the owner does this. -/
theorem an_edit_can_strike_another_row :
    let first : Tab := ⟨"t", 1, "First", [], .empty⟩
    let second : Tab := ⟨"u", 1, "Second", [], .empty⟩
    let struck : Tab := ⟨"u", 2, "Edited", [], .empty⟩
    let block : Block := ⟨"b", 1, .empty⟩
    let turns : List Turn :=
      [⟨0, .quiet 0, .create .tab first⟩, ⟨1, .quiet 0, .create .tab second⟩]
    let table := (SharedStore.playAll ⟨fun _ => ⟨1, none⟩, .empty⟩ turns).table
    let disguise (tab : Tab) : Tab := { tab with oid := "u", name := "Edited" }
    let edited := Store.modify (.quiet 0) ⟨1, none⟩ table .tab "t" fun tab => (disguise tab, true)
    let attached := Store.createAttached (.quiet 0) ⟨1, none⟩ table .block .tab block "t"
      fun tab _ => disguise tab
    table.rows = [Kind.tab.toRow first, Kind.tab.toRow second] ∧
      edited.result = .ok struck ∧
      edited.table.rows = [Kind.tab.toRow first, Kind.tab.toRow struck] ∧
      ¬ table.SameBut edited.table Kind.tab.name "t" ∧
      attached.result = .ok (block, struck) ∧
      attached.table.rows =
        [Kind.tab.toRow first, Kind.tab.toRow struck, Kind.block.toRow block] := by
  intro first second struck block turns table disguise edited attached
  have unhindered : Moment.Unhindered (.quiet 0) ⟨1, none⟩ := ⟨rfl, rfl, fun _ _ => rfl⟩
  have found : table.find? Kind.tab.name "t" = some (Kind.tab.toRow first) := rfl
  have other : table.find? Kind.tab.name "u" = some (Kind.tab.toRow second) := rfl
  have read : Kind.tab.ofRow (Kind.tab.toRow first) = .ok first :=
    Kind.tab.ofRow_toRow Meta.withinLimits_empty
  have loaded := Store.demandObject_of_find? (unhindered.sound _ _) found read
  let edit (tab : Kind.tab.Object) : Kind.tab.Object × Bool := (disguise tab, true)
  have changed : edit first = (disguise first, true) := rfl
  have editing : edited = _ := Store.modifyWith_of_fits unhindered loaded changed other rfl
  have free : table.find? Kind.block.name (Kind.block.oid block) = none := rfl
  obtain ⟨longer, inserted, inserting⟩ := Store.insertNew_of_free unhindered.sound
    (Store.ensureNoSingleton_of_several rfl) free
  let attach (tab : Kind.tab.Object) (_ : Kind.block.Object) : Kind.tab.Object := disguise tab
  have still := Table.find?_of_insert?_of_find? inserted other
  have attaching : attached = _ :=
    Store.createAttached_of_inserted attach unhindered found read inserting still rfl
  rw [editing, attaching]
  refine ⟨rfl, rfl, rfl, ?_, rfl, ?_⟩
  · intro same
    have unchanged := same.others Kind.tab.name "u" (by decide)
    rw [other] at unchanged
    exact absurd unchanged (by decide)
  · rw [Table.rows_overwrite, (Table.insert?_eq_some_iff.1 inserted).2]
    rfl

end Workbench
