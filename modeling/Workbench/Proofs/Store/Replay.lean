/-
# Replaying records

Whoever holds the rows from before some writes and the records of these writes can compute
the rows after them. A replay looks at nothing but the records: it takes the object out of
each, writes the row that holds it, and relies on the order of the records alone.
-/

import Workbench.Proofs.Object.Codec
import Workbench.Proofs.Store.Writes

namespace Workbench

namespace UpdateRecord

/-- Do to a table what a record says was done. A created object becomes the last row, an
updated one replaces version and text of its row, and a deleted one takes its row away. A
record that holds no object of its kind says nothing about a row and is passed over. -/
def replay (table : Table) (record : UpdateRecord) : Table :=
  match record.updateType, record.objectAs? record.kind with
  | .created, some object =>
      (table.insert? ⟨record.kind.name, record.oid, record.kind.version object,
        record.kind.objectCodec.encode object⟩).getD table
  | .updated, some object =>
      table.overwrite record.kind.name record.oid (record.kind.version object)
        (record.kind.objectCodec.encode object)
  | .deleted, _ => table.erase record.kind.name record.oid
  | _, none => table

end UpdateRecord

/-- Do to a table what the records of a batch say, in their order. -/
def UpdateBatch.replay (batch : UpdateBatch) (table : Table) : Table :=
  batch.foldl UpdateRecord.replay table

/-- The record of a write does to a table what the write did. -/
theorem RowWrite.Takes.replay_record {before after : Table} {write : RowWrite}
    (takes : write.Takes before after) : write.record.replay before = after := by
  cases takes with
  | @created _ kind object first alone inserted =>
      have decoded := UpdateRecord.objectAs?_ofObject .created kind object
      simp only [UpdateRecord.replay, record, UpdateRecord.ofObject] at decoded ⊢
      rw [decoded]
      exact congrArg (·.getD before) inserted
  | @updated _ kind object expected raised swapped =>
      have decoded := UpdateRecord.objectAs?_ofObject .updated kind object
      simp only [UpdateRecord.replay, record, UpdateRecord.ofObject] at decoded ⊢
      rw [decoded]
      exact (Table.replace?_eq_some_iff.1 swapped).2.symm

/-- The records of several writes do to a table what the writes did. -/
theorem Table.Writes.replay_records {before after : Table} {writes : List RowWrite}
    (all : Table.Writes before writes after) :
    UpdateBatch.replay (writes.map RowWrite.record) before = after := by
  induction all with
  | none table => rfl
  | more takes _ ih =>
      rw [List.map_cons, UpdateBatch.replay, List.foldl_cons, takes.replay_record]
      exact ih

end Workbench
