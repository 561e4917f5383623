/-
# What the rows of a store look like

In a store that was only ever written through store calls, each row holds the text of an
object under that object's own kind, identifier and version, and a singleton kind has at most
one row. Nothing is said about whether the text can be read again: values may be stored that
are nested too deeply for that.

Both facts are kept by each single write, so they hold after any calls, whether the calls
succeed or fail and whatever makes them fail.
-/

import Workbench.Proofs.Object.Stored
import Workbench.Proofs.Store.Writes

namespace Workbench

theorem Kind.eq_of_name_eq {first second : Kind} (same : first.name = second.name) :
    first = second := by
  cases first <;> cases second <;> first | rfl | exact absurd same (by decide)

namespace Table

/-- The tables that store calls lead to from the empty one. -/
inductive Reached : Table → Prop where
  | empty : Reached .empty
  | call {table : Table} : Reached table → ∀ (moment : Moment) (context : Context)
      (call : StoreCall), Reached (call.run moment context table).table

/-- Every row holds an object under its own key and version, and singletons are single. -/
structure HoldsObjects (table : Table) : Prop where
  rows : ∀ row ∈ table.rows, ∃ (kind : Kind) (object : kind.Object), row = kind.toRow object
  single : ∀ kind : Kind, kind.isSingleton = true → (table.ofKind kind.name).length ≤ 1

theorem holdsObjects_empty : HoldsObjects .empty :=
  ⟨fun _ impossible => absurd impossible List.not_mem_nil, fun _ _ => Nat.zero_le _⟩

/-- One write keeps every row in shape. -/
theorem HoldsObjects.takes {before after : Table} (holds : before.HoldsObjects)
    {write : RowWrite} (takes : write.Takes before after) : after.HoldsObjects := by
  cases takes with
  | @created _ kind object first alone inserted =>
      constructor
      · intro row present
        rw [(insert?_eq_some_iff.1 inserted).2, List.mem_append, List.mem_singleton] at present
        rcases present with old | rfl
        · exact holds.rows row old
        · exact ⟨kind, object, rfl⟩
      · intro other single
        rw [ofKind_of_insert? inserted]
        by_cases same : (kind.toRow object).kind = other.name
        · have kinds : kind = other := Kind.eq_of_name_eq same
          subst kinds
          rw [if_pos same, alone single]
          exact Nat.le_refl 1
        · rw [if_neg same, List.append_nil]
          exact holds.single other single
  | @updated _ kind object expected raised swapped =>
      obtain ⟨-, written⟩ := replace?_eq_some_iff.1 swapped
      subst written
      constructor
      · intro row present
        rw [rows_overwrite] at present
        obtain ⟨old, there, rfl⟩ := List.mem_map.1 present
        by_cases same : old.key = (kind.name, kind.oid object)
        · rw [overwriteRow_of_eq same]
          exact ⟨kind, object, rfl⟩
        · rw [overwriteRow_of_ne same]
          exact holds.rows old there
      · intro other single
        rw [ofKind_overwrite, List.length_map]
        exact holds.single other single

theorem HoldsObjects.writes {before after : Table} (holds : before.HoldsObjects)
    {writes : List RowWrite} (all : Writes before writes after) : after.HoldsObjects := by
  induction all with
  | none table => exact holds
  | more takes _ ih => exact ih (holds.takes takes)

/-- One call keeps every row in shape. -/
theorem HoldsObjects.call {table : Table} (holds : table.HoldsObjects) (moment : Moment)
    (context : Context) (call : StoreCall) :
    (call.run moment context table).table.HoldsObjects := by
  have ended := call.ends moment context table
  generalize call.run moment context table = outcome at ended
  cases ended with
  | failed problem => exact holds
  | succeeded value after writes => exact holds.writes writes

/-- The rows of a store hold objects, whatever calls led there. -/
theorem Reached.holdsObjects {table : Table} (reached : table.Reached) : table.HoldsObjects := by
  induction reached with
  | empty => exact holdsObjects_empty
  | call _ moment context call ih => exact ih.call moment context call

/-- The row under a key holds an object with that key. -/
theorem HoldsObjects.of_find? {table : Table} (holds : table.HoldsObjects) {kind : Kind}
    {oid : String} {row : Row} (found : table.find? kind.name oid = some row) :
    ∃ object : kind.Object, row = kind.toRow object ∧ kind.oid object = oid := by
  obtain ⟨present, key⟩ := find?_eq_some_iff.1 found
  obtain ⟨other, object, rfl⟩ := holds.rows row present
  have names : other.name = kind.name := congrArg Prod.fst key
  have kinds : other = kind := Kind.eq_of_name_eq names
  subst kinds
  exact ⟨object, rfl, congrArg Prod.snd key⟩

/-- What the row under a key gives back has the identifier of the key and the version of the row. -/
theorem HoldsObjects.oid_version_of_find? {table : Table} (holds : table.HoldsObjects)
    {kind : Kind} {oid : String} {row : Row} (found : table.find? kind.name oid = some row)
    {object : kind.Object} (read : kind.ofRow row = .ok object) :
    kind.oid object = oid ∧ kind.version object = row.version := by
  obtain ⟨stored, rfl, rfl⟩ := holds.of_find? found
  obtain ⟨metadata, -, rfl⟩ := (kind.ofRow_toRow_eq_ok_iff stored object).1 read
  exact ⟨kind.oid_withMetadata stored metadata, kind.version_withMetadata stored metadata⟩

/-- An object that was read from the oldest row of its kind is that of the row in everything
but the metadata, which is what its text is worth. So it names the row, and has its version. -/
theorem HoldsObjects.of_oldest {table : Table} (holds : table.HoldsObjects) {kind : Kind}
    {row : Row} {rows : List Row} (oldest : table.ofKind kind.name = row :: rows)
    {object : kind.Object} (decoded : kind.ofRow row = .ok object) :
    (∃ stored metadata, row = kind.toRow stored ∧ (kind.metadata stored).reread = .ok metadata ∧
      object = kind.withMetadata stored metadata) ∧
      table.find? kind.name (kind.oid object) = some row ∧ row.version = kind.version object := by
  have there : row ∈ table.ofKind kind.name := oldest ▸ List.mem_cons_self
  rw [ofKind, List.mem_filter, decide_eq_true_iff] at there
  obtain ⟨other, stored, rfl⟩ := holds.rows row there.1
  have kinds : other = kind := Kind.eq_of_name_eq there.2
  subst kinds
  obtain ⟨metadata, read, rfl⟩ := (other.ofRow_toRow_eq_ok_iff stored object).1 decoded
  refine ⟨⟨stored, metadata, rfl, read, rfl⟩, ?_, ?_⟩
  · rw [Kind.oid_withMetadata]
    exact find?_eq_some_iff.2 ⟨there.1, rfl⟩
  · rw [Kind.version_withMetadata]
    rfl

/-- The only row of a singleton kind is the one that is found under its key. -/
theorem HoldsObjects.ofKind_eq_singleton {table : Table} (holds : table.HoldsObjects)
    {kind : Kind} (single : kind.isSingleton = true) {oid : String} {row : Row}
    (found : table.find? kind.name oid = some row) : table.ofKind kind.name = [row] := by
  have there : row ∈ table.ofKind kind.name := by
    rw [ofKind, List.mem_filter]
    exact ⟨(find?_eq_some_iff.1 found).1, by simpa using (kind_oid_of_find? found).1⟩
  have few := holds.single kind single
  cases rows : table.ofKind kind.name with
  | nil =>
      rw [rows] at there
      cases there
  | cons first others =>
      rw [rows] at there few
      have nothing : others = [] := List.eq_nil_of_length_eq_zero (by simpa using few)
      subst nothing
      rw [List.mem_singleton.1 there]

end Table

end Workbench
