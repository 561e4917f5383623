/-
# The table of objects

All objects are rows of one table. A row is known by the name of its kind and its
identifier together, and no two rows share both. It holds a version and the JSON text
of the object. Rows stay in the order in which they were inserted; writing to a row
does not move it.
-/

namespace Workbench

/-- One stored object. The kind is any text, because rows may come from elsewhere. -/
structure Row where
  kind : String
  oid : String
  version : Int64
  data : String
  deriving DecidableEq

/-- What a row is known by. -/
def Row.key (row : Row) : String × String := (row.kind, row.oid)

/-- Rows in insertion order, no two under one key. -/
structure Table where
  rows : List Row
  keysDistinct : (rows.map Row.key).Nodup

namespace Table

/-- The table without rows. -/
def empty : Table := ⟨[], List.nodup_nil⟩

/-- Tables are equal when their rows are. -/
@[ext] theorem ext {first second : Table} (same : first.rows = second.rows) : first = second := by
  cases first
  cases second
  cases same
  rfl

/-- The row under a key. -/
def find? (table : Table) (kind oid : String) : Option Row :=
  table.rows.find? fun row => row.key = (kind, oid)

/-- The rows of a kind, oldest first. -/
def ofKind (table : Table) (kind : String) : List Row :=
  table.rows.filter fun row => row.kind = kind

/-- The table with one more row at the end, unless its key is taken. -/
def insert? (table : Table) (row : Row) : Option Table :=
  if taken : row.key ∈ table.rows.map Row.key then none
  else
    some ⟨table.rows ++ [row], by
      rw [List.map_append, List.nodup_append]
      refine ⟨table.keysDistinct, by simp, ?_⟩
      intro key there other same
      simp only [List.map_cons, List.map_nil, List.mem_singleton] at same
      rintro rfl
      exact taken (same ▸ there)⟩

/-- Change version and text of one row. -/
def overwriteRow (kind oid : String) (version : Int64) (data : String) (row : Row) : Row :=
  if row.key = (kind, oid) then { row with version, data } else row

theorem key_overwriteRow (kind oid : String) (version : Int64) (data : String) (row : Row) :
    (overwriteRow kind oid version data row).key = row.key := by
  unfold overwriteRow
  split <;> rfl

/-- The table with version and text of the row under a key replaced. -/
def overwrite (table : Table) (kind oid : String) (version : Int64) (data : String) : Table :=
  ⟨table.rows.map (overwriteRow kind oid version data), by
    have same : (Row.key ∘ overwriteRow kind oid version data) = Row.key :=
      funext (key_overwriteRow kind oid version data)
    rw [List.map_map, same]
    exact table.keysDistinct⟩

/-- Compare and swap: write to the row under a key if it has the expected version. -/
def replace? (table : Table) (kind oid : String) (expected version : Int64) (data : String) :
    Option Table :=
  match table.find? kind oid with
  | some row =>
      if row.version = expected then some (table.overwrite kind oid version data) else none
  | none => none

/-- The table without the row under a key. -/
def erase (table : Table) (kind oid : String) : Table :=
  ⟨table.rows.filter fun row => row.key ≠ (kind, oid),
    table.keysDistinct.sublist ((List.filter_sublist).map Row.key)⟩

end Table

end Workbench
