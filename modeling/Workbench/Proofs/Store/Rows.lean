/-
# Reading a table after a write

A table changes in two ways: a row is added at the end, or version and text of one row are
replaced. The laws below say what is found under each key afterwards. Two rows never share
a key, so finding a row and being a row are the same, and a write to one key cannot be
seen under another.
-/

import Mathlib.Data.List.Nodup
import Workbench.Store.Table

namespace Workbench.Table

/-! ## Finding is membership -/

/-- A row is determined by its key. -/
theorem eq_of_key_eq {table : Table} {first second : Row} (here : first ∈ table.rows)
    (there : second ∈ table.rows) (same : first.key = second.key) : first = second :=
  List.inj_on_of_nodup_map table.keysDistinct here there same

/-- The row that is found under a key is the row of the table with that key. -/
theorem find?_eq_some_iff {table : Table} {kind oid : String} {row : Row} :
    table.find? kind oid = some row ↔ row ∈ table.rows ∧ row.key = (kind, oid) := by
  constructor
  · intro found
    exact ⟨List.mem_of_find?_eq_some found, by simpa using List.find?_some found⟩
  · rintro ⟨present, key⟩
    cases found : table.find? kind oid with
    | none =>
        have absent := List.find?_eq_none.1 found row present
        simp [key] at absent
    | some other =>
        have otherKey : other.key = (kind, oid) := by simpa using List.find?_some found
        rw [eq_of_key_eq (List.mem_of_find?_eq_some found) present (otherKey.trans key.symm)]

/-- Nothing is found under a key exactly if no row has it. -/
theorem find?_eq_none_iff {table : Table} {kind oid : String} :
    table.find? kind oid = none ↔ ∀ row ∈ table.rows, row.key ≠ (kind, oid) := by
  simp [find?]

/-- A row that is found has the kind and the identifier that were asked for. -/
theorem kind_oid_of_find? {table : Table} {kind oid : String} {row : Row}
    (found : table.find? kind oid = some row) : row.kind = kind ∧ row.oid = oid := by
  have key := (find?_eq_some_iff.1 found).2
  simpa [Row.key] using key

/-! ## Adding a row -/

/-- A row can be added exactly if its key is free, and it is then the last one. -/
theorem insert?_eq_some_iff {table longer : Table} {row : Row} :
    table.insert? row = some longer ↔
      table.find? row.kind row.oid = none ∧ longer.rows = table.rows ++ [row] := by
  rw [find?_eq_none_iff, insert?]
  by_cases taken : row.key ∈ table.rows.map Row.key
  · obtain ⟨held, present, same⟩ := List.mem_map.1 taken
    rw [dif_pos taken]
    constructor
    · intro impossible
      cases impossible
    · rintro ⟨free, -⟩
      exact absurd same (free held present)
  · rw [dif_neg taken, Option.some.injEq]
    constructor
    · intro same
      subst same
      constructor
      · intro held present same
        exact taken (List.mem_map.2 ⟨held, present, same⟩)
      · rfl
    · rintro ⟨-, rows⟩
      exact Table.ext rows.symm

/-- A row cannot be added exactly if a row is found under its key. -/
theorem insert?_eq_none_iff {table : Table} {row : Row} :
    table.insert? row = none ↔ (table.find? row.kind row.oid).isSome := by
  constructor
  · intro refused
    cases found : table.find? row.kind row.oid with
    | some held => rfl
    | none =>
        have free := find?_eq_none_iff.1 found
        rw [insert?] at refused
        by_cases taken : row.key ∈ table.rows.map Row.key
        · obtain ⟨held, present, same⟩ := List.mem_map.1 taken
          exact absurd same (free held present)
        · rw [dif_neg taken] at refused
          cases refused
  · intro taken
    cases inserted : table.insert? row with
    | none => rfl
    | some longer =>
        rw [(insert?_eq_some_iff.1 inserted).1] at taken
        cases taken

/-- After a row was added it is found under its key, and all other keys are as before. -/
theorem find?_of_insert? {table longer : Table} {row : Row}
    (inserted : table.insert? row = some longer) (kind oid : String) :
    longer.find? kind oid = if row.key = (kind, oid) then some row else table.find? kind oid := by
  obtain ⟨free, rows⟩ := insert?_eq_some_iff.1 inserted
  have absent := find?_eq_none_iff.1 free
  by_cases key : row.key = (kind, oid)
  · rw [if_pos key]
    exact find?_eq_some_iff.2 ⟨by simp [rows], key⟩
  · simp [find?, rows, List.find?_append, key]

/-- A row that was there is not the one that was added, -/
theorem key_ne_of_insert? {table longer : Table} {added old : Row} {kind oid : String}
    (inserted : table.insert? added = some longer) (found : table.find? kind oid = some old) :
    added.key ≠ (kind, oid) := by
  intro same
  obtain ⟨rfl, rfl⟩ : added.kind = kind ∧ added.oid = oid := by simpa [Row.key] using same
  rw [(insert?_eq_some_iff.1 inserted).1] at found
  cases found

/-- and it is still found. -/
theorem find?_of_insert?_of_find? {table longer : Table} {added old : Row} {kind oid : String}
    (inserted : table.insert? added = some longer) (found : table.find? kind oid = some old) :
    longer.find? kind oid = some old := by
  rw [find?_of_insert? inserted, if_neg (key_ne_of_insert? inserted found), found]

/-- Adding a row adds it to the rows of its kind and of no other. -/
theorem ofKind_of_insert? {table longer : Table} {row : Row}
    (inserted : table.insert? row = some longer) (kind : String) :
    longer.ofKind kind = table.ofKind kind ++ if row.kind = kind then [row] else [] := by
  rw [ofKind, ofKind, (insert?_eq_some_iff.1 inserted).2, List.filter_append]
  by_cases same : row.kind = kind <;> simp [same]

/-! ## Overwriting a row -/

@[simp]
theorem rows_overwrite (table : Table) (kind oid : String) (version : Int64) (data : String) :
    (table.overwrite kind oid version data).rows =
      table.rows.map (overwriteRow kind oid version data) := rfl

/-- Overwriting changes only the row that has the key. -/
theorem overwriteRow_of_ne {kind oid : String} {row : Row} (other : row.key ≠ (kind, oid))
    (version : Int64) (data : String) : overwriteRow kind oid version data row = row :=
  if_neg other

theorem overwriteRow_of_eq {kind oid : String} {row : Row} (same : row.key = (kind, oid))
    (version : Int64) (data : String) :
    overwriteRow kind oid version data row = ⟨kind, oid, version, data⟩ := by
  rw [overwriteRow, if_pos same]
  have parts : row.kind = kind ∧ row.oid = oid := by simpa [Row.key] using same
  rw [← parts.1, ← parts.2]

/-- Overwriting a row that is there puts the new row in its place, and no other row is touched. -/
theorem rows_overwrite_of_find? {table : Table} {kind oid : String} {old : Row}
    (found : table.find? kind oid = some old) (version : Int64) (data : String) :
    ∃ front back, table.rows = front ++ old :: back ∧
      (table.overwrite kind oid version data).rows =
        front ++ ⟨kind, oid, version, data⟩ :: back := by
  obtain ⟨present, key⟩ := find?_eq_some_iff.1 found
  obtain ⟨front, back, split⟩ := List.append_of_mem present
  have distinct := table.keysDistinct
  rw [split, List.map_append, List.map_cons, List.nodup_middle, List.nodup_cons,
    ← List.map_append] at distinct
  have others : ∀ row ∈ front ++ back, overwriteRow kind oid version data row = row := by
    intro row there
    apply overwriteRow_of_ne
    intro same
    exact distinct.1 (List.mem_map.2 ⟨row, there, same.trans key.symm⟩)
  refine ⟨front, back, split, ?_⟩
  rw [rows_overwrite, split, List.map_append, List.map_cons, overwriteRow_of_eq key,
    List.map_congr_left fun row there => others row (List.mem_append_left _ there),
    List.map_congr_left fun row there => others row (List.mem_append_right _ there),
    List.map_id', List.map_id']

/-- If a row was added before, it stays behind the others. -/
theorem rows_overwrite_of_insert? {table longer : Table} {added old : Row} {kind oid : String}
    (inserted : table.insert? added = some longer) (found : table.find? kind oid = some old)
    (version : Int64) (data : String) :
    ∃ front back, table.rows = front ++ old :: back ∧
      (longer.overwrite kind oid version data).rows =
        front ++ ⟨kind, oid, version, data⟩ :: back ++ [added] := by
  obtain ⟨front, back, split, rows⟩ := rows_overwrite_of_find? found version data
  refine ⟨front, back, split, ?_⟩
  rw [rows_overwrite, (insert?_eq_some_iff.1 inserted).2, List.map_append, List.map_singleton,
    overwriteRow_of_ne (key_ne_of_insert? inserted found), ← rows, rows_overwrite]

/-- What is found after a row was overwritten. -/
theorem find?_overwrite (table : Table) (kind oid : String) (version : Int64) (data : String)
    (otherKind otherOid : String) :
    (table.overwrite kind oid version data).find? otherKind otherOid =
      (table.find? otherKind otherOid).map (overwriteRow kind oid version data) := by
  rw [find?, rows_overwrite, List.find?_map, find?]
  simp only [Function.comp_def, key_overwriteRow]

/-- The rows of a kind after a row was overwritten. -/
theorem ofKind_overwrite (table : Table) (kind oid : String) (version : Int64) (data : String)
    (other : String) :
    (table.overwrite kind oid version data).ofKind other =
      (table.ofKind other).map (overwriteRow kind oid version data) := by
  rw [ofKind, rows_overwrite, List.filter_map, ofKind]
  congr 1
  apply List.filter_congr
  intro row _
  have same := congrArg Prod.fst (key_overwriteRow kind oid version data row)
  have kinds : (overwriteRow kind oid version data row).kind = row.kind := same
  simp [kinds]

/-- A compare-and-swap goes through exactly if the row is there with the expected version,
and then it overwrites that row. -/
theorem replace?_eq_some_iff {table written : Table} {kind oid : String}
    {expected version : Int64} {data : String} :
    table.replace? kind oid expected version data = some written ↔
      (∃ row, table.find? kind oid = some row ∧ row.version = expected) ∧
        written = table.overwrite kind oid version data := by
  rw [replace?]
  cases found : table.find? kind oid with
  | some row =>
      by_cases fits : row.version = expected
      · simp only [if_pos fits, Option.some.injEq]
        constructor
        · intro same
          exact ⟨⟨row, rfl, fits⟩, same.symm⟩
        · intro same
          exact same.2.symm
      · simp only [if_neg fits]
        constructor
        · intro impossible
          cases impossible
        · intro ⟨⟨held, same, current⟩, _⟩
          cases same
          exact absurd current fits
  | none =>
      constructor
      · intro impossible
        cases impossible
      · intro ⟨⟨held, impossible, _⟩, _⟩
        cases impossible

/-- What is found after a compare-and-swap went through. -/
theorem find?_of_replace? {table written : Table} {kind oid : String}
    {expected version : Int64} {data : String}
    (swapped : table.replace? kind oid expected version data = some written)
    (otherKind otherOid : String) :
    written.find? otherKind otherOid =
      if (kind, oid) = (otherKind, otherOid) then some ⟨kind, oid, version, data⟩
      else table.find? otherKind otherOid := by
  obtain ⟨⟨row, found, -⟩, rfl⟩ := replace?_eq_some_iff.1 swapped
  rw [find?_overwrite]
  by_cases same : (kind, oid) = (otherKind, otherOid)
  · rw [if_pos same]
    cases same
    rw [found, Option.map_some, overwriteRow_of_eq (find?_eq_some_iff.1 found).2]
  · rw [if_neg same]
    cases held : table.find? otherKind otherOid with
    | none => rfl
    | some elsewhere =>
        have key := (find?_eq_some_iff.1 held).2
        rw [Option.map_some, overwriteRow_of_ne (key ▸ Ne.symm same)]

end Workbench.Table
