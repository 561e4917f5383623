/-
# Writes from outside, and guards

The table of objects lives in a database that others may use as well. They write rows
without asking the store, and they set guards: rules of the database that refuse certain
writes, whoever makes them. The store sees a refused write as a failed statement.
-/

import Workbench.Store.Operation

namespace Workbench

/-- The writes that a guard looks at. -/
inductive GuardedWrite where
  /-- Insertions, while there are this many rows of the kind or more. -/
  | insertion
  /-- Changes that give a row this version or a later one. -/
  | change
  deriving DecidableEq, Repr

/-- A rule that refuses writes to the rows of one kind from a limit on. Rows of no known
kind are not guarded. -/
structure Guard where
  write : GuardedWrite
  kind : Kind
  limit : Int
  /-- The text of the failure. -/
  text : String

namespace Guard

/-- The result code of a refused write. -/
def refusalCode : Int := 1811

/-- The failure of a refused write. -/
def failure (guard : Guard) : EngineFailure := ⟨refusalCode, guard.text⟩

/-- Whether a guard refuses to insert a row of a kind. -/
def refusesInsertion (guard : Guard) (kind : String) (table : Table) : Bool :=
  guard.write = .insertion && guard.kind.name = kind && guard.limit ≤ (table.ofKind kind).length

/-- Whether a guard refuses to give a row of a kind a version. -/
def refusesChange (guard : Guard) (kind : String) (version : Int64) : Bool :=
  guard.write = .change && guard.kind.name = kind && guard.limit ≤ version.toInt

/-- Whether a guard refuses a statement. A write that reaches no row is not refused. -/
def refuses (guard : Guard) (statement : Statement) (table : Table) : Bool :=
  match statement with
  | .insert row => guard.refusesInsertion row.kind table
  | .update kind oid expected version _ =>
      guard.refusesChange kind version &&
        (table.find? kind oid).any fun row => row.version = expected
  | _ => false

/-- Set a guard in place of an earlier one for the same writes to the same kind. -/
def set (guard : Guard) (guards : List Guard) : List Guard :=
  guard :: guards.filter fun other => other.write ≠ guard.write || other.kind ≠ guard.kind

/-- The failures that guards cause. -/
def failures (guards : List Guard) (statement : Statement) (table : Table) :
    Option EngineFailure :=
  (guards.find? fun guard => guard.refuses statement table).map failure

/-- A moment at which only guards stand in the way. -/
def moment (guards : List Guard) (now : Instant) : Moment := ⟨now, false, failures guards⟩

/-- Insert a row from outside. -/
def insertRow (guards : List Guard) (row : Row) (table : Table) : Option Table :=
  if guards.any fun guard => guard.refusesInsertion row.kind table then none
  else table.insert? row

/-- Change version or text of a row from outside, and count the rows that were changed. A
refusal gives nothing. -/
def changeRow (guards : List Guard) (kind oid : String) (version : Option Int64)
    (data : Option String) (table : Table) : Option (Nat × Table) :=
  match table.find? kind oid with
  | none => some (0, table)
  | some row =>
      let newVersion := version.getD row.version
      if guards.any fun guard => guard.refusesChange kind newVersion then none
      else some (1, table.overwrite kind oid newVersion (data.getD row.data))

/-- Delete a row from outside, and count the rows that were deleted. -/
def eraseRow (kind oid : String) (table : Table) : Nat × Table :=
  (if (table.find? kind oid).isSome then 1 else 0, table.erase kind oid)

end Guard

end Workbench
