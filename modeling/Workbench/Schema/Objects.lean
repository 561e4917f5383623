/-
# The schema of the object store

The object store has one table. Before the first migration the table does not exist.
-/

import Workbench.Schema.Migration
import Workbench.Store.Table

namespace Workbench

/-- A database of the store: its schema version, and the table of objects if there is
one. -/
abbrev ObjectDatabase := Database (Option Table)

namespace ObjectDatabase

/-- A database that was just created. -/
def fresh : ObjectDatabase := ⟨0, none⟩

/-- The first migration creates the table of objects, unless there is one. -/
def createObjects : Migration (Option Table) where
  version := 1
  script objects := .ok (some (objects.getD .empty))

/-- All migrations of the store. -/
def migrations : List (Migration (Option Table)) := [createObjects]

/-- The schema version that this program works with. -/
def latestVersion : Nat := Database.latest migrations

/-- Prepare a database for use. -/
def prepare (database : ObjectDatabase) : Except DatabaseError Unit × ObjectDatabase :=
  Database.migrate migrations database

/-- The table of a database; empty if there is none. -/
def table (database : ObjectDatabase) : Table := database.content.getD .empty

/-- The database with another table. -/
def withTable (database : ObjectDatabase) (table : Table) : ObjectDatabase :=
  { database with content := some table }

/-- Prepare a database for use, where writing to it may fail for a reason. A migration
fails with its first write. -/
def prepareWith (writeFailure : Option EngineFailure) (database : ObjectDatabase) :
    Except DatabaseError Unit × ObjectDatabase :=
  match writeFailure with
  | none => database.prepare
  | some failure =>
      Database.migrate
        (migrations.map fun migration => { migration with script := fun _ => .error failure })
        database

end ObjectDatabase

end Workbench
