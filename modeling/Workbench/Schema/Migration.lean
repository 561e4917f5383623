/-
# Migrations

The schema of a database changes from version to version. Each change is a migration:
the version that it leads to, and a script. Bringing a database up to date runs the
scripts of all later versions in one transaction, so either all of them take effect or
none does. A database from the future is left alone.

The database keeps its schema version as a 32-bit word with a sign.
-/

import Workbench.Store.Error

namespace Workbench

/-- The content of a database, together with its schema version. -/
structure Database (δ : Type) where
  schemaVersion : Int
  content : δ

/-- One change of schema. A script may fail; what it did by then is rolled back with the
transaction. -/
structure Migration (δ : Type) where
  version : Nat
  script : δ → Except EngineFailure δ

namespace Database

variable {δ : Type}

/-- A schema version as it is kept. A number that does not fit is kept as zero. -/
def storedVersion (version : Int) : Int :=
  if -0x80000000 ≤ version ∧ version < 0x80000000 then version else 0

/-- The database with another schema version. -/
def withVersion (database : Database δ) (version : Int) : Database δ :=
  { database with schemaVersion := storedVersion version }

/-- The result code of a value that does not fit the type it is read as. -/
def mismatchCode : Int := 20

/-- Read the schema version, which must not be negative. -/
def version (database : Database δ) : Except DatabaseError Nat :=
  if database.schemaVersion < 0 then
    .error (.statementFailed
      ⟨mismatchCode, s!"Integer {database.schemaVersion} out of range at index 0"⟩)
  else .ok database.schemaVersion.toNat

/-- Run one script and step up to its version. -/
def apply (database : Database δ) (migration : Migration δ) :
    Except DatabaseError (Database δ) :=
  match migration.script database.content with
  | .ok content => .ok (withVersion { database with content } migration.version)
  | .error failure => .error (.migrationFailed migration.version failure)

/-- The version that a list of migrations leads to. -/
def latest (migrations : List (Migration δ)) : Nat :=
  match migrations.getLast? with
  | some migration => migration.version
  | none => 0

/-- The migrations that lead beyond a version. -/
def pending (migrations : List (Migration δ)) (current : Nat) : List (Migration δ) :=
  migrations.filter fun migration => current < migration.version

/-- Bring a database up to date. The database is given back as it is afterwards, which is
as it was before unless all went well. -/
def migrate (migrations : List (Migration δ)) (database : Database δ) :
    Except DatabaseError Unit × Database δ :=
  match database.version with
  | .error problem => (.error problem, database)
  | .ok current =>
      if latest migrations < current then
        (.error (.unsupportedVersion current (latest migrations)), database)
      else if current = latest migrations then (.ok (), database)
      else
        match (pending migrations current).foldlM apply database with
        | .error problem => (.error problem, database)
        | .ok migrated => (.ok (), migrated)

end Database

end Workbench
