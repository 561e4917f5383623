/-
# Failures of the store

A store call fails for a reason of its own, such as a missing object or a stale
version, or because the database below it failed. Each error has a text, and the texts
of an error and of everything that caused it make up its chain.
-/

import Workbench.Kind

namespace Workbench

/-- A failure that the database engine reports: its extended result code and its text. -/
structure EngineFailure where
  code : Int
  text : String
  deriving DecidableEq, Repr

/-- The engine was told to stop a statement. The lower eight bits of a result code tell
the kind of failure. -/
def EngineFailure.isInterruption (failure : EngineFailure) : Bool := failure.code % 256 == 9

/-- The database that a failure is about. -/
inductive DatabaseTarget where
  | file (path : String)
  | memory
  deriving DecidableEq, Repr

/-- How a database is named in messages. -/
def DatabaseTarget.description : DatabaseTarget → String
  | .file path => "database file " ++ path
  | .memory => "in-memory database"

/-- Failures of the database below the store. -/
inductive DatabaseError where
  /-- The database could not be opened. -/
  | cannotOpen (target : DatabaseTarget) (cause : EngineFailure)
  /-- A schema migration failed, and the schema stays as it was. -/
  | migrationFailed (version : Nat) (cause : EngineFailure)
  /-- The schema is newer than this program knows. -/
  | unsupportedVersion (found latest : Nat)
  /-- A statement failed. -/
  | statementFailed (cause : EngineFailure)
  deriving DecidableEq, Repr

namespace DatabaseError

/-- The text of a database error. -/
def message : DatabaseError → String
  | .cannotOpen target cause => "cannot open " ++ target.description ++ ": " ++ cause.text
  | .migrationFailed version cause => s!"schema migration {version} failed: " ++ cause.text
  | .unsupportedVersion found latest =>
      s!"database schema version {found} is newer than supported {latest}"
  | .statementFailed cause => cause.text

/-- The engine failure behind a database error. -/
def cause? : DatabaseError → Option EngineFailure
  | .cannotOpen _ cause => some cause
  | .migrationFailed _ cause => some cause
  | .unsupportedVersion _ _ => none
  | .statementFailed cause => some cause

/-- The text of the error and the text of its cause. -/
def chain (error : DatabaseError) : List String :=
  error.message :: (error.cause?.map EngineFailure.text).toList

end DatabaseError

/-- The reasons for which a store call fails. -/
inductive StoreError where
  | notFound (kind : Kind) (oid : String)
  | alreadyExists (kind : Kind) (oid : String)
  /-- No object of a singleton kind has been created yet. -/
  | singletonMissing (kind : Kind)
  /-- A singleton was asked for, but the kind is not a singleton kind. -/
  | notSingleton (kind : Kind)
  /-- The object was written by someone else since it was read. -/
  | versionConflict (kind : Kind) (oid : String) (expected actual : Int64)
  | deadlineExceeded
  /-- A row does not hold an object of its kind. -/
  | invalidData (detail : String)
  | database (cause : DatabaseError)
  deriving DecidableEq

namespace StoreError

/-- The error for a failed statement. An interrupted statement ran out of time. -/
def ofFailure (failure : EngineFailure) : StoreError :=
  if failure.isInterruption then .deadlineExceeded else .database (.statementFailed failure)

/-- Whether the error says that an object is missing. -/
def isNotFound : StoreError → Bool
  | .notFound _ _ => true
  | .singletonMissing _ => true
  | _ => false

/-- The text of a store error. -/
def message : StoreError → String
  | .notFound kind oid => kind.name ++ " not found: " ++ oid
  | .alreadyExists kind oid => kind.name ++ " already exists: " ++ oid
  | .singletonMissing kind => "singleton " ++ kind.name ++ " does not exist"
  | .notSingleton kind => kind.name ++ " is not a singleton kind"
  | .versionConflict kind oid expected actual =>
      kind.name ++ " " ++ oid ++ " was modified concurrently: expected version " ++
        toString expected.toInt ++ ", found " ++ toString actual.toInt
  | .deadlineExceeded => "deadline exceeded"
  | .invalidData detail => "invalid persisted object data: " ++ detail
  | .database cause => cause.message

/-- The text of the error, followed by the texts of its causes. -/
def chain (error : StoreError) : List String :=
  error.message ::
    match error with
    | .database cause => cause.chain
    | _ => []

end StoreError

end Workbench
