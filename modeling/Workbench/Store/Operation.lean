/-
# Store operations

A store operation runs under the lock of the store, from its deadline check to the moment
when its write is committed; only then it adds to the journal of its request. So a call
is one step on the table, and what happens in a call depends only on its moment: the
clock reading, whether the lock could be had in time, and which statements the engine
lets fail. A statement that fails changes nothing, and a transaction that is not
committed leaves no trace.

Writes to an existing object compare versions: the write goes through only if the row
still has the version that the object carries. The row is the one named by the
object's own kind and identifier.
-/

import Workbench.Store.Context
import Workbench.Store.Table

namespace Workbench

/-- What the store asks of the database engine. -/
inductive Statement where
  | selectOne (kind oid : String)
  | selectFirst (kind : String)
  | selectAll (kind : String)
  | probe (kind oid : String)
  | insert (row : Row)
  | update (kind oid : String) (expected version : Int64) (data : String)
  | selectVersion (kind oid : String)
  | beginTransaction
  | commit
  deriving DecidableEq

/-- The circumstances of one store call. -/
structure Moment where
  /-- The clock reading when the call begins. -/
  now : Instant
  /-- Whether the lock stays taken by another until the deadline. -/
  lockedOut : Bool
  /-- The failure of a statement that meets the given table, if it fails. -/
  failure : Statement → Table → Option EngineFailure

namespace Moment

/-- A moment at which nothing stands in the way. -/
def quiet (now : Instant) : Moment := ⟨now, false, fun _ _ => none⟩

/-- Run a statement; it may fail. -/
def attempt (moment : Moment) (statement : Statement) (table : Table) : Except StoreError Unit :=
  match moment.failure statement table with
  | some failure => .error (.ofFailure failure)
  | none => .ok ()

/-- Enter the store: the deadline must not have come, and the lock must be had before
it comes. -/
def enter (moment : Moment) (context : Context) : Except StoreError Unit :=
  if context.isExpired moment.now || moment.lockedOut then .error .deadlineExceeded else .ok ()

end Moment

namespace Kind

/-- The object in a row. Its version is that of the row, whatever the text says. -/
def ofRow (kind : Kind) (row : Row) : Except StoreError kind.Object :=
  match kind.objectCodec.decode row.data with
  | .ok object => .ok (kind.withVersion object row.version)
  | .error problem =>
      .error (.invalidData ("cannot decode " ++ kind.name ++ ": " ++ problem.message))

/-- The row that holds an object. -/
def toRow (kind : Kind) (object : kind.Object) : Row :=
  ⟨kind.name, kind.oid object, kind.version object, kind.objectCodec.encode object⟩

/-- Singletons are asked for only in singleton kinds. -/
def ensureSingleton (kind : Kind) : Except StoreError Unit :=
  if kind.isSingleton then .ok () else .error (.notSingleton kind)

end Kind

namespace Store

variable (moment : Moment) (kind : Kind)

/-! ### Inside the lock -/

/-- The object under an identifier. -/
def readObject (oid : String) (table : Table) : Except StoreError (Option kind.Object) := do
  moment.attempt (.selectOne kind.name oid) table
  match table.find? kind.name oid with
  | some row => some <$> kind.ofRow row
  | none => return none

/-- The object under an identifier, which must be there. -/
def demandObject (oid : String) (table : Table) : Except StoreError kind.Object := do
  match ← readObject moment kind oid table with
  | some object => return object
  | none => throw (.notFound kind oid)

/-- The oldest object of a kind. -/
def readSingleton (table : Table) : Except StoreError (Option kind.Object) := do
  moment.attempt (.selectFirst kind.name) table
  match table.ofKind kind.name with
  | row :: _ => some <$> kind.ofRow row
  | [] => return none

/-- The oldest object of a kind, which must be there. -/
def demandSingleton (table : Table) : Except StoreError kind.Object := do
  match ← readSingleton moment kind table with
  | some object => return object
  | none => throw (.singletonMissing kind)

/-- Decode rows up to the first that holds no object. -/
def decodeRows : List Row → Except StoreError (List kind.Object)
  | [] => .ok []
  | row :: rest => do
      let object ← kind.ofRow row
      return object :: (← decodeRows rest)

/-- A singleton kind must not have an object yet. -/
def ensureNoSingleton (table : Table) : Except StoreError Unit := do
  if kind.isSingleton then
    match ← readSingleton moment kind table with
    | some existing => throw (.alreadyExists kind (kind.oid existing))
    | none => return ()

/-- Insert a new object with version one. Its key must be free, and a singleton kind must
not have an object. -/
def insertNew (object : kind.Object) (table : Table) :
    Except StoreError (kind.Object × Table) := do
  ensureNoSingleton moment kind table
  moment.attempt (.probe kind.name (kind.oid object)) table
  let first := kind.withVersion object 1
  match table.insert? (kind.toRow first) with
  | none => throw (.alreadyExists kind (kind.oid object))
  | some longer =>
      moment.attempt (.insert (kind.toRow first)) table
      return (first, longer)

/-- What became of a write to an existing object: whether it went through, the object as
the writer holds it afterwards, and the table. -/
structure Written where
  result : Except StoreError Unit
  object : kind.Object
  table : Table

/-- Why no row took a write: the row is gone, or it has another version. -/
def refusal (oid : String) (expected : Int64) (table : Table) : StoreError :=
  match moment.attempt (.selectVersion kind.name oid) table with
  | .error problem => problem
  | .ok () =>
      match table.find? kind.name oid with
      | none => .notFound kind oid
      | some row => .versionConflict kind oid expected row.version

/-- Write to an existing object. The version is raised before the write and put back when
the write does not go through. Behind the greatest version comes the least, as in a build
for release; a build for debugging stops there. -/
def writeExisting (object : kind.Object) (table : Table) : Written kind :=
  let expected := kind.version object
  let raised := kind.withVersion object (expected + 1)
  let putBack := kind.withVersion raised expected
  let oid := kind.oid raised
  let data := kind.objectCodec.encode raised
  match moment.attempt (.update kind.name oid expected (expected + 1) data) table with
  | .error problem => ⟨.error problem, putBack, table⟩
  | .ok () =>
      match table.replace? kind.name oid expected (expected + 1) data with
      | some written => ⟨.ok (), raised, written⟩
      | none => ⟨.error (refusal moment kind oid expected table), putBack, table⟩

end Store

/-! ### Calls -/

/-- What a store call leaves behind. -/
structure Outcome (α : Type) where
  result : Except StoreError α
  context : Context
  table : Table

namespace Store

variable (moment : Moment) (context : Context) (table : Table)

/-- The outcome of a call that changes nothing. -/
def unchanged {α : Type} (result : Except StoreError α) : Outcome α := ⟨result, context, table⟩

/-- Run a reading call. -/
def reading {α : Type} (read : Table → Except StoreError α) : Outcome α :=
  unchanged context table (moment.enter context *> read table)

/-- Load an object; absence is no error. -/
def get (kind : Kind) (oid : String) : Outcome (Option kind.Object) :=
  reading moment context table (readObject moment kind oid)

/-- Load an object that must exist. -/
def mustGet (kind : Kind) (oid : String) : Outcome kind.Object :=
  reading moment context table (demandObject moment kind oid)

/-- Load the object of a singleton kind. -/
def getSingleton (kind : Kind) : Outcome kind.Object :=
  match kind.ensureSingleton with
  | .error problem => unchanged context table (.error problem)
  | .ok () => reading moment context table (demandSingleton moment kind)

/-- List all objects of a kind, oldest first. -/
def getAll (kind : Kind) : Outcome (List kind.Object) :=
  reading moment context table fun table => do
    moment.attempt (.selectAll kind.name) table
    decodeRows kind (table.ofKind kind.name)

/-- Store a new object, and give it back as it was stored. -/
def create (kind : Kind) (object : kind.Object) : Outcome kind.Object :=
  match moment.enter context *> insertNew moment kind object table with
  | .error problem => unchanged context table (.error problem)
  | .ok (created, longer) =>
      ⟨.ok created, context.record (.ofObject .created kind created), longer⟩

/-- Both writes of an attached creation, on a table that is not committed yet. -/
def attach (child parent : Kind) (object : child.Object) (parentOid : String)
    (edit : parent.Object → child.Object → parent.Object) :
    Except StoreError ((child.Object × parent.Object) × Table) := do
  moment.enter context
  moment.attempt .beginTransaction table
  let owner ← demandObject moment parent parentOid table
  let (created, longer) ← insertNew moment child object table
  let written := writeExisting moment parent (edit owner created) longer
  written.result
  moment.attempt .commit written.table
  return ((created, written.object), written.table)

/-- Store a new object and edit its owner, both or neither. The journal gets the creation
first. -/
def createAttached (child parent : Kind) (object : child.Object) (parentOid : String)
    (edit : parent.Object → child.Object → parent.Object) :
    Outcome (child.Object × parent.Object) :=
  match attach moment context table child parent object parentOid edit with
  | .error problem => unchanged context table (.error problem)
  | .ok ((created, owner), committed) =>
      ⟨.ok (created, owner),
        (context.record (.ofObject .created child created)).record
          (.ofObject .updated parent owner),
        committed⟩

/-- Write an object that was read before. The object is given back as the caller holds it
afterwards, with its version raised exactly if the write went through. -/
def update (kind : Kind) (object : kind.Object) : Outcome Unit × kind.Object :=
  match moment.enter context with
  | .error problem => (unchanged context table (.error problem), object)
  | .ok () =>
      let written := writeExisting moment kind object table
      match written.result with
      | .error problem => (⟨.error problem, context, written.table⟩, written.object)
      | .ok () =>
          (⟨.ok (), context.record (.ofObject .updated kind written.object), written.table⟩,
            written.object)

/-- Load an object, edit it and write it back, all in one step. The edit says whether it
changed anything; if not, nothing is written and nothing is recorded. -/
def modifyWith (kind : Kind) (load : Table → Except StoreError kind.Object)
    (edit : kind.Object → kind.Object × Bool) : Outcome kind.Object :=
  match moment.enter context *> load table with
  | .error problem => unchanged context table (.error problem)
  | .ok object =>
      match edit object with
      | (edited, false) => unchanged context table (.ok edited)
      | (edited, true) =>
          let written := writeExisting moment kind edited table
          match written.result with
          | .error problem => ⟨.error problem, context, written.table⟩
          | .ok () =>
              ⟨.ok written.object, context.record (.ofObject .updated kind written.object),
                written.table⟩

/-- Edit the object under an identifier. -/
def modify (kind : Kind) (oid : String) (edit : kind.Object → kind.Object × Bool) :
    Outcome kind.Object :=
  modifyWith moment context table kind (demandObject moment kind oid) edit

/-- Edit the object of a singleton kind. -/
def modifySingleton (kind : Kind) (edit : kind.Object → kind.Object × Bool) :
    Outcome kind.Object :=
  match kind.ensureSingleton with
  | .error problem => unchanged context table (.error problem)
  | .ok () => modifyWith moment context table kind (demandSingleton moment kind) edit

end Store

end Workbench
