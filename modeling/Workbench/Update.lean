/-
# Update records

Every successful write is described by an update record: what was done, to which
object, and the object as it is afterwards. The records of one request, in the order
of the writes, are its batch. Whoever holds the rows from before the request and its
batch can compute the rows after it.
-/

import Workbench.Object.Family

namespace Workbench

/-- What was done to an object. -/
inductive UpdateType where
  | created
  | updated
  | deleted
  deriving DecidableEq, Repr

namespace UpdateType

/-- The name of an update type. -/
def name : UpdateType → String
  | .created => "created"
  | .updated => "updated"
  | .deleted => "deleted"

/-- All update types, in the order in which messages list them. -/
def all : List UpdateType := [.created, .updated, .deleted]

/-- Update types are written as their names. -/
def codec : Json.Codec UpdateType := .names all name

end UpdateType

/-- The description of one write. The object is absent for deletions. -/
structure UpdateRecord where
  updateType : UpdateType
  kind : Kind
  oid : String
  object : Option CanonicalJson

/-- The records of one request in the order of its writes. -/
abbrev UpdateBatch := List UpdateRecord

namespace UpdateRecord

/-- The record of a write that left `object` in the store. -/
def ofObject (updateType : UpdateType) (kind : Kind) (object : kind.Object) : UpdateRecord where
  updateType
  kind
  oid := kind.oid object
  object := some ⟨(kind.objectCodec.write object).sorted, Json.canonical_sorted _⟩

/-- The object of the record as an object of a kind. Nothing is given for another kind, for
a record without an object, and for a value that is no object of the kind. -/
def objectAs? (record : UpdateRecord) (kind : Kind) : Option kind.Object :=
  if record.kind = kind then
    record.object.bind fun value => (kind.objectCodec.decodeJson value.json).toOption
  else none

/-- The fields of a record. -/
def fields : Json.Fields (UpdateType × Kind × String × Option CanonicalJson × Unit) :=
  .cons (.required "updateType" UpdateType.codec) <|
  .cons (.required "otype" Kind.codec) <|
  .cons (.required "oid" .string) <|
  .cons (.optional "obj" CanonicalJson.codec) .nil

/-- Update records are records of the wire format as well. -/
def codec : Json.Codec UpdateRecord :=
  fields.codec "UpdateRecord"
    (fun record => (record.updateType, record.kind, record.oid, record.object, ()))
    (fun (updateType, kind, oid, object, ()) => ⟨updateType, kind, oid, object⟩)

end UpdateRecord

end Workbench
