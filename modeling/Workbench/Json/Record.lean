/-
# Records

A record is a list of fields. It is written as an object with its members in the
order of the fields, and read from an object or from an array.

In an object the members are met in the order of the text. Each member with a known
name must be new and its value must be readable; any other member must only be
complete. When the object ends, each field takes the value of its member, or its
fallback where it has one and no member was given. So what is read depends on the
known members alone, and not on their order.

In an array the fields follow one another. The array may end early before fields that
have a fallback, and must end after the last field.
-/

import Workbench.Json.Codec

namespace Workbench.Json

/-- One field of a record. -/
structure Field (α : Type) where
  name : String
  codec : Codec α
  /-- The value when no member is given; a field without one is required. -/
  fallback : Option α
  /-- Whether a value is left out when the record is written. -/
  omitted : α → Bool

namespace Field

/-- A field that must be given. -/
def required {α : Type} (name : String) (codec : Codec α) : Field α :=
  ⟨name, codec, none, fun _ => false⟩

/-- A field that takes a fixed value when it is not given. It is always written. -/
def withDefault {α : Type} (name : String) (codec : Codec α) (fallback : α) : Field α :=
  ⟨name, codec, some fallback, fun _ => false⟩

/-- A field that may be absent, and is then not written. -/
def optional {α : Type} (name : String) (codec : Codec α) : Field (Option α) :=
  ⟨name, codec.option, some none, Option.isNone⟩

end Field

/-- The fields of a record whose values, in order, make up a nested pair. -/
inductive Fields : Type → Type 1 where
  | nil : Fields Unit
  | cons {α β : Type} (field : Field α) (rest : Fields β) : Fields (α × β)

namespace Fields

/-- The number of fields. -/
def size {ρ : Type} : Fields ρ → Nat
  | .nil => 0
  | .cons _ rest => rest.size + 1

/-- The members that are written for given values. -/
def members {ρ : Type} : Fields ρ → ρ → List (String × Json)
  | .nil, _ => []
  | .cons field rest, (value, values) =>
      if field.omitted value then rest.members values
      else (field.name, field.codec.write value) :: rest.members values

/-- Whether the value of a member can be read, if a field has its name. -/
def check? {ρ : Type} (room : Nat) (name : String) (node : Node) :
    Fields ρ → Option (Except DecodeError Unit)
  | .nil => none
  | .cons field rest =>
      if field.name = name then some ((field.codec.read room node).map fun _ => ())
      else rest.check? room name node

/-- Walk over members in text order. `seen` holds the known names met so far. -/
def checkMembers {ρ : Type} (fields : Fields ρ) (room : Nat) (seen : List String) :
    List (Option String × Node) → Except DecodeError Unit
  | [] => .ok ()
  | (key, node) :: rest =>
      match key with
      | some name =>
          match fields.check? room name node with
          | some result =>
              if name ∈ seen then .error (.duplicateField name)
              else
                match result with
                | .error problem => .error problem
                | .ok () => fields.checkMembers room (name :: seen) rest
          | none =>
              if node.complete then fields.checkMembers room seen rest else .error .malformed
      | none => .error .malformed

/-- The member with the given name. -/
def memberNamed? (name : String) (members : List (Option String × Node)) : Option Node :=
  members.lookup (some name)

/-- Take the value of each field from its member, or its fallback. -/
def pick {ρ : Type} (room : Nat) (members : List (Option String × Node)) :
    Fields ρ → Except DecodeError ρ
  | .nil => .ok ()
  | .cons field rest =>
      match memberNamed? field.name members with
      | some node =>
          match field.codec.read room node with
          | .error problem => .error problem
          | .ok value => (rest.pick room members).map fun values => (value, values)
      | none =>
          match field.fallback with
          | some value => (rest.pick room members).map fun values => (value, values)
          | none => .error (.missingField field.name)

/-- Read a record from the members of an object. -/
def readObject {ρ : Type} (fields : Fields ρ) (room : Nat) (members : List (Option String × Node))
    (closed : Bool) : Except DecodeError ρ :=
  match fields.checkMembers room [] members with
  | .error problem => .error problem
  | .ok () => if closed then fields.pick room members else .error .malformed

/-- Read fields from the items of an array. `short count` is the error for an array that
ends before a required field when `count` fields were passed. The items that are left
over are handed back. -/
def readItems {ρ : Type} (room : Nat) (short : Nat → DecodeError) (closed : Bool) :
    (count : Nat) → List Node → Fields ρ → Except DecodeError (ρ × List Node)
  | _, items, .nil => .ok ((), items)
  | count, item :: items, .cons field rest =>
      match field.codec.read room item with
      | .error problem => .error problem
      | .ok value =>
          (rest.readItems room short closed (count + 1) items).map fun (values, left) =>
            ((value, values), left)
  | count, [], .cons field rest =>
      if closed then
        match field.fallback with
        | some value =>
            (rest.readItems room short closed (count + 1) []).map fun (values, left) =>
              ((value, values), left)
        | none => .error (short count)
      else .error .malformed

/-- Read a record from the items of an array. -/
def readArray {ρ : Type} (fields : Fields ρ) (record : String) (room : Nat) (items : List Node)
    (closed : Bool) : Except DecodeError ρ :=
  match fields.readItems room (.wrongLength · record fields.size) closed 0 items with
  | .error problem => .error problem
  | .ok (values, left) => if left.isEmpty && closed then .ok values else .error .malformed

/-- Read a record from an object or from an array. -/
def read {ρ : Type} (fields : Fields ρ) (record : String) (room : Nat) (node : Node) :
    Except DecodeError ρ :=
  match node with
  | .object members closed =>
      match room with
      | 0 => .error .malformed
      | inner + 1 => fields.readObject inner members closed
  | .array items closed =>
      match room with
      | 0 => .error .malformed
      | inner + 1 => fields.readArray record inner items closed
  | other => .error (other.mismatch ("struct " ++ record))

/-- The codec of a record type, given how its values correspond to the field values. -/
def codec {α ρ : Type} (fields : Fields ρ) (record : String) (toValues : α → ρ)
    (ofValues : ρ → α) : Codec α where
  write value := .obj (fields.members (toValues value))
  read room node := (fields.read record room node).map ofValues

end Fields

end Workbench.Json
