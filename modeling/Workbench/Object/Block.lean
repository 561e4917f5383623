/-
# Blocks

A block is one unit of content in a tab. What it shows is said by its metadata alone.
A definition is the metadata that a block is made from; a request adds how the new
block is to be presented.
-/

import Workbench.Meta

namespace Workbench

/-- What a block is made from. -/
structure BlockDefinition where
  metadata : Meta

/-- A request for a block: its definition, and whether it opens magnified. -/
structure BlockRequest where
  definition : BlockDefinition
  magnified : Bool

/-- A block. -/
structure Block where
  oid : String
  version : Int64
  metadata : Meta

namespace BlockDefinition

/-- The definition that says nothing. -/
def empty : BlockDefinition := ⟨.empty⟩

/-- The definition with one more entry; an entry under the same key is replaced. -/
def withEntry (definition : BlockDefinition) (key : String) (value : CanonicalJson) :
    BlockDefinition :=
  ⟨definition.metadata.insert key value⟩

/-- The definition with one more text entry. -/
def withText (definition : BlockDefinition) (key text : String) : BlockDefinition :=
  definition.withEntry key (.ofString text)

/-- The kind of view, if the definition names one. -/
def view? (definition : BlockDefinition) : Option String :=
  definition.metadata.text? Meta.viewKey

/-- The only field of a definition. -/
def fields : Json.Fields (Meta × Unit) :=
  .cons (.withDefault "meta" Meta.codec .empty) .nil

/-- Definitions are records. -/
def codec : Json.Codec BlockDefinition :=
  fields.codec "BlockDef" (fun definition => (definition.metadata, ()))
    (fun (metadata, ()) => ⟨metadata⟩)

end BlockDefinition

namespace BlockRequest

/-- The fields of a request. -/
def fields : Json.Fields (BlockDefinition × Bool × Unit) :=
  .cons (.required "blockDef" BlockDefinition.codec) <|
  .cons (.withDefault "magnified" .bool false) .nil

/-- Requests are records. -/
def codec : Json.Codec BlockRequest :=
  fields.codec "CreateBlockData" (fun request => (request.definition, request.magnified, ()))
    (fun (definition, magnified, ()) => ⟨definition, magnified⟩)

end BlockRequest

namespace Block

/-- The block made from a definition, not stored yet. -/
def ofDefinition (oid : String) (definition : BlockDefinition) : Block :=
  ⟨oid, 0, definition.metadata⟩

/-- The fields of a block. -/
def fields : Json.Fields (String × Int64 × Meta × Unit) :=
  .cons (.required "oid" .string) <|
  .cons (.withDefault "version" .int64 0) <|
  .cons (.withDefault "meta" Meta.codec .empty) .nil

/-- Blocks are records. -/
def codec : Json.Codec Block :=
  fields.codec "Block" (fun block => (block.oid, block.version, block.metadata, ()))
    (fun (oid, version, metadata, ()) => ⟨oid, version, metadata⟩)

end Block

end Workbench
