/-
# Tabs

A tab owns blocks and lists them in the order in which they were created.
-/

import Workbench.Meta

namespace Workbench

/-- A tab with the blocks that it owns. -/
structure Tab where
  oid : String
  version : Int64
  name : String
  blockIds : List String
  metadata : Meta

namespace Tab

/-- A tab without blocks that has not been stored yet. -/
def new (oid name : String) : Tab := ⟨oid, 0, name, [], .empty⟩

/-- The tab with one more block at the end. -/
def addBlock (tab : Tab) (blockId : String) : Tab :=
  { tab with blockIds := tab.blockIds ++ [blockId] }

/-- The fields of a tab. -/
def fields : Json.Fields (String × Int64 × String × List String × Meta × Unit) :=
  .cons (.required "oid" .string) <|
  .cons (.withDefault "version" .int64 0) <|
  .cons (.required "name" .string) <|
  .cons (.withDefault "blockIds" (.list .string) []) <|
  .cons (.withDefault "meta" Meta.codec .empty) .nil

/-- Tabs are records. -/
def codec : Json.Codec Tab :=
  fields.codec "Tab"
    (fun tab => (tab.oid, tab.version, tab.name, tab.blockIds, tab.metadata, ()))
    (fun (oid, version, name, blockIds, metadata, ()) =>
      ⟨oid, version, name, blockIds, metadata⟩)

end Tab

end Workbench
