/-
# Workspaces

A workspace is a named group of tabs.
-/

import Workbench.Meta

namespace Workbench

/-- A workspace with its tabs in order. -/
structure Workspace where
  oid : String
  version : Int64
  name : String
  tabIds : List String
  metadata : Meta

namespace Workspace

/-- A workspace without tabs that has not been stored yet. -/
def new (oid name : String) : Workspace := ⟨oid, 0, name, [], .empty⟩

/-- The workspace with one more tab at the end. -/
def addTab (workspace : Workspace) (tabId : String) : Workspace :=
  { workspace with tabIds := workspace.tabIds ++ [tabId] }

/-- The fields of a workspace. -/
def fields : Json.Fields (String × Int64 × String × List String × Meta × Unit) :=
  .cons (.required "oid" .string) <|
  .cons (.withDefault "version" .int64 0) <|
  .cons (.required "name" .string) <|
  .cons (.withDefault "tabIds" (.list .string) []) <|
  .cons (.withDefault "meta" Meta.codec .empty) .nil

/-- Workspaces are records. -/
def codec : Json.Codec Workspace :=
  fields.codec "Workspace"
    (fun workspace =>
      (workspace.oid, workspace.version, workspace.name, workspace.tabIds,
        workspace.metadata, ()))
    (fun (oid, version, name, tabIds, metadata, ()) =>
      ⟨oid, version, name, tabIds, metadata⟩)

end Workspace

end Workbench
