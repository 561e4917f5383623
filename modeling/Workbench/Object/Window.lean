/-
# Windows

A window shows one tab of one workspace.
-/

import Workbench.Meta

namespace Workbench

/-- A window. The active tab is one of the tabs of the workspace. -/
structure Window where
  oid : String
  version : Int64
  workspaceId : String
  activeTabId : String
  metadata : Meta

namespace Window

/-- A window that has not been stored yet. -/
def new (oid workspaceId activeTabId : String) : Window :=
  ⟨oid, 0, workspaceId, activeTabId, .empty⟩

/-- The fields of a window. -/
def fields : Json.Fields (String × Int64 × String × String × Meta × Unit) :=
  .cons (.required "oid" .string) <|
  .cons (.withDefault "version" .int64 0) <|
  .cons (.required "workspaceId" .string) <|
  .cons (.required "activeTabId" .string) <|
  .cons (.withDefault "meta" Meta.codec .empty) .nil

/-- Windows are records. -/
def codec : Json.Codec Window :=
  fields.codec "Window"
    (fun window =>
      (window.oid, window.version, window.workspaceId, window.activeTabId, window.metadata, ()))
    (fun (oid, version, workspaceId, activeTabId, metadata, ()) =>
      ⟨oid, version, workspaceId, activeTabId, metadata⟩)

end Window

end Workbench
