/-
# Requests for the client and its windows

The client lists its windows, the one in front first, and lists none twice. A new window
comes with a workspace and a tab of its own; they are stored first, so that whatever
is listed is there. On the first launch the client is created with one window; when
several launches race, or an earlier one stopped half-way, there is still one client.

Looking up single objects needs no context: each look-up has one of its own.
-/

import Workbench.Config
import Workbench.Request.Basic

namespace Workbench.Request

/-! ### Look-ups -/

/-- The client. -/
def getClient (config : Config) : Request Client := do
  openContext config.accessorTimeout
  call "getting client data" (.getSingleton .client)

/-- A workspace, if it exists. -/
def getWorkspace (config : Config) (oid : String) : Request (Option Workspace) := do
  openContext config.accessorTimeout
  call "getting workspace" (.get .workspace oid)

/-- A tab, if it exists. -/
def getTab (config : Config) (oid : String) : Request (Option Tab) := do
  openContext config.accessorTimeout
  call "getting tab" (.get .tab oid)

/-- A window, if it exists. -/
def getWindow (config : Config) (oid : String) : Request (Option Window) := do
  openContext config.accessorTimeout
  call "getting window" (.get .window oid)

/-! ### Windows -/

/-- The name of a workspace that comes with a window. -/
def workspaceName : String := "Starter workspace"

/-- The name of a tab that comes with a window. -/
def tabName : String := "T1"

/-- Create a window with a workspace and a tab, and list it. -/
def makeWindow : Request Window := do
  let tab ← call "creating tab" (.create .tab (Tab.new (← freshOid) tabName))
  let workspace ← call "creating workspace" <|
    .create .workspace (Workspace.addTab (.new (← freshOid) workspaceName) (Tab.oid tab))
  let window ← call "creating window" <|
    .create .window (Window.new (← freshOid) (Workspace.oid workspace) (Tab.oid tab))
  let _client ← call "adding window to client" <|
    .modifySingleton .client fun client => Client.addWindow client (Window.oid window)
  return window

/-- Bring a window to the front. A window that is not listed is left alone. -/
def focusWindow (windowId : String) : Request Unit := do
  let _client ← call "updating client data" <|
    .modifySingleton .client fun client => Client.focusWindow client windowId
  return ()

/-! ### First launch -/

/-- The client, created if there is none. Whoever finds that another was faster takes the
client of the other. -/
def findOrCreateClient : Request Client := do
  match ← attempt (.getSingleton .client) with
  | .ok client => return client
  | .error (.singletonMissing _) =>
      match ← attempt (.create .client (Client.new (← freshOid))) with
      | .ok client => return client
      | .error (.alreadyExists _ _) => call "getting client data" (.getSingleton .client)
      | .error cause => throw (.store "creating client" cause)
  | .error cause => throw (.store "getting client data" cause)

/-- The client, with at least one window. What is missing is created. -/
def ensureInitialData : Request Client := do
  let client ← findOrCreateClient
  if client.windowIds.isEmpty then
    let _window ← makeWindow
    call "getting client data" (.getSingleton .client)
  else return client

end Workbench.Request
