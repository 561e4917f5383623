/-
# The stages of a first launch

A first launch looks for the client, creates it if there is none, and makes a window if the
client has none. Other launches may go on between any two of its effects, so what a launch will
do next depends only on how far it has come and on what it remembers: the identifier that it drew
for the object it is about to create, and the objects that it created last.

A launch is the automaton of these stages: at each stage there is one effect, and the answer
says which stage comes next.
-/

import Workbench.Proofs.Request.FirstLaunch

namespace Workbench

/-- How far a launch has come. -/
inductive LaunchStage where
  /-- Nothing was done yet. -/
  | look
  | drawClient
  | createClient (oid : String)
  /-- Another launch created the client. -/
  | lookAgain
  | drawTab
  | createTab (oid : String)
  | drawWorkspace (tab : Tab)
  | createWorkspace (tab : Tab) (oid : String)
  | drawWindow (tab : Tab) (workspace : Workspace)
  | createWindow (tab : Tab) (workspace : Workspace) (oid : String)
  | list (window : Window)
  /-- The window is listed. -/
  | lookBack
  /-- The launch has answered; it may have made a window or not. -/
  | ended (made : Bool) (client : Client)
  | failed (problem : RequestError)

namespace LaunchStage

/-! ## What is left to do -/

/-- The last look at the client, after the window was listed. -/
def lookBackAt (_window : Window) : Request Client :=
  Request.call "getting client data" (.getSingleton .client)

/-- What a launch does with the client that it found or created. -/
def withWindow (client : Client) : Request Client :=
  if client.windowIds.isEmpty then Request.makeWindow >>= lookBackAt else pure client

open Request in
/-- What is left to do at a stage. -/
def request : LaunchStage → Request Client
  | look => ensureInitialData
  | drawClient => createFirstClient >>= withWindow
  | createClient oid =>
      attempt (.create .client (Client.new oid)) >>= takeFirstClient >>= withWindow
  | lookAgain => call "getting client data" (.getSingleton .client) >>= withWindow
  | drawTab => makeWindow >>= lookBackAt
  | createTab oid =>
      call "creating tab" (.create .tab (Tab.new oid tabName)) >>= makeWindowWith >>= lookBackAt
  | drawWorkspace tab => makeWindowWith tab >>= lookBackAt
  | createWorkspace tab oid =>
      call "creating workspace" (.create .workspace
        (Workspace.addTab (.new oid workspaceName) tab.oid)) >>= makeWindowIn tab >>= lookBackAt
  | drawWindow tab workspace => makeWindowIn tab workspace >>= lookBackAt
  | createWindow tab workspace oid =>
      call "creating window" (.create .window (Window.new oid workspace.oid tab.oid)) >>=
        listWindow >>= lookBackAt
  | list window => listWindow window >>= lookBackAt
  | lookBack => call "getting client data" (.getSingleton .client)
  | ended _ client => pure client
  | failed problem => throw problem

/-! ## The automaton -/

/-- The stage after a store call that must succeed. -/
def onSuccess {α : Type} (operation : String) (next : α → LaunchStage) :
    Except StoreError α → LaunchStage
  | .ok value => next value
  | .error cause => failed (.store operation cause)

/-- The stage after a look at the client. -/
def found (client : Client) : LaunchStage :=
  if client.windowIds.isEmpty then drawTab else ended false client

/-- The effect of a stage, and the stage after it. -/
def step? : LaunchStage → Option ((effect : Effect) × (effect.Answer → LaunchStage))
  | look => some ⟨.storeCall (.getSingleton .client), fun (answer : Except StoreError Client) =>
      match answer with
      | .ok client => found client
      | .error (.singletonMissing _) => drawClient
      | .error cause => failed (.store "getting client data" cause)⟩
  | drawClient => some ⟨.freshOid, createClient⟩
  | createClient oid =>
      some ⟨.storeCall (.create .client (Client.new oid)), fun (answer : Except StoreError Client) =>
        match answer with
        | .ok client => found client
        | .error (.alreadyExists _ _) => lookAgain
        | .error cause => failed (.store "creating client" cause)⟩
  | lookAgain =>
      some ⟨.storeCall (.getSingleton .client), onSuccess (α := Client) "getting client data" found⟩
  | drawTab => some ⟨.freshOid, createTab⟩
  | createTab oid =>
      some ⟨.storeCall (.create .tab (Tab.new oid Request.tabName)),
        onSuccess (α := Tab) "creating tab" drawWorkspace⟩
  | drawWorkspace tab => some ⟨.freshOid, createWorkspace tab⟩
  | createWorkspace tab oid =>
      some ⟨.storeCall (.create .workspace
        (Workspace.addTab (.new oid Request.workspaceName) tab.oid)),
        onSuccess (α := Workspace) "creating workspace" (drawWindow tab)⟩
  | drawWindow tab workspace => some ⟨.freshOid, createWindow tab workspace⟩
  | createWindow tab workspace oid =>
      some ⟨.storeCall (.create .window (Window.new oid workspace.oid tab.oid)),
        onSuccess (α := Window) "creating window" list⟩
  | list window =>
      some ⟨.storeCall (.modifySingleton .client fun client => Client.addWindow client window.oid),
        onSuccess (α := Client) "adding window to client" fun _ => lookBack⟩
  | lookBack =>
      some ⟨.storeCall (.getSingleton .client),
        onSuccess (α := Client) "getting client data" (ended true)⟩
  | ended _ _ => none
  | failed _ => none

theorem run_found (client : Client) :
    (found client).request.run = (withWindow client).run := by
  rw [found, withWindow]
  split <;> rfl

open Request in
/-- The first effect of what is left at a stage is the effect of the stage, and then there is left
what is left at the next stage. -/
theorem run_request {stage : LaunchStage} {effect : Effect} {next : effect.Answer → LaunchStage}
    (goes : stage.step? = some ⟨effect, next⟩) :
    stage.request.run = .step effect fun answer => (next answer).request.run := by
  cases stage with
  | look =>
      cases goes
      have looks : ensureInitialData = findOrCreateClient >>= withWindow := rfl
      rw [request, looks, findOrCreateClient_eq]
      refine congrArg (Program.step _) (funext fun answer => ?_)
      cases answer with
      | ok client => exact (run_found client).symm
      | error cause => cases cause <;> rfl
  | drawClient =>
      cases goes
      rfl
  | createClient oid =>
      cases goes
      refine congrArg (Program.step _) (funext fun answer => ?_)
      cases answer with
      | ok client => exact (run_found client).symm
      | error cause => cases cause <;> rfl
  | lookAgain =>
      cases goes
      refine congrArg (Program.step _) (funext fun answer => ?_)
      cases answer with
      | ok client => exact (run_found client).symm
      | error cause => rfl
  | drawTab | drawWorkspace | drawWindow =>
      cases goes
      rfl
  | createTab | createWorkspace | createWindow | list | lookBack =>
      cases goes
      refine congrArg (Program.step _) (funext fun answer => ?_)
      cases answer <;> rfl
  | ended | failed => cases goes

end LaunchStage

end Workbench
