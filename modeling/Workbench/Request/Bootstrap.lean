/-
# Requests for layouts, and acceptance of the terms

A layout is bootstrapped into the window in front: its blocks are created in the
window's active tab, one by one, and after each creation the window is told to insert
the block. At the first failure the work stops; what was created stays, and the window
knows exactly the blocks that were created.

When the terms of service are accepted, the time is noted in the client and the starter
layout is bootstrapped. That the terms are accepted does not depend on the layout.
-/

import Workbench.Request.Blocks
import Workbench.Request.Windows

namespace Workbench.Request

/-- The event that tells a window to insert the block of a step. -/
def insertion (windowId tabId blockId : String) (step : LayoutStep) : WindowEvent :=
  .ofLayoutAction windowId ⟨.insertAtIndex, tabId, blockId, step.indexPath, step.size⟩

/-- Create the blocks of a layout in a tab, and tell the window after each. -/
def insertSteps (windowId tabId : String) : Layout → Request Unit
  | [] => return ()
  | step :: rest => do
      let block ← createBlock tabId step.definition
      send windowId (insertion windowId tabId block.oid step)
      insertSteps windowId tabId rest

/-- Insert a layout into the window in front. -/
def applyLayout (layout : Layout) : Request Unit := do
  let client ← call "finding client" (.getSingleton .client)
  match Client.windowIds client with
  | [] => throw (.invariantViolation "error bootstrapping layout, no windows exist")
  | windowId :: _ =>
      let window ← call "getting window" (.mustGet .window windowId)
      insertSteps windowId (Window.activeTabId window) layout

/-- Bootstrap a layout in the time that the configuration allows. A layout that is not in
order is refused before anything is done. -/
def bootstrapLayout (config : Config) (layout : Layout) : Request Unit := do
  match layout.validate with
  | .error cause => throw (.invalidLayout cause)
  | .ok () => limited config.bootstrapTimeout (applyLayout layout)

/-- Bootstrap the layout for new users. -/
def bootstrapStarterLayout (config : Config) : Request Unit := bootstrapLayout config .starter

/-- Accept the terms of service, and give back all that was written. A failure of the
layout is not reported; it shows in what was not written. -/
def agreeToTerms (config : Config) : Request UpdateBatch := do
  openJournal
  let time ← timeOfDay
  let _client ← call "updating client data" <|
    .modifySingleton .client fun client => ({ (client : Client) with tosAgreed := time }, true)
  let _layout ← settle (bootstrapStarterLayout config)
  batch

end Workbench.Request
