/-
# First launch

The command line plays the first launch of a new user: the client is created with its
window, the window registers for events, the terms are accepted, and the events that
reach the window are listed. Everything happens in a new database that is not kept.
-/

import Workbench.Request.Bootstrap
import Workbench.Schema.Objects

namespace Workbench

/-- What a first launch shows. -/
structure FirstLaunch where
  /-- The window of the new user. -/
  windowId : String
  /-- What the acceptance of the terms wrote. -/
  updates : UpdateBatch
  /-- What the window was told. -/
  events : List WindowEvent

namespace FirstLaunch

/-- Play a first launch. -/
def play (config : Config) (ticks : Nat → Tick) : Except String FirstLaunch := do
  let database ← match ObjectDatabase.prepare .fresh with
    | (.ok (), ready) => Except.ok ready
    | (.error problem, _) => Except.error problem.message
  let context (time : Nat) : Context :=
    .withTimeout (ticks time).moment.now config.accessorTimeout
  let launched := Request.ensureInitialData.run.run ticks 0 (context 0) ⟨database.table, .empty⟩
  let client ← launched.answer.mapError RequestError.message
  let windowId ← match client.windowIds with
    | windowId :: _ => Except.ok windowId
    | [] => Except.error "client has no windows after init"
  let (channel, bus) := launched.world.bus.register windowId
  let agreed := (Request.agreeToTerms config).run.run ticks launched.time
    (context launched.time) { launched.world with bus }
  let updates ← agreed.answer.mapError RequestError.message
  return ⟨windowId, updates, (agreed.world.bus.take channel).1⟩

/-- The line for an event. -/
def eventLine (event : WindowEvent) : String :=
  "layout_action block_id=" ++ event.action.blockId ++ " index_path=" ++
    event.action.indexPath.text

/-- The lines that a first launch prints. -/
def lines (launch : FirstLaunch) : List String :=
  ("first_launch window_id=" ++ launch.windowId ++ s!" updates={launch.updates.length}") ::
    launch.events.map eventLine

end FirstLaunch

end Workbench
