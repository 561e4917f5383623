/-
# Layouts

A layout is a list of steps, each of which inserts one block into the tree of a window.
A step at a nested index path needs its parent, so the parent's step must come earlier.
The check below looks only at the immediate parent; because it is made at every step,
all ancestors are there.
-/

import Workbench.Event
import Workbench.Object.Block

namespace Workbench

/-- One insertion of a layout. -/
structure LayoutStep where
  indexPath : IndexPath
  size : Option UInt32
  definition : BlockDefinition

/-- A layout: its insertions in order. -/
abbrev Layout := List LayoutStep

/-- The reasons for which a layout is refused. Steps are counted from zero. -/
inductive LayoutError where
  /-- A step has no place in the tree. -/
  | emptyIndexPath (step : Nat)
  /-- A step comes before the step of its parent. -/
  | parentNotInserted (step : Nat) (path : IndexPath)
  deriving DecidableEq

/-- The text of a layout error. -/
def LayoutError.message : LayoutError → String
  | .emptyIndexPath step => s!"step {step} has an empty index path"
  | .parentNotInserted step path =>
      s!"step {step} inserts at " ++ path.text ++ " before its parent path exists"

namespace Layout

/-- Check the steps from a position on, given the paths that were inserted before. -/
def checkFrom (step : Nat) (inserted : List IndexPath) : Layout → Except LayoutError Unit
  | [] => .ok ()
  | first :: rest =>
      let path := first.indexPath
      if path.isEmpty then .error (.emptyIndexPath step)
      else if path.dropLast.isEmpty || inserted.contains path.dropLast then
        checkFrom (step + 1) (path :: inserted) rest
      else .error (.parentNotInserted step path)

/-- Check that each step has a place in the tree that the steps before it built. -/
def validate (layout : Layout) : Except LayoutError Unit := checkFrom 0 [] layout

/-- A step without a size. -/
def starterStep (path : IndexPath) (entries : List (String × String)) : LayoutStep :=
  ⟨path, none, entries.foldl (fun definition (key, text) => definition.withText key text) .empty⟩

/-- The layout that a new user is given: two terminals, a load plot, two web pages, the
home directory and an assistant. -/
def starter : Layout :=
  [starterStep [0] [(Meta.viewKey, "term"), (Meta.controllerKey, "shell")],
    starterStep [1] [(Meta.viewKey, "cpuplot")],
    starterStep [1, 1]
      [(Meta.viewKey, "web"), (Meta.urlKey, "https://github.com/wavetermdev/waveterm")],
    starterStep [1, 2] [(Meta.viewKey, "preview"), (Meta.fileKey, "~")],
    starterStep [2] [(Meta.viewKey, "term"), (Meta.controllerKey, "shell")],
    starterStep [2, 1] [(Meta.viewKey, "waveai")],
    starterStep [2, 2]
      [(Meta.viewKey, "web"), (Meta.urlKey, "https://www.youtube.com/embed/cKqsw_sAsU8")]]

end Layout

end Workbench
