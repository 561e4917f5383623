/-
# Events for windows

A window is told what to do by events. At present there is one kind of event: a block
was created, and the window is to insert it into its layout at an index path. An event
names the window that it is meant for.
-/

import Workbench.Json.Record

namespace Workbench

/-- Where a block stands in the tree of a layout: the index at each level, outermost
first. -/
abbrev IndexPath := List UInt64

/-- Index paths are lists of machine words. -/
def IndexPath.codec : Json.Codec IndexPath := .list (.word "usize")

/-- The text of an index path in messages and reports. -/
def IndexPath.text (path : IndexPath) : String :=
  "[" ++ ", ".intercalate (path.map fun index => toString index.toNat) ++ "]"

/-- What is done to a layout. -/
inductive LayoutActionType where
  | insertAtIndex
  deriving DecidableEq, Repr

/-- Action types are written as their names. -/
def LayoutActionType.codec : Json.Codec LayoutActionType :=
  .names [.insertAtIndex] fun | .insertAtIndex => "insertatindex"

/-- The instruction to insert a block of a tab into the layout of a window. -/
structure LayoutAction where
  actionType : LayoutActionType
  tabId : String
  blockId : String
  indexPath : IndexPath
  sizeHint : Option UInt32
  deriving DecidableEq

namespace LayoutAction

/-- The fields of a layout action. -/
def fields : Json.Fields
    (LayoutActionType × String × String × IndexPath × Option UInt32 × Unit) :=
  .cons (.required "actionType" LayoutActionType.codec) <|
  .cons (.required "tabId" .string) <|
  .cons (.required "blockId" .string) <|
  .cons (.required "indexPath" IndexPath.codec) <|
  .cons (.optional "sizeHint" .uint32) .nil

/-- Layout actions are records. -/
def codec : Json.Codec LayoutAction :=
  fields.codec "LayoutActionData"
    (fun action =>
      (action.actionType, action.tabId, action.blockId, action.indexPath, action.sizeHint, ()))
    (fun (actionType, tabId, blockId, indexPath, sizeHint, ()) =>
      ⟨actionType, tabId, blockId, indexPath, sizeHint⟩)

end LayoutAction

/-- An event together with the window that it is meant for. -/
structure WindowEvent where
  eventType : String
  windowId : String
  action : LayoutAction
  deriving DecidableEq

namespace WindowEvent

/-- The name of the event that carries a layout action. -/
def layoutActionName : String := "layout-action"

/-- The event that carries a layout action to a window. -/
def ofLayoutAction (windowId : String) (action : LayoutAction) : WindowEvent :=
  ⟨layoutActionName, windowId, action⟩

/-- The fields of an event. What an event carries is not tagged: its form tells what it
is. -/
def fields : Json.Fields (String × String × LayoutAction × Unit) :=
  .cons (.required "eventType" .string) <|
  .cons (.required "windowId" .string) <|
  .cons (.required "data" (.untagged "EventData" LayoutAction.codec)) .nil

/-- Events are records. -/
def codec : Json.Codec WindowEvent :=
  fields.codec "WindowEvent" (fun event => (event.eventType, event.windowId, event.action, ()))
    (fun (eventType, windowId, action, ()) => ⟨eventType, windowId, action⟩)

end WindowEvent

end Workbench
