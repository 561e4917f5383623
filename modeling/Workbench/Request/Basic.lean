/-
# Requests

A request is a program that may fail. When a store call fails, the request fails with
it and says what it was doing. What a request did before it failed stays done.
-/

import Workbench.Request.Error
import Workbench.Request.Program

namespace Workbench

/-- A program that ends with a value or an error. -/
abbrev Request (α : Type) := ExceptT RequestError Program α

namespace Request

/-- Make a store call, and go on whether or not it fails. -/
def attempt (call : StoreCall) : Request (Except StoreError call.Value) :=
  ExceptT.lift (Program.perform (.storeCall call))

/-- Make a store call in the course of an operation. If it fails, so does the request. -/
def call (operation : String) (call : StoreCall) : Request call.Value := do
  match ← attempt call with
  | .ok value => return value
  | .error cause => throw (.store operation cause)

/-- Draw an identifier. -/
def freshOid : Request String := ExceptT.lift (Program.perform .freshOid)

/-- Read the time of day. -/
def timeOfDay : Request Int64 := ExceptT.lift (Program.perform .timeOfDay)

/-- Go on under a context of its own. -/
def openContext (timeout : UInt64) : Request Unit :=
  ExceptT.lift (Program.perform (.openContext timeout))

/-- Keep a journal from here on. -/
def openJournal : Request Unit := ExceptT.lift (Program.perform .openJournal)

/-- The journal so far. -/
def batch : Request UpdateBatch := ExceptT.lift (Program.perform .batch)

/-- Send an event to a window. Nobody minds if it does not arrive. -/
def send (windowId : String) (event : WindowEvent) : Request Unit := do
  let _queued ← (ExceptT.lift (Program.perform (.send windowId event)) : Request Bool)
  return ()

/-- Run a request with less time. -/
def limited {α : Type} (timeout : UInt64) (body : Request α) : Request α :=
  ExceptT.mk (Program.limited timeout body.run)

/-- Run a request and go on whether or not it fails. -/
def settle {α : Type} (body : Request α) : Request (Except RequestError α) :=
  ExceptT.lift body.run

end Request

end Workbench
