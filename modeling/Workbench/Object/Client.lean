/-
# The client

The client is the one object that everything else hangs from. It lists the windows,
most recently focused first, and remembers when the terms of service were accepted.
-/

import Workbench.Meta

namespace Workbench

/-- The client. `tosAgreed` is the time of acceptance in milliseconds since 1970, zero
while the terms have not been accepted. -/
structure Client where
  oid : String
  version : Int64
  windowIds : List String
  tosAgreed : Int64
  metadata : Meta

namespace Client

/-- A client without windows that has not been stored yet. -/
def new (oid : String) : Client := ⟨oid, 0, [], 0, .empty⟩

/-- Whether the terms of service were accepted. -/
def hasAgreed (client : Client) : Bool := 0 < client.tosAgreed

/-- Add a window at the end, unless it is listed, and say whether that changed anything. -/
def addWindow (client : Client) (windowId : String) : Client × Bool :=
  if windowId ∈ client.windowIds then (client, false)
  else ({ client with windowIds := client.windowIds ++ [windowId] }, true)

/-- Move the first listing of a window to the front, and say whether that changed
anything. An unknown window and one that is in front already leave the order alone. -/
def focusWindow (client : Client) (windowId : String) : Client × Bool :=
  if windowId ∈ client.windowIds ∧ client.windowIds.head? ≠ some windowId then
    ({ client with windowIds := windowId :: client.windowIds.erase windowId }, true)
  else (client, false)

/-- The fields of a client. -/
def fields : Json.Fields (String × Int64 × List String × Int64 × Meta × Unit) :=
  .cons (.required "oid" .string) <|
  .cons (.withDefault "version" .int64 0) <|
  .cons (.withDefault "windowIds" (.list .string) []) <|
  .cons (.withDefault "tosAgreed" .int64 0) <|
  .cons (.withDefault "meta" Meta.codec .empty) .nil

/-- Clients are records. -/
def codec : Json.Codec Client :=
  fields.codec "Client"
    (fun client =>
      (client.oid, client.version, client.windowIds, client.tosAgreed, client.metadata, ()))
    (fun (oid, version, windowIds, tosAgreed, metadata, ()) =>
      ⟨oid, version, windowIds, tosAgreed, metadata⟩)

end Client

end Workbench
