/-
# The event bus

Windows register to receive events. A registration opens a channel and stands until it
is replaced by the next registration of the same window or taken back. The receiver of
a channel may be dropped at any time; nobody tells the bus, which finds out when it next
sends to the window, and then removes the registration.

Finding out and removing are two separate moments. In between, the window may have
registered anew, so the removal checks the generation of the registration, a number
that each registration draws when it begins.
-/

import Workbench.Event

namespace Workbench

/-- A queue of events between the bus and one receiver. -/
structure Channel where
  /-- The events that were sent and not taken yet, oldest first. -/
  events : List WindowEvent
  /-- Whether the receiver still exists. -/
  hasReceiver : Bool

/-- What the bus keeps about a registered window. -/
structure Registration where
  generation : UInt64
  /-- The position of its channel among all channels. -/
  channel : Nat
  deriving DecidableEq

/-- The state of the bus. Channels stay in the order in which they were opened. -/
structure Bus where
  windows : List (String × Registration)
  channels : List Channel
  nextGeneration : UInt64

/-- What the first moment of sending finds. -/
inductive Delivery where
  /-- No registration stands for the window. -/
  | unregistered
  /-- The event was put into the channel. -/
  | delivered
  /-- The receiver of the registration with this generation is gone. -/
  | disconnected (generation : UInt64)
  deriving DecidableEq

namespace Bus

/-- The bus on which nobody has registered. -/
def empty : Bus := ⟨[], [], 0⟩

/-- The registration that stands for a window. -/
def registration? (bus : Bus) (windowId : String) : Option Registration :=
  bus.windows.lookup windowId

/-- Whether a registration stands for a window. -/
def isRegistered (bus : Bus) (windowId : String) : Bool :=
  (bus.registration? windowId).isSome

/-- Take back the registration of a window, if there is one. -/
def unregister (bus : Bus) (windowId : String) : Bus :=
  { bus with windows := bus.windows.filter fun entry => entry.1 ≠ windowId }

/-- Begin a registration: open a channel and draw a generation. -/
def beginRegistration (bus : Bus) : Registration × Bus :=
  (⟨bus.nextGeneration, bus.channels.length⟩,
    { bus with
      channels := bus.channels ++ [⟨[], true⟩]
      nextGeneration := bus.nextGeneration + 1 })

/-- Let a registration stand for a window, in place of an earlier one. -/
def completeRegistration (bus : Bus) (windowId : String) (registration : Registration) : Bus :=
  let cleared := bus.unregister windowId
  { cleared with windows := (windowId, registration) :: cleared.windows }

/-- Register a window. The number of the new channel is handed to its receiver. -/
def register (bus : Bus) (windowId : String) : Nat × Bus :=
  let (registration, begun) := bus.beginRegistration
  (registration.channel, begun.completeRegistration windowId registration)

/-- Whether the receiver of a channel exists. -/
def hasReceiver (bus : Bus) (channel : Nat) : Bool :=
  match bus.channels[channel]? with
  | some found => found.hasReceiver
  | none => false

/-- The first moment of sending: put the event into the window's channel, if it has one
with a receiver. -/
def deliver (bus : Bus) (windowId : String) (event : WindowEvent) : Delivery × Bus :=
  match bus.registration? windowId with
  | none => (.unregistered, bus)
  | some registration =>
      if bus.hasReceiver registration.channel then
        (.delivered,
          { bus with
            channels := bus.channels.modify registration.channel fun channel =>
              { channel with events := channel.events ++ [event] } })
      else (.disconnected registration.generation, bus)

/-- The second moment of sending, after a failure: remove the window's registration if it
is still the one that failed. -/
def prune (bus : Bus) (windowId : String) (generation : UInt64) : Bus :=
  match bus.registration? windowId with
  | some registration =>
      if registration.generation = generation then bus.unregister windowId else bus
  | none => bus

/-- Send an event to a window, and say whether it was queued. -/
def send (bus : Bus) (windowId : String) (event : WindowEvent) : Bool × Bus :=
  match bus.deliver windowId event with
  | (.delivered, after) => (true, after)
  | (.unregistered, after) => (false, after)
  | (.disconnected generation, after) => (false, after.prune windowId generation)

/-- Take all waiting events from a channel. -/
def take (bus : Bus) (channel : Nat) : List WindowEvent × Bus :=
  match bus.channels[channel]? with
  | some found =>
      (found.events, { bus with channels := bus.channels.set channel { found with events := [] } })
  | none => ([], bus)

/-- Take the oldest waiting event from a channel, if one waits. -/
def receive (bus : Bus) (channel : Nat) : Option WindowEvent × Bus :=
  match bus.channels[channel]? with
  | some found =>
      (found.events.head?,
        { bus with channels := bus.channels.set channel { found with events := found.events.tail } })
  | none => (none, bus)

/-- Drop the receiver of a channel, with all events that wait for it. -/
def dropReceiver (bus : Bus) (channel : Nat) : Bus :=
  { bus with channels := bus.channels.set channel ⟨[], false⟩ }

/-- Whether no registration feeds a channel any more. -/
def isClosed (bus : Bus) (channel : Nat) : Bool :=
  bus.windows.all fun entry => entry.2.channel ≠ channel

end Bus

end Workbench
