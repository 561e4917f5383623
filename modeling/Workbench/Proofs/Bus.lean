/-
# Sending several events to one window

Events that are sent to a window one after another arrive in its live channel in the order in
which they were sent, and in no other channel. A window whose receiver is gone loses its
registration with the first event, and every other registration stays.
-/

import Workbench.Bus

namespace Workbench.Bus

/-- The channel into which events for a window are put: that of its registration, while the
receiver exists. -/
def liveChannel? (bus : Bus) (windowId : String) : Option Nat :=
  (bus.registration? windowId).bind fun registration =>
    if bus.hasReceiver registration.channel then some registration.channel else none

/-- Put an event at the end of a channel. -/
def append (bus : Bus) (channel : Nat) (events : List WindowEvent) : Bus :=
  { bus with
    channels := bus.channels.modify channel fun held =>
      { held with events := held.events ++ events } }

/-- Send events to a window, one after another. -/
def sendAll (bus : Bus) (windowId : String) (events : List WindowEvent) : Bus :=
  events.foldl (fun bus event => (bus.send windowId event).2) bus

variable {bus : Bus} {windowId : String}

/-- The registration of a window is gone once it is taken back, and all others stay. -/
theorem registration?_unregister (other : String) :
    (bus.unregister windowId).registration? other =
      if other = windowId then none else bus.registration? other := by
  show (bus.windows.filter fun entry => entry.1 ≠ windowId).lookup other =
    if other = windowId then none else bus.windows.lookup other
  induction bus.windows with
  | nil => simp
  | cons entry rest ih =>
      obtain ⟨name, registration⟩ := entry
      by_cases here : name = windowId
      · rw [List.filter_cons_of_neg (by simpa using here), ih, List.lookup_cons]
        by_cases same : other = windowId
        · rw [if_pos same, if_pos same]
        · have apart : other ≠ name := fun equal => same (equal.trans here)
          rw [if_neg same, if_neg same, beq_false_of_ne apart]
      · rw [List.filter_cons_of_pos (by simpa using here), List.lookup_cons, List.lookup_cons, ih]
        by_cases same : other = name
        · subst same
          simp only [if_neg here]
        · rw [beq_false_of_ne same]

/-! ## One event -/

theorem liveChannel?_eq_some_iff {channel : Nat} :
    bus.liveChannel? windowId = some channel ↔
      ∃ registration, bus.registration? windowId = some registration ∧
        registration.channel = channel ∧ bus.hasReceiver channel = true := by
  unfold liveChannel?
  cases bus.registration? windowId with
  | none => simp
  | some registration =>
      rw [Option.bind_some]
      by_cases there : bus.hasReceiver registration.channel = true
      · rw [if_pos there]
        grind
      · rw [if_neg there]
        grind

theorem deliver_of_live {channel : Nat} (live : bus.liveChannel? windowId = some channel)
    (event : WindowEvent) :
    bus.deliver windowId event = (.delivered, bus.append channel [event]) := by
  obtain ⟨registration, stands, rfl, there⟩ := liveChannel?_eq_some_iff.1 live
  rw [deliver, stands]
  exact if_pos there

theorem send_of_live {channel : Nat} (live : bus.liveChannel? windowId = some channel)
    (event : WindowEvent) : (bus.send windowId event).2 = bus.append channel [event] := by
  rw [send, deliver_of_live live]

/-- An event for a window without a live channel is dropped, and with it a registration whose
receiver is gone. -/
theorem send_of_not_live (dead : bus.liveChannel? windowId = none) (event : WindowEvent) :
    (bus.send windowId event).2.channels = bus.channels ∧
      ∀ other, (bus.send windowId event).2.registration? other =
        if other = windowId then none else bus.registration? other := by
  unfold liveChannel? at dead
  unfold send deliver
  cases registered : bus.registration? windowId with
  | none =>
      refine ⟨rfl, fun other => ?_⟩
      by_cases same : other = windowId
      · rw [if_pos same, same]
        exact registered
      · rw [if_neg same]
  | some registration =>
      rw [registered, Option.bind_some] at dead
      have gone : ¬ bus.hasReceiver registration.channel = true := by
        intro there
        rw [if_pos there] at dead
        cases dead
      have pruned : bus.prune windowId registration.generation = bus.unregister windowId := by
        rw [prune, registered]
        exact if_pos rfl
      simp only [if_neg gone, pruned]
      exact ⟨rfl, registration?_unregister⟩

/-! ## Several events -/

theorem append_nil (channel : Nat) : bus.append channel [] = bus := by
  have same : (fun held : Channel => { held with events := held.events ++ [] }) = id := by
    funext held
    rw [List.append_nil]
    rfl
  rw [append, same, List.modify_id]

theorem append_append (channel : Nat) (first second : List WindowEvent) :
    (bus.append channel first).append channel second = bus.append channel (first ++ second) := by
  unfold append
  rw [List.modify_modify_eq]
  congr 2
  funext held
  simp

theorem hasReceiver_append (channel : Nat) (events : List WindowEvent) (receiver : Nat) :
    (bus.append channel events).hasReceiver receiver = bus.hasReceiver receiver := by
  unfold hasReceiver append
  rw [List.getElem?_modify]
  cases bus.channels[receiver]? with
  | none => rfl
  | some held =>
      by_cases same : channel = receiver
      · simp only [if_pos same, Option.map_eq_map, Option.map_some]
      · simp only [if_neg same, Option.map_eq_map, Option.map_some]

theorem liveChannel?_append (channel : Nat) (events : List WindowEvent) (other : String) :
    (bus.append channel events).liveChannel? other = bus.liveChannel? other := by
  unfold liveChannel?
  show ((bus.registration? other).bind fun registration =>
    if (bus.append channel events).hasReceiver registration.channel then
      some registration.channel else none) = _
  simp only [hasReceiver_append]

/-- Events for a window with a live channel are put there in order, and nothing else
changes. -/
theorem sendAll_of_live {channel : Nat} (live : bus.liveChannel? windowId = some channel)
    (events : List WindowEvent) : bus.sendAll windowId events = bus.append channel events := by
  induction events generalizing bus with
  | nil => rw [append_nil, sendAll, List.foldl_nil]
  | cons event rest ih =>
      have still : (bus.append channel [event]).liveChannel? windowId = some channel := by
        rw [liveChannel?_append, live]
      have later := ih still
      rw [sendAll] at later
      rw [sendAll, List.foldl_cons, send_of_live live, later, append_append]
      rfl

/-- Events for a window without a live channel change no channel. -/
theorem sendAll_of_not_live (dead : bus.liveChannel? windowId = none)
    (events : List WindowEvent) :
    (bus.sendAll windowId events).channels = bus.channels ∧
      ∀ other, other ≠ windowId →
        (bus.sendAll windowId events).registration? other = bus.registration? other := by
  induction events generalizing bus with
  | nil => exact ⟨rfl, fun _ _ => rfl⟩
  | cons event rest ih =>
      obtain ⟨channels, registrations⟩ := send_of_not_live dead event
      have still : (bus.send windowId event).2.liveChannel? windowId = none := by
        rw [liveChannel?, registrations windowId, if_pos rfl]
        rfl
      obtain ⟨laterChannels, laterRegistrations⟩ := ih still
      constructor
      · rw [← channels]
        exact laterChannels
      · intro other apart
        rw [sendAll, List.foldl_cons]
        rw [sendAll] at laterRegistrations
        rw [laterRegistrations other apart, registrations other, if_neg apart]

end Workbench.Bus
