/-
# Histories of a bus

What can be done with a bus is one of six steps, and a history is a list of them. The laws
below say what each step does to the registration of a window and to the channel of a
receiver; everything about longer histories follows from these two.

Receivers are numbered in the order in which they were handed out, and a channel is never
given away again. So a history determines which receiver belongs to which registration.
-/

import Workbench.Proofs.Bus

namespace Workbench

/-- What can be done with a bus and its receivers. Receivers are numbered in the order in
which registrations handed them out. -/
inductive BusStep where
  | register (windowId : String)
  | unregister (windowId : String)
  | drop (receiver : Nat)
  | send (windowId : String) (event : WindowEvent)
  /-- Take the oldest event that waits for a receiver. -/
  | receive (receiver : Nat)
  /-- Take all events that wait for a receiver. -/
  | take (receiver : Nat)
  deriving DecidableEq

/-- What was done, the earliest first. -/
abbrev BusHistory := List BusStep

namespace BusStep

/-- The bus after a step. -/
def perform (bus : Bus) : BusStep → Bus
  | register windowId => (bus.register windowId).2
  | unregister windowId => bus.unregister windowId
  | drop receiver => bus.dropReceiver receiver
  | send windowId event => (bus.send windowId event).2
  | receive receiver => (bus.receive receiver).2
  | take receiver => (bus.take receiver).2

/-- The events that a step hands to the holder of a receiver. -/
def yields (bus : Bus) (receiver : Nat) : BusStep → List WindowEvent
  | receive other => if other = receiver then (bus.receive receiver).1.toList else []
  | take other => if other = receiver then (bus.take receiver).1 else []
  | _ => []

/-- Whether a step begins a registration. -/
def registers : BusStep → Bool
  | register _ => true
  | _ => false

/-- Whether a step replaces the registration of a window or takes it back. -/
def replaces (windowId : String) : BusStep → Bool
  | register other => other = windowId
  | unregister other => other = windowId
  | _ => false

/-- The event that a step sends to a window, if it does. -/
def sentTo? (windowId : String) : BusStep → Option WindowEvent
  | send other event => if other = windowId then some event else none
  | _ => none

end BusStep

namespace BusHistory

/-- The number of receivers that were handed out. -/
def receivers (history : BusHistory) : Nat := history.countP BusStep.registers

/-- The events that were sent to a window before its registration was replaced or taken back
or its receiver was dropped. -/
def sentWhileFed (windowId : String) (receiver : Nat) (history : BusHistory) :
    List WindowEvent :=
  (history.takeWhile fun step => !step.replaces windowId && step ≠ .drop receiver).filterMap
    (BusStep.sentTo? windowId)

/-- The last registration of a window has not been replaced or taken back: its receiver, and
what was done since. -/
def Stands (history : BusHistory) (windowId : String) (receiver : Nat) (since : BusHistory) :
    Prop :=
  ∃ before : BusHistory, history = before ++ .register windowId :: since ∧
    receiver = before.receivers ∧ ∀ step ∈ since, step.replaces windowId = false

/-- Something was sent to a window after its receiver was dropped. -/
def Misses (history : BusHistory) (windowId : String) (receiver : Nat) : Prop :=
  ∃ (early late : BusHistory) (event : WindowEvent),
    history = early ++ .drop receiver :: late ∧ .send windowId event ∈ late

theorem misses_cons {windowId : String} {receiver : Nat} {step : BusStep} {rest : BusHistory} :
    Misses (step :: rest) windowId receiver ↔
      (step = .drop receiver ∧ ∃ event, .send windowId event ∈ rest) ∨
        rest.Misses windowId receiver := by
  constructor
  · rintro ⟨early, late, event, split, sent⟩
    cases early with
    | nil =>
        obtain ⟨rfl, rfl⟩ := List.cons.inj split
        exact .inl ⟨rfl, event, sent⟩
    | cons first early =>
        obtain ⟨-, rfl⟩ := List.cons.inj split
        exact .inr ⟨early, late, event, rfl, sent⟩
  · rintro (⟨rfl, event, sent⟩ | ⟨early, late, event, rfl, sent⟩)
    · exact ⟨[], rest, event, rfl, sent⟩
    · exact ⟨step :: early, late, event, rfl, sent⟩

/-- Either nothing was done to the registration of a window, or there is a last step that
replaced it or took it back. -/
theorem exists_last_replaces (history : BusHistory) (windowId : String) :
    (∀ step ∈ history, step.replaces windowId = false) ∨
      ∃ (before : BusHistory) (last : BusStep) (since : BusHistory),
        history = before ++ last :: since ∧ last.replaces windowId = true ∧
          ∀ step ∈ since, step.replaces windowId = false := by
  induction history with
  | nil => exact .inl fun _ impossible => absurd impossible List.not_mem_nil
  | cons step rest ih =>
      rcases ih with none | ⟨before, last, since, rfl, replaces, none⟩
      · cases first : step.replaces windowId with
        | true => exact .inr ⟨[], step, rest, rfl, first, none⟩
        | false => exact .inl (List.forall_mem_cons.2 ⟨first, none⟩)
      · exact .inr ⟨step :: before, last, since, rfl, replaces, none⟩

end BusHistory

namespace Bus

/-- The bus after a history. -/
def after (bus : Bus) (history : BusHistory) : Bus := history.foldl BusStep.perform bus

/-- The events that were handed to the holder of a receiver in the course of a history. -/
def yielded (bus : Bus) (receiver : Nat) : BusHistory → List WindowEvent
  | [] => []
  | step :: rest => step.yields bus receiver ++ (step.perform bus).yielded receiver rest

/-- The events that wait for a receiver: what is in its queue. -/
def pending (bus : Bus) (receiver : Nat) : List WindowEvent :=
  match bus.channels[receiver]? with
  | some channel => channel.events
  | none => []

/-- Every registration has a channel of its own. -/
structure Wired (bus : Bus) : Prop where
  opened : ∀ windowId registration, bus.registration? windowId = some registration →
    registration.channel < bus.channels.length
  apart : ∀ first second one other, bus.registration? first = some one →
    bus.registration? second = some other → one.channel = other.channel → first = second

/-! ## One step -/

section Step

variable {bus : Bus} {receiver : Nat}

theorem pending_eq (bus : Bus) (receiver : Nat) :
    bus.pending receiver = (bus.channels[receiver]?.map Channel.events).getD [] := by
  unfold pending
  cases bus.channels[receiver]? <;> rfl

theorem hasReceiver_eq (bus : Bus) (receiver : Nat) :
    bus.hasReceiver receiver = (bus.channels[receiver]?.map Channel.hasReceiver).getD false := by
  unfold hasReceiver
  cases bus.channels[receiver]? <;> rfl

/-- An event is queued exactly if the window has a live channel. -/
theorem send_fst (windowId : String) (event : WindowEvent) :
    (bus.send windowId event).1 = (bus.liveChannel? windowId).isSome := by
  unfold send deliver liveChannel?
  cases bus.registration? windowId with
  | none => rfl
  | some registration =>
      rw [Option.bind_some]
      by_cases there : bus.hasReceiver registration.channel = true
      · simp only [if_pos there]
        rfl
      · simp only [if_neg there]
        rfl

theorem registration?_completeRegistration (windowId : String) (registration : Registration)
    (other : String) :
    (bus.completeRegistration windowId registration).registration? other =
      if other = windowId then some registration else bus.registration? other := by
  have cleared := @registration?_unregister bus windowId other
  show List.lookup other ((windowId, registration) :: (bus.unregister windowId).windows) = _
  rw [List.lookup_cons]
  by_cases same : other = windowId
  · rw [if_pos same, same, beq_self_eq_true]
  · rw [if_neg same] at cleared ⊢
    rw [beq_false_of_ne same]
    exact cleared

theorem registration?_register (windowId other : String) :
    (bus.register windowId).2.registration? other =
      if other = windowId then some ⟨bus.nextGeneration, bus.channels.length⟩
      else bus.registration? other :=
  @registration?_completeRegistration bus.beginRegistration.2 windowId _ other

/-- What a step does to the registration of a window. A registration is replaced, taken back,
or removed when an event is sent and its receiver is gone. -/
theorem registration?_perform (step : BusStep) (windowId : String) :
    (step.perform bus).registration? windowId =
      match step with
      | .register other =>
          if windowId = other then some ⟨bus.nextGeneration, bus.channels.length⟩
          else bus.registration? windowId
      | .unregister other => if windowId = other then none else bus.registration? windowId
      | .send other _ =>
          if windowId = other ∧ bus.liveChannel? windowId = none then none
          else bus.registration? windowId
      | _ => bus.registration? windowId := by
  cases step with
  | register other => exact registration?_register other windowId
  | unregister other => exact registration?_unregister windowId
  | drop other => rfl
  | send other event =>
      simp only [BusStep.perform]
      cases live : bus.liveChannel? other with
      | some channel =>
          rw [send_of_live live, if_neg]
          · rfl
          · rintro ⟨rfl, dead⟩
            rw [live] at dead
            cases dead
      | none =>
          rw [(send_of_not_live live event).2 windowId]
          by_cases same : windowId = other
          · subst same
            rw [if_pos rfl, if_pos ⟨rfl, live⟩]
          · rw [if_neg same, if_neg fun both => same both.1]
  | receive other =>
      simp only [BusStep.perform, receive]
      cases bus.channels[other]? <;> rfl
  | take other =>
      simp only [BusStep.perform, take]
      cases bus.channels[other]? <;> rfl

/-- Changing one channel that is there changes no other. -/
theorem getElem?_set_of_found {channels : List Channel} {other : Nat} {held : Channel}
    (found : channels[other]? = some held) (edit : Channel → Channel) (receiver : Nat) :
    (channels.set other (edit held))[receiver]? =
      channels[receiver]?.map fun held => if other = receiver then edit held else held := by
  by_cases same : other = receiver
  · subst same
    rw [List.getElem?_set_self (List.getElem?_eq_some_iff.1 found).1, found]
    simp
  · rw [List.getElem?_set_ne same]
    simp [same]

/-- Changing a channel that is not there changes nothing. -/
theorem getElem?_of_absent {channels : List Channel} {other : Nat}
    (absent : channels[other]? = none) (edit : Channel → Channel) (receiver : Nat) :
    channels[receiver]? =
      channels[receiver]?.map fun held => if other = receiver then edit held else held := by
  by_cases same : other = receiver
  · subst same
    rw [absent]
    rfl
  · simp [same]

/-- Receiving shortens one queue. -/
theorem channels_receive (bus : Bus) (receiver other : Nat) :
    (bus.receive receiver).2.channels[other]? =
      bus.channels[other]?.map fun held =>
        if receiver = other then { held with events := held.events.tail } else held := by
  unfold receive
  cases found : bus.channels[receiver]? with
  | some held =>
      exact getElem?_set_of_found found (fun held => { held with events := held.events.tail }) other
  | none => exact getElem?_of_absent found _ other

/-- Taking empties one queue. -/
theorem channels_take (bus : Bus) (receiver other : Nat) :
    (bus.take receiver).2.channels[other]? =
      bus.channels[other]?.map fun held =>
        if receiver = other then { held with events := [] } else held := by
  unfold take
  cases found : bus.channels[receiver]? with
  | some held => exact getElem?_set_of_found found (fun held => { held with events := [] }) other
  | none => exact getElem?_of_absent found _ other

/-- What a step does to a channel that is open. -/
theorem channels_perform (opened : receiver < bus.channels.length) (step : BusStep) :
    (step.perform bus).channels[receiver]? =
      bus.channels[receiver]?.map fun held =>
        match step with
        | .drop other => if other = receiver then ⟨[], false⟩ else held
        | .send other event =>
            if bus.liveChannel? other = some receiver then
              { held with events := held.events ++ [event] }
            else held
        | .receive other =>
            if other = receiver then { held with events := held.events.tail } else held
        | .take other => if other = receiver then { held with events := [] } else held
        | _ => held := by
  cases step with
  | register other =>
      show (bus.channels ++ [_])[receiver]? = _
      rw [List.getElem?_append_left opened, Option.map_id']
  | unregister other => exact Option.map_id'.symm
  | drop other =>
      show (bus.channels.set other _)[receiver]? = _
      cases found : bus.channels[other]? with
      | some held => exact getElem?_set_of_found found (fun _ => ⟨[], false⟩) receiver
      | none =>
          rw [List.set_eq_of_length_le (List.getElem?_eq_none_iff.1 found)]
          exact getElem?_of_absent found (fun _ => ⟨[], false⟩) receiver
  | send other event =>
      simp only [BusStep.perform]
      cases live : bus.liveChannel? other with
      | some channel =>
          rw [send_of_live live]
          show (bus.channels.modify channel _)[receiver]? = _
          rw [List.getElem?_modify]
          by_cases same : channel = receiver <;> simp [same]
      | none =>
          rw [(send_of_not_live live event).1]
          simp
  | receive other => exact channels_receive bus other receiver
  | take other => exact channels_take bus other receiver

theorem length_channels_perform (step : BusStep) :
    (step.perform bus).channels.length =
      bus.channels.length + if step.registers then 1 else 0 := by
  cases step with
  | register other =>
      show (bus.channels ++ [_]).length = _
      rw [List.length_append]
      rfl
  | unregister other => rfl
  | drop other => exact List.length_set
  | send other event =>
      simp only [BusStep.perform]
      cases live : bus.liveChannel? other with
      | some channel =>
          rw [send_of_live live]
          exact List.length_modify ..
      | none =>
          rw [(send_of_not_live live event).1]
          rfl
  | receive other =>
      simp only [BusStep.perform, receive]
      cases bus.channels[other]? with
      | none => rfl
      | some held => exact List.length_set
  | take other =>
      simp only [BusStep.perform, take]
      cases bus.channels[other]? with
      | none => rfl
      | some held => exact List.length_set

/-- A receiver exists until it is dropped. -/
theorem hasReceiver_perform (opened : receiver < bus.channels.length) (step : BusStep) :
    (step.perform bus).hasReceiver receiver =
      (bus.hasReceiver receiver && step ≠ .drop receiver) := by
  rw [hasReceiver_eq, hasReceiver_eq, channels_perform opened]
  obtain ⟨held, found⟩ : ∃ held, bus.channels[receiver]? = some held :=
    ⟨_, List.getElem?_eq_getElem opened⟩
  rw [found]
  cases step <;> grind

/-- The event that a step puts into the queue of a receiver, if it does. -/
def queued (bus : Bus) (receiver : Nat) : BusStep → List WindowEvent
  | .send windowId event => if bus.liveChannel? windowId = some receiver then [event] else []
  | _ => []

/-- Unless the receiver is dropped, what a step hands out and leaves in the queue is what was
in the queue and what the step put there. -/
theorem yields_append_pending (opened : receiver < bus.channels.length) {step : BusStep}
    (kept : step ≠ .drop receiver) :
    step.yields bus receiver ++ (step.perform bus).pending receiver =
      bus.pending receiver ++ bus.queued receiver step := by
  rw [pending_eq, pending_eq, channels_perform opened]
  obtain ⟨held, found⟩ : ∃ held, bus.channels[receiver]? = some held :=
    ⟨_, List.getElem?_eq_getElem opened⟩
  cases step with
  | register other => simp [found, BusStep.yields, queued]
  | unregister other => simp [found, BusStep.yields, queued]
  | drop other =>
      have apart : other ≠ receiver := fun same => kept (same ▸ rfl)
      simp [found, BusStep.yields, queued, apart]
  | send other event =>
      simp only [found, BusStep.yields, queued]
      by_cases live : bus.liveChannel? other = some receiver <;> simp [live]
  | receive other =>
      by_cases same : other = receiver
      · obtain ⟨events, alive⟩ := held
        cases events <;> simp [found, BusStep.yields, queued, same, receive]
      · simp [found, BusStep.yields, queued, same]
  | take other =>
      by_cases same : other = receiver
      · simp [found, BusStep.yields, queued, same, take]
      · simp [found, BusStep.yields, queued, same]

/-! ### What is handed out -/

/-- Receiving hands out the oldest event that waits, if one does. -/
theorem receive_fst (bus : Bus) (receiver : Nat) :
    (bus.receive receiver).1 = (bus.pending receiver).head? := by
  unfold receive pending
  cases bus.channels[receiver]? <;> rfl

/-- Taking hands out all events that wait. -/
theorem take_fst (bus : Bus) (receiver : Nat) : (bus.take receiver).1 = bus.pending receiver := by
  unfold take pending
  cases bus.channels[receiver]? <;> rfl

/-- The event that is received waits no longer. What waits for others is not touched. -/
theorem pending_receive (bus : Bus) (receiver other : Nat) :
    (bus.receive receiver).2.pending other =
      if receiver = other then (bus.pending other).tail else bus.pending other := by
  rw [pending_eq, pending_eq, channels_receive]
  by_cases same : receiver = other <;> cases bus.channels[other]? <;> simp [same]

/-- Nothing waits any longer for a receiver whose events were taken. -/
theorem pending_take (bus : Bus) (receiver other : Nat) :
    (bus.take receiver).2.pending other = if receiver = other then [] else bus.pending other := by
  rw [pending_eq, pending_eq, channels_take]
  by_cases same : receiver = other <;> cases bus.channels[other]? <;> simp [same]

/-- Nothing waits for a receiver that was dropped. -/
theorem pending_drop : ((BusStep.drop receiver).perform bus).pending receiver = [] := by
  rw [pending_eq]
  show ((bus.channels.set receiver _)[receiver]?.map _).getD [] = []
  rw [List.getElem?_set]
  by_cases opened : receiver < bus.channels.length <;> simp [opened]

end Step

/-! ## Registrations and channels -/

section Wired

variable {bus : Bus}

/-- A registration was there before a step, or the step began it with the next channel. -/
theorem registration?_perform_cases {step : BusStep} {windowId : String}
    {registration : Registration}
    (stands : (step.perform bus).registration? windowId = some registration) :
    bus.registration? windowId = some registration ∨
      step = .register windowId ∧ registration.channel = bus.channels.length := by
  rw [registration?_perform] at stands
  cases step <;> grind

theorem wired_empty : Wired .empty := by
  constructor
  · intro windowId registration impossible
    cases impossible
  · intro first second one other impossible
    cases impossible

theorem Wired.perform (wired : bus.Wired) (step : BusStep) : (step.perform bus).Wired := by
  have longer := @length_channels_perform bus step
  constructor
  · intro windowId registration stands
    rcases registration?_perform_cases stands with old | ⟨rfl, next⟩
    · have opened := wired.opened windowId registration old
      omega
    · rw [longer, next]
      exact Nat.lt_succ_self _
  · intro first second one other firstStands secondStands same
    rcases registration?_perform_cases firstStands with firstOld | ⟨rfl, firstNext⟩
    · rcases registration?_perform_cases secondStands with secondOld | ⟨-, secondNext⟩
      · exact wired.apart first second one other firstOld secondOld same
      · have opened := wired.opened first one firstOld
        omega
    · rcases registration?_perform_cases secondStands with secondOld | ⟨here, -⟩
      · have opened := wired.opened second other secondOld
        omega
      · cases here
        rfl

theorem Wired.after (wired : bus.Wired) (history : BusHistory) : (bus.after history).Wired := by
  induction history generalizing bus with
  | nil => exact wired
  | cons step rest ih => exact ih (wired.perform step)

theorem after_append (early late : BusHistory) :
    bus.after (early ++ late) = (bus.after early).after late :=
  List.foldl_append

theorem length_channels_after (history : BusHistory) :
    (bus.after history).channels.length = bus.channels.length + history.receivers := by
  induction history generalizing bus with
  | nil => rfl
  | cons step rest ih =>
      show ((step.perform bus).after rest).channels.length = _
      rw [ih, length_channels_perform, BusHistory.receivers, BusHistory.receivers,
        List.countP_cons]
      omega

end Wired

end Bus

end Workbench
