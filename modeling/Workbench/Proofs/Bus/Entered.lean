/-
# The events that entered queues

An event that is sent to a window enters a queue if a registration of the window stands and its
receiver exists. Each receiver was handed out by one registration, so its queue belongs to one
window for good, whatever is registered later. What entered the queues of all windows, taken
together in the order in which it happened, is therefore a part of what was sent, each event to
the window that its queue belongs to.
-/

import Mathlib.Data.List.Induction
import Workbench.Proofs.Bus.Delivery

namespace Workbench

namespace BusStep

/-- The window that a step registers, if it does. -/
def registrant? : BusStep → Option String
  | register windowId => some windowId
  | _ => none

/-- The event that a step sends, with the window that it is sent to. -/
def sending? : BusStep → Option (String × WindowEvent)
  | send windowId event => some (windowId, event)
  | _ => none

/-- The event that a step puts into a queue, with the receiver of the queue. -/
def enters (bus : Bus) : BusStep → Option (Nat × WindowEvent)
  | send windowId event => (bus.liveChannel? windowId).map fun receiver => (receiver, event)
  | _ => none

end BusStep

namespace BusHistory

/-- The windows that registered, in the order in which their receivers were handed out. -/
def registrants (history : BusHistory) : List String := history.filterMap BusStep.registrant?

/-- What was sent, each event with the window that it was sent to. -/
def sent (history : BusHistory) : List (String × WindowEvent) :=
  history.filterMap BusStep.sending?

theorem registrants_append (early late : BusHistory) :
    registrants (early ++ late) = early.registrants ++ late.registrants :=
  List.filterMap_append

theorem sent_append (early late : BusHistory) : sent (early ++ late) = early.sent ++ late.sent :=
  List.filterMap_append

theorem length_registrants (history : BusHistory) :
    history.registrants.length = history.receivers := by
  induction history with
  | nil => rfl
  | cons step rest ih =>
      rw [receivers, List.countP_cons, ← receivers, ← ih]
      cases step <;> rfl

end BusHistory

namespace Bus

/-- The events that entered queues in the course of a history, each with the receiver of its
queue. -/
def entered (bus : Bus) : BusHistory → List (Nat × WindowEvent)
  | [] => []
  | step :: rest => (step.enters bus).toList ++ (step.perform bus).entered rest

theorem entered_append {bus : Bus} (early late : BusHistory) :
    bus.entered (early ++ late) = bus.entered early ++ (bus.after early).entered late := by
  induction early generalizing bus with
  | nil => rfl
  | cons step rest ih =>
      rw [List.cons_append, entered, entered, ih, List.append_assoc]
      rfl

/-- Before a receiver is handed out there is nothing in its queue, and no step changes this. -/
theorem queue_of_unopened {bus : Bus} {receiver : Nat} (wired : bus.Wired)
    (unopened : bus.channels.length ≤ receiver) (step : BusStep) :
    step.yields bus receiver = [] ∧ bus.pending receiver = [] ∧
      (step.perform bus).pending receiver = [] ∧ bus.queued receiver step = [] := by
  have absent : bus.channels[receiver]? = none := List.getElem?_eq_none unopened
  refine ⟨?_, ?_, ?_, ?_⟩
  · cases step <;> simp [BusStep.yields, receive, take, absent]
  · rw [pending_eq, absent]
    rfl
  · rw [pending_eq]
    cases registers : step.registers with
    | false =>
        have same := @length_channels_perform bus step
        rw [registers] at same
        rw [List.getElem?_eq_none (by simpa [same] using unopened)]
        rfl
    | true =>
        cases step with
        | register other =>
            show ((bus.channels ++ [⟨[], true⟩])[receiver]?.map Channel.events).getD [] = []
            rw [List.getElem?_append_right unopened]
            cases receiver - bus.channels.length <;> rfl
        | _ => cases registers
  · cases step with
    | send windowId event =>
        refine if_neg fun live => ?_
        obtain ⟨registration, registered, same, -⟩ := liveChannel?_eq_some_iff.1 live
        have opened := wired.opened windowId registration registered
        omega
    | _ => rfl

/-- What was handed to the holder of a receiver, and what still waits for it, is what entered its
queue, unless the receiver was dropped. -/
theorem yielded_append_pending {bus : Bus} {receiver : Nat} (wired : bus.Wired)
    {history : BusHistory} (kept : .drop receiver ∉ history) :
    bus.yielded receiver history ++ (bus.after history).pending receiver =
      bus.pending receiver ++
        ((bus.entered history).filter fun entry => entry.1 = receiver).map Prod.snd := by
  induction history generalizing bus with
  | nil => exact (List.append_nil _).symm
  | cons step rest ih =>
      have later := ih (wired.perform step) fun dropped => kept (List.mem_cons_of_mem _ dropped)
      have here : ((step.enters bus).toList.filter fun entry => entry.1 = receiver).map Prod.snd =
          bus.queued receiver step := by
        cases step with
        | send windowId event =>
            simp only [BusStep.enters, queued]
            cases bus.liveChannel? windowId with
            | none => rfl
            | some other => by_cases same : other = receiver <;> simp [same]
        | _ => rfl
      have now : step.yields bus receiver ++ (step.perform bus).pending receiver =
          bus.pending receiver ++ bus.queued receiver step := by
        rcases Nat.lt_or_ge receiver bus.channels.length with opened | unopened
        · exact yields_append_pending opened fun same => kept (same ▸ List.mem_cons_self)
        · obtain ⟨yields, before, after, queued⟩ := queue_of_unopened wired unopened step
          rw [yields, before, after, queued]
      rw [yielded, entered, List.filter_append, List.map_append, here, ← List.append_assoc, ← now,
        List.append_assoc, List.append_assoc, ← later]
      rfl

/-- The receiver of a registration was handed out to the window that is registered. -/
theorem registrants_of_registered {history : BusHistory} {windowId : String}
    {registration : Registration}
    (registered : (empty.after history).registration? windowId = some registration) :
    history.registrants[registration.channel]? = some windowId := by
  obtain ⟨receiver, since, before, rfl, rfl, unchanged⟩ := exists_stands_of_registered registered
  obtain ⟨-, ⟨first, began, channel⟩, -⟩ := register_after_empty before windowId
  rw [after_append] at registered
  rcases registration?_after_of_stands began unchanged with removed | kept
  · cases removed.symm.trans registered
  · cases kept.symm.trans registered
    have next : before.registrants.length ≤ before.receivers :=
      Nat.le_of_eq before.length_registrants
    rw [channel, BusHistory.registrants_append, List.getElem?_append_right next,
      before.length_registrants, Nat.sub_self]
    rfl

/-- An event that enters a queue is sent to the window to which the receiver was handed out. -/
theorem sending_of_enters {early : BusHistory} {step : BusStep} {receiver : Nat}
    {event : WindowEvent} (enters : step.enters (empty.after early) = some (receiver, event)) :
    ∃ windowId, step.sending? = some (windowId, event) ∧
      early.registrants[receiver]? = some windowId := by
  cases step with
  | send windowId sent =>
      obtain ⟨channel, live, same⟩ := Option.map_eq_some_iff.1 enters
      cases same
      obtain ⟨registration, registered, rfl, -⟩ := liveChannel?_eq_some_iff.1 live
      exact ⟨windowId, rfl, registrants_of_registered registered⟩
  | _ => cases enters

/-- A queue that an event entered had been opened. -/
theorem opened_of_entered {history : BusHistory} {entry : Nat × WindowEvent}
    (there : entry ∈ empty.entered history) : entry.1 < history.registrants.length := by
  induction history using List.reverseRecOn with
  | nil => cases there
  | append_singleton early step ih =>
      rw [BusHistory.registrants_append, List.length_append]
      rw [entered_append, List.mem_append] at there
      apply Nat.lt_add_right
      rcases there with old | now
      · exact ih old
      · have enters : step.enters (empty.after early) = some entry := by simpa [entered] using now
        obtain ⟨windowId, -, handed⟩ := sending_of_enters enters
        exact (List.getElem?_eq_some_iff.1 handed).1

/-- Every event that entered a queue was sent to the window that the queue belongs to, and the
events entered in the order in which they were sent. -/
theorem entered_sublist_sent (history : BusHistory) :
    ((empty.entered history).map fun entry => (history.registrants[entry.1]?, entry.2)).Sublist
      (history.sent.map fun sending => (some sending.1, sending.2)) := by
  induction history using List.reverseRecOn with
  | nil => exact List.Sublist.refl []
  | append_singleton early step ih =>
      have old : (empty.entered early).map
            (fun entry => ((BusHistory.registrants (early ++ [step]))[entry.1]?, entry.2)) =
          (empty.entered early).map
            fun entry => ((BusHistory.registrants early)[entry.1]?, entry.2) := by
        refine List.map_congr_left fun entry there => ?_
        rw [BusHistory.registrants_append, List.getElem?_append_left (opened_of_entered there)]
      rw [entered_append, List.map_append, old, BusHistory.sent_append, List.map_append]
      refine ih.append ?_
      cases enters : step.enters (empty.after early) with
      | none => simp [entered, enters]
      | some entry =>
          obtain ⟨windowId, sending, handed⟩ := sending_of_enters enters
          have opened := (List.getElem?_eq_some_iff.1 handed).1
          simp [entered, enters, BusHistory.sent, sending, BusHistory.registrants_append,
            List.getElem?_append_left opened, handed]

section Consequences

variable (history : BusHistory)

/-- An event that entered a queue was sent to the window that the queue belongs to. -/
theorem sent_of_entered {receiver : Nat} {event : WindowEvent}
    (there : (receiver, event) ∈ empty.entered history) :
    ∃ windowId, history.registrants[receiver]? = some windowId ∧
      (windowId, event) ∈ history.sent := by
  have labelled := (entered_sublist_sent history).subset (List.mem_map_of_mem there)
  obtain ⟨⟨windowId, sent⟩, wasSent, same⟩ := List.mem_map.1 labelled
  obtain ⟨handed, rfl⟩ := Prod.mk.inj same
  exact ⟨windowId, handed.symm, wasSent⟩

theorem events_sublist_sent :
    ((empty.entered history).map Prod.snd).Sublist (history.sent.map Prod.snd) := by
  have both := (entered_sublist_sent history).map Prod.snd
  rw [List.map_map, List.map_map] at both
  exact both

/-- What entered the queues of one window is a part of what was sent to it. -/
theorem events_sublist_sentTo (windowId : String) :
    (((empty.entered history).filter
        fun entry => history.registrants[entry.1]? = some windowId).map Prod.snd).Sublist
      ((history.sent.filter fun sending => sending.1 = windowId).map Prod.snd) := by
  have both := ((entered_sublist_sent history).filter fun labelled =>
    labelled.1 = some windowId).map Prod.snd
  rw [List.filter_map, List.filter_map, List.map_map, List.map_map] at both
  simpa [Function.comp_def] using both

end Consequences

end Bus

end Workbench
