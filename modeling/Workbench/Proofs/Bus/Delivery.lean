/-
# Delivery over whole histories

What a receiver is given, whether an event is queued and whether a window is registered are
all decided by what was done to the bus so far: registrations, registrations that were taken
back, receivers that were dropped, events that were sent. This module says how, without
looking at queues or generations.

A receiver is fed from its registration until the window registers anew, takes its
registration back, or the receiver is dropped. The proofs run a history forward from a
registration. While the channel is fed, each step moves events between the queue and the
holder of the receiver without loss; afterwards the queue only runs empty.
-/

import Workbench.Proofs.Bus.History

namespace Workbench.Bus

/-! ## What a receiver is given -/

section Yielded

variable {bus : Bus} {receiver : Nat}

theorem yielded_append (early late : BusHistory) :
    bus.yielded receiver (early ++ late) =
      bus.yielded receiver early ++ (bus.after early).yielded receiver late := by
  induction early generalizing bus with
  | nil => rfl
  | cons step rest ih =>
      rw [List.cons_append, yielded, yielded, ih, List.append_assoc]
      rfl

/-- Nothing is taken from a receiver before it is handed out. -/
theorem yielded_of_unopened {history : BusHistory}
    (unopened : (bus.after history).channels.length ≤ receiver) :
    bus.yielded receiver history = [] := by
  induction history generalizing bus with
  | nil => rfl
  | cons step rest ih =>
      have later : ((step.perform bus).after rest).channels.length ≤ receiver := unopened
      have absent : bus.channels[receiver]? = none := by
        rw [length_channels_after, length_channels_perform] at later
        exact List.getElem?_eq_none (by omega)
      rw [yielded, ih later, List.append_nil]
      cases step <;> simp [BusStep.yields, receive, take, absent]

/-- Nothing is handed out any more once the receiver was dropped. -/
theorem yielded_of_dropped (opened : receiver < bus.channels.length)
    (gone : bus.hasReceiver receiver = false) (nothing : bus.pending receiver = [])
    (history : BusHistory) : bus.yielded receiver history = [] := by
  induction history generalizing bus with
  | nil => rfl
  | cons step rest ih =>
      have still : (step.perform bus).hasReceiver receiver = false := by
        rw [hasReceiver_perform opened, gone, Bool.false_and]
      have longer := @length_channels_perform bus step
      by_cases again : step = .drop receiver
      · subst again
        exact ih (by omega) still pending_drop
      · have silent : bus.queued receiver step = [] := by
          cases step with
          | send windowId event =>
              refine if_neg fun live => ?_
              obtain ⟨-, -, -, there⟩ := liveChannel?_eq_some_iff.1 live
              rw [gone] at there
              cases there
          | _ => rfl
        have moved := yields_append_pending opened again
        rw [nothing, silent, List.append_nil] at moved
        obtain ⟨none, left⟩ := List.append_eq_nil_iff.1 moved
        rw [yielded, none, List.nil_append]
        exact ih (by omega) still left

/-- Of the events that waited for a receiver and those that were queued later, in this order,
its holder was given the first ones, and unless the receiver was dropped, the rest waits. -/
structure Delivers (bus : Bus) (receiver : Nat) (history : BusHistory)
    (events : List WindowEvent) : Prop where
  early : bus.yielded receiver history <+: bus.pending receiver ++ events
  rest : .drop receiver ∉ history →
    bus.yielded receiver history ++ (bus.after history).pending receiver =
      bus.pending receiver ++ events

namespace Delivers

theorem nil : Delivers bus receiver [] [] where
  early := List.nil_prefix
  rest _ := (List.append_nil _).symm

/-- After the drop nothing comes. -/
theorem drop (opened : receiver < bus.channels.length) (history : BusHistory) :
    Delivers bus receiver (.drop receiver :: history) [] where
  early := by
    have gone : ((BusStep.drop receiver).perform bus).hasReceiver receiver = false := by
      rw [hasReceiver_perform opened]
      simp
    have longer := @length_channels_perform bus (.drop receiver)
    have nothing := yielded_of_dropped (by omega) gone pending_drop history
    rw [yielded, nothing]
    exact List.nil_prefix
  rest kept := absurd List.mem_cons_self kept

/-- A step before other steps. -/
theorem cons {step : BusStep} {history : BusHistory} {events : List WindowEvent}
    (opened : receiver < bus.channels.length) (kept : step ≠ .drop receiver)
    (later : Delivers (step.perform bus) receiver history events) :
    Delivers bus receiver (step :: history) (bus.queued receiver step ++ events) := by
  have moved := yields_append_pending opened kept
  constructor
  · rw [← List.append_assoc, ← moved, List.append_assoc, yielded]
    exact (List.prefix_append_right_inj _).2 later.early
  · intro never
    have rest := later.rest fun dropped => never (List.mem_cons_of_mem _ dropped)
    rw [← List.append_assoc, ← moved, List.append_assoc, ← rest, yielded, List.append_assoc]
    rfl

end Delivers

/-- A receiver that no registration feeds gets nothing new. -/
theorem delivers_of_unfed (opened : receiver < bus.channels.length)
    (unfed : ∀ windowId registration, bus.registration? windowId = some registration →
      registration.channel ≠ receiver) (history : BusHistory) :
    Delivers bus receiver history [] := by
  induction history generalizing bus with
  | nil => exact .nil
  | cons step rest ih =>
      by_cases dropped : step = .drop receiver
      · subst dropped
        exact .drop opened rest
      · have silent : bus.queued receiver step = [] := by
          cases step with
          | send windowId event =>
              refine if_neg fun live => ?_
              obtain ⟨registration, stands, here, -⟩ := liveChannel?_eq_some_iff.1 live
              exact unfed windowId registration stands here
          | _ => rfl
        have longer := @length_channels_perform bus step
        have still : ∀ windowId registration,
            (step.perform bus).registration? windowId = some registration →
              registration.channel ≠ receiver := by
          intro windowId registration stands
          rcases registration?_perform_cases stands with old | ⟨-, next⟩
          · exact unfed windowId registration old
          · omega
        have both := Delivers.cons opened dropped (ih (by omega) still)
        rw [silent] at both
        exact both

end Yielded

section Fed

variable {bus : Bus} {windowId : String} {receiver : Nat}

/-- A window keeps its live channel until it is replaced or the receiver is dropped. -/
theorem liveChannel?_perform (wired : bus.Wired)
    (live : bus.liveChannel? windowId = some receiver) {step : BusStep}
    (stands : step.replaces windowId = false) (kept : step ≠ .drop receiver) :
    (step.perform bus).liveChannel? windowId = some receiver := by
  obtain ⟨registration, registered, rfl, there⟩ := liveChannel?_eq_some_iff.1 live
  have opened := wired.opened windowId registration registered
  refine liveChannel?_eq_some_iff.2 ⟨registration, ?_, rfl, ?_⟩
  · rw [registration?_perform, live]
    cases step with
    | register other =>
        have apart : other ≠ windowId := by simpa [BusStep.replaces] using stands
        exact (if_neg apart.symm).trans registered
    | unregister other =>
        have apart : other ≠ windowId := by simpa [BusStep.replaces] using stands
        exact (if_neg apart.symm).trans registered
    | send other event =>
        refine (if_neg ?_).trans registered
        rintro ⟨-, impossible⟩
        cases impossible
    | _ => exact registered
  · rw [hasReceiver_perform opened, there, Bool.true_and]
    exact decide_eq_true kept

theorem liveChannel?_after (wired : bus.Wired)
    (live : bus.liveChannel? windowId = some receiver) {history : BusHistory}
    (stands : ∀ step ∈ history, step.replaces windowId = false)
    (kept : .drop receiver ∉ history) :
    (bus.after history).liveChannel? windowId = some receiver := by
  induction history generalizing bus with
  | nil => exact live
  | cons step rest ih =>
      have first : step ≠ .drop receiver := fun same => kept (same ▸ List.mem_cons_self)
      exact ih (wired.perform step)
        (liveChannel?_perform wired live (stands step List.mem_cons_self) first)
        (fun other there => stands other (List.mem_cons_of_mem _ there))
        (fun dropped => kept (List.mem_cons_of_mem _ dropped))

/-- While a channel is live, exactly the events for its window are queued in it. -/
theorem queued_of_live (wired : bus.Wired) (live : bus.liveChannel? windowId = some receiver)
    (step : BusStep) : bus.queued receiver step = (step.sentTo? windowId).toList := by
  cases step with
  | send other event =>
      simp only [queued, BusStep.sentTo?]
      by_cases same : other = windowId
      · rw [same, if_pos live, if_pos rfl, Option.toList_some]
      · rw [if_neg same, if_neg]
        · rfl
        · intro elsewhere
          obtain ⟨one, registered, here, -⟩ := liveChannel?_eq_some_iff.1 live
          obtain ⟨two, alsoRegistered, there, -⟩ := liveChannel?_eq_some_iff.1 elsewhere
          exact same (wired.apart other windowId two one alsoRegistered registered
            (there.trans here.symm))
  | _ => rfl

/-- From a live registration on, the holder of the receiver is given what is sent to the
window while the registration stands. -/
theorem delivers_of_live (wired : bus.Wired)
    (live : bus.liveChannel? windowId = some receiver) (history : BusHistory) :
    Delivers bus receiver history (history.sentWhileFed windowId receiver) := by
  obtain ⟨registration, registered, here, -⟩ := liveChannel?_eq_some_iff.1 live
  have opened : receiver < bus.channels.length :=
    here ▸ wired.opened windowId registration registered
  induction history generalizing bus registration with
  | nil => exact .nil
  | cons step rest ih =>
      unfold BusHistory.sentWhileFed
      by_cases dropped : step = .drop receiver
      · subst dropped
        rw [List.takeWhile_cons_of_neg (by simp)]
        exact .drop opened rest
      have longer := @length_channels_perform bus step
      cases replaced : step.replaces windowId with
      | true =>
          have unfed : ∀ other found, (step.perform bus).registration? other = some found →
              found.channel ≠ receiver := by
            intro other found stands same
            rcases registration?_perform_cases stands with old | ⟨-, next⟩
            · have equal := wired.apart other windowId found registration old registered
                (same.trans here.symm)
              subst equal
              rw [registration?_perform] at stands
              cases step <;> grind [BusStep.replaces]
            · omega
          have later := delivers_of_unfed (by omega) unfed rest
          have silent : bus.queued receiver step = [] := by
            rw [queued_of_live wired live]
            cases step <;> first | rfl | cases replaced
          have both := Delivers.cons opened dropped later
          rw [silent] at both
          rw [List.takeWhile_cons_of_neg (by simp [replaced])]
          exact both
      | false =>
          have still := liveChannel?_perform wired live replaced dropped
          obtain ⟨found, stands, same, -⟩ := liveChannel?_eq_some_iff.1 still
          have later := ih (wired.perform step) still found stands same (by omega)
          have both := Delivers.cons opened dropped later
          rw [queued_of_live wired live] at both
          rw [List.takeWhile_cons_of_pos (by simp [replaced, dropped]), List.filterMap_cons]
          cases sent : step.sentTo? windowId <;> rw [sent] at both <;> exact both

end Fed

/-! ## How long a registration stands -/

section Standing

variable {bus : Bus} {windowId : String} {registration : Registration} {history : BusHistory}

/-- A registration that is not replaced is there or was removed, after any step. -/
theorem registration?_perform_of_stands {step : BusStep}
    (registered : bus.registration? windowId = some registration)
    (stands : step.replaces windowId = false) :
    (step.perform bus).registration? windowId = none ∨
      (step.perform bus).registration? windowId = some registration := by
  rw [registration?_perform]
  cases step <;> grind [BusStep.replaces]

/-- A window that is not registered stays so until it registers. -/
theorem registration?_after_of_none (absent : bus.registration? windowId = none)
    (unchanged : ∀ step ∈ history, step.replaces windowId = false) :
    (bus.after history).registration? windowId = none := by
  induction history generalizing bus with
  | nil => exact absent
  | cons step rest ih =>
      refine ih ?_ fun other there => unchanged other (List.mem_cons_of_mem _ there)
      have stands := unchanged step List.mem_cons_self
      rw [registration?_perform]
      cases step <;> grind [BusStep.replaces]

theorem registration?_after_of_stands
    (registered : bus.registration? windowId = some registration)
    (unchanged : ∀ step ∈ history, step.replaces windowId = false) :
    (bus.after history).registration? windowId = none ∨
      (bus.after history).registration? windowId = some registration := by
  induction history generalizing bus with
  | nil => exact .inr registered
  | cons step rest ih =>
      have later : ∀ other ∈ rest, other.replaces windowId = false :=
        fun other there => unchanged other (List.mem_cons_of_mem _ there)
      show ((step.perform bus).after rest).registration? windowId = none ∨ _
      rcases registration?_perform_of_stands registered (unchanged step List.mem_cons_self) with
        removed | still
      · exact .inl (registration?_after_of_none removed later)
      · exact ih still later

/-- A receiver that is dropped never exists again. -/
theorem hasReceiver_after_of_dropped {receiver : Nat} (opened : receiver < bus.channels.length)
    (gone : bus.hasReceiver receiver = false ∨ .drop receiver ∈ history) :
    (bus.after history).hasReceiver receiver = false := by
  induction history generalizing bus with
  | nil => exact gone.resolve_right List.not_mem_nil
  | cons step rest ih =>
      have longer := @length_channels_perform bus step
      have receivers := hasReceiver_perform opened step
      refine ih (by omega) ?_
      rcases gone with gone | dropped
      · left
        rw [receivers, gone, Bool.false_and]
      · rcases List.mem_cons.1 dropped with rfl | later
        · left
          rw [receivers]
          simp
        · exact .inr later

/-- A registration whose receiver is gone stands until something is sent to the window. -/
theorem isRegistered_after_of_dropped (opened : registration.channel < bus.channels.length)
    (registered : bus.registration? windowId = some registration)
    (gone : bus.hasReceiver registration.channel = false)
    (unchanged : ∀ step ∈ history, step.replaces windowId = false) :
    (bus.after history).isRegistered windowId = true ↔
      ∀ event, .send windowId event ∉ history := by
  induction history generalizing bus with
  | nil => simp [after, isRegistered, registered]
  | cons step rest ih =>
      have later : ∀ other ∈ rest, other.replaces windowId = false :=
        fun other there => unchanged other (List.mem_cons_of_mem _ there)
      have dead : bus.liveChannel? windowId = none := by
        rw [liveChannel?, registered, Option.bind_some, gone]
        rfl
      show ((step.perform bus).after rest).isRegistered windowId = true ↔ _
      by_cases sent : ∃ event, step = .send windowId event
      · obtain ⟨event, rfl⟩ := sent
        have removed : ((BusStep.send windowId event).perform bus).registration? windowId =
            none := by
          rw [registration?_perform]
          exact if_pos ⟨rfl, dead⟩
        rw [isRegistered, registration?_after_of_none removed later]
        exact iff_of_false (by simp) fun never => never event List.mem_cons_self
      · have still : (step.perform bus).registration? windowId = some registration := by
          have stands := unchanged step List.mem_cons_self
          rw [registration?_perform, ← registered]
          cases step <;> grind [BusStep.replaces]
        have longer := @length_channels_perform bus step
        have absent : (step.perform bus).hasReceiver registration.channel = false := by
          rw [hasReceiver_perform opened, gone, Bool.false_and]
        refine (ih (by omega) still absent later).trans (forall_congr' fun event => ?_)
        have apart : BusStep.send windowId event ≠ step := fun same => sent ⟨event, same.symm⟩
        rw [List.mem_cons, or_iff_right apart]

/-- A live registration stands until something is sent to the window after the receiver was
dropped. -/
theorem isRegistered_after_of_live (wired : bus.Wired)
    (registered : bus.registration? windowId = some registration)
    (there : bus.hasReceiver registration.channel = true)
    (unchanged : ∀ step ∈ history, step.replaces windowId = false) :
    (bus.after history).isRegistered windowId = true ↔
      ¬ history.Misses windowId registration.channel := by
  induction history generalizing bus with
  | nil =>
      have nothing : ¬ BusHistory.Misses [] windowId registration.channel := by
        rintro ⟨early, late, event, split, -⟩
        exact absurd split.symm (List.append_ne_nil_of_right_ne_nil _ (List.cons_ne_nil _ _))
      exact iff_of_true (by simp [after, isRegistered, registered]) nothing
  | cons step rest ih =>
      have later : ∀ other ∈ rest, other.replaces windowId = false :=
        fun other there => unchanged other (List.mem_cons_of_mem _ there)
      have opened := wired.opened windowId registration registered
      have longer := @length_channels_perform bus step
      show ((step.perform bus).after rest).isRegistered windowId = true ↔ _
      rw [BusHistory.misses_cons]
      by_cases dropped : step = .drop registration.channel
      · subst dropped
        have gone : ((BusStep.drop registration.channel).perform bus).hasReceiver
            registration.channel = false := by
          rw [hasReceiver_perform opened]
          simp
        have still : ((BusStep.drop registration.channel).perform bus).registration? windowId =
            some registration := registered
        rw [isRegistered_after_of_dropped (by omega) still gone later]
        constructor
        · rintro never (⟨-, event, sent⟩ | ⟨early, late, event, rfl, sent⟩)
          · exact never event sent
          · exact never event (List.mem_append_right _ (List.mem_cons_of_mem _ sent))
        · intro notMissed event sent
          exact notMissed (.inl ⟨rfl, event, sent⟩)
      · have live := liveChannel?_perform wired
          (liveChannel?_eq_some_iff.2 ⟨registration, registered, rfl, there⟩)
          (unchanged step List.mem_cons_self) dropped
        obtain ⟨found, stands, -, still⟩ := liveChannel?_eq_some_iff.1 live
        have same : (step.perform bus).registration? windowId = some registration := by
          rcases registration?_perform_of_stands registered
            (unchanged step List.mem_cons_self) with removed | kept
          · rw [removed] at stands
            cases stands
          · exact kept
        rw [ih (wired.perform step) same still later]
        simp only [dropped, false_and, false_or]

end Standing

/-! ## From the empty bus -/

/-- A new registration has a live channel of its own, in which nothing waits. -/
theorem perform_register (bus : Bus) (windowId : String) :
    let registered := (BusStep.register windowId).perform bus
    registered.registration? windowId = some ⟨bus.nextGeneration, bus.channels.length⟩ ∧
      registered.hasReceiver bus.channels.length = true ∧
      registered.pending bus.channels.length = [] := by
  intro registered
  have last : registered.channels[bus.channels.length]? = some ⟨[], true⟩ :=
    List.getElem?_concat_length
  refine ⟨?_, ?_, ?_⟩
  · rw [registration?_perform]
    exact if_pos rfl
  · rw [hasReceiver_eq, last]
    rfl
  · rw [pending_eq, last]
    rfl

theorem length_channels_after_empty (history : BusHistory) :
    (empty.after history).channels.length = history.receivers := by
  rw [length_channels_after]
  exact Nat.zero_add _

/-- The bus after a registration, seen from the window that registered and from the number of
receivers before. -/
theorem register_after_empty (before : BusHistory) (windowId : String) :
    let registered := (BusStep.register windowId).perform (empty.after before)
    registered.Wired ∧
      (∃ registration, registered.registration? windowId = some registration ∧
        registration.channel = before.receivers) ∧
      registered.hasReceiver before.receivers = true ∧
      registered.pending before.receivers = [] := by
  obtain ⟨stands, there, nothing⟩ := perform_register (empty.after before) windowId
  rw [length_channels_after_empty] at stands there nothing
  exact ⟨(wired_empty.after before).perform _, ⟨_, stands, rfl⟩, there, nothing⟩

section Stands

variable {history since : BusHistory} {windowId : String} {receiver : Nat}

/-- A window that is registered has a registration that stands. -/
theorem exists_stands_of_registered {registration : Registration}
    (registered : (empty.after history).registration? windowId = some registration) :
    ∃ receiver since, history.Stands windowId receiver since := by
  rcases history.exists_last_replaces windowId with
    unchanged | ⟨before, last, since, split, replaces, unchanged⟩
  · have absent : empty.registration? windowId = none := rfl
    rw [registration?_after_of_none absent unchanged] at registered
    cases registered
  · cases last with
    | register other =>
        have same : other = windowId := by simpa [BusStep.replaces] using replaces
        subst same
        exact ⟨_, since, before, split, rfl, unchanged⟩
    | unregister other =>
        have same : other = windowId := by simpa [BusStep.replaces] using replaces
        subst same
        have absent : ((BusStep.unregister other).perform (empty.after before)).registration?
            other = none := by
          rw [registration?_perform]
          exact if_pos rfl
        rw [split, after_append] at registered
        exact absurd ((registration?_after_of_none absent unchanged).symm.trans registered)
          (Option.some_ne_none registration).symm
    | _ => cases replaces

/-- A registration that was not replaced or taken back stands until an event misses its
receiver. -/
theorem isRegistered_iff_of_stands (stands : history.Stands windowId receiver since) :
    (empty.after history).isRegistered windowId = true ↔ ¬ since.Misses windowId receiver := by
  obtain ⟨before, rfl, rfl, unchanged⟩ := stands
  obtain ⟨wired, ⟨registration, registered, same⟩, there, -⟩ :=
    register_after_empty before windowId
  rw [← same] at there ⊢
  rw [after_append]
  exact isRegistered_after_of_live wired registered there unchanged

/-- A registration that was not replaced or taken back is live until its receiver is
dropped. -/
theorem isSome_liveChannel?_iff_of_stands (stands : history.Stands windowId receiver since) :
    ((empty.after history).liveChannel? windowId).isSome = true ↔ .drop receiver ∉ since := by
  obtain ⟨before, rfl, rfl, unchanged⟩ := stands
  obtain ⟨wired, ⟨registration, registered, same⟩, there, -⟩ :=
    register_after_empty before windowId
  have opened := wired.opened windowId registration registered
  rw [← same] at there ⊢
  rw [after_append]
  constructor
  · intro live dropped
    obtain ⟨channel, live⟩ := Option.isSome_iff_exists.1 live
    obtain ⟨found, stands, rfl, still⟩ := liveChannel?_eq_some_iff.1 live
    rcases registration?_after_of_stands registered unchanged with removed | kept
    · exact absurd (removed.symm.trans stands) (Option.some_ne_none found).symm
    · cases kept.symm.trans stands
      have gone := hasReceiver_after_of_dropped opened (.inr dropped)
      exact absurd (gone.symm.trans still) Bool.false_ne_true
  · intro kept
    have live := liveChannel?_eq_some_iff.2 ⟨registration, registered, rfl, there⟩
    exact Option.isSome_iff_exists.2 ⟨_, liveChannel?_after wired live unchanged kept⟩

end Stands

/-- What can be seen of a bus follows from what was done to it.

The holder of a receiver is given the events that were sent to its window while the
registration was fed, each once and in the order in which they were sent; those that were not
taken yet are waiting. If the receiver was dropped, what was taken is the beginning of them.
Whenever an event waits the holder can have it: receiving hands out the oldest one, taking hands
out all, and what was handed out waits no longer, while what waits for others is not touched.
An event is queued exactly if the last registration of its window has not been replaced or
taken back and its receiver has not been dropped. A window is registered exactly if its last
registration has not been replaced or taken back and no event missed its receiver. -/
theorem bus_follows_its_history (history : BusHistory) :
    (∀ (before : BusHistory) (windowId : String) (since : BusHistory),
      history = before ++ .register windowId :: since →
      let receiver := ((empty.after before).register windowId).1
      let sent := since.sentWhileFed windowId receiver
      receiver = before.receivers ∧
        if .drop receiver ∈ since then empty.yielded receiver history <+: sent
        else empty.yielded receiver history ++ (empty.after history).pending receiver = sent) ∧
    (∀ receiver other : Nat,
      let bus := empty.after history
      (bus.receive receiver).1 = (bus.pending receiver).head? ∧
        (bus.receive receiver).2.pending other =
          (if receiver = other then (bus.pending other).tail else bus.pending other) ∧
        (bus.take receiver).1 = bus.pending receiver ∧
        (bus.take receiver).2.pending other =
          (if receiver = other then [] else bus.pending other)) ∧
    (∀ (windowId : String) (event : WindowEvent),
      ((empty.after history).send windowId event).1 = true ↔
        ∃ receiver since, history.Stands windowId receiver since ∧ .drop receiver ∉ since) ∧
    (∀ windowId : String,
      (empty.after history).isRegistered windowId = true ↔
        ∃ receiver since, history.Stands windowId receiver since ∧
          ¬ since.Misses windowId receiver) := by
  refine ⟨?_, ?_, ?_, ?_⟩
  · rintro before windowId since rfl
    have number : ((empty.after before).register windowId).1 = before.receivers :=
      length_channels_after_empty before
    simp only [number, true_and]
    obtain ⟨wired, ⟨registration, registered, same⟩, there, nothing⟩ :=
      register_after_empty before windowId
    have live := liveChannel?_eq_some_iff.2 ⟨registration, registered, same, there⟩
    have delivers := delivers_of_live wired live since
    have unopened : empty.yielded before.receivers before = [] :=
      yielded_of_unopened (Nat.le_of_eq (length_channels_after_empty before))
    have split : empty.yielded before.receivers (before ++ .register windowId :: since) =
        ((BusStep.register windowId).perform (empty.after before)).yielded before.receivers
          since := by
      rw [yielded_append, unopened, List.nil_append]
      rfl
    have early := delivers.early
    have rest := delivers.rest
    rw [nothing, List.nil_append] at early rest
    rw [split]
    by_cases dropped : .drop before.receivers ∈ since
    · rw [if_pos dropped]
      exact early
    · rw [if_neg dropped, after_append]
      exact rest dropped
  · intro receiver other bus
    exact ⟨receive_fst bus receiver, pending_receive bus receiver other, take_fst bus receiver,
      pending_take bus receiver other⟩
  · intro windowId event
    rw [send_fst]
    constructor
    · intro live
      obtain ⟨channel, found⟩ := Option.isSome_iff_exists.1 live
      obtain ⟨registration, registered, -⟩ := liveChannel?_eq_some_iff.1 found
      obtain ⟨receiver, since, stands⟩ := exists_stands_of_registered registered
      exact ⟨receiver, since, stands, (isSome_liveChannel?_iff_of_stands stands).1 live⟩
    · rintro ⟨receiver, since, stands, kept⟩
      exact (isSome_liveChannel?_iff_of_stands stands).2 kept
  · intro windowId
    constructor
    · intro registered
      obtain ⟨registration, found⟩ := Option.isSome_iff_exists.1 registered
      obtain ⟨receiver, since, stands⟩ := exists_stands_of_registered found
      exact ⟨receiver, since, stands, (isRegistered_iff_of_stands stands).1 registered⟩
    · rintro ⟨receiver, since, stands, notMissed⟩
      exact (isRegistered_iff_of_stands stands).2 notMissed

end Workbench.Bus
