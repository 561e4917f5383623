/-
# Calls on the bus that overlap

To register a window takes two moments, and so does a send that fails: a generation is drawn before
the registration takes its place, and the receiver is found gone before the registration is removed.
In between, others may do what they like, with the same window too. They may register it anew, and
generations may take their places in another order than they were drawn in.

What a single move can do is said once. The moves of a call uninterrupted make up the call. For the
rest, the generation is what counts: as long as they do not come round again, a generation belongs
to one registration, and what a send has noted is the generation of a registration whose receiver is
gone. So whatever the others did meanwhile, no other registration is removed.
-/

import Mathlib.Logic.Function.Basic
import Workbench.Proofs.Bus.History

namespace Workbench

/-- Where a caller is between the moments of its calls. -/
inductive BusStage where
  /-- In no call, or between two. -/
  | idle
  /-- The registration was begun and has not taken its place. -/
  | registering (windowId : String) (registration : Registration)
  /-- A send failed and has not compared generations yet. -/
  | pruning (windowId : String) (generation : UInt64)

/-- A bus, and the callers that use it. -/
structure SharedBus where
  bus : Bus
  stage : Nat → BusStage

/-- One moment of a call, or the drop of a receiver. -/
inductive BusMove where
  /-- A caller begins to register a window. -/
  | draw (caller : Nat) (windowId : String)
  /-- A caller puts the registration that it began in its place. -/
  | insert (caller : Nat)
  | unregister (windowId : String)
  /-- A caller looks up a window and sends to it. -/
  | deliver (caller : Nat) (windowId : String) (event : WindowEvent)
  /-- A caller whose send failed removes the registration if it has not changed. -/
  | prune (caller : Nat)
  | drop (receiver : Nat)

/-- Whether a move begins a registration. -/
def BusMove.draws : BusMove → Bool
  | draw _ _ => true
  | _ => false

namespace SharedBus

/-- A bus on which nobody has registered, and callers that have called nothing yet. -/
def start : SharedBus := ⟨.empty, fun _ => .idle⟩

/-- The bus and its callers after a move. A caller that is not at the move's stage does nothing. -/
def step (shared : SharedBus) : BusMove → SharedBus
  | .draw caller windowId =>
      match shared.stage caller with
      | .idle =>
          let (registration, begun) := shared.bus.beginRegistration
          ⟨begun, Function.update shared.stage caller (.registering windowId registration)⟩
      | _ => shared
  | .insert caller =>
      match shared.stage caller with
      | .registering windowId registration =>
          ⟨shared.bus.completeRegistration windowId registration,
            Function.update shared.stage caller .idle⟩
      | _ => shared
  | .unregister windowId => { shared with bus := shared.bus.unregister windowId }
  | .deliver caller windowId event =>
      match shared.stage caller with
      | .idle =>
          match shared.bus.deliver windowId event with
          | (.disconnected generation, after) =>
              ⟨after, Function.update shared.stage caller (.pruning windowId generation)⟩
          | (_, after) => { shared with bus := after }
      | _ => shared
  | .prune caller =>
      match shared.stage caller with
      | .pruning windowId generation =>
          ⟨shared.bus.prune windowId generation, Function.update shared.stage caller .idle⟩
      | _ => shared
  | .drop receiver => { shared with bus := shared.bus.dropReceiver receiver }

/-- The bus and its callers after moves of any callers, in any order. -/
def play (shared : SharedBus) (moves : List BusMove) : SharedBus := moves.foldl step shared

/-- A move puts a registration in the place of a window, or takes the window's one back. -/
def Replaces (shared : SharedBus) (windowId : String) : BusMove → Prop
  | .insert caller => ∃ registration, shared.stage caller = .registering windowId registration
  | .unregister other => other = windowId
  | _ => False

/-- None of these moves replaces the registration of a window or takes it back. -/
def Untouched (shared : SharedBus) (windowId : String) : List BusMove → Prop
  | [] => True
  | move :: rest => ¬ shared.Replaces windowId move ∧ (shared.step move).Untouched windowId rest

theorem play_append (shared : SharedBus) (early late : List BusMove) :
    shared.play (early ++ late) = (shared.play early).play late :=
  List.foldl_append

/-! ## Calls that nobody interrupts -/

section Uninterrupted

variable {shared : SharedBus} {caller : Nat} (idle : shared.stage caller = .idle)
  (windowId : String)

include idle

theorem play_draw_insert :
    shared.play [.draw caller windowId, .insert caller] =
      { shared with bus := (shared.bus.register windowId).2 } := by
  simp only [play, List.foldl_cons, List.foldl_nil, step, idle, Function.update_self,
    Function.update_idem]
  rw [← idle, Function.update_eq_self]
  rfl

theorem play_deliver_prune (event : WindowEvent) :
    shared.play [.deliver caller windowId event, .prune caller] =
      { shared with bus := (shared.bus.send windowId event).2 } := by
  simp only [play, List.foldl_cons, List.foldl_nil, step, idle, Bus.send]
  obtain ⟨delivery, after⟩ := shared.bus.deliver windowId event
  cases delivery with
  | unregistered => simp only [idle]
  | delivered => simp only [idle]
  | disconnected generation =>
      simp only [Function.update_self, Function.update_idem]
      rw [← idle, Function.update_eq_self]

end Uninterrupted

/-! ## What a move can do -/

/-- What can come of a move. -/
inductive Takes (shared : SharedBus) : BusMove → SharedBus → Prop where
  /-- A caller is at another stage, or a window is not registered. -/
  | nothing {move : BusMove} (undropped : ∀ receiver, move ≠ .drop receiver) :
      Takes shared move shared
  | drawn {caller : Nat} (windowId : String) :
      Takes shared (.draw caller windowId)
        ⟨shared.bus.beginRegistration.2,
          Function.update shared.stage caller
            (.registering windowId shared.bus.beginRegistration.1)⟩
  | inserted {caller : Nat} {windowId : String} {registration : Registration}
      (held : shared.stage caller = .registering windowId registration) :
      Takes shared (.insert caller)
        ⟨shared.bus.completeRegistration windowId registration,
          Function.update shared.stage caller .idle⟩
  | unregistered (windowId : String) :
      Takes shared (.unregister windowId) { shared with bus := shared.bus.unregister windowId }
  | delivered {caller channel : Nat} {windowId : String} (event : WindowEvent)
      (live : shared.bus.liveChannel? windowId = some channel) :
      Takes shared (.deliver caller windowId event)
        { shared with bus := shared.bus.append channel [event] }
  | failed {caller : Nat} {windowId : String} {registration : Registration} (event : WindowEvent)
      (stands : shared.bus.registration? windowId = some registration)
      (gone : shared.bus.hasReceiver registration.channel = false) :
      Takes shared (.deliver caller windowId event)
        { shared with
          stage := Function.update shared.stage caller
            (.pruning windowId registration.generation) }
  | spared {caller : Nat} {windowId : String} {generation : UInt64}
      (noted : shared.stage caller = .pruning windowId generation) :
      Takes shared (.prune caller)
        { shared with stage := Function.update shared.stage caller .idle }
  | pruned {caller : Nat} {windowId : String} {registration : Registration}
      (stands : shared.bus.registration? windowId = some registration)
      (noted : shared.stage caller = .pruning windowId registration.generation) :
      Takes shared (.prune caller)
        ⟨shared.bus.unregister windowId, Function.update shared.stage caller .idle⟩
  | dropped (receiver : Nat) :
      Takes shared (.drop receiver) { shared with bus := shared.bus.dropReceiver receiver }

end SharedBus

namespace Bus

variable (bus : Bus) (windowId : String)

/-- The first moment of a send finds no registration, or a live channel, or no receiver. -/
theorem deliver_cases (event : WindowEvent) :
    bus.deliver windowId event = (.unregistered, bus) ∨
      (∃ channel, bus.liveChannel? windowId = some channel) ∨
      ∃ registration, bus.registration? windowId = some registration ∧
        bus.hasReceiver registration.channel = false ∧
        bus.deliver windowId event = (.disconnected registration.generation, bus) := by
  cases stands : bus.registration? windowId with
  | none => exact .inl (by rw [deliver, stands])
  | some registration =>
      cases there : bus.hasReceiver registration.channel with
      | true =>
          exact .inr (.inl ⟨_, liveChannel?_eq_some_iff.2 ⟨_, stands, rfl, there⟩⟩)
      | false =>
          refine .inr (.inr ⟨registration, rfl, there, ?_⟩)
          rw [deliver, stands]
          exact if_neg (Bool.eq_false_iff.1 there)

/-- The second moment of a failed send leaves the bus as it is, or removes the registration that
has the generation. -/
theorem prune_cases (generation : UInt64) :
    bus.prune windowId generation = bus ∨
      ∃ registration, bus.registration? windowId = some registration ∧
        registration.generation = generation ∧
        bus.prune windowId generation = bus.unregister windowId := by
  unfold prune
  cases stands : bus.registration? windowId with
  | none => exact .inl rfl
  | some registration =>
      by_cases same : registration.generation = generation
      · exact .inr ⟨registration, rfl, same, if_pos same⟩
      · exact .inl (if_neg same)

variable {bus}

theorem length_beginRegistration :
    bus.beginRegistration.2.channels.length = bus.channels.length + 1 :=
  List.length_append

theorem length_append (channel : Nat) (events : List WindowEvent) :
    (bus.append channel events).channels.length = bus.channels.length :=
  List.length_modify ..

theorem length_dropReceiver (receiver : Nat) :
    (bus.dropReceiver receiver).channels.length = bus.channels.length :=
  List.length_set

theorem hasReceiver_beginRegistration {receiver : Nat}
    (opened : receiver < bus.beginRegistration.2.channels.length) :
    bus.beginRegistration.2.hasReceiver receiver = true ↔
      (receiver < bus.channels.length → bus.hasReceiver receiver = true) := by
  rw [length_beginRegistration] at opened
  show Bus.hasReceiver ⟨_, bus.channels ++ [⟨[], true⟩], _⟩ receiver = true ↔ _
  rw [hasReceiver_eq, hasReceiver_eq]
  rcases Nat.lt_succ_iff_lt_or_eq.1 opened with earlier | rfl
  · rw [List.getElem?_append_left earlier]
    exact ⟨fun there _ => there, fun there => there earlier⟩
  · rw [List.getElem?_concat_length]
    exact iff_of_true rfl fun impossible => absurd impossible (Nat.lt_irrefl _)

theorem hasReceiver_dropReceiver {receiver : Nat} (opened : receiver < bus.channels.length)
    (other : Nat) :
    (bus.dropReceiver other).hasReceiver receiver = true ↔
      bus.hasReceiver receiver = true ∧ other ≠ receiver := by
  have survives := hasReceiver_perform opened (.drop other)
  rw [BusStep.perform] at survives
  rw [survives, Bool.and_eq_true, decide_eq_true_iff, ne_eq, BusStep.drop.injEq]

end Bus

namespace SharedBus

theorem step_takes (shared : SharedBus) (move : BusMove) :
    shared.Takes move (shared.step move) := by
  cases move with
  | draw caller windowId =>
      rw [step]
      cases shared.stage caller with
      | idle => exact .drawn windowId
      | registering other registration => exact .nothing nofun
      | pruning other generation => exact .nothing nofun
  | insert caller =>
      rw [step]
      cases held : shared.stage caller with
      | idle => exact .nothing nofun
      | registering windowId registration => exact .inserted held
      | pruning windowId generation => exact .nothing nofun
  | unregister windowId => exact .unregistered windowId
  | deliver caller windowId event =>
      rw [step]
      cases shared.stage caller with
      | idle =>
          rcases shared.bus.deliver_cases windowId event with
            absent | ⟨channel, live⟩ | ⟨registration, stands, gone, failed⟩
          · rw [absent]
            exact .nothing nofun
          · rw [Bus.deliver_of_live live]
            exact .delivered event live
          · rw [failed]
            exact .failed event stands gone
      | registering other registration => exact .nothing nofun
      | pruning other generation => exact .nothing nofun
  | prune caller =>
      rw [step]
      cases noted : shared.stage caller with
      | idle => exact .nothing nofun
      | registering windowId registration => exact .nothing nofun
      | pruning windowId generation =>
          rcases shared.bus.prune_cases windowId generation with
            spared | ⟨registration, stands, rfl, removed⟩
          · simp only [spared]
            exact .spared noted
          · simp only [removed]
            exact .pruned stands noted
  | drop receiver => exact .dropped receiver

namespace Takes

variable {shared later : SharedBus} {move : BusMove}

/-- A move opens at most one channel, and only if it begins a registration. -/
theorem length_channels (takes : shared.Takes move later) :
    shared.bus.channels.length ≤ later.bus.channels.length ∧
      later.bus.channels.length ≤
        shared.bus.channels.length + if move.draws then 1 else 0 := by
  cases takes with
  | nothing undropped => exact ⟨Nat.le_refl _, Nat.le_add_right _ _⟩
  | drawn windowId =>
      rw [Bus.length_beginRegistration]
      exact ⟨Nat.le_add_right _ _, Nat.le_refl _⟩
  | delivered event live =>
      rw [Bus.length_append]
      exact ⟨Nat.le_refl _, Nat.le_refl _⟩
  | dropped receiver =>
      rw [Bus.length_dropReceiver]
      exact ⟨Nat.le_refl _, Nat.le_refl _⟩
  | _ => exact ⟨Nat.le_refl _, Nat.le_refl _⟩

/-- A new channel has a receiver, and it has one until that is dropped. -/
theorem hasReceiver (takes : shared.Takes move later) {receiver : Nat}
    (opened : receiver < later.bus.channels.length) :
    later.bus.hasReceiver receiver = true ↔
      (receiver < shared.bus.channels.length →
        shared.bus.hasReceiver receiver = true ∧ move ≠ .drop receiver) := by
  -- most moves open no channel and drop no receiver
  have kept {there : Bool} {other : BusMove} (earlier : receiver < shared.bus.channels.length)
      (undropped : other ≠ .drop receiver) :
      there = true ↔ (receiver < shared.bus.channels.length →
        there = true ∧ other ≠ .drop receiver) :=
    ⟨fun alive _ => ⟨alive, undropped⟩, fun both => (both earlier).1⟩
  cases takes with
  | nothing undropped => exact kept opened (undropped receiver)
  | drawn windowId =>
      rw [Bus.hasReceiver_beginRegistration opened]
      exact forall_congr' fun _ => (and_iff_left nofun).symm
  | inserted held => exact kept opened nofun
  | unregistered windowId => exact kept opened nofun
  | delivered event live =>
      rw [Bus.length_append] at opened
      rw [Bus.hasReceiver_append]
      exact kept opened nofun
  | failed event stands gone => exact kept opened nofun
  | spared noted => exact kept opened nofun
  | pruned stands noted => exact kept opened nofun
  | dropped other =>
      rw [Bus.length_dropReceiver] at opened
      rw [Bus.hasReceiver_dropReceiver opened, ne_eq, ne_eq, BusMove.drop.injEq]
      exact ⟨fun both _ => both, fun both => both opened⟩

/-- A registration was in its place before a move, or the move put it there. -/
theorem registration?_cases (takes : shared.Takes move later) {windowId : String}
    {registration : Registration}
    (stands : later.bus.registration? windowId = some registration) :
    shared.bus.registration? windowId = some registration ∨
      ∃ caller, shared.stage caller = .registering windowId registration := by
  cases takes with
  | @inserted caller other inserted held =>
      rw [Bus.registration?_completeRegistration] at stands
      split at stands
      · rename_i same
        cases stands
        exact .inr ⟨caller, same ▸ held⟩
      · exact .inl stands
  | unregistered other =>
      rw [Bus.registration?_unregister] at stands
      split at stands
      · cases stands
      · exact .inl stands
  | pruned _ _ =>
      rw [Bus.registration?_unregister] at stands
      split at stands
      · cases stands
      · exact .inl stands
  | _ => exact .inl stands

/-- A registration stays in its place unless a move replaces it or takes it back, or a send that
has noted its generation removes it. -/
theorem registration?_of_stands (takes : shared.Takes move later) {windowId : String}
    {registration : Registration}
    (stands : shared.bus.registration? windowId = some registration) :
    later.bus.registration? windowId = some registration ∨ shared.Replaces windowId move ∨
      ∃ caller, shared.stage caller = .pruning windowId registration.generation := by
  cases takes with
  | @inserted caller other inserted held =>
      rw [Bus.registration?_completeRegistration]
      split
      · rename_i same
        exact .inr (.inl ⟨inserted, same ▸ held⟩)
      · exact .inl stands
  | unregistered other =>
      rw [Bus.registration?_unregister]
      split
      · rename_i same
        exact .inr (.inl same.symm)
      · exact .inl stands
  | @pruned caller other removed found noted =>
      rw [Bus.registration?_unregister]
      split
      · rename_i same
        subst same
        rw [stands, Option.some.injEq] at found
        subst found
        exact .inr (.inr ⟨caller, noted⟩)
      · exact .inl stands
  | _ => exact .inl stands

/-- A caller is where it was, or it has ended a call, or it has begun a registration, or it has
noted the generation of a registration whose receiver is gone. -/
theorem stage_cases (takes : shared.Takes move later) (caller : Nat) :
    later.stage caller = shared.stage caller ∨ later.stage caller = .idle ∨
      (∃ windowId, later.stage caller = .registering windowId shared.bus.beginRegistration.1 ∧
        later.bus = shared.bus.beginRegistration.2) ∨
      ∃ windowId registration, shared.bus.registration? windowId = some registration ∧
        shared.bus.hasReceiver registration.channel = false ∧
        later.stage caller = .pruning windowId registration.generation := by
  have reaches (acting : Nat) (stage : BusStage) :
      Function.update shared.stage acting stage caller = shared.stage caller ∨
        Function.update shared.stage acting stage caller = stage := by
    rw [Function.update_apply]
    split
    · exact .inr rfl
    · exact .inl rfl
  cases takes with
  | drawn windowId =>
      exact (reaches _ _).imp_right fun begun => .inr (.inl ⟨windowId, begun, rfl⟩)
  | inserted _ => exact (reaches _ _).imp_right .inl
  | failed event stands gone =>
      exact (reaches _ _).imp_right fun noted => .inr (.inr ⟨_, _, stands, gone, noted⟩)
  | spared _ => exact (reaches _ _).imp_right .inl
  | pruned _ _ => exact (reaches _ _).imp_right .inl
  | _ => exact .inl rfl

/-- A generation is drawn with every channel that is opened. -/
theorem nextGeneration (takes : shared.Takes move later)
    (next : shared.bus.nextGeneration = UInt64.ofNat shared.bus.channels.length) :
    later.bus.nextGeneration = UInt64.ofNat later.bus.channels.length := by
  cases takes with
  | drawn windowId =>
      rw [Bus.length_beginRegistration, UInt64.ofNat_add, ← next]
      rfl
  | delivered event live =>
      rw [Bus.length_append]
      exact next
  | dropped receiver =>
      rw [Bus.length_dropReceiver]
      exact next
  | _ => exact next

end Takes

end SharedBus

/-! ## Generations -/

/-- A registration was begun: its channel was opened, and its generation is the number of the
channel. -/
structure Bus.Began (bus : Bus) (registration : Registration) : Prop where
  opened : registration.channel < bus.channels.length
  numbered : registration.generation = UInt64.ofNat registration.channel

/-- Before generations come round again, they tell registrations apart. -/
theorem Bus.Began.eq_of_generation {bus : Bus} {first second : Registration}
    (few : bus.channels.length ≤ UInt64.size) (began : bus.Began first)
    (other : bus.Began second) (same : first.generation = second.generation) : first = second := by
  have channels : first.channel = second.channel := by
    rw [began.numbered, other.numbered] at same
    have numbers := congrArg UInt64.toNat same
    rwa [UInt64.toNat_ofNat_of_lt' (Nat.lt_of_lt_of_le began.opened few),
      UInt64.toNat_ofNat_of_lt' (Nat.lt_of_lt_of_le other.opened few)] at numbers
  cases first
  cases second
  cases channels
  cases same
  rfl

namespace SharedBus

/-- Every registration that is in its place, or that a caller has begun, has the generation of its
channel, and what a caller has noted is the generation of a registration whose receiver is gone. -/
structure Sound (shared : SharedBus) : Prop where
  next : shared.bus.nextGeneration = UInt64.ofNat shared.bus.channels.length
  standing : ∀ windowId registration,
    shared.bus.registration? windowId = some registration → shared.bus.Began registration
  held : ∀ caller windowId registration,
    shared.stage caller = .registering windowId registration → shared.bus.Began registration
  noted : ∀ caller windowId generation, shared.stage caller = .pruning windowId generation →
    ∃ registration, shared.bus.Began registration ∧
      shared.bus.hasReceiver registration.channel = false ∧
      registration.generation = generation

variable {shared later : SharedBus} {move : BusMove}

theorem sound_start : start.Sound where
  next := rfl
  standing _ _ impossible := nomatch impossible
  held _ _ _ impossible := nomatch impossible
  noted _ _ _ impossible := nomatch impossible

theorem Takes.began (takes : shared.Takes move later) {registration : Registration}
    (began : shared.bus.Began registration) : later.bus.Began registration :=
  ⟨Nat.lt_of_lt_of_le began.opened takes.length_channels.1, began.numbered⟩

/-- A receiver that is gone stays gone. -/
theorem Takes.gone (takes : shared.Takes move later) {receiver : Nat}
    (opened : receiver < shared.bus.channels.length)
    (gone : shared.bus.hasReceiver receiver = false) : later.bus.hasReceiver receiver = false := by
  refine Bool.eq_false_iff.2 fun there => ?_
  have before := (takes.hasReceiver (Nat.lt_of_lt_of_le opened takes.length_channels.1)).1 there
  exact Bool.eq_false_iff.1 gone (before opened).1

theorem Sound.takes (sound : shared.Sound) (takes : shared.Takes move later) : later.Sound where
  next := takes.nextGeneration sound.next
  standing windowId registration stands := by
    rcases takes.registration?_cases stands with old | ⟨caller, held⟩
    · exact takes.began (sound.standing windowId registration old)
    · exact takes.began (sound.held caller windowId registration held)
  held caller windowId registration held := by
    rcases takes.stage_cases caller with same | ended | ⟨other, begun, bus⟩ | ⟨_, _, _, _, noted⟩
    · rw [same] at held
      exact takes.began (sound.held caller windowId registration held)
    · rw [ended] at held
      cases held
    · rw [begun] at held
      cases held
      rw [bus]
      exact ⟨Nat.lt_of_lt_of_eq (Nat.lt_succ_self _) Bus.length_beginRegistration.symm, sound.next⟩
    · rw [noted] at held
      cases held
  noted caller windowId generation noted := by
    rcases takes.stage_cases caller with same | ended | ⟨other, begun, -⟩ |
      ⟨other, registration, stands, gone, now⟩
    · rw [same] at noted
      obtain ⟨registration, began, gone, number⟩ := sound.noted caller windowId generation noted
      exact ⟨registration, takes.began began, takes.gone began.opened gone, number⟩
    · rw [ended] at noted
      cases noted
    · rw [begun] at noted
      cases noted
    · rw [now] at noted
      cases noted
      have began := sound.standing windowId registration stands
      exact ⟨registration, takes.began began, takes.gone began.opened gone, rfl⟩

/-- What a send removes has no receiver any more. -/
theorem Sound.gone_of_noted (sound : shared.Sound)
    (few : shared.bus.channels.length ≤ UInt64.size) {caller : Nat} {windowId : String}
    {registration : Registration}
    (stands : shared.bus.registration? windowId = some registration)
    (noted : shared.stage caller = .pruning windowId registration.generation) :
    shared.bus.hasReceiver registration.channel = false := by
  obtain ⟨failed, began, gone, same⟩ := sound.noted caller windowId _ noted
  rw [← began.eq_of_generation few (sound.standing windowId registration stands) same]
  exact gone

/-! ## Runs -/

theorem Sound.play (sound : shared.Sound) (moves : List BusMove) : (shared.play moves).Sound := by
  induction moves generalizing shared with
  | nil => exact sound
  | cons move rest ih => exact ih (sound.takes (shared.step_takes move))

/-- Channels are opened by the registrations that begin, one each. -/
theorem length_channels_play (shared : SharedBus) (moves : List BusMove) :
    (shared.play moves).bus.channels.length ≤
      shared.bus.channels.length + moves.countP BusMove.draws := by
  induction moves generalizing shared with
  | nil => exact Nat.le_refl _
  | cons move rest ih =>
      have bound := (shared.step_takes move).length_channels.2
      have restBound := ih (shared.step move)
      rw [List.countP_cons]
      show ((shared.step move).play rest).bus.channels.length ≤ _
      omega

theorem gone_play {receiver : Nat} (opened : receiver < shared.bus.channels.length)
    (gone : shared.bus.hasReceiver receiver = false) (moves : List BusMove) :
    (shared.play moves).bus.hasReceiver receiver = false := by
  induction moves generalizing shared with
  | nil => exact gone
  | cons move rest ih =>
      have takes := shared.step_takes move
      exact ih (Nat.lt_of_lt_of_le opened takes.length_channels.1) (takes.gone opened gone)

/-- A receiver is gone only if it was dropped after its channel was opened. -/
theorem exists_drop_of_gone {receiver : Nat} {moves : List BusMove}
    (alive : receiver < shared.bus.channels.length → shared.bus.hasReceiver receiver = true)
    (opened : receiver < (shared.play moves).bus.channels.length)
    (gone : (shared.play moves).bus.hasReceiver receiver = false) :
    ∃ early late, moves = early ++ .drop receiver :: late ∧
      receiver < (shared.play early).bus.channels.length := by
  induction moves generalizing shared with
  | nil =>
      rw [play, List.foldl_nil, alive opened] at gone
      cases gone
  | cons move rest ih =>
      -- a drop before the channel is opened does not count
      by_cases here : move = .drop receiver ∧ receiver < shared.bus.channels.length
      · exact ⟨[], rest, by rw [here.1]; rfl, here.2⟩
      · have still : receiver < (shared.step move).bus.channels.length →
            (shared.step move).bus.hasReceiver receiver = true := fun there =>
          ((shared.step_takes move).hasReceiver there).2 fun before =>
            ⟨alive before, fun same => here ⟨same, before⟩⟩
        obtain ⟨early, late, split, before⟩ := ih still opened gone
        exact ⟨move :: early, late, by rw [split]; rfl, before⟩

/-- A registration stays in its place while it is not replaced or taken back and its receiver
exists, whatever sends are on their way. -/
theorem Sound.registration?_play (sound : shared.Sound) {moves : List BusMove}
    (few : shared.bus.channels.length + moves.countP BusMove.draws ≤ UInt64.size)
    {windowId : String} {registration : Registration}
    (stands : shared.bus.registration? windowId = some registration)
    (untouched : shared.Untouched windowId moves)
    (alive : (shared.play moves).bus.hasReceiver registration.channel = true) :
    (shared.play moves).bus.registration? windowId = some registration := by
  induction moves generalizing shared with
  | nil => exact stands
  | cons move rest ih =>
      obtain ⟨unreplaced, later⟩ := untouched
      have takes := shared.step_takes move
      have bound := takes.length_channels.2
      rw [List.countP_cons] at few
      rcases takes.registration?_of_stands stands with still | replaces | ⟨caller, noted⟩
      · exact ih (sound.takes takes) (by omega) still later alive
      · exact absurd replaces unreplaced
      · -- the send has noted the generation of this registration, so its receiver is gone for good
        have gone := sound.gone_of_noted (by omega) stands noted
        have dead := gone_play (sound.standing windowId registration stands).opened gone
          (move :: rest)
        rw [dead] at alive
        cases alive

end SharedBus

/-- Pruning never removes a live registration. Let any callers register windows, take registrations
back and send, let receivers be dropped, and let all this overlap in any way, with fewer
registrations than there are generations. If a registration is removed by a move that neither
replaces it nor takes it back, then its own receiver had been dropped before. So a registration that
took its place, and that has not been replaced or taken back since, is in its place as long as its
receiver exists, and the next event for the window is queued for this receiver. -/
theorem pruning_spares_live_registrations (moves : List BusMove)
    (few : moves.countP BusMove.draws < UInt64.size) :
    let shared := SharedBus.start.play moves
    (∀ move windowId registration, shared.bus.registration? windowId = some registration →
        ¬ shared.Replaces windowId move →
        (shared.step move).bus.registration? windowId ≠ some registration →
        shared.bus.hasReceiver registration.channel = false ∧
          ∃ early late, moves = early ++ .drop registration.channel :: late ∧
            registration.channel < (SharedBus.start.play early).bus.channels.length) ∧
      ∀ before caller windowId registration since, moves = before ++ .insert caller :: since →
        (SharedBus.start.play before).stage caller = .registering windowId registration →
        (SharedBus.start.play (before ++ [.insert caller])).Untouched windowId since →
        shared.bus.hasReceiver registration.channel = true →
        shared.bus.registration? windowId = some registration ∧
          ∀ event, shared.bus.deliver windowId event =
            (.delivered, shared.bus.append registration.channel [event]) := by
  intro shared
  have none : SharedBus.start.bus.channels.length = 0 := rfl
  constructor
  · intro move windowId registration stands unreplaced removed
    have sound : shared.Sound := SharedBus.sound_start.play moves
    have opened := SharedBus.start.length_channels_play moves
    rcases (shared.step_takes move).registration?_of_stands stands with
      still | replaces | ⟨caller, noted⟩
    · exact absurd still removed
    · exact absurd replaces unreplaced
    · have gone := sound.gone_of_noted (Nat.le_trans opened (by omega)) stands noted
      have began := sound.standing windowId registration stands
      exact ⟨gone, SharedBus.exists_drop_of_gone
        (fun impossible => absurd impossible (Nat.not_lt_zero _)) began.opened gone⟩
  · rintro before caller windowId registration since rfl held untouched alive
    have split : before ++ .insert caller :: since = (before ++ [.insert caller]) ++ since :=
      (List.append_assoc before [_] since).symm
    have inserted : (SharedBus.start.play (before ++ [.insert caller])).bus =
        (SharedBus.start.play before).bus.completeRegistration windowId registration := by
      rw [SharedBus.play_append, SharedBus.play, List.foldl_cons, List.foldl_nil,
        SharedBus.step, held]
    have stands : (SharedBus.start.play (before ++ [.insert caller])).bus.registration? windowId =
        some registration := by
      rw [inserted, Bus.registration?_completeRegistration, if_pos rfl]
    have opened := SharedBus.start.length_channels_play (before ++ [.insert caller])
    rw [split, List.countP_append] at few
    simp only [shared, split, SharedBus.play_append _ _ since] at alive ⊢
    have still := (SharedBus.sound_start.play _).registration?_play (by omega) stands untouched
      alive
    exact ⟨still, Bus.deliver_of_live
      (Bus.liveChannel?_eq_some_iff.2 ⟨registration, still, rfl, alive⟩)⟩

/-- A send fails, since the receiver of a window was dropped. Were the sender to prune now, it would
remove the registration. But first two others register the window, and the one that drew its
generation last is the first in place. The registration that stands in the end is spared, and the
next event is for its receiver. -/
theorem a_late_pruning_spares_a_new_registration :
    let event : WindowEvent := .ofLayoutAction "w" ⟨.insertAtIndex, "t", "b", [0], none⟩
    let failing : List BusMove := [.draw 0 "w", .insert 0, .drop 0, .deliver 1 "w" event]
    let renewing : List BusMove := [.draw 2 "w", .draw 3 "w", .insert 3, .insert 2, .prune 1]
    let failed := SharedBus.start.play failing
    let renewed := SharedBus.start.play (failing ++ renewing)
    failing.countP BusMove.draws < UInt64.size ∧ failed.bus.registration? "w" = some ⟨0, 0⟩ ∧
      (failed.step (.prune 1)).bus.registration? "w" = none ∧ failed.bus.hasReceiver 0 = false ∧
      (failing ++ renewing).countP BusMove.draws < UInt64.size ∧ renewed.bus.hasReceiver 1 = true ∧
      renewed.bus.registration? "w" = some ⟨1, 1⟩ ∧
      renewed.bus.deliver "w" event = (.delivered, renewed.bus.append 1 [event]) := by
  intro event failing renewing failed renewed
  have few : failing.countP BusMove.draws < UInt64.size := by decide
  have stands : failed.bus.registration? "w" = some ⟨0, 0⟩ := by decide +kernel
  have removed : (failed.step (.prune 1)).bus.registration? "w" = none := by decide +kernel
  have gone := (pruning_spares_live_registrations failing few).1 (.prune 1) "w" ⟨0, 0⟩ stands id
    (by rw [removed]; nofun)
  have stillFew : (failing ++ renewing).countP BusMove.draws < UInt64.size := by decide
  have alive : renewed.bus.hasReceiver 1 = true := by decide +kernel
  obtain ⟨still, delivered⟩ := (pruning_spares_live_registrations _ stillFew).2
    (failing ++ renewing.take 3) 2 "w" ⟨1, 1⟩ [.prune 1] rfl rfl ⟨id, trivial⟩ alive
  exact ⟨few, stands, removed, gone.1, stillFew, alive, still, delivered event⟩

end Workbench
