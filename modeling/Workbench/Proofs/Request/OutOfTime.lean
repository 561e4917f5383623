/-
# Out of time

The deadline of a context is looked at before anything that is stored. So a store call that comes
too late is refused in the same way whatever the table holds, it leaves everything as it is, and the
function that it would edit an object with is not called.

A request passes this on. Until its first store call it does nothing that others could notice, and
when that call is refused it ends. It runs blindly: nothing in the world has a part in how it ends.
Requests that set the time for themselves run blindly if they set none, and what they refuse for
another reason they refuse before.
-/

import Mathlib.Data.Nat.Basic
import Mathlib.Order.Monotone.Defs
import Workbench.Proofs.Request.Run
import Workbench.Request.Bootstrap

namespace Workbench

variable {moment : Moment} {context : Context}

/-! ## Store calls -/

namespace StoreCall

/-- Two calls ask for the same, up to the functions with which they edit objects. -/
inductive AgreesButEdit : StoreCall → StoreCall → Prop where
  | same (call : StoreCall) : AgreesButEdit call call
  | createAttached {child parent : Kind} (object : child.Object) (parentOid : String)
      (edit other : parent.Object → child.Object → parent.Object) :
      AgreesButEdit (.createAttached child parent object parentOid edit)
        (.createAttached child parent object parentOid other)
  | modify {kind : Kind} (oid : String) (edit other : kind.Object → kind.Object × Bool) :
      AgreesButEdit (.modify kind oid edit) (.modify kind oid other)
  | modifySingleton {kind : Kind} (edit other : kind.Object → kind.Object × Bool) :
      AgreesButEdit (.modifySingleton kind edit) (.modifySingleton kind other)

/-- What a call that comes too late fails with. That the kind has no singleton is found first. -/
def refusal : StoreCall → StoreError
  | getSingleton kind | modifySingleton kind _ =>
      if kind.isSingleton then .deadlineExceeded else .notSingleton kind
  | _ => .deadlineExceeded

theorem AgreesButEdit.refusal_eq {call other : StoreCall} (agrees : call.AgreesButEdit other) :
    other.refusal = call.refusal := by
  cases agrees <;> rfl

/-- A call is refused: whatever the table holds, and whatever function is there to edit objects,
the call fails in the same way, and table and journal stay as they are. -/
def IsRefused (call : StoreCall) (moment : Moment) (context : Context) : Prop :=
  ∀ other, call.AgreesButEdit other → ∀ table,
    other.run moment context table = ⟨.error call.refusal, context, table⟩

end StoreCall

theorem Moment.enter_of_expired (expired : context.isExpired moment.now = true) :
    moment.enter context = .error .deadlineExceeded := by
  rw [Moment.enter, expired, Bool.true_or, if_pos rfl]

namespace Store

-- It makes no difference whether the store is not entered for want of time or of the lock.
variable (barred : moment.enter context = .error .deadlineExceeded) (table : Table) (kind : Kind)

include barred

theorem reading_of_barred {α : Type} (read : Table → Except StoreError α) :
    reading moment context table read = ⟨.error .deadlineExceeded, context, table⟩ := by
  rw [reading, barred]
  rfl

theorem create_of_barred (object : kind.Object) :
    create moment context table kind object = ⟨.error .deadlineExceeded, context, table⟩ := by
  rw [create, barred]
  rfl

theorem createAttached_of_barred (child parent : Kind) (object : child.Object)
    (parentOid : String) (edit : parent.Object → child.Object → parent.Object) :
    createAttached moment context table child parent object parentOid edit =
      ⟨.error .deadlineExceeded, context, table⟩ := by
  rw [createAttached, attach, barred]
  rfl

/-- Not even the version of the caller's object is touched. -/
theorem update_of_barred (object : kind.Object) :
    update moment context table kind object =
      (⟨.error .deadlineExceeded, context, table⟩, object) := by
  rw [update, barred]
  rfl

theorem modifyWith_of_barred (load : Table → Except StoreError kind.Object)
    (edit : kind.Object → kind.Object × Bool) :
    modifyWith moment context table kind load edit =
      ⟨.error .deadlineExceeded, context, table⟩ := by
  rw [modifyWith, barred]
  rfl

end Store

namespace StoreCall

theorem run_of_barred (barred : moment.enter context = .error .deadlineExceeded) (table : Table)
    (call : StoreCall) :
    call.run moment context table = ⟨.error call.refusal, context, table⟩ := by
  cases call with
  | get kind oid => exact Store.reading_of_barred barred table _
  | mustGet kind oid => exact Store.reading_of_barred barred table _
  | getSingleton kind =>
      rw [run, Store.getSingleton, Kind.ensureSingleton, refusal]
      cases kind.isSingleton with
      | false => rfl
      | true => exact Store.reading_of_barred barred table _
  | getAll kind =>
      rw [run, Store.getAll, Store.reading_of_barred barred]
      rfl
  | create kind object => exact Store.create_of_barred barred table kind object
  | createAttached child parent object parentOid edit =>
      exact Store.createAttached_of_barred barred table child parent object parentOid edit
  | update kind object =>
      rw [run, Store.update_of_barred barred]
      rfl
  | modify kind oid edit => exact Store.modifyWith_of_barred barred table kind _ edit
  | modifySingleton kind edit =>
      rw [run, Store.modifySingleton, Kind.ensureSingleton, refusal]
      cases kind.isSingleton with
      | false => rfl
      | true => exact Store.modifyWith_of_barred barred table kind _ edit

theorem isRefused_of_barred (barred : moment.enter context = .error .deadlineExceeded)
    (call : StoreCall) : call.IsRefused moment context := by
  intro other agrees table
  rw [← agrees.refusal_eq]
  exact other.run_of_barred barred table

theorem isRefused_of_expired (expired : context.isExpired moment.now = true) (call : StoreCall) :
    call.IsRefused moment context :=
  call.isRefused_of_barred (Moment.enter_of_expired expired)

end StoreCall

/-! ## Blind runs -/

/-- A store call as a program makes it: the call, and the moment and the context of it. -/
structure CallMade where
  call : StoreCall
  moment : Moment
  context : Context

/-- The store call that an effect makes, if it makes one. -/
def Effect.callMade? (tick : Tick) (context : Context) : Effect → Option CallMade
  | .storeCall call => some ⟨call, tick.moment, context⟩
  | _ => none

/-- The store calls that a program makes, in order. -/
def Program.callsMade {α : Type} (ticks : Nat → Tick) (time : Nat) (context : Context)
    (world : World) : Program α → List CallMade
  | .done _ => []
  | .step effect next =>
      let reply := effect.perform (ticks time) context world
      (effect.callMade? (ticks time) context).toList ++
        (next reply.answer).callsMade ticks (time + 1) reply.context reply.world

/-- An effect that gives the same answer in every world and leaves the world as it is. If it is
a store call, it is refused. -/
structure Effect.Blind (tick : Tick) (context : Context) (effect : Effect)
    (answer : effect.Answer) (later : Context) : Prop where
  perform : ∀ world, effect.perform tick context world = ⟨answer, later, world⟩
  refused : ∀ made ∈ effect.callMade? tick context, made.call.IsRefused made.moment made.context

namespace Effect.Blind

variable {tick : Tick}

/-- Effects that do not concern the world are blind. -/
theorem of_no_call {effect : Effect} {answer : effect.Answer} {later : Context}
    (perform : ∀ world, effect.perform tick context world = ⟨answer, later, world⟩)
    (none : effect.callMade? tick context = none) : effect.Blind tick context answer later where
  perform := perform
  refused made isMade := by
    rw [none] at isMade
    cases isMade

theorem storeCall (expired : context.isExpired tick.moment.now = true) (call : StoreCall) :
    (Effect.storeCall call).Blind tick context (.error call.refusal) context where
  perform world := by rw [Effect.perform, call.run_of_barred (Moment.enter_of_expired expired)]
  refused made isMade := by
    cases isMade
    exact call.isRefused_of_expired expired

theorem freshOid : Effect.freshOid.Blind tick context tick.freshOid context :=
  of_no_call (fun _ => rfl) rfl

theorem timeOfDay : Effect.timeOfDay.Blind tick context tick.timeOfDay context :=
  of_no_call (fun _ => rfl) rfl

theorem openContext (timeout : UInt64) :
    (Effect.openContext timeout).Blind tick context () (.withTimeout tick.moment.now timeout) :=
  of_no_call (fun _ => rfl) rfl

theorem openJournal : Effect.openJournal.Blind tick context () context.withJournal :=
  of_no_call (fun _ => rfl) rfl

theorem narrow (timeout : UInt64) :
    (Effect.narrow timeout).Blind tick context context.deadline
      (context.narrow tick.moment.now timeout) :=
  of_no_call (fun _ => rfl) rfl

theorem restore (deadline : Instant) :
    (Effect.restore deadline).Blind tick context () (context.withDeadline deadline) :=
  of_no_call (fun _ => rfl) rfl

end Effect.Blind

/-- A program that ends with this value and this context in every world, as each of its effects
is blind. -/
inductive Program.Blind {α : Type} (ticks : Nat → Tick) :
    Nat → Context → Program α → α → Context → Prop where
  | done {time : Nat} {context : Context} (value : α) :
      Blind ticks time context (.done value) value context
  | step {time : Nat} {context between later : Context} {effect : Effect}
      {answer : effect.Answer} {next : effect.Answer → Program α} {value : α} :
      effect.Blind (ticks time) context answer between →
      Blind ticks (time + 1) between (next answer) value later →
      Blind ticks time context (.step effect next) value later

namespace Program.Blind

variable {α : Type} {ticks : Nat → Tick} {time : Nat} {program : Program α} {value : α}
  {later : Context}

/-- How a blind run ends is known without the world, and the world stays as it is. -/
theorem run (blind : program.Blind ticks time context value later) (world : World) :
    (program.run ticks time context world).toReply = ⟨value, later, world⟩ := by
  induction blind with
  | done value => rfl
  | step first _ ih =>
      rw [Program.run, first.perform]
      exact ih

/-- Whatever store calls a blind run makes, they are refused. -/
theorem refused (blind : program.Blind ticks time context value later) (world : World) :
    ∀ made ∈ program.callsMade ticks time context world,
      made.call.IsRefused made.moment made.context := by
  induction blind with
  | done value => exact fun _ isMade => nomatch isMade
  | step first _ ih =>
      intro made isMade
      rw [Program.callsMade, first.perform, List.mem_append, Option.mem_toList] at isMade
      exact isMade.elim (first.refused made) (ih made)

end Program.Blind

/-! ## Requests -/

/-- A request for the client, its windows, a layout or a block, with its arguments. -/
inductive Handler where
  | getClient (config : Config)
  | getWorkspace (config : Config) (oid : String)
  | getTab (config : Config) (oid : String)
  | getWindow (config : Config) (oid : String)
  | ensureInitialData
  | makeWindow
  | focusWindow (windowId : String)
  | agreeToTerms (config : Config)
  | bootstrapLayout (config : Config) (layout : Layout)
  | createBlock (tabId : String) (definition : BlockDefinition)
  | createViewBlock (surroundings : Surroundings) (tabId target : String) (options : ViewOptions)

namespace Handler

/-- What a request gives back when it succeeds. -/
abbrev Answer : Handler → Type
  | getClient _ => Client
  | getWorkspace _ _ => Option Workspace
  | getTab _ _ => Option Tab
  | getWindow _ _ => Option Window
  | ensureInitialData => Client
  | makeWindow => Window
  | focusWindow _ => Unit
  | agreeToTerms _ => UpdateBatch
  | bootstrapLayout _ _ => Unit
  | createBlock _ _ => Block
  | createViewBlock _ _ _ _ => CreatedBlock

/-- The request itself. -/
def request : (handler : Handler) → Request handler.Answer
  | getClient config => Request.getClient config
  | getWorkspace config oid => Request.getWorkspace config oid
  | getTab config oid => Request.getTab config oid
  | getWindow config oid => Request.getWindow config oid
  | ensureInitialData => Request.ensureInitialData
  | makeWindow => Request.makeWindow
  | focusWindow windowId => Request.focusWindow windowId
  | agreeToTerms config => Request.agreeToTerms config
  | bootstrapLayout config layout => Request.bootstrapLayout config layout
  | createBlock tabId definition => Request.createBlock tabId definition
  | createViewBlock surroundings tabId target options =>
      Request.createViewBlock surroundings tabId target options

/-- What a request that is out of time fails with: it was doing the first thing that it does in
the store. A layout that is not in order, and a target that cannot be shown, are found before. -/
def refusal : Handler → RequestError
  | getClient _ | ensureInitialData => .store "getting client data" .deadlineExceeded
  | getWorkspace _ _ => .store "getting workspace" .deadlineExceeded
  | getTab _ _ => .store "getting tab" .deadlineExceeded
  | getWindow _ _ => .store "getting window" .deadlineExceeded
  | makeWindow => .store "creating tab" .deadlineExceeded
  | focusWindow _ | agreeToTerms _ => .store "updating client data" .deadlineExceeded
  | bootstrapLayout _ layout =>
      match layout.validate with
      | .error cause => .invalidLayout cause
      | .ok () => .store "finding client" .deadlineExceeded
  | createBlock _ _ => .store "creating block in tab" .deadlineExceeded
  | createViewBlock surroundings _ target options =>
      match BlockRequest.ofViewTarget surroundings target options with
      | .error cause => .invalidTarget cause
      | .ok _ => .store "creating block in tab" .deadlineExceeded

/-- A request has no time. Look-ups have as much as is configured for them, a layout has at most as
much as is configured for it, and all others have what their context has. -/
def IsOutOfTime (now : Instant) (context : Context) : Handler → Prop
  | getClient config | getWorkspace config _ | getTab config _ | getWindow config _ =>
      config.accessorTimeout = 0
  | bootstrapLayout config _ => context.isExpired now = true ∨ config.bootstrapTimeout = 0
  | _ => context.isExpired now = true

/-- The context that a request leaves when it is refused. Look-ups have a context of their own,
and an acceptance of the terms sees to it that there is a journal. -/
def opened (now : Instant) (context : Context) : Handler → Context
  | getClient config | getWorkspace config _ | getTab config _ | getWindow config _ =>
      .withTimeout now config.accessorTimeout
  | agreeToTerms _ => context.withJournal
  | _ => context

/-- A request takes the context that it is given. Look-ups open one of their own. -/
def TakesContext : Handler → Prop
  | getClient _ | getWorkspace _ _ | getTab _ _ | getWindow _ _ => False
  | _ => True

/-- No record enters or leaves the journal of the context that was given. -/
theorem batch_opened (now : Instant) (context : Context) {handler : Handler}
    (takes : handler.TakesContext) : (handler.opened now context).batch = context.batch := by
  cases handler with
  | getClient config => exact takes.elim
  | getWorkspace config oid => exact takes.elim
  | getTab config oid => exact takes.elim
  | getWindow config oid => exact takes.elim
  | _ => rfl

end Handler

namespace Context

theorem isExpired_mono {now later : Instant} (expired : context.isExpired now = true)
    (since : now ≤ later) : context.isExpired later = true :=
  decide_eq_true (Nat.le_trans (of_decide_eq_true expired) since)

/-- A context that was opened with no time is out of time from then on. -/
theorem isExpired_withTimeout_zero {now later : Instant} {timeout : UInt64} (none : timeout = 0)
    (since : now ≤ later) : (withTimeout now timeout).isExpired later = true := by
  subst none
  exact decide_eq_true since

/-- A deadline that was brought forward has come if it had come anyway, or if no time was left
until it. -/
theorem isExpired_narrow {now later : Instant} {timeout : UInt64}
    (late : context.isExpired now = true ∨ timeout = 0) (since : now ≤ later) :
    (context.narrow now timeout).isExpired later = true := by
  refine decide_eq_true (Nat.le_trans ?_ since)
  rcases late with expired | rfl
  · exact Nat.le_trans (Nat.min_le_left _ _) (of_decide_eq_true expired)
  · exact Nat.min_le_right _ _

end Context

/-- A look-up that has no time. -/
theorem Program.Blind.lookUp {ticks : Nat → Tick} {time : Nat} {timeout : UInt64}
    (none : timeout = 0) (since : (ticks time).moment.now ≤ (ticks (time + 1)).moment.now)
    (operation : String) (call : StoreCall) :
    Program.Blind ticks time context
      (do Request.openContext timeout; Request.call operation call : Request call.Value).run
      (.error (.store operation call.refusal)) (.withTimeout (ticks time).moment.now timeout) :=
  .step (.openContext timeout) <|
    .step (.storeCall (Context.isExpired_withTimeout_zero none since) call) (.done _)

/-- A request that is out of time runs blindly. -/
theorem Handler.blind {ticks : Nat → Tick} (clock : Monotone fun time => (ticks time).moment.now)
    (time : Nat) (context : Context) (handler : Handler)
    (late : handler.IsOutOfTime (ticks time).moment.now context) :
    handler.request.run.Blind ticks time context (.error handler.refusal)
      (handler.opened (ticks time).moment.now context) := by
  -- the store call comes a tick or two later, and the clock has not gone back by then
  have since : (ticks time).moment.now ≤ (ticks (time + 1)).moment.now :=
    clock (Nat.le_add_right ..)
  cases handler with
  | getClient config => exact .lookUp late since "getting client data" _
  | getWorkspace config oid => exact .lookUp late since "getting workspace" _
  | getTab config oid => exact .lookUp late since "getting tab" _
  | getWindow config oid => exact .lookUp late since "getting window" _
  | ensureInitialData => exact .step (.storeCall late _) (.done _)
  | makeWindow =>
      exact .step .freshOid <| .step (.storeCall (Context.isExpired_mono late since) _) (.done _)
  | focusWindow windowId => exact .step (.storeCall late _) (.done _)
  | agreeToTerms config =>
      have stamp : (ticks time).moment.now ≤ (ticks (time + 2)).moment.now :=
        clock (Nat.le_add_right ..)
      have expired : context.withJournal.isExpired (ticks time).moment.now = true := late
      exact .step .openJournal <| .step .timeOfDay <|
        .step (.storeCall (Context.isExpired_mono expired stamp) _) (.done _)
  | bootstrapLayout config layout =>
      rw [request, Request.bootstrapLayout, refusal]
      cases layout.validate with
      | error cause => exact .done _
      | ok valid =>
          exact .step (.narrow _) <| .step (.storeCall (Context.isExpired_narrow late since) _) <|
            .step (.restore _) (.done _)
  | createBlock tabId definition =>
      exact .step .freshOid <| .step (.storeCall (Context.isExpired_mono late since) _) (.done _)
  | createViewBlock surroundings tabId target options =>
      rw [request, Request.createViewBlock, refusal]
      cases BlockRequest.ofViewTarget surroundings target options with
      | error cause => exact .done _
      | ok shown =>
          exact .step .freshOid <|
            .step (.storeCall (Context.isExpired_mono late since) _) (.done _)

/-- Nothing is changed or revealed out of time. A store call under an expired context is refused,
whatever the table holds and whatever functions it has to edit objects. A request that has no time,
be it that its context is expired or that the time configured for it is zero, fails for a reason
that does not depend on the world: the deadline, in the course of the first thing that it does in
the store, or what is wrong with its own arguments. It leaves rows, queues and registrations as they
are and adds nothing to a journal, and whatever store calls it makes on the way are refused. -/
theorem nothing_is_changed_or_revealed_out_of_time (ticks : Nat → Tick)
    (clock : Monotone fun time => (ticks time).moment.now) (time : Nat) (context : Context) :
    let now := (ticks time).moment.now
    (context.isExpired now = true →
        ∀ call : StoreCall, call.IsRefused (ticks time).moment context) ∧
      ∀ handler : Handler, handler.IsOutOfTime now context → ∀ world,
        (Request.play ticks time context world handler.request).toReply =
            ⟨.error handler.refusal, handler.opened now context, world⟩ ∧
          (handler.TakesContext → (handler.opened now context).batch = context.batch) ∧
          ∀ made ∈ handler.request.run.callsMade ticks time context world,
            made.call.IsRefused made.moment made.context := by
  intro now
  refine ⟨fun expired call => call.isRefused_of_expired expired, fun handler late world => ?_⟩
  have blind := handler.blind clock time context late
  exact ⟨blind.run world, handler.batch_opened now context, blind.refused world⟩

/-- The client is there and its window listens, and the clock moves on. A layout that has no time
stores nothing and tells the window nothing, though its context is not expired. Later it is, and
no window can be brought to the front any more. -/
theorem a_layout_and_a_focus_are_too_late :
    let ticks : Nat → Tick := fun time => ⟨.quiet time, "b", 0⟩
    let context : Context := ⟨10, some []⟩
    let world : World :=
      ⟨⟨[Kind.client.toRow ⟨"c", 1, ["v", "w"], 0, .empty⟩], List.pairwise_singleton _ _⟩,
        (Bus.empty.register "v").2⟩
    let focus : StoreCall :=
      .modifySingleton .client fun client => Client.focusWindow client "w"
    (Monotone fun time => (ticks time).moment.now) ∧
      context.isExpired (ticks 0).moment.now = false ∧
      (Request.play ticks 0 context world (Request.bootstrapLayout ⟨2000, 0, "info"⟩
          .starter)).toReply =
        ⟨.error (.store "finding client" .deadlineExceeded), context, world⟩ ∧
      context.isExpired (ticks 10).moment.now = true ∧
      focus.run (ticks 10).moment context world.table =
        ⟨.error .deadlineExceeded, context, world.table⟩ := by
  intro ticks context world focus
  have clock : Monotone fun time => (ticks time).moment.now := fun _ _ earlier => earlier
  have layout := (nothing_is_changed_or_revealed_out_of_time ticks clock 0 context).2
    (.bootstrapLayout ⟨2000, 0, "info"⟩ .starter) (.inr rfl) world
  have late : context.isExpired (ticks 10).moment.now = true := rfl
  have refused := (nothing_is_changed_or_revealed_out_of_time ticks clock 10 context).1 late
  exact ⟨clock, rfl, layout.1, late, refused focus focus (.same focus) world.table⟩

end Workbench
