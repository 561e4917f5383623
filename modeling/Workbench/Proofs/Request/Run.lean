/-
# Running requests

A request runs step by step, and where a step fails the rest is left out. These are the
equations for the steps that requests are made of. With them the run of a request is
computed from the outcomes of its store calls, and the program behind it need not be looked
at any more.
-/

import Workbench.Request.Basic

namespace Workbench.Request

variable {α β : Type} (ticks : Nat → Tick) (time : Nat) (context : Context) (world : World)

/-- Run a request on its own from a numbered tick on. -/
def play (request : Request α) : Completion (Except RequestError α) :=
  Program.run ticks time context world request.run

/-- The outcome of a store call in the course of an operation. -/
def completionOf {call : StoreCall} (operation : String) (outcome : Outcome call.Value) :
    Completion (Except RequestError call.Value) :=
  ⟨⟨outcome.result.mapError (.store operation), outcome.context,
    { world with table := outcome.table }⟩, time + 1⟩

theorem play_pure (value : α) :
    play ticks time context world (pure value) = ⟨⟨.ok value, context, world⟩, time⟩ := rfl

theorem play_throw (problem : RequestError) :
    play ticks time context world (throw problem : Request α) =
      ⟨⟨.error problem, context, world⟩, time⟩ := rfl

/-- The program of a request that goes on after a step. -/
theorem program_bind (request : Request α) (rest : α → Request β) :
    (request >>= rest).run = request.run.bind fun answer =>
      match answer with
      | .ok value => (rest value).run
      | .error problem => .done (.error problem) := by
  apply congrArg request.run.bind
  funext answer
  cases answer <;> rfl

/-- A request goes on after a step that succeeded, and ends with a step that failed. -/
theorem play_bind (request : Request α) (rest : α → Request β) :
    play ticks time context world (request >>= rest) =
      let first := play ticks time context world request
      match first.answer with
      | .ok value => play ticks first.time first.context first.world (rest value)
      | .error problem => ⟨⟨.error problem, first.context, first.world⟩, first.time⟩ := by
  rw [play, program_bind, Program.run_bind, play]
  generalize Program.run ticks time context world request.run = first
  obtain ⟨⟨answer, laterContext, laterWorld⟩, later⟩ := first
  cases answer <;> rfl

theorem play_freshOid :
    play ticks time context world freshOid =
      ⟨⟨.ok (ticks time).freshOid, context, world⟩, time + 1⟩ := rfl

theorem play_timeOfDay :
    play ticks time context world timeOfDay =
      ⟨⟨.ok (ticks time).timeOfDay, context, world⟩, time + 1⟩ := rfl

theorem play_openJournal :
    play ticks time context world openJournal =
      ⟨⟨.ok (), context.withJournal, world⟩, time + 1⟩ := rfl

/-- Looking at the journal leaves the records in it. -/
theorem play_batch :
    play ticks time context world batch =
      ⟨⟨.ok context.batch, context, world⟩, time + 1⟩ := rfl

/-- Sending takes one tick and never fails. -/
theorem play_send (windowId : String) (event : WindowEvent) :
    play ticks time context world (send windowId event) =
      ⟨⟨.ok (), context, { world with bus := (world.bus.send windowId event).2 }⟩, time + 1⟩ :=
  rfl

/-- A store call whose failure is a value. -/
theorem play_attempt (storeCall : StoreCall) :
    play ticks time context world (attempt storeCall) =
      ⟨⟨.ok (storeCall.run (ticks time).moment context world.table).result,
        (storeCall.run (ticks time).moment context world.table).context,
        { world with table := (storeCall.run (ticks time).moment context world.table).table }⟩,
        time + 1⟩ :=
  rfl

/-- A store call takes one tick, and its failure is the failure of the request. -/
theorem play_call (operation : String) (storeCall : StoreCall) :
    play ticks time context world (call operation storeCall) =
      completionOf time world operation
        (storeCall.run (ticks time).moment context world.table) := by
  rw [call, play_bind, play_attempt, completionOf]
  cases (storeCall.run (ticks time).moment context world.table).result <;> rfl

/-- After an attempt the request goes on with what became of it. -/
theorem play_attempt_bind (storeCall : StoreCall)
    (rest : Except StoreError storeCall.Value → Request β)
    {outcome : Outcome storeCall.Value}
    (ran : storeCall.run (ticks time).moment context world.table = outcome) :
    play ticks time context world (attempt storeCall >>= rest) =
      play ticks (time + 1) outcome.context { world with table := outcome.table }
        (rest outcome.result) := by
  rw [play_bind, play_attempt, ran]

section Calling

variable (operation : String) (storeCall : StoreCall) (rest : storeCall.Value → Request β)

/-- A call that fails is the end of the request. -/
theorem play_call_bind_of_error {problem : StoreError}
    (failed : storeCall.run (ticks time).moment context world.table =
      ⟨.error problem, context, world.table⟩) :
    play ticks time context world (call operation storeCall >>= rest) =
      ⟨⟨.error (.store operation problem), context, world⟩, time + 1⟩ := by
  rw [play_bind, play_call, failed]
  rfl

/-- After a call that succeeds the request goes on. -/
theorem play_call_bind_of_ok {value : storeCall.Value} {later : Context} {after : Table}
    (succeeded : storeCall.run (ticks time).moment context world.table =
      ⟨.ok value, later, after⟩) :
    play ticks time context world (call operation storeCall >>= rest) =
      play ticks (time + 1) later { world with table := after } (rest value) := by
  rw [play_bind, play_call, succeeded]
  rfl

end Calling

/-- The program of a request with less time. -/
theorem program_limited (timeout : UInt64) (body : Request α) :
    (limited timeout body).run =
      .step (.narrow timeout) fun outer =>
        body.run.bind fun answer => .step (.restore outer) fun _ => .done answer :=
  rfl

/-- A request with less time is the request under an earlier deadline, and afterwards the
deadline is what it was, however the request ended. -/
theorem play_limited (timeout : UInt64) (body : Request α) :
    play ticks time context world (limited timeout body) =
      let inner := play ticks (time + 1)
        (context.narrow (ticks time).moment.now timeout) world body
      ⟨⟨inner.answer, inner.context.withDeadline context.deadline, inner.world⟩,
        inner.time + 1⟩ := by
  rw [play, program_limited, Program.run, Program.run_bind, play]
  rfl

/-- A request that is settled runs as it does on its own, and its failure is a value. -/
theorem play_settle (body : Request α) :
    play ticks time context world (settle body) =
      let inner := play ticks time context world body
      ⟨⟨.ok inner.answer, inner.context, inner.world⟩, inner.time⟩ :=
  Program.run_bind ticks time context world body.run _

end Workbench.Request
