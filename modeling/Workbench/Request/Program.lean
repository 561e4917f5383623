/-
# Requests as programs

A request is a program that acts on the world step by step. What a step does is an
effect: a store call, a look at the clock, a fresh identifier, a change to the context
of the request, or an event for a window. Every effect is one moment, so the requests of
several users mix only between effects, and a program says all there is to know about
the order of a request's effects.

The world is what requests share: the table of objects and the event bus. What is
beyond the program, such as the clock or the failures of the database engine, is given
for every moment by a tick.
-/

import Workbench.Bus
import Workbench.Store.Call

namespace Workbench

/-- What requests share. -/
structure World where
  table : Table
  bus : Bus

/-- What happens around a program at one moment. -/
structure Tick where
  moment : Moment
  /-- The identifier that is drawn if one is needed. -/
  freshOid : String
  /-- The time of day, in milliseconds since 1970. -/
  timeOfDay : Int64

/-- What a program can do in one moment. -/
inductive Effect where
  | storeCall (call : StoreCall)
  | freshOid
  | timeOfDay
  /-- Go on under a context of its own, with this much time and without a journal. -/
  | openContext (timeout : UInt64)
  /-- Keep a journal from here on. -/
  | openJournal
  /-- Look at the journal. -/
  | batch
  /-- Bring the deadline forward; the deadline so far is given back. -/
  | narrow (timeout : UInt64)
  /-- Put a deadline in force. -/
  | restore (deadline : Instant)
  /-- Send an event to a window; whether it was queued is given back. -/
  | send (windowId : String) (event : WindowEvent)

namespace Effect

/-- What an effect gives back. -/
abbrev Answer : Effect → Type
  | storeCall call => Except StoreError call.Value
  | freshOid => String
  | timeOfDay => Int64
  | openContext _ => Unit
  | openJournal => Unit
  | batch => UpdateBatch
  | narrow _ => Instant
  | restore _ => Unit
  | send _ _ => Bool

end Effect

/-- An answer, with the context and the world as they are after it was given. -/
structure Reply (α : Type) where
  answer : α
  context : Context
  world : World

namespace Effect

/-- Do what an effect says. -/
def perform (tick : Tick) (context : Context) (world : World) :
    (effect : Effect) → Reply effect.Answer
  | storeCall call =>
      let outcome := call.run tick.moment context world.table
      ⟨outcome.result, outcome.context, { world with table := outcome.table }⟩
  | freshOid => ⟨tick.freshOid, context, world⟩
  | timeOfDay => ⟨tick.timeOfDay, context, world⟩
  | openContext timeout => ⟨(), .withTimeout tick.moment.now timeout, world⟩
  | openJournal => ⟨(), context.withJournal, world⟩
  | batch => ⟨context.batch, context, world⟩
  | narrow timeout => ⟨context.deadline, context.narrow tick.moment.now timeout, world⟩
  | restore deadline => ⟨(), context.withDeadline deadline, world⟩
  | send windowId event =>
      let (queued, bus) := world.bus.send windowId event
      ⟨queued, context, { world with bus }⟩

end Effect

/-- A program that ends with a value. -/
inductive Program (α : Type) where
  | done (value : α)
  | step (effect : Effect) (next : effect.Answer → Program α)

/-- What is left of a program that ran: its value, the context, the world, and the number
of the next tick. -/
structure Completion (α : Type) extends Reply α where
  time : Nat

namespace Program

/-- Go on with the value of a program. -/
def bind {α β : Type} : Program α → (α → Program β) → Program β
  | done value, rest => rest value
  | step effect next, rest => step effect fun answer => (next answer).bind rest

instance : Monad Program where
  pure := done
  bind := bind

theorem bind_done {α : Type} (program : Program α) : program.bind done = program := by
  induction program with
  | done value => rfl
  | step effect next ih => exact congrArg (step effect) (funext ih)

theorem bind_assoc {α β γ : Type} (program : Program α) (first : α → Program β)
    (second : β → Program γ) :
    (program.bind first).bind second = program.bind fun value => (first value).bind second := by
  induction program with
  | done value => rfl
  | step effect next ih => exact congrArg (step effect) (funext ih)

instance : LawfulMonad Program :=
  LawfulMonad.mk' Program bind_done (fun _ _ => rfl) bind_assoc

/-- The program of one effect. -/
def perform (effect : Effect) : Program effect.Answer := step effect done

/-- Run a body with less time. However the body ends, the deadline is afterwards what it
was before. -/
def limited {α : Type} (timeout : UInt64) (body : Program α) : Program α := do
  let outer ← perform (.narrow timeout)
  let value ← body
  perform (.restore outer)
  return value

/-- Run a program on its own from a numbered tick on. Every effect takes one tick. -/
def run {α : Type} (ticks : Nat → Tick) (time : Nat) (context : Context) (world : World) :
    Program α → Completion α
  | done value => ⟨⟨value, context, world⟩, time⟩
  | step effect next =>
      let reply := effect.perform (ticks time) context world
      run ticks (time + 1) reply.context reply.world (next reply.answer)

/-- A program that goes on with another runs the other from where the first one ended. -/
theorem run_bind {α β : Type} (ticks : Nat → Tick) (time : Nat) (context : Context)
    (world : World) (program : Program α) (rest : α → Program β) :
    (program.bind rest).run ticks time context world =
      let first := program.run ticks time context world
      (rest first.answer).run ticks first.time first.context first.world := by
  induction program generalizing time context world with
  | done value => rfl
  | step effect next ih => exact ih _ _ _ _

end Program

end Workbench
