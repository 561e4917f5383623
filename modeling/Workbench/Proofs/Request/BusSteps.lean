/-
# What requests do to the bus

The only thing that a request does to the bus is to send. What was sent in a run can be read off
the run like the rows that were written, and it says what has become of the bus.
-/

import Workbench.Proofs.Bus.History
import Workbench.Proofs.Request.Run

namespace Workbench

/-- The step on the bus that an effect is, if it is one. -/
def Effect.busStep? : Effect → Option BusStep
  | .send windowId event => some (.send windowId event)
  | _ => none

/-- The steps on the bus in the run of a program, in order. -/
def Program.busSteps {α : Type} (ticks : Nat → Tick) (time : Nat) (context : Context)
    (world : World) : Program α → BusHistory
  | .done _ => []
  | .step effect next =>
      let reply := effect.perform (ticks time) context world
      effect.busStep?.toList ++
        (next reply.answer).busSteps ticks (time + 1) reply.context reply.world

/-- An effect is this step for the bus. -/
theorem Effect.perform_bus (effect : Effect) (tick : Tick) (context : Context) (world : World) :
    (effect.perform tick context world).world.bus = world.bus.after effect.busStep?.toList := by
  cases effect <;> rfl

namespace Program

variable {α β : Type} (ticks : Nat → Tick) (time : Nat) (context : Context) (world : World)

/-- The bus after a run is the bus after the steps of the run. -/
theorem run_bus (program : Program α) :
    (program.run ticks time context world).world.bus =
      world.bus.after (program.busSteps ticks time context world) := by
  induction program generalizing time context world with
  | done value => rfl
  | step effect next ih =>
      rw [run, ih, busSteps, Bus.after_append, effect.perform_bus]

theorem busSteps_bind (program : Program α) (rest : α → Program β) :
    (program.bind rest).busSteps ticks time context world =
      let first := program.run ticks time context world
      program.busSteps ticks time context world ++
        (rest first.answer).busSteps ticks first.time first.context first.world := by
  induction program generalizing time context world with
  | done value => rfl
  | step effect next ih =>
      rw [bind, busSteps, ih, busSteps, List.append_assoc]
      rfl

end Program

namespace Request

variable {α β : Type} (ticks : Nat → Tick) (time : Nat) (context : Context) (world : World)

/-- The steps on the bus in the run of a request, in order. -/
def busSteps (request : Request α) : BusHistory :=
  Program.busSteps ticks time context world request.run

/-- The steps of the rest come after those of the first request, if that succeeded. -/
theorem busSteps_bind (request : Request α) (rest : α → Request β) :
    busSteps ticks time context world (request >>= rest) =
      let first := play ticks time context world request
      busSteps ticks time context world request ++
        match first.answer with
        | .ok value => busSteps ticks first.time first.context first.world (rest value)
        | .error _ => [] := by
  rw [busSteps, program_bind, Program.busSteps_bind, play]
  generalize Program.run ticks time context world request.run = first
  obtain ⟨⟨answer, laterContext, laterWorld⟩, later⟩ := first
  cases answer <;> rfl

/-- A request of one effect has no more steps than the effect. -/
theorem busSteps_perform (effect : Effect) :
    busSteps ticks time context world (ExceptT.lift (Program.perform effect) : Request _) =
      effect.busStep?.toList :=
  List.append_nil _

theorem busSteps_call (operation : String) (storeCall : StoreCall) :
    busSteps ticks time context world (call operation storeCall) = [] := by
  rw [call, busSteps_bind, play_attempt, attempt, busSteps_perform]
  cases (storeCall.run (ticks time).moment context world.table).result <;> rfl

theorem busSteps_send (windowId : String) (event : WindowEvent) :
    busSteps ticks time context world (send windowId event) = [.send windowId event] :=
  rfl

/-- Less time does not change what is sent, but it may change how far the request comes. -/
theorem busSteps_limited (timeout : UInt64) (body : Request α) :
    busSteps ticks time context world (limited timeout body) =
      busSteps ticks (time + 1) (context.narrow (ticks time).moment.now timeout) world body := by
  rw [busSteps, program_limited, Program.busSteps, Program.busSteps_bind]
  exact List.append_nil _

theorem busSteps_settle (body : Request α) :
    busSteps ticks time context world (settle body) = busSteps ticks time context world body := by
  rw [busSteps, settle]
  refine (Program.busSteps_bind ticks time context world body.run _).trans ?_
  exact List.append_nil _

end Request

end Workbench
