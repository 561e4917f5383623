/-
# Requests under way at the same time

Several requests share one world. Each has its own context, and does one effect at a time;
between two of its effects any of the others may go on. A store call is one effect, because it
runs under the lock of the store. So a list of moves, each of which says whose turn it is and
what happens around it, tells all that can come of requests that run at the same time.
-/

import Mathlib.Logic.Function.Basic
import Workbench.Proofs.Request.Run
import Workbench.Proofs.Store.Reached

namespace Workbench

/-- Every effect keeps the rows in shape. -/
theorem Effect.holdsObjects_perform (tick : Tick) (context : Context) {world : World}
    (holds : world.table.HoldsObjects) (effect : Effect) :
    (effect.perform tick context world).world.table.HoldsObjects := by
  cases effect with
  | storeCall call => exact holds.call tick.moment context call
  | _ => exact holds

/-- A request under way: its context, and what it still has to do. -/
structure Underway (α : Type) where
  context : Context
  rest : Program (Except RequestError α)

namespace Underway

variable {α : Type}

/-- A request that has not done anything yet. -/
def start (context : Context) (request : Request α) : Underway α := ⟨context, request.run⟩

/-- The answer of a request that has come to its end. -/
def answer? (underway : Underway α) : Option (Except RequestError α) :=
  match underway.rest with
  | .done answer => some answer
  | .step _ _ => none

theorem answer?_eq_some_iff {underway : Underway α} {answer : Except RequestError α} :
    underway.answer? = some answer ↔ underway.rest = .done answer := by
  obtain ⟨context, rest⟩ := underway
  cases rest with
  | done value => simp only [answer?, Option.some.injEq, Program.done.injEq]
  | step effect next => simp only [answer?, reduceCtorEq]

end Underway

/-- One effect of one request, and what happens around it. -/
structure Move (count : Nat) where
  member : Fin count
  tick : Tick

/-- Requests under way at the same time, and the world that they share. -/
structure Crowd (count : Nat) (α : Type) where
  members : Fin count → Underway α
  world : World

namespace Crowd

variable {count : Nat} {α : Type}

/-- The crowd after a move. A request that has come to its end does nothing more. -/
def step (crowd : Crowd count α) (move : Move count) : Crowd count α :=
  match (crowd.members move.member).rest with
  | .done _ => crowd
  | .step effect next =>
      let reply := effect.perform move.tick (crowd.members move.member).context crowd.world
      ⟨Function.update crowd.members move.member ⟨reply.context, next reply.answer⟩, reply.world⟩

/-- The crowd after several moves. -/
def run (crowd : Crowd count α) (moves : List (Move count)) : Crowd count α :=
  moves.foldl step crowd

/-- The answer of a member, once it has one. -/
def answer? (crowd : Crowd count α) (member : Fin count) : Option (Except RequestError α) :=
  (crowd.members member).answer?

section Step

variable {crowd : Crowd count α} {move : Move count}

theorem step_of_done {answer : Except RequestError α}
    (done : (crowd.members move.member).rest = .done answer) : crowd.step move = crowd := by
  rw [step, done]

theorem step_of_step {effect : Effect} {next : effect.Answer → Program (Except RequestError α)}
    (going : (crowd.members move.member).rest = .step effect next) :
    crowd.step move =
      let reply := effect.perform move.tick (crowd.members move.member).context crowd.world
      ⟨Function.update crowd.members move.member ⟨reply.context, next reply.answer⟩,
        reply.world⟩ := by
  rw [step, going]

theorem members_step_of_step {effect : Effect}
    {next : effect.Answer → Program (Except RequestError α)}
    (going : (crowd.members move.member).rest = .step effect next) :
    (crowd.step move).members move.member =
      let reply := effect.perform move.tick (crowd.members move.member).context crowd.world
      ⟨reply.context, next reply.answer⟩ := by
  rw [step_of_step going]
  exact Function.update_self ..

/-- A move leaves the other members alone. -/
theorem members_step_of_ne {member : Fin count} (other : member ≠ move.member) :
    (crowd.step move).members member = crowd.members member := by
  cases rest : (crowd.members move.member).rest with
  | done answer => rw [step_of_done rest]
  | step effect next =>
      rw [step_of_step rest]
      exact Function.update_of_ne other ..

/-- A member that has come to its end stays as it is. -/
theorem members_step_of_done {member : Fin count} {answer : Except RequestError α}
    (done : (crowd.members member).rest = .done answer) :
    (crowd.step move).members member = crowd.members member := by
  by_cases same : member = move.member
  · subst same
    rw [step_of_done done]
  · exact members_step_of_ne same

end Step

variable {crowd : Crowd count α}

theorem members_run_of_done {member : Fin count} {answer : Except RequestError α}
    (done : (crowd.members member).rest = .done answer) (moves : List (Move count)) :
    (crowd.run moves).members member = crowd.members member := by
  induction moves generalizing crowd with
  | nil => rfl
  | cons move rest ih =>
      have still : (crowd.step move).members member = crowd.members member :=
        members_step_of_done done
      exact (ih (still ▸ done)).trans still

/-- A member that has one effect left has it left still, or has come to its end. -/
theorem rest_run_of_single {member : Fin count} {effect : Effect}
    {next : effect.Answer → Program (Except RequestError α)}
    (single : (crowd.members member).rest = .step effect next)
    (last : ∀ answer, ∃ value, next answer = .done value) (moves : List (Move count)) :
    ((crowd.run moves).members member).rest = .step effect next ∨
      ∃ value, ((crowd.run moves).members member).rest = .done value := by
  induction moves generalizing crowd with
  | nil => exact .inl single
  | cons move rest ih =>
      by_cases same : member = move.member
      · subst same
        have moved := members_step_of_step single
        obtain ⟨value, ended⟩ := last _
        have done := (congrArg Underway.rest moved).trans ended
        exact .inr ⟨value, (congrArg Underway.rest (members_run_of_done done rest)).trans done⟩
      · exact ih ((congrArg Underway.rest (members_step_of_ne same)).trans single)

end Crowd

end Workbench
