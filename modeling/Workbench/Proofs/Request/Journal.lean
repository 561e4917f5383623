/-
# The journal of a run

What a program writes can be read off a run: every store call that succeeds contributes
the rows that it wrote. The journal is kept by the store calls, one at a time, while the
rows are counted here from the tables alone. Both agree on every run of every program
that leaves its context in place, so they agree on runs of requests, however many calls
were made and wherever they failed.
-/

import Workbench.Proofs.Store.Replay
import Workbench.Request.Bootstrap

namespace Workbench

/-- The rows that an effect writes. -/
def Effect.written (tick : Tick) (context : Context) (world : World) : Effect → List RowWrite
  | .storeCall call =>
      let outcome := call.run tick.moment context world.table
      match outcome.result with
      | .ok value => call.written world.table outcome.table value
      | .error _ => []
  | _ => []

/-- The rows that a program writes when it is run, in order. -/
def Program.written {α : Type} (ticks : Nat → Tick) (time : Nat) (context : Context)
    (world : World) : Program α → List RowWrite
  | .done _ => []
  | .step effect next =>
      let reply := effect.perform (ticks time) context world
      effect.written (ticks time) context world ++
        (next reply.answer).written ticks (time + 1) reply.context reply.world

/-! ## Programs that keep their journal -/

/-- An effect that neither replaces the context nor opens a journal. -/
def Effect.KeepsJournal : Effect → Prop
  | .openContext _ => False
  | .openJournal => False
  | _ => True

/-- A program all of whose effects, whatever they answer, leave the journal in place. -/
inductive Program.KeepsJournal {α : Type} : Program α → Prop where
  | done (value : α) : KeepsJournal (.done value)
  | step {effect : Effect} {next : effect.Answer → Program α} :
      effect.KeepsJournal → (∀ answer, (next answer).KeepsJournal) →
      KeepsJournal (.step effect next)

/-- One effect appends the records of its writes and nothing else, and the table takes these
writes. -/
theorem Effect.perform_written {effect : Effect} (keeps : effect.KeepsJournal) (tick : Tick)
    (context : Context) (world : World) :
    (effect.perform tick context world).context.journal =
        context.journal.map (· ++ (effect.written tick context world).map RowWrite.record) ∧
      Table.Writes world.table (effect.written tick context world)
        (effect.perform tick context world).world.table := by
  have silent : context.journal = context.journal.map (· ++ ([] : List UpdateRecord)) := by
    cases context.journal <;> simp
  cases effect with
  | storeCall call =>
      have ended := call.ends tick.moment context world.table
      simp only [perform, written]
      generalize call.run tick.moment context world.table = outcome at ended ⊢
      cases ended with
      | failed problem => exact ⟨silent, .none _⟩
      | succeeded value after writes => exact ⟨Context.journal_recordAll .., writes⟩
  | freshOid => exact ⟨silent, .none _⟩
  | timeOfDay => exact ⟨silent, .none _⟩
  | openContext timeout => exact keeps.elim
  | openJournal => exact keeps.elim
  | batch => exact ⟨silent, .none _⟩
  | narrow timeout => exact ⟨silent, .none _⟩
  | restore deadline => exact ⟨silent, .none _⟩
  | send windowId event => exact ⟨silent, .none _⟩

namespace Program

/-- A run appends exactly the records of what it writes, and the table takes these writes. -/
theorem run_written {α : Type} {program : Program α} (keeps : program.KeepsJournal)
    (ticks : Nat → Tick) (time : Nat) (context : Context) (world : World) :
    (program.run ticks time context world).context.journal =
        context.journal.map
          (· ++ (program.written ticks time context world).map RowWrite.record) ∧
      Table.Writes world.table (program.written ticks time context world)
        (program.run ticks time context world).world.table := by
  induction keeps generalizing time context world with
  | done value =>
      refine ⟨?_, .none _⟩
      cases h : context.journal <;> simp [run, written, h]
  | @step effect next now later ih =>
      have first := effect.perform_written now (ticks time) context world
      have rest := ih (effect.perform (ticks time) context world).answer (time + 1)
        (effect.perform (ticks time) context world).context
        (effect.perform (ticks time) context world).world
      refine ⟨?_, first.2.append rest.2⟩
      rw [run, rest.1, first.1, written, Option.map_map, List.map_append]
      congr 1
      funext earlier
      simp

namespace KeepsJournal

theorem perform {effect : Effect} (keeps : effect.KeepsJournal) :
    (Program.perform effect).KeepsJournal :=
  .step keeps fun answer => .done answer

theorem bind {α β : Type} {program : Program α} {rest : α → Program β}
    (first : program.KeepsJournal) (later : ∀ value, (rest value).KeepsJournal) :
    (program >>= rest).KeepsJournal := by
  induction first with
  | done value => exact later value
  | step now _ ih => exact .step now ih

end KeepsJournal

end Program

/-! ## Requests keep their journal -/

/-- A request that leaves the journal in place, however it ends. -/
abbrev Request.KeepsJournal {α : Type} (request : Request α) : Prop :=
  Program.KeepsJournal request.run

namespace Request.KeepsJournal

theorem pure {α : Type} (value : α) : KeepsJournal (pure value : Request α) :=
  Program.KeepsJournal.done (Except.ok value)

theorem throw {α : Type} (problem : RequestError) : KeepsJournal (throw problem : Request α) :=
  Program.KeepsJournal.done (Except.error problem)

theorem bind {α β : Type} {request : Request α} {rest : α → Request β}
    (first : request.KeepsJournal) (later : ∀ value, (rest value).KeepsJournal) :
    (request >>= rest).KeepsJournal := by
  apply Program.KeepsJournal.bind first
  intro answer
  cases answer with
  | ok value => exact later value
  | error problem => exact throw problem

theorem lift {α : Type} {program : Program α} (keeps : program.KeepsJournal) :
    KeepsJournal (ExceptT.lift program : Request α) :=
  Program.KeepsJournal.bind keeps fun value => pure value

theorem call (operation : String) (storeCall : StoreCall) :
    (Request.call operation storeCall).KeepsJournal := by
  refine bind (lift (.perform trivial)) ?_
  intro answer
  cases answer with
  | ok value => exact pure value
  | error cause => exact throw _

theorem freshOid : Request.freshOid.KeepsJournal := lift (.perform trivial)

theorem send (windowId : String) (event : WindowEvent) :
    (Request.send windowId event).KeepsJournal :=
  bind (lift (.perform trivial)) fun _ => pure ()

theorem limited {α : Type} (timeout : UInt64) {body : Request α} (keeps : body.KeepsJournal) :
    (Request.limited timeout body).KeepsJournal :=
  Program.KeepsJournal.bind (.perform trivial) fun _ =>
    .bind keeps fun answer => .bind (.perform trivial) fun _ => .done answer

theorem createBlock (tabId : String) (definition : BlockDefinition) :
    (Request.createBlock tabId definition).KeepsJournal :=
  bind freshOid fun _ => bind (call ..) fun _ => pure _

theorem createViewBlock (surroundings : Surroundings) (tabId target : String)
    (options : ViewOptions) :
    (Request.createViewBlock surroundings tabId target options).KeepsJournal := by
  unfold Request.createViewBlock
  split
  · exact throw _
  · exact bind (createBlock ..) fun _ => pure _

theorem makeWindow : Request.makeWindow.KeepsJournal :=
  bind freshOid fun _ => bind (call ..) fun _ =>
    bind freshOid fun _ => bind (call ..) fun _ =>
      bind freshOid fun _ => bind (call ..) fun _ =>
        bind (call ..) fun _ => pure _

theorem focusWindow (windowId : String) : (Request.focusWindow windowId).KeepsJournal :=
  bind (call ..) fun _ => pure _

theorem findOrCreateClient : Request.findOrCreateClient.KeepsJournal := by
  refine bind (lift (.perform trivial)) ?_
  intro found
  split
  · exact pure _
  · apply bind freshOid
    intro oid
    refine bind (lift (.perform trivial)) ?_
    intro created
    split
    · exact pure _
    · exact call ..
    · exact throw _
  · exact throw _

theorem ensureInitialData : Request.ensureInitialData.KeepsJournal := by
  apply bind findOrCreateClient
  intro client
  split
  · exact bind makeWindow fun _ => call ..
  · exact pure _

theorem insertSteps (windowId tabId : String) (layout : Layout) :
    (Request.insertSteps windowId tabId layout).KeepsJournal := by
  induction layout with
  | nil => exact pure _
  | cons step rest ih => exact bind (createBlock ..) fun _ => bind (send ..) fun _ => ih

theorem bootstrapLayout (config : Config) (layout : Layout) :
    (Request.bootstrapLayout config layout).KeepsJournal := by
  unfold Request.bootstrapLayout
  split
  · exact throw _
  · apply limited
    apply bind (call ..)
    intro client
    split
    · exact throw _
    · exact bind (call ..) fun window => insertSteps ..

end Request.KeepsJournal

/-! ## Sessions -/

/-- What can be asked for under one context: a store call, or a request. -/
inductive ContextCall where
  | storeCall (call : StoreCall)
  | ensureInitialData
  | makeWindow
  | focusWindow (windowId : String)
  | createBlock (tabId : String) (definition : BlockDefinition)
  | createViewBlock (surroundings : Surroundings) (tabId target : String)
      (options : ViewOptions)
  | bootstrapLayout (config : Config) (layout : Layout)

namespace ContextCall

/-- The program of a call. How the call ends is of no concern to the calls after it. -/
def program : ContextCall → Program Unit
  | storeCall call => do let _ ← Program.perform (.storeCall call)
  | ensureInitialData => do let _ ← Request.ensureInitialData.run
  | makeWindow => do let _ ← Request.makeWindow.run
  | focusWindow windowId => do let _ ← (Request.focusWindow windowId).run
  | createBlock tabId definition => do let _ ← (Request.createBlock tabId definition).run
  | createViewBlock surroundings tabId target options => do
      let _ ← (Request.createViewBlock surroundings tabId target options).run
  | bootstrapLayout config layout => do let _ ← (Request.bootstrapLayout config layout).run

/-- Calls under one context, one after another. -/
def session : List ContextCall → Program Unit
  | [] => return ()
  | call :: rest => do
      call.program
      session rest

theorem keepsJournal_program (call : ContextCall) : call.program.KeepsJournal := by
  cases call with
  | storeCall call => exact .bind (.perform trivial) fun _ => .done ()
  | ensureInitialData => exact .bind Request.KeepsJournal.ensureInitialData fun _ => .done ()
  | makeWindow => exact .bind Request.KeepsJournal.makeWindow fun _ => .done ()
  | focusWindow windowId => exact .bind (Request.KeepsJournal.focusWindow ..) fun _ => .done ()
  | createBlock tabId definition =>
      exact .bind (Request.KeepsJournal.createBlock ..) fun _ => .done ()
  | createViewBlock surroundings tabId target options =>
      exact .bind (Request.KeepsJournal.createViewBlock ..) fun _ => .done ()
  | bootstrapLayout config layout =>
      exact .bind (Request.KeepsJournal.bootstrapLayout ..) fun _ => .done ()

theorem keepsJournal_session (calls : List ContextCall) : (session calls).KeepsJournal := by
  induction calls with
  | nil => exact .done ()
  | cons call rest ih => exact .bind (keepsJournal_program call) fun _ => ih

end ContextCall

/-- The journal tells what happened to the rows. Whatever is asked for under one context, and
wherever it fails, the batch grows by one record for each row that was written, in the order
of the writes. Such a record holds the very object that was handed back for the row, and
holds it for its own kind only. Replaying the new records on the rows from before gives the
rows as they are now. Without a journal the batch stays empty. -/
theorem journal_replays_to_the_rows (ticks : Nat → Tick) (time : Nat) (context : Context)
    (world : World) (calls : List ContextCall) :
    let finish := (ContextCall.session calls).run ticks time context world
    let writes := (ContextCall.session calls).written ticks time context world
    let records := writes.map RowWrite.record
    (finish.context.batch = if context.hasJournal then context.batch ++ records else []) ∧
      finish.context.hasJournal = context.hasJournal ∧
      Table.Writes world.table writes finish.world.table ∧
      (∀ write ∈ writes, write.record.objectAs? write.kind = some write.object ∧
        ∀ other, other ≠ write.kind → write.record.objectAs? other = none) ∧
      (UpdateBatch.replay records world.table).rows = finish.world.table.rows := by
  intro finish writes records
  obtain ⟨journal, written⟩ :=
    Program.run_written (ContextCall.keepsJournal_session calls) ticks time context world
  refine ⟨?_, ?_, written, ?_, ?_⟩
  · rw [Context.batch, journal, Context.hasJournal, Context.batch]
    cases context.journal <;> rfl
  · rw [Context.hasJournal, journal, Context.hasJournal]
    cases context.journal <;> rfl
  · intro write _
    exact ⟨UpdateRecord.objectAs?_ofObject .., fun other differs =>
      UpdateRecord.objectAs?_ofObject_of_ne differs ..⟩
  · rw [written.replay_records]

end Workbench
