/-
# Requests that edit the client

New windows are listed by the client, windows are brought to the front, and the terms are
accepted. Each of these requests edits the client in one store call at most; all its other
effects are quiet, which means that they spare the client. A quiet effect is never too late, and
an onlooker who notes what becomes of the client need not note it.
-/

import Workbench.Proofs.Request.Acceptance
import Workbench.Proofs.Request.Crowd
import Workbench.Proofs.Store.ClientRow

namespace Workbench

/-! ## The requests -/

/-- The requests that edit the client. -/
inductive ClientCall where
  | makeWindow
  | focusWindow (windowId : String)
  | agreeToTerms (config : Config)

/-- What such a request answers. -/
inductive ClientAnswer where
  | window (window : Window)
  | focused
  | batch (batch : UpdateBatch)

namespace ClientCall

/-- The request of a call. -/
def request : ClientCall → Request ClientAnswer
  | makeWindow => do return .window (← Request.makeWindow)
  | focusWindow windowId => do
      Request.focusWindow windowId
      return .focused
  | agreeToTerms config => do return .batch (← Request.agreeToTerms config)

/-- Whether the call accepts the terms. -/
def isAcceptance : ClientCall → Bool
  | agreeToTerms _ => true
  | _ => false

/-- The requests of several calls, none of which has done anything yet. -/
def crowd {count : Nat} (calls : Fin count → ClientCall) (contexts : Fin count → Context)
    (world : World) : Crowd count ClientAnswer :=
  ⟨fun member => .start (contexts member) (calls member).request, world⟩

end ClientCall

/-! ## What an onlooker notes -/

/-- What an onlooker knows of the edits of the client so far. -/
structure Notes (count : Nat) where
  /-- The time of day that each request read last. -/
  clocks : Fin count → Option Int64
  /-- The time that was read by the acceptance whose stamp went through last. -/
  stamp : Option Int64
  /-- How many edits went through that reported a change. -/
  changes : Nat

namespace Notes

variable {count : Nat}

/-- The notes before anything was done. -/
def blank : Notes count := ⟨fun _ => none, none, 0⟩

/-- The notes after an effect of a request. -/
def after (notes : Notes count) (call : ClientCall) (move : Move count) (context : Context)
    (table : Table) : Effect → Notes count
  | .timeOfDay =>
      { notes with clocks := Function.update notes.clocks move.member (some move.tick.timeOfDay) }
  | .storeCall (.modifySingleton .client edit) =>
      match ((StoreCall.modifySingleton .client edit).run move.tick.moment context table).result,
        table.client? with
      | .ok _, some client =>
          { notes with
            changes := notes.changes + (edit client).2.toNat
            stamp := if call.isAcceptance then notes.clocks move.member else notes.stamp }
      | _, _ => notes
  | _ => notes

section Edit

variable {notes : Notes count} {call : ClientCall} {move : Move count} {context : Context}
  {table : Table} {edit : ClientEdit}

/-- An edit that failed is not noted. -/
theorem after_of_error {problem : StoreError}
    (failed : (edit.call.run move.tick.moment context table).result = .error problem) :
    notes.after call move context table (.storeCall edit.call) = notes := by
  have ran : ((StoreCall.modifySingleton .client edit.apply).run move.tick.moment context
      table).result = .error problem := failed
  rw [ClientEdit.call, after, ran]

/-- An edit that went through is noted. -/
theorem after_of_ok {answer client : Client}
    (succeeded : (edit.call.run move.tick.moment context table).result = .ok answer)
    (stored : table.client? = some client) :
    notes.after call move context table (.storeCall edit.call) =
      { notes with
        changes := notes.changes + (edit.apply client).2.toNat
        stamp := if call.isAcceptance then notes.clocks move.member else notes.stamp } := by
  have ran : ((StoreCall.modifySingleton .client edit.apply).run move.tick.moment context
      table).result = .ok answer := succeeded
  rw [ClientEdit.call, after, ran, stored]

end Edit

/-- The notes after a move. -/
def next (calls : Fin count → ClientCall) (crowd : Crowd count ClientAnswer)
    (notes : Notes count) (move : Move count) : Notes count :=
  match (crowd.members move.member).rest with
  | .done _ => notes
  | .step effect _ =>
      notes.after (calls move.member) move (crowd.members move.member).context crowd.world.table
        effect

/-- The notes after several moves. -/
def ofRun (calls : Fin count → ClientCall) :
    Crowd count ClientAnswer → Notes count → List (Move count) → Notes count
  | _, notes, [] => notes
  | crowd, notes, move :: rest => ofRun calls (crowd.step move) (notes.next calls crowd move) rest

end Notes

/-! ## Quiet programs -/

/-- Whether the error says that someone else wrote an object. -/
def RequestError.isConflict : RequestError → Bool
  | .store _ cause => cause.isConflict
  | _ => false

namespace Effect

/-- An effect that spares the client and that an onlooker does not note. -/
def Quiet : Effect → Prop
  | storeCall call => call.SparesClient
  | timeOfDay => False
  | _ => True

/-- The answer is not that a store call was too late. -/
def InTime : (effect : Effect) → effect.Answer → Prop
  | storeCall call => fun answer : Except StoreError call.Value => Store.Uncontested answer
  | _ => fun _ => True

/-- A quiet effect leaves the client as it is, and is not too late. -/
theorem Quiet.perform {effect : Effect} (quiet : effect.Quiet) (tick : Tick) (context : Context)
    {world : World} (holds : world.table.HoldsObjects) :
    (effect.perform tick context world).world.table.client? = world.table.client? ∧
      effect.InTime (effect.perform tick context world).answer := by
  cases effect with
  | storeCall call =>
      obtain ⟨spared, inTime⟩ := StoreCall.SparesClient.run quiet tick.moment context holds
      exact ⟨Table.client?_congr spared, inTime⟩
  | timeOfDay => exact quiet.elim
  | _ => exact ⟨rfl, trivial⟩

/-- An onlooker does not note a quiet effect. -/
theorem Quiet.notes_after {count : Nat} {effect : Effect} (quiet : effect.Quiet)
    (notes : Notes count) (call : ClientCall) (move : Move count) (context : Context)
    (table : Table) : notes.after call move context table effect = notes := by
  cases effect with
  | storeCall storeCall =>
      have spares : storeCall.SparesClient := quiet
      cases spares <;> rfl
  | timeOfDay => exact quiet.elim
  | _ => rfl

end Effect

/-- A program of quiet effects. As long as no store call is too late, it ends well. -/
inductive Program.Quiet {α : Type} (ends : α → Prop) : Program α → Prop where
  | done {value : α} : ends value → Quiet ends (.done value)
  | step {effect : Effect} {next : effect.Answer → Program α} : effect.Quiet →
      (∀ answer, effect.InTime answer → Quiet ends (next answer)) →
      Quiet ends (.step effect next)

namespace Program.Quiet

variable {α β : Type} {ends : α → Prop} {last : β → Prop}

theorem perform (effect : Effect) (quiet : effect.Quiet) :
    (Program.perform effect).Quiet effect.InTime :=
  .step quiet fun _ inTime => .done inTime

theorem bind {program : Program α} {rest : α → Program β} (first : program.Quiet ends)
    (later : ∀ value, ends value → (rest value).Quiet last) : (program >>= rest).Quiet last := by
  induction first with
  | done well => exact later _ well
  | step quiet _ ih => exact .step quiet ih

end Program.Quiet

namespace Request

variable {α β : Type}

/-- A request ends well with a value that is as wanted, or with an error other than that it was
too late. -/
def EndsWell (ends : α → Prop) : Except RequestError α → Prop
  | .ok value => ends value
  | .error problem => problem.isConflict = false

/-- A request of quiet effects that ends well. -/
abbrev Quiet (ends : α → Prop) (request : Request α) : Prop :=
  Program.Quiet (EndsWell ends) request.run

namespace Quiet

variable {ends : α → Prop} {last : β → Prop}

theorem pure {value : α} (well : ends value) : Quiet ends (pure value : Request α) :=
  Program.Quiet.done well

theorem throw {problem : RequestError} (other : problem.isConflict = false) :
    Quiet ends (throw problem : Request α) :=
  Program.Quiet.done other

theorem bind {request : Request α} {rest : α → Request β} (first : request.Quiet ends)
    (later : ∀ value, ends value → (rest value).Quiet last) : (request >>= rest).Quiet last := by
  apply Program.Quiet.bind first
  intro answer well
  cases answer with
  | ok value => exact later value well
  | error problem => exact throw well

theorem call {storeCall : StoreCall} (operation : String) (spares : storeCall.SparesClient) :
    (Request.call operation storeCall).Quiet fun _ => True := by
  refine Program.Quiet.step spares fun answer inTime => ?_
  cases answer with
  | ok value => exact .done trivial
  | error cause => exact .done (inTime cause rfl)

theorem freshOid : Request.freshOid.Quiet fun _ => True :=
  Program.Quiet.step trivial fun _ _ => .done trivial

theorem send (windowId : String) (event : WindowEvent) :
    (Request.send windowId event).Quiet fun _ => True :=
  Program.Quiet.step trivial fun _ _ => .done trivial

theorem batch : Request.batch.Quiet fun _ => True :=
  Program.Quiet.step trivial fun _ _ => .done trivial

theorem limited (timeout : UInt64) {body : Request α} (quiet : body.Quiet ends) :
    (Request.limited timeout body).Quiet ends :=
  Program.Quiet.bind (.perform (.narrow timeout) trivial) fun outer _ =>
    .bind quiet fun _ well => .bind (.perform (.restore outer) trivial) fun _ _ => .done well

theorem settle {body : Request α} (quiet : body.Quiet ends) :
    (Request.settle body).Quiet fun _ => True :=
  Program.Quiet.bind quiet fun _ _ => .done trivial

/-! ### Layouts spare the client -/

theorem spares_blockCreation (oid tabId : String) (definition : BlockDefinition) :
    (blockCreation oid tabId definition).SparesClient :=
  .createAttached _ _ _ nofun nofun nofun fun _ _ => ⟨rfl, rfl⟩

theorem createBlock (tabId : String) (definition : BlockDefinition) :
    (createBlock tabId definition).Quiet fun _ => True :=
  bind freshOid fun oid _ => bind (call _ (spares_blockCreation oid tabId definition)) fun _ _ =>
    pure trivial

theorem insertSteps (windowId tabId : String) (layout : Layout) :
    (insertSteps windowId tabId layout).Quiet fun _ => True := by
  induction layout with
  | nil => exact pure trivial
  | cons step rest ih =>
      exact bind (createBlock tabId _) fun _ _ => bind (send windowId _) fun _ _ => ih

theorem bootstrapLayout (config : Config) (layout : Layout) :
    (bootstrapLayout config layout).Quiet fun _ => True := by
  unfold Request.bootstrapLayout
  split
  · exact throw rfl
  · refine limited _ (bind (call _ (.getSingleton .client)) ?_)
    intro client _
    split
    · exact throw rfl
    · exact bind (call _ (.mustGet .window _)) fun window _ => insertSteps _ _ layout

end Quiet

end Request

/-! ## One edit for each request -/

/-- The edits that a request makes. An acceptance stamps the client with the time of day that it
read last. -/
inductive ClientEdit.MadeBy : ClientCall → Option Int64 → ClientEdit → Prop where
  | list {time : Option Int64} (windowId : String) : MadeBy .makeWindow time (.list windowId)
  | focus {time : Option Int64} (windowId : String) :
      MadeBy (.focusWindow windowId) time (.focus windowId)
  | stamp {config : Config} (time : Int64) :
      MadeBy (.agreeToTerms config) (some time) (.stamp time)

/-- The time of the client is that of the last stamp. -/
theorem ClientEdit.MadeBy.tosAgreed_applied {call : ClientCall} {time stamp : Option Int64}
    {edit : ClientEdit} (made : edit.MadeBy call time) {client : Client} {first : Int64}
    (stamped : client.tosAgreed = stamp.getD first) :
    (edit.applied client).tosAgreed =
      (if call.isAcceptance then time else stamp).getD first := by
  rw [edit.tosAgreed_applied]
  cases made with
  | list | focus => exact stamped
  | stamp time => rfl

/-- The answer has no window in it. -/
def ClientAnswer.NoWindow (answer : ClientAnswer) : Prop := ∀ window, answer ≠ .window window

theorem ClientAnswer.noWindow_focused : NoWindow .focused := by
  intro window impossible
  cases impossible

theorem ClientAnswer.noWindow_batch (batch : UpdateBatch) : NoWindow (.batch batch) := by
  intro window impossible
  cases impossible

theorem Program.Quiet.ne_window {program : Program (Except RequestError ClientAnswer)}
    (quiet : program.Quiet (Request.EndsWell ClientAnswer.NoWindow)) (window : Window) :
    program ≠ .done (.ok (.window window)) := by
  rintro rfl
  cases quiet with
  | done well => exact well window rfl

/-- A request that listed a window is at its end and answers with the window. After any other edit
the request is quiet and does not answer with a window. -/
def ClientEdit.FollowedBy : ClientEdit → Program (Except RequestError ClientAnswer) → Prop
  | list windowId, program =>
      ∃ window : Window, window.oid = windowId ∧ program = .done (.ok (.window window))
  | _, program => program.Quiet (Request.EndsWell ClientAnswer.NoWindow)

/-- A request that edits the client in one store call at most. Until then it is quiet, except that
it may read the time of day. Unless it listed a window it does not answer with one. -/
inductive Program.EditsOnce (call : ClientCall) :
    Option Int64 → Program (Except RequestError ClientAnswer) → Prop where
  | quiet {time : Option Int64} {program : Program (Except RequestError ClientAnswer)} :
      program.Quiet (Request.EndsWell ClientAnswer.NoWindow) → EditsOnce call time program
  | step {time : Option Int64} {effect : Effect}
      {next : effect.Answer → Program (Except RequestError ClientAnswer)} : effect.Quiet →
      (∀ answer, effect.InTime answer → EditsOnce call time (next answer)) →
      EditsOnce call time (.step effect next)
  | clock {time : Option Int64} {next : Int64 → Program (Except RequestError ClientAnswer)} :
      (∀ now, EditsOnce call (some now) (next now)) →
      EditsOnce call time (.step .timeOfDay next)
  | edit {time : Option Int64} {edit : ClientEdit}
      {next : Except StoreError Client → Program (Except RequestError ClientAnswer)} :
      edit.MadeBy call time →
      (∀ problem, problem.isConflict = false →
        (next (.error problem)).Quiet (Request.EndsWell ClientAnswer.NoWindow)) →
      (∀ found, edit.FollowedBy (next (.ok found))) →
      EditsOnce call time (.step (.storeCall edit.call) next)

namespace Program.EditsOnce

variable {call : ClientCall} {time : Option Int64}

/-- After an edit the request has kept its contract, or has answered with a window. -/
theorem of_followedBy {edit : ClientEdit} {program : Program (Except RequestError ClientAnswer)}
    (after : edit.FollowedBy program) :
    EditsOnce call time program ∨ ∃ window, program = .done (.ok (.window window)) := by
  cases edit with
  | list windowId =>
      obtain ⟨window, -, done⟩ := after
      exact .inr ⟨window, done⟩
  | focus | stamp => exact .inl (.quiet after)

/-- Quiet steps may come before. -/
theorem of_quiet {β : Type} {ends : β → Prop} {program : Program β}
    {rest : β → Program (Except RequestError ClientAnswer)} (first : program.Quiet ends)
    (later : ∀ value, ends value → EditsOnce call time (rest value)) :
    EditsOnce call time (program.bind rest) := by
  induction first with
  | done well => exact later _ well
  | step quiet _ ih => exact .step quiet ih

theorem bind {α : Type} {ends : α → Prop} {request : Request α}
    {rest : α → Request ClientAnswer} (first : request.Quiet ends)
    (later : ∀ value, EditsOnce call time (rest value).run) :
    EditsOnce call time (request >>= rest).run := by
  rw [Request.program_bind]
  apply of_quiet first
  intro answer well
  cases answer with
  | ok value => exact later value
  | error problem => exact .quiet (.done well)

/-- A request does not answer with a window that it did not list. -/
theorem ne_window {program : Program (Except RequestError ClientAnswer)}
    (edits : EditsOnce call time program) (window : Window) :
    program ≠ .done (.ok (.window window)) := by
  rintro rfl
  cases edits with
  | quiet quiet => exact quiet.ne_window window rfl

/-- An edit that is made in the course of an operation. -/
theorem callEdit {edit : ClientEdit} {rest : Client → Request ClientAnswer} (operation : String)
    (made : edit.MadeBy call time) (after : ∀ found, edit.FollowedBy (rest found).run) :
    EditsOnce call time (Request.call operation edit.call >>= rest).run :=
  .edit made (fun _ inTime => .done inTime) after

end Program.EditsOnce

namespace ClientCall

open Program.EditsOnce Request

/-- A window is listed after it was created, and that is the end of the request. -/
theorem editsOnce_makeWindow : makeWindow.request.run.EditsOnce makeWindow none := by
  simp only [request, Request.makeWindow, bind_assoc, pure_bind]
  refine bind .freshOid fun tabId => bind (.call _ (.create _ nofun)) fun tab =>
    bind .freshOid fun workspaceId => bind (.call _ (.create _ nofun)) fun workspace =>
    bind .freshOid fun windowId => bind (.call _ (.create _ nofun)) fun window => ?_
  exact callEdit _ (.list (Window.oid window)) fun _ => ⟨window, rfl, rfl⟩

/-- To bring a window to the front is one store call. -/
theorem run_focusWindow (windowId : String) :
    ∃ next : Except StoreError Client → Program (Except RequestError ClientAnswer),
      (focusWindow windowId).request.run = .step (.storeCall (ClientEdit.focus windowId).call) next ∧
        (∀ found, next (.ok found) = .done (.ok .focused)) ∧
        ∀ problem, next (.error problem) =
          .done (.error (.store "updating client data" problem)) :=
  ⟨_, rfl, fun _ => rfl, fun _ => rfl⟩

theorem editsOnce_focusWindow (windowId : String) :
    (focusWindow windowId).request.run.EditsOnce (focusWindow windowId) none := by
  simp only [request, Request.focusWindow, bind_assoc, pure_bind]
  exact callEdit _ (.focus windowId) fun _ => .done ClientAnswer.noWindow_focused

/-- An acceptance reads the time and stamps the client with it. The layout spares the client. -/
theorem editsOnce_agreeToTerms (config : Config) :
    (agreeToTerms config).request.run.EditsOnce (agreeToTerms config) none := by
  simp only [request, Request.agreeToTerms, bind_assoc]
  refine .step trivial fun _ _ => .clock fun now => ?_
  refine callEdit _ (.stamp now) fun _ => ?_
  exact Quiet.bind (.settle (.bootstrapLayout config .starter)) fun _ _ =>
    .bind .batch fun written _ => .pure (ClientAnswer.noWindow_batch written)

theorem editsOnce_request (call : ClientCall) : call.request.run.EditsOnce call none := by
  cases call with
  | makeWindow => exact editsOnce_makeWindow
  | focusWindow windowId => exact editsOnce_focusWindow windowId
  | agreeToTerms config => exact editsOnce_agreeToTerms config

end ClientCall

end Workbench
