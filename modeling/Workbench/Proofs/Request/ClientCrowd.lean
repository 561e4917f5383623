/-
# Requests that edit the client at the same time

Between two store calls of a request any other request may go on. No window and no acceptance is
lost then, because a request edits the client in one store call and never writes back a client
that it read earlier.

An onlooker who notes which edits went through knows the client at any moment: its list has the
windows of the requests that answered with one, its time is that of the last stamp, and its
version counts the changes. One move keeps this so, whoever makes it, and whatever stands in its
way; and then any moves do.
-/

import Workbench.Proofs.Request.ClientCalls

namespace Workbench

variable {count : Nat}

/-! ## What the notes say -/

namespace Crowd

/-- A request has answered with the window. -/
def HasMade (crowd : Crowd count ClientAnswer) (windowId : String) : Prop :=
  ∃ member window, crowd.answer? member = some (.ok (.window window)) ∧ window.oid = windowId

/-- The store call of a move is too late: someone else wrote the object. -/
def isTooLate (crowd : Crowd count ClientAnswer) (move : Move count) : Bool :=
  match (crowd.members move.member).rest with
  | .step (.storeCall call) _ =>
      match (call.run move.tick.moment (crowd.members move.member).context
        crowd.world.table).result with
      | .error problem => problem.isConflict
      | .ok _ => false
  | _ => false

/-- A move adds at most the window of the request that moved. -/
theorem hasMade_step {crowd : Crowd count ClientAnswer} {move : Move count} (windowId : String) :
    (crowd.step move).HasMade windowId ↔
      crowd.HasMade windowId ∨ ∃ window : Window, window.oid = windowId ∧
        ((crowd.step move).members move.member).rest = .done (.ok (.window window)) := by
  constructor
  · rintro ⟨member, window, answered, same⟩
    by_cases here : member = move.member
    · subst here
      exact .inr ⟨window, same, Underway.answer?_eq_some_iff.1 answered⟩
    · rw [answer?, members_step_of_ne here] at answered
      exact .inl ⟨member, window, answered, same⟩
  · rintro (⟨member, window, answered, same⟩ | ⟨window, same, done⟩)
    · have ended := Underway.answer?_eq_some_iff.1 answered
      exact ⟨member, window, (congrArg Underway.answer? (members_step_of_done ended)).trans answered,
        same⟩
    · exact ⟨move.member, window, Underway.answer?_eq_some_iff.2 done, same⟩

/-- Nothing is added to the answers by a request that does not answer with a window. -/
theorem hasMade_step_of_ne {crowd : Crowd count ClientAnswer} {move : Move count}
    (other : ∀ window, ((crowd.step move).members move.member).rest ≠ .done (.ok (.window window)))
    (windowId : String) : (crowd.step move).HasMade windowId ↔ crowd.HasMade windowId := by
  rw [hasMade_step, or_iff_left]
  rintro ⟨window, -, done⟩
  exact other window done

end Crowd

/-- The client is what the notes and the answers make of the client that there was first. -/
structure Notes.Describe (notes : Notes count) (made : String → Prop) (first held : Client) :
    Prop where
  distinct : held.windowIds.Nodup
  listed : ∀ windowId, windowId ∈ held.windowIds ↔ windowId ∈ first.windowIds ∨ made windowId
  stamped : held.tosAgreed = notes.stamp.getD first.tosAgreed
  counted : held.version = first.version + Int64.ofNat notes.changes

namespace Notes.Describe

variable {notes : Notes count} {made later : String → Prop} {first held : Client}

theorem congr (described : notes.Describe made first held)
    (same : ∀ windowId, later windowId ↔ made windowId) : notes.Describe later first held :=
  ⟨described.distinct, fun windowId => (described.listed windowId).trans
    (or_congr_right (same windowId).symm), described.stamped, described.counted⟩

/-- After an edit that went through, the edited client is described by the new notes. -/
theorem edited (described : notes.Describe made first held) {edit : ClientEdit}
    {call : ClientCall} {member : Fin count} {metadata : Meta}
    (madeBy : edit.MadeBy call (notes.clocks member))
    (more : ∀ windowId, later windowId ↔ made windowId ∨ edit = .list windowId) :
    Notes.Describe
      { notes with
        changes := notes.changes + (edit.apply held).2.toNat
        stamp := if call.isAcceptance then notes.clocks member else notes.stamp }
      later first { edit.applied held with metadata } where
  distinct := edit.nodup_windowIds_applied held described.distinct
  listed windowId := by
    rw [more, ← or_assoc, ← described.listed]
    exact edit.mem_windowIds_applied held windowId
  stamped := madeBy.tosAgreed_applied described.stamped
  counted := by
    rw [Int64.ofNat_add, ← Int64.add_assoc, ← described.counted]
    exact edit.version_applied held

end Notes.Describe

/-- The rows are in shape, every request edits the client once at most, and the client is as
described. -/
structure Crowd.InOrder (calls : Fin count → ClientCall) (first : Client)
    (crowd : Crowd count ClientAnswer) (notes : Notes count) : Prop where
  holds : crowd.world.table.HoldsObjects
  contract : ∀ member,
    (crowd.members member).rest.EditsOnce (calls member) (notes.clocks member) ∨
      ∃ window, (crowd.members member).rest = .done (.ok (.window window))
  stored : ∃ held, crowd.world.table.client? = some held ∧
    notes.Describe crowd.HasMade first held

namespace Crowd.InOrder

variable {calls : Fin count → ClientCall} {first : Client} {crowd : Crowd count ClientAnswer}
  {notes : Notes count} {move : Move count}

/-! ## One move -/

/-- What is to be shown of a move: that the request that moved keeps its contract, and that the
client is as described afterwards. -/
theorem moved (ordered : crowd.InOrder calls first notes) {effect : Effect}
    {next : effect.Answer → Program (Except RequestError ClientAnswer)}
    (going : (crowd.members move.member).rest = .step effect next) {later : Notes count}
    (clocks : ∀ member, member ≠ move.member → later.clocks member = notes.clocks member)
    (contract : ((crowd.step move).members move.member).rest.EditsOnce (calls move.member)
        (later.clocks move.member) ∨
      ∃ window, ((crowd.step move).members move.member).rest = .done (.ok (.window window)))
    (stored : ∃ held, (crowd.step move).world.table.client? = some held ∧
      later.Describe (crowd.step move).HasMade first held) :
    (crowd.step move).InOrder calls first later := by
  refine ⟨?_, ?_, stored⟩
  · rw [step_of_step going]
    exact Effect.holdsObjects_perform move.tick _ ordered.holds effect
  · intro member
    by_cases here : member = move.member
    · rw [here]
      exact contract
    · rw [clocks member here, members_step_of_ne here]
      exact ordered.contract member

/-- A request that has come to its end changes nothing. -/
theorem step_of_done (ordered : crowd.InOrder calls first notes)
    {answer : Except RequestError ClientAnswer}
    (done : (crowd.members move.member).rest = .done answer) :
    (crowd.step move).InOrder calls first (notes.next calls crowd move) := by
  rw [Crowd.step_of_done done, Notes.next, done]
  exact ordered

/-- An effect that spares the client and is not noted. -/
theorem step_of_unnoted (ordered : crowd.InOrder calls first notes) {effect : Effect}
    {next : effect.Answer → Program (Except RequestError ClientAnswer)}
    (going : (crowd.members move.member).rest = .step effect next)
    (unnoted : notes.next calls crowd move = notes)
    (spared : (crowd.step move).world.table.client? = crowd.world.table.client?)
    (still : ((crowd.step move).members move.member).rest.EditsOnce (calls move.member)
      (notes.clocks move.member)) :
    (crowd.step move).InOrder calls first (notes.next calls crowd move) := by
  obtain ⟨held, stored, described⟩ := ordered.stored
  rw [unnoted]
  exact ordered.moved going (fun _ _ => rfl) (.inl still)
    ⟨held, spared.trans stored, described.congr (hasMade_step_of_ne still.ne_window)⟩

/-- A quiet effect leaves the client as it is. -/
theorem step_of_quiet (ordered : crowd.InOrder calls first notes) {effect : Effect}
    {next : effect.Answer → Program (Except RequestError ClientAnswer)}
    (going : (crowd.members move.member).rest = .step effect next) (quiet : effect.Quiet)
    (after : ∀ answer, effect.InTime answer →
      (next answer).EditsOnce (calls move.member) (notes.clocks move.member)) :
    (crowd.step move).InOrder calls first (notes.next calls crowd move) := by
  obtain ⟨spared, inTime⟩ :=
    quiet.perform move.tick (crowd.members move.member).context ordered.holds
  apply ordered.step_of_unnoted going
  · rw [Notes.next, going]
    exact quiet.notes_after ..
  · rw [step_of_step going]
    exact spared
  · rw [members_step_of_step going]
    exact after _ inTime

/-- Reading the time of day is noted, and leaves the client as it is. -/
theorem step_of_clock (ordered : crowd.InOrder calls first notes)
    {next : Int64 → Program (Except RequestError ClientAnswer)}
    (going : (crowd.members move.member).rest = .step .timeOfDay next)
    (after : ∀ now, (next now).EditsOnce (calls move.member) (some now)) :
    (crowd.step move).InOrder calls first (notes.next calls crowd move) := by
  have noted : notes.next calls crowd move =
      { notes with clocks :=
        Function.update notes.clocks move.member (some move.tick.timeOfDay) } := by
    rw [Notes.next, going]
    rfl
  have still : ((crowd.step move).members move.member).rest.EditsOnce (calls move.member)
      (some move.tick.timeOfDay) := by
    rw [members_step_of_step going]
    exact after _
  obtain ⟨held, stored, described⟩ := ordered.stored
  rw [noted]
  refine ordered.moved going (fun member other => Function.update_of_ne other ..) (.inl ?_)
    ⟨held, ?_, ?_⟩
  · simpa only [Function.update_self] using still
  · rw [step_of_step going]
    exact stored
  · exact { described.congr (hasMade_step_of_ne still.ne_window) with }

/-- After an edit that went through, the answers have the window that it listed, if it listed
one. -/
theorem hasMade_of_followedBy {edit : ClientEdit}
    (after : edit.FollowedBy ((crowd.step move).members move.member).rest) (windowId : String) :
    (crowd.step move).HasMade windowId ↔ crowd.HasMade windowId ∨ edit = .list windowId := by
  cases edit with
  | list listed =>
      obtain ⟨window, rfl, done⟩ := after
      rw [hasMade_step, done]
      simp only [Program.done.injEq, Except.ok.injEq, ClientAnswer.window.injEq,
        ClientEdit.list.injEq]
      refine or_congr_right ⟨?_, fun same => ⟨window, same, rfl⟩⟩
      rintro ⟨other, rfl, rfl⟩
      rfl
  | focus | stamp =>
      rw [hasMade_step_of_ne (Program.Quiet.ne_window after)]
      simp only [reduceCtorEq, or_false]

/-- An edit of the client is noted if it goes through. -/
theorem step_of_edit (ordered : crowd.InOrder calls first notes) {edit : ClientEdit}
    {next : Except StoreError Client → Program (Except RequestError ClientAnswer)}
    (going : (crowd.members move.member).rest = .step (.storeCall edit.call) next)
    (made : edit.MadeBy (calls move.member) (notes.clocks move.member))
    (failing : ∀ problem, problem.isConflict = false →
      (next (.error problem)).Quiet (Request.EndsWell ClientAnswer.NoWindow))
    (after : ∀ found, edit.FollowedBy (next (.ok found))) :
    (crowd.step move).InOrder calls first (notes.next calls crowd move) := by
  obtain ⟨held, stored, described⟩ := ordered.stored
  have moves := members_step_of_step going
  have inTime := edit.uncontested_run move.tick.moment (crowd.members move.member).context
    ordered.holds stored
  rcases edit.run_cases move.tick.moment (crowd.members move.member).context ordered.holds stored
    with ⟨problem, failed⟩ | ⟨answer, later, table, metadata, ran, now⟩
  · apply ordered.step_of_unnoted going
    · rw [Notes.next, going]
      exact Notes.after_of_error (congrArg Outcome.result failed)
    · rw [step_of_step going]
      simp only [Effect.perform, failed]
    · rw [moves]
      simp only [Effect.perform, failed]
      exact .quiet (failing problem (inTime problem (congrArg Outcome.result failed)))
  · have noted : notes.next calls crowd move =
        { notes with
          changes := notes.changes + (edit.apply held).2.toNat
          stamp := if (calls move.member).isAcceptance then notes.clocks move.member
            else notes.stamp } := by
      rw [Notes.next, going]
      exact Notes.after_of_ok (congrArg Outcome.result ran) stored
    have rest : ((crowd.step move).members move.member).rest = next (.ok answer) := by
      rw [moves]
      simp only [Effect.perform, ran]
      rfl
    have table : (crowd.step move).world.table.client? =
        some { edit.applied held with metadata } := by
      rw [step_of_step going]
      simp only [Effect.perform, ran]
      exact now
    rw [noted]
    refine ordered.moved going (fun _ _ => rfl) ?_ ⟨_, table, ?_⟩
    · rw [rest]
      exact Program.EditsOnce.of_followedBy (after answer)
    · exact described.edited made (hasMade_of_followedBy (rest ▸ after answer))

/-- One move keeps everything in order. -/
theorem step (ordered : crowd.InOrder calls first notes) (move : Move count) :
    (crowd.step move).InOrder calls first (notes.next calls crowd move) := by
  rcases ordered.contract move.member with edits | ⟨window, done⟩
  · generalize going : (crowd.members move.member).rest = program at edits
    cases edits with
    | quiet ends =>
        cases ends with
        | done well => exact ordered.step_of_done going
        | step quiet after =>
            exact ordered.step_of_quiet going quiet fun answer inTime =>
              .quiet (after answer inTime)
    | step quiet after => exact ordered.step_of_quiet going quiet after
    | clock after => exact ordered.step_of_clock going after
    | edit made failing after => exact ordered.step_of_edit going made failing after
  · exact ordered.step_of_done done

/-! ## Any moves -/

/-- Whatever moves are made, everything stays in order. -/
theorem run (ordered : crowd.InOrder calls first notes) (moves : List (Move count)) :
    (crowd.run moves).InOrder calls first (Notes.ofRun calls crowd notes moves) := by
  induction moves generalizing crowd notes with
  | nil => exact ordered
  | cons move rest ih => exact ih (ordered.step move)

/-- Requests that have not done anything are in order. -/
theorem start {world : World} (contexts : Fin count → Context)
    (holds : world.table.HoldsObjects) (stored : world.table.client? = some first)
    (distinct : first.windowIds.Nodup) :
    (ClientCall.crowd calls contexts world).InOrder calls first .blank := by
  refine ⟨holds, fun member => .inl (calls member).editsOnce_request, first, stored, ?_⟩
  have idle : ∀ windowId, ¬ (ClientCall.crowd calls contexts world).HasMade windowId := by
    rintro windowId ⟨member, window, answered, -⟩
    have edits := (calls member).editsOnce_request
    rw [show (calls member).request.run = _ from Underway.answer?_eq_some_iff.1 answered] at edits
    exact edits.ne_window window rfl
  exact ⟨distinct, fun windowId => (or_iff_left (idle windowId)).symm, rfl,
    (Int64.add_zero _).symm⟩

/-! ## What is in order -/

/-- No effect of a request is too late. -/
theorem inTime_perform (ordered : crowd.InOrder calls first notes) {effect : Effect}
    {next : effect.Answer → Program (Except RequestError ClientAnswer)}
    (going : (crowd.members move.member).rest = .step effect next) :
    effect.InTime
      (effect.perform move.tick (crowd.members move.member).context crowd.world).answer := by
  have quietly (quiet : effect.Quiet) :=
    (quiet.perform move.tick (crowd.members move.member).context ordered.holds).2
  rcases ordered.contract move.member with edits | ⟨window, done⟩
  · rw [going] at edits
    cases edits with
    | quiet ends =>
        cases ends with
        | step quiet after => exact quietly quiet
    | step quiet after => exact quietly quiet
    | clock after => trivial
    | @edit _ edit =>
        obtain ⟨held, stored, -⟩ := ordered.stored
        exact edit.uncontested_run move.tick.moment _ ordered.holds stored
  · rw [done] at going
    cases going

theorem isTooLate_eq_false (ordered : crowd.InOrder calls first notes) (move : Move count) :
    crowd.isTooLate move = false := by
  rw [isTooLate]
  split
  · rename_i call next going
    have inTime : Store.Uncontested _ := ordered.inTime_perform going
    split
    · rename_i problem failed
      exact inTime problem failed
    · rfl
  · rfl

/-- No request fails because it was too late. -/
theorem isConflict_eq_false (ordered : crowd.InOrder calls first notes) {member : Fin count}
    {problem : RequestError} (answered : crowd.answer? member = some (.error problem)) :
    problem.isConflict = false := by
  have done := Underway.answer?_eq_some_iff.1 answered
  rcases ordered.contract member with edits | ⟨window, other⟩
  · rw [done] at edits
    cases edits with
    | quiet quiet =>
        cases quiet with
        | done well => exact well
  · rw [done] at other
    cases other

/-- When nothing stands in the way of bringing a window to the front, the request answers. When it
answers, the window is in front if it is listed. -/
theorem focus_step (ordered : crowd.InOrder calls first notes) {windowId : String}
    (waiting : (crowd.members move.member).rest = (ClientCall.focusWindow windowId).request.run)
    {held : Client} (stored : crowd.world.table.client? = some held) :
    (move.tick.moment.Unhindered (crowd.members move.member).context →
      (crowd.step move).answer? move.member = some (.ok .focused)) ∧
    ((crowd.step move).answer? move.member = some (.ok .focused) → windowId ∈ held.windowIds →
      ∃ front, (crowd.step move).world.table.client? = some front ∧
        front.windowIds.head? = some windowId) := by
  obtain ⟨next, program, succeeding, failing⟩ := ClientCall.run_focusWindow windowId
  have going := waiting.trans program
  have rest := congrArg Underway.rest (members_step_of_step going)
  constructor
  · intro unhindered
    obtain ⟨answer, ran⟩ := (ClientEdit.focus windowId).exists_result_of_unhindered
      move.tick.moment _ ordered.holds stored unhindered
    simp only [Effect.perform, ran] at rest
    exact Underway.answer?_eq_some_iff.2 (rest.trans (succeeding answer))
  · intro answered listed
    have done := Underway.answer?_eq_some_iff.1 answered
    rcases (ClientEdit.focus windowId).run_cases move.tick.moment
        (crowd.members move.member).context ordered.holds stored with
      ⟨problem, ran⟩ | ⟨answer, later, table, metadata, ran, now⟩
    · simp only [Effect.perform, ran] at rest
      cases done.symm.trans (rest.trans (failing problem))
    · refine ⟨{ (ClientEdit.focus windowId).applied held with metadata }, ?_, ?_⟩
      · rw [step_of_step going]
        simp only [Effect.perform, ran]
        exact now
      · exact ClientEdit.head?_windowIds_applied held listed

end Crowd.InOrder

/-! ## The result -/

/-- Requests for new windows, for bringing windows to the front and for accepting the terms may
be under way in any number and under any contexts, and their effects may come in any order, with
anything standing in the way of any of them. At every moment the client can be read, and lists no
window twice. It lists the windows that it had at first and those of the requests that answered
with a window. It has the time of the acceptance that stamped it last, or else the time that it
had at first, and its version counts the edits that reported a change. No request fails because
another one was faster, and no store call does. And whenever a request to bring a window to the
front makes its move, then it answers unless something stands in the way, and the window is in
front if it was listed. -/
theorem no_window_and_no_acceptance_is_lost (calls : Fin count → ClientCall)
    (contexts : Fin count → Context) (world : World) (first : Client)
    (reached : world.table.Reached) (stored : world.table.client? = some first)
    (distinct : first.windowIds.Nodup) (moves : List (Move count)) :
    let start := ClientCall.crowd calls contexts world
    let crowd := start.run moves
    let notes := Notes.ofRun calls start .blank moves
    ∃ client, crowd.world.table.client? = some client ∧
      client.windowIds.Nodup ∧
      (∀ windowId, windowId ∈ client.windowIds ↔ windowId ∈ first.windowIds ∨
        ∃ member window, crowd.answer? member = some (.ok (.window window)) ∧
          window.oid = windowId) ∧
      client.tosAgreed = notes.stamp.getD first.tosAgreed ∧
      client.version = first.version + Int64.ofNat notes.changes ∧
      (∀ member problem, crowd.answer? member = some (.error problem) →
        problem.isConflict = false) ∧
      (∀ move, crowd.isTooLate move = false) ∧
      ∀ move windowId, calls move.member = .focusWindow windowId →
        crowd.answer? move.member = none →
          let later := crowd.step move
          (move.tick.moment.Unhindered (crowd.members move.member).context →
            later.answer? move.member = some (.ok .focused)) ∧
          (later.answer? move.member = some (.ok .focused) → windowId ∈ client.windowIds →
            ∃ front, later.world.table.client? = some front ∧
              front.windowIds.head? = some windowId) := by
  intro start crowd notes
  have ordered : crowd.InOrder calls first notes :=
    (Crowd.InOrder.start contexts reached.holdsObjects stored distinct).run moves
  obtain ⟨client, now, described⟩ := ordered.stored
  refine ⟨client, now, described.distinct, described.listed, described.stamped,
    described.counted, fun _ _ => ordered.isConflict_eq_false, ordered.isTooLate_eq_false, ?_⟩
  intro move windowId call unanswered
  refine ordered.focus_step ?_ now
  -- the request is one store call, so as long as it has no answer it has not begun
  obtain ⟨next, program, succeeding, failing⟩ := ClientCall.run_focusWindow windowId
  have begins : (start.members move.member).rest = (ClientCall.focusWindow windowId).request.run :=
    congrArg (fun call => (ClientCall.request call).run) call
  have single : ∀ answer, ∃ value, next answer = .done value := by
    intro answer
    cases answer with
    | ok found => exact ⟨_, succeeding found⟩
    | error problem => exact ⟨_, failing problem⟩
  rcases Crowd.rest_run_of_single (begins.trans program) single moves with waiting | ⟨value, done⟩
  · exact waiting.trans program.symm
  · have answered := Underway.answer?_eq_some_iff.2 done
    cases answered.symm.trans unanswered

/-! ### Three requests -/

/-- A new window, a window that is brought to the front, and an acceptance. -/
def threeCalls : Fin 3 → ClientCall
  | 0 => .makeWindow
  | 1 => .focusWindow "b"
  | 2 => .agreeToTerms (.default .debug)

/-- A client that lists two windows, before it is stored. -/
def twoWindows : Client := ⟨"c", 0, ["a", "b"], 0, .empty⟩

/-- The world after the client was stored. -/
def twoWindowWorld : World :=
  ⟨((StoreCall.create .client twoWindows).run (.quiet 0) ⟨1, none⟩ .empty).table, .empty⟩

/-- A move that nothing stands in the way of. -/
def quietMove (member : Fin 3) (freshOid : String) : Move 3 := ⟨member, .quiet 0, freshOid, 5⟩

/-- The window is created while the terms are accepted, and brought to the front is another. -/
def mixedMoves : List (Move 3) :=
  [quietMove 0 "t", quietMove 2 "", quietMove 0 "", quietMove 2 "", quietMove 0 "s",
    quietMove 0 "", quietMove 1 "", quietMove 0 "w", quietMove 2 "", quietMove 0 "",
    quietMove 0 ""]

/-- The three requests before they begin. -/
def threeRequests : Crowd 3 ClientAnswer :=
  ClientCall.crowd threeCalls (fun _ => ⟨1, none⟩) twoWindowWorld

/-- The window that was brought to the front is listed first, the new one last, and the time of
the acceptance is kept. -/
theorem a_window_a_focus_and_an_acceptance_are_kept :
    twoWindowWorld.table.Reached ∧
      twoWindowWorld.table.client? = some { twoWindows with version := 1 } ∧
      twoWindows.windowIds.Nodup ∧
      ∃ client, (threeRequests.run mixedMoves).world.table.client? = some client ∧
        client.windowIds = ["b", "a", "w"] ∧ client.tosAgreed = 5 ∧ client.version = 4 ∧
        ∃ member window,
          (threeRequests.run mixedMoves).answer? member = some (.ok (.window window)) ∧
            window.oid = "w" := by
  have reached : twoWindowWorld.table.Reached := .call .empty (.quiet 0) ⟨1, none⟩ _
  have row : twoWindowWorld.table.ofKind Kind.client.name =
      [Kind.client.toRow { twoWindows with version := 1 }] := by
    decide +kernel
  have stored : twoWindowWorld.table.client? = some { twoWindows with version := 1 } :=
    Table.client?_eq_some_iff.2 ⟨_, row, Kind.client.ofRow_toRow Meta.withinLimits_empty⟩
  have distinct : twoWindows.windowIds.Nodup := by decide
  refine ⟨reached, stored, distinct, ?_⟩
  obtain ⟨client, now, -, listed, stamped, counted, -⟩ :=
    no_window_and_no_acceptance_is_lost threeCalls (fun _ => ⟨1, none⟩) twoWindowWorld _
      reached stored distinct mixedMoves
  obtain ⟨windows, stamp, changes⟩ :
      (threeRequests.run mixedMoves).world.table.client?.map Client.windowIds =
          some ["b", "a", "w"] ∧
        (Notes.ofRun threeCalls threeRequests .blank mixedMoves).stamp = some 5 ∧
        (Notes.ofRun threeCalls threeRequests .blank mixedMoves).changes = 3 := by
    decide +kernel
  rw [show (threeRequests.run mixedMoves).world.table.client? = some client from now,
    Option.map_some, Option.some.injEq] at windows
  refine ⟨client, now, windows, ?_, ?_, ?_⟩
  · rw [stamped]
    exact congrArg (·.getD 0) stamp
  · rw [counted]
    exact congrArg (1 + Int64.ofNat ·) changes
  · have new : "w" ∈ client.windowIds := by
      rw [windows]
      decide
    exact ((listed "w").1 new).resolve_left (by decide)

end Workbench
