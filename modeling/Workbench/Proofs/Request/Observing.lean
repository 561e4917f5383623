/-
# Observers of a journal

Whoever applies the records of a batch one by one passes through tables that the store itself
was never seen in: two records may come from one store call. So it is not enough that every
request leaves an intact table behind. What counts is the order of single writes: an object is
written only after the objects that it refers to.

A request may rely on rows that it knows to be there, because it wrote them itself or because
an object that it read refers to them. No request takes rows away, so what is known stays
known, whatever comes in between.
-/

import Workbench.Proofs.Graph.Building
import Workbench.Proofs.Request.Acceptance
import Workbench.Proofs.Store.Intact

namespace Workbench

/-! ## Store calls -/

/-- From an intact table in which the known rows are there, the call leads through intact tables
only, and its records tell its way. If it succeeds, the gained rows are there as well. -/
def StoreCall.KeepsIntact (known : List Reference) (call : StoreCall)
    (gained : call.Value → List Reference) : Prop :=
  ∀ (moment : Moment) (context : Context) (table : Table),
    table.HoldsObjects → table.Intact → table.HasAll known →
      ∃ written, table.WritesIntact written (call.run moment context table).table ∧
        (call.run moment context table).context.journal =
          context.journal.map (· ++ written.map RowWrite.record) ∧
        ∀ value, (call.run moment context table).result = .ok value →
          (call.run moment context table).table.HasAll (gained value)

theorem Context.journal_append_nil (context : Context) :
    context.journal = context.journal.map (· ++ ([] : List UpdateRecord)) := by
  cases context.journal <;> simp

namespace StoreCall.KeepsIntact

variable {known : List Reference}

theorem mono {call : StoreCall} {gained : call.Value → List Reference} {more : List Reference}
    (keeps : call.KeepsIntact known gained) (subset : known ⊆ more) :
    call.KeepsIntact more gained :=
  fun moment context table holds intact there =>
    keeps moment context table holds intact (there.mono subset)

/-- A call that leaves table and journal alone. -/
theorem of_silent {call : StoreCall}
    (silent : ∀ moment context table, (call.run moment context table).table = table ∧
      (call.run moment context table).context = context) :
    call.KeepsIntact known fun _ => [] := by
  intro moment context table _ intact _
  obtain ⟨sameTable, sameContext⟩ := silent moment context table
  rw [sameTable, sameContext]
  exact ⟨[], .none intact, context.journal_append_nil, fun _ _ => table.hasAll_nil⟩

theorem getSingleton (kind : Kind) : (getSingleton kind).KeepsIntact known fun _ => [] := by
  apply of_silent
  intro moment context table
  simp only [run, Store.getSingleton]
  split <;> exact ⟨rfl, rfl⟩

theorem mustGet (kind : Kind) (oid : String) : (mustGet kind oid).KeepsIntact known fun _ => [] :=
  of_silent fun _ _ _ => ⟨rfl, rfl⟩

/-- A creation of an object that refers to known rows. -/
theorem create {kind : Kind} {object : kind.Object} (refers : kind.references object ⊆ known) :
    (create kind object).KeepsIntact known fun created => [(kind, kind.oid created)] := by
  intro moment context table _ intact there
  rw [run]
  rcases Store.create_cases moment context table kind object with
    ⟨problem, failed⟩ | ⟨after, takes, succeeded⟩
  · rw [failed]
    refine ⟨[], .none intact, context.journal_append_nil, ?_⟩
    intro value impossible
    cases impossible
  · rw [succeeded]
    have refersWritten := there.mono refers
    rw [← kind.references_withVersion object 1] at refersWritten
    refine ⟨[_], .single intact takes refersWritten, context.journal_recordAll [_], ?_⟩
    intro value same
    cases same
    exact Table.hasAll_written takes

/-- An edit of the client after which it refers to rows that it referred to before, and to
known ones. -/
theorem modifyClient {edit : Client → Client × Bool}
    (refers : ∀ client, Kind.client.references (edit client).1 ⊆
      Kind.client.references client ++ known) :
    (modifySingleton .client edit).KeepsIntact known fun _ => [] := by
  intro moment context table holds intact there
  simp only [run, Store.modifySingleton, Kind.ensureSingleton, Kind.isSingleton, if_true]
  rcases Store.modifyWith_edits moment context table .client (Store.demandSingleton moment .client)
    edit with ⟨problem, failed⟩ | ⟨held, edited, changed, loaded, answer, ended⟩
  · rw [failed]
    exact ⟨[], .none intact, context.journal_append_nil, fun _ _ => table.hasAll_nil⟩
  · cases changed with
    | false =>
        rw [ended]
        exact ⟨[], .none intact, context.journal_append_nil, fun _ _ => table.hasAll_nil⟩
    | true =>
        obtain ⟨after, takes, wrote⟩ := ended
        obtain ⟨row, present, decoded⟩ := Store.row_of_demandSingleton loaded
        rw [Table.ofKind, List.mem_filter, decide_eq_true_iff] at present
        have before := intact.hasAll_of_ofRow holds present.1 present.2 decoded
        have edits := refers held
        rw [answer] at edits
        rw [wrote]
        refine ⟨[_], .single intact takes ?_, context.journal_recordAll [_],
          fun _ _ => after.hasAll_nil⟩
        rw [Kind.references_withVersion]
        exact (before.append there).mono edits

/-- A window that is known to be there is put on the list. -/
theorem addWindow {windowId : String} (there : (Kind.window, windowId) ∈ known) :
    (modifySingleton .client fun client => Client.addWindow client windowId).KeepsIntact known
      fun _ => [] := by
  apply modifyClient
  intro client
  unfold Client.addWindow
  split
  · exact List.subset_append_left _ _
  · simp only [Kind.references, List.map_append]
    refine List.append_subset.2 ⟨List.subset_append_left _ _, ?_⟩
    intro reference last
    exact List.mem_append_right _ (List.mem_singleton.1 last ▸ there)

/-- To bring a window to the front changes the order of the list at most. -/
theorem focusWindow (windowId : String) :
    (modifySingleton .client fun client => Client.focusWindow client windowId).KeepsIntact known
      fun _ => [] := by
  apply modifyClient
  intro client
  unfold Client.focusWindow
  split
  · rename_i present
    have reordered := (List.perm_cons_erase present.1).symm
    exact List.subset_append_of_subset_left _ (List.map_subset _ reordered.subset)
  · exact List.subset_append_left _ _

/-- A stamp leaves the list of windows alone. -/
theorem stamping (time : Int64) :
    (modifySingleton .client fun client =>
      ({ (client : Client) with tosAgreed := time }, true)).KeepsIntact known fun _ => [] :=
  modifyClient fun _ => List.subset_append_left _ _

/-- A block is written before the tab that lists it. -/
theorem blockCreation (oid tabId : String) (definition : BlockDefinition) :
    (blockCreation oid tabId definition).KeepsIntact known fun _ => [] := by
  intro moment context table holds intact _
  rcases Store.createAttached_cases moment context table .block .tab
      (Block.ofDefinition oid definition) tabId
      (fun tab block => Tab.addBlock tab (Block.oid block)) with
    ⟨problem, failed⟩ | ⟨row, owner, between, after, found, decoded, creation, change, succeeded⟩
  · rw [Workbench.blockCreation, run, failed]
    exact ⟨[], .none intact, context.journal_append_nil, fun _ _ => table.hasAll_nil⟩
  · rw [Workbench.blockCreation, run, succeeded]
    have alone : table.WritesIntact [_] between := .single intact creation table.hasAll_nil
    refine ⟨[_, _], .more intact creation (.single alone.intact_after change ?_),
      context.journal_recordAll _, fun _ _ => after.hasAll_nil⟩
    obtain ⟨present, key⟩ := Table.find?_eq_some_iff.1 found
    have named : row.kind = Kind.tab.name := congrArg Prod.fst key
    have listed := intact.hasAll_of_ofRow holds present named decoded
    rw [Kind.references_withVersion]
    simp only [Kind.references, Tab.addBlock, List.map_append]
    exact (listed.takes creation).append (Table.hasAll_written creation)

end StoreCall.KeepsIntact

/-! ## Programs -/

/-- An effect that changes neither a table nor a journal. -/
def Effect.Silent : Effect → Prop
  | .storeCall _ => False
  | .openContext _ => False
  | _ => True

theorem Effect.Silent.perform {effect : Effect} (silent : effect.Silent) (tick : Tick)
    {context : Context} (journaled : context.hasJournal = true) (world : World) :
    (effect.perform tick context world).context.journal = context.journal ∧
      (effect.perform tick context world).world.table = world.table := by
  cases effect with
  | storeCall call => exact silent.elim
  | openContext timeout => exact silent.elim
  | openJournal =>
      obtain ⟨records, kept⟩ := Option.isSome_iff_exists.1 journaled
      simp only [Effect.perform, Context.withJournal, kept, Option.getD_some, and_self]
  | freshOid => exact ⟨rfl, rfl⟩
  | timeOfDay => exact ⟨rfl, rfl⟩
  | batch => exact ⟨rfl, rfl⟩
  | narrow timeout => exact ⟨rfl, rfl⟩
  | restore deadline => exact ⟨rfl, rfl⟩
  | send windowId event => exact ⟨rfl, rfl⟩

/-- A program that keeps intact tables intact, where the known rows are there. After a store call
that succeeded it may rely on the gained rows too. -/
inductive Program.KeepsIntact {α : Type} : List Reference → Program α → Prop where
  | done {known : List Reference} (value : α) : KeepsIntact known (.done value)
  | silent {known : List Reference} {effect : Effect} {next : effect.Answer → Program α} :
      effect.Silent → (∀ answer, KeepsIntact known (next answer)) →
      KeepsIntact known (.step effect next)
  | call {known : List Reference} {call : StoreCall} {gained : call.Value → List Reference}
      {next : Except StoreError call.Value → Program α} :
      call.KeepsIntact known gained →
      (∀ value, KeepsIntact (gained value ++ known) (next (.ok value))) →
      (∀ problem, KeepsIntact known (next (.error problem))) →
      KeepsIntact known (.step (.storeCall call) next)

namespace Program.KeepsIntact

variable {α β : Type} {known : List Reference}

/-- Whoever knows more may do the same. -/
theorem mono {program : Program α} {more : List Reference} (keeps : program.KeepsIntact known)
    (subset : known ⊆ more) : program.KeepsIntact more := by
  induction keeps generalizing more with
  | done value => exact .done value
  | silent quiet _ ih => exact .silent quiet fun answer => ih answer subset
  | call keeps _ _ succeeded failed =>
      exact .call (keeps.mono subset)
        (fun value => succeeded value (List.append_subset.2
          ⟨List.subset_append_left _ _, List.subset_append_of_subset_right _ subset⟩))
        fun problem => failed problem subset

theorem perform {effect : Effect} (quiet : effect.Silent) :
    (Program.perform effect).KeepsIntact known :=
  .silent quiet fun answer => .done answer

theorem bind {program : Program α} {rest : α → Program β} (first : program.KeepsIntact known)
    (later : ∀ value, (rest value).KeepsIntact known) : (program >>= rest).KeepsIntact known := by
  induction first with
  | done value => exact later value
  | silent quiet _ ih => exact .silent quiet fun answer => ih answer later
  | call keeps _ _ succeeded failed =>
      refine .call keeps (fun value => succeeded value fun result => ?_) fun problem =>
        failed problem later
      exact (later result).mono (List.subset_append_right _ _)

/-- A run passes through intact tables only, and its records tell its way. -/
theorem run {program : Program α} (keeps : program.KeepsIntact known) (ticks : Nat → Tick)
    (time : Nat) (context : Context) (world : World) (journaled : context.hasJournal = true)
    (holds : world.table.HoldsObjects) (intact : world.table.Intact)
    (there : world.table.HasAll known) :
    ∃ written,
      world.table.WritesIntact written (program.run ticks time context world).world.table ∧
        (program.run ticks time context world).context.journal =
          context.journal.map (· ++ written.map RowWrite.record) := by
  induction keeps generalizing time context world with
  | done value => exact ⟨[], .none intact, context.journal_append_nil⟩
  | @silent _ effect next quiet _ ih =>
      obtain ⟨sameJournal, sameTable⟩ := quiet.perform (ticks time) journaled world
      rw [Program.run]
      generalize effect.perform (ticks time) context world = reply at sameJournal sameTable
      rw [← sameTable] at holds intact there
      have stillJournaled : reply.context.hasJournal = true := by
        rw [Context.hasJournal, sameJournal]
        exact journaled
      obtain ⟨written, way, told⟩ := ih reply.answer (time + 1) reply.context reply.world
        stillJournaled holds intact there
      rw [sameTable] at way
      rw [sameJournal] at told
      exact ⟨written, way, told⟩
  | @call _ storeCall gained next safe _ _ succeeded failed =>
      obtain ⟨first, firstWay, firstTold, gives⟩ :=
        safe (ticks time).moment context world.table holds intact there
      simp only [Program.run, Effect.perform]
      generalize storeCall.run (ticks time).moment context world.table = outcome at *
      have stillJournaled : outcome.context.hasJournal = true := by
        rw [Context.hasJournal, firstTold, Option.isSome_map]
        exact journaled
      have stillHolds := holds.writes firstWay.writes
      have stillIntact := firstWay.intact_after
      have stillThere := firstWay.hasAll there
      let between : World := { world with table := outcome.table }
      have rest : ∃ written, outcome.table.WritesIntact written
            (Program.run ticks (time + 1) outcome.context between
              (next outcome.result)).world.table ∧
          (Program.run ticks (time + 1) outcome.context between
              (next outcome.result)).context.journal =
            outcome.context.journal.map (· ++ written.map RowWrite.record) := by
        cases result : outcome.result with
        | ok value =>
            exact succeeded value (time + 1) outcome.context between stillJournaled stillHolds
              stillIntact ((gives value result).append stillThere)
        | error problem =>
            exact failed problem (time + 1) outcome.context between stillJournaled stillHolds
              stillIntact stillThere
      obtain ⟨others, otherWay, otherTold⟩ := rest
      refine ⟨first ++ others, firstWay.append otherWay, ?_⟩
      rw [otherTold, firstTold, Option.map_map, List.map_append]
      congr 1
      funext earlier
      simp

end Program.KeepsIntact

/-! ## Requests -/

/-- A request that keeps intact tables intact, however it ends. -/
abbrev Request.KeepsIntact {α : Type} (known : List Reference) (request : Request α) : Prop :=
  Program.KeepsIntact known request.run

namespace Request.KeepsIntact

variable {α β : Type} {known : List Reference}

theorem pure (value : α) : KeepsIntact known (pure value : Request α) :=
  Program.KeepsIntact.done (Except.ok value)

theorem throw (problem : RequestError) : KeepsIntact known (throw problem : Request α) :=
  Program.KeepsIntact.done (Except.error problem)

theorem bind {request : Request α} {rest : α → Request β} (first : request.KeepsIntact known)
    (later : ∀ value, (rest value).KeepsIntact known) : (request >>= rest).KeepsIntact known := by
  apply Program.KeepsIntact.bind first
  intro answer
  cases answer with
  | ok value => exact later value
  | error problem => exact throw problem

theorem silent {effect : Effect} (quiet : effect.Silent) :
    KeepsIntact known (ExceptT.lift (Program.perform effect) : Request effect.Answer) :=
  Program.KeepsIntact.silent quiet fun answer => .done (Except.ok answer)

theorem attempt {storeCall : StoreCall} {gained : storeCall.Value → List Reference}
    (keeps : storeCall.KeepsIntact known gained) : (Request.attempt storeCall).KeepsIntact known :=
  Program.KeepsIntact.call keeps (fun value => .done (Except.ok (Except.ok value)))
    fun problem => .done (Except.ok (Except.error problem))

/-- After a call that succeeded the gained rows may be relied on. -/
theorem call_bind {storeCall : StoreCall} {gained : storeCall.Value → List Reference}
    {rest : storeCall.Value → Request β} (operation : String)
    (keeps : storeCall.KeepsIntact known gained)
    (later : ∀ value, (rest value).KeepsIntact (gained value ++ known)) :
    (Request.call operation storeCall >>= rest).KeepsIntact known :=
  Program.KeepsIntact.call keeps later fun problem => .done (Except.error (RequestError.store operation problem))

theorem call {storeCall : StoreCall} {gained : storeCall.Value → List Reference}
    (operation : String) (keeps : storeCall.KeepsIntact known gained) :
    (Request.call operation storeCall).KeepsIntact known :=
  Program.KeepsIntact.call keeps (fun value => .done (Except.ok value))
    fun problem => .done (Except.error (RequestError.store operation problem))

theorem freshOid : Request.freshOid.KeepsIntact known := silent trivial

theorem send (windowId : String) (event : WindowEvent) :
    (Request.send windowId event).KeepsIntact known :=
  bind (silent trivial) fun _ => pure ()

theorem limited (timeout : UInt64) {body : Request α} (keeps : body.KeepsIntact known) :
    (Request.limited timeout body).KeepsIntact known :=
  Program.KeepsIntact.bind (.perform trivial) fun _ =>
    .bind keeps fun answer => .bind (.perform trivial) fun _ => .done answer

theorem settle {body : Request α} (keeps : body.KeepsIntact known) :
    (Request.settle body).KeepsIntact known :=
  Program.KeepsIntact.bind keeps fun answer => .done (Except.ok answer)

/-! ### The requests of the program -/

theorem createBlock (tabId : String) (definition : BlockDefinition) :
    (createBlock tabId definition).KeepsIntact known :=
  bind freshOid fun oid => bind (call _ (.blockCreation oid tabId definition)) fun _ => pure _

theorem createViewBlock (surroundings : Surroundings) (tabId target : String)
    (options : ViewOptions) :
    (createViewBlock surroundings tabId target options).KeepsIntact known := by
  unfold Request.createViewBlock
  split
  · exact throw _
  · exact bind (createBlock tabId _) fun _ => pure _

/-- The tab comes first, then the workspace that has it, then the window that shows both, and at
last the window is listed. -/
theorem makeWindow : makeWindow.KeepsIntact known :=
  bind freshOid fun _ => call_bind _ (.create (List.nil_subset _)) fun _ =>
    bind freshOid fun _ => call_bind _ (.create (by simp [Kind.references, Workspace.addTab,
      Workspace.new, Kind.oid])) fun _ =>
      bind freshOid fun _ => call_bind _ (.create (by simp [Kind.references, Window.new,
        Kind.oid])) fun _ =>
        call_bind _ (.addWindow (List.mem_append_left _ List.mem_cons_self)) fun _ => pure _

theorem focusWindow (windowId : String) : (focusWindow windowId).KeepsIntact known :=
  bind (call _ (.focusWindow windowId)) fun _ => pure _

theorem findOrCreateClient : findOrCreateClient.KeepsIntact known := by
  refine bind (attempt (.getSingleton .client)) ?_
  intro found
  split
  · exact pure _
  · refine bind freshOid fun oid => bind (attempt (.create (List.nil_subset _))) ?_
    intro created
    split
    · exact pure _
    · exact call _ (.getSingleton .client)
    · exact throw _
  · exact throw _

theorem ensureInitialData : ensureInitialData.KeepsIntact known := by
  apply bind findOrCreateClient
  intro client
  split
  · exact bind makeWindow fun _ => call _ (.getSingleton .client)
  · exact pure _

theorem insertSteps (windowId tabId : String) (layout : Layout) :
    (insertSteps windowId tabId layout).KeepsIntact known := by
  induction layout with
  | nil => exact pure _
  | cons step rest ih =>
      exact bind (createBlock tabId _) fun _ => bind (send windowId _) fun _ => ih

theorem bootstrapLayout (config : Config) (layout : Layout) :
    (bootstrapLayout config layout).KeepsIntact known := by
  unfold Request.bootstrapLayout
  split
  · exact throw _
  · refine limited _ (bind (call _ (.getSingleton .client)) ?_)
    intro client
    split
    · exact throw _
    · exact bind (call _ (.mustGet .window _)) fun _ => insertSteps _ _ layout

theorem agreeToTerms (config : Config) : (agreeToTerms config).KeepsIntact known :=
  bind (silent trivial) fun _ => bind (silent trivial) fun time =>
    bind (call _ (.stamping time)) fun _ =>
      bind (settle (bootstrapLayout config .starter)) fun _ => silent trivial

end Request.KeepsIntact

/-! ## Sessions -/

namespace GraphCall

/-- Calls under one context, one after another. How a call ends is of no concern to the calls
after it. -/
def session : List GraphCall → Request Unit
  | [] => return ()
  | call :: rest => do
      let _ ← Request.settle call.request
      session rest

theorem keepsIntact_request (call : GraphCall) : call.request.KeepsIntact [] := by
  cases call with
  | createClient =>
      exact .bind .freshOid fun _ => .bind (.attempt (.create (List.nil_subset _))) fun _ => .pure _
  | ensureInitialData => exact .bind .ensureInitialData fun _ => .pure _
  | makeWindow => exact .bind .makeWindow fun _ => .pure _
  | focusWindow windowId => exact .focusWindow windowId
  | agreeToTerms config => exact .bind (.agreeToTerms config) fun _ => .pure _
  | bootstrapLayout config layout => exact .bootstrapLayout config layout
  | createBlock tabId definition => exact .bind (.createBlock tabId definition) fun _ => .pure _
  | createViewBlock surroundings tabId target options =>
      exact .bind (.createViewBlock surroundings tabId target options) fun _ => .pure _

theorem keepsIntact_session (calls : List GraphCall) : (session calls).KeepsIntact [] := by
  induction calls with
  | nil => exact .pure ()
  | cons call rest ih => exact .bind (.settle call.keepsIntact_request) fun _ => ih

end GraphCall

/-- What an acceptance answers is the journal as the acceptance leaves it. -/
theorem Request.batch_of_agreeToTerms {ticks : Nat → Tick} {time : Nat} {context : Context}
    {world : World} {config : Config} {batch : UpdateBatch}
    (answered : (play ticks time context world (agreeToTerms config)).answer = .ok batch) :
    (play ticks time context world (agreeToTerms config)).context.batch = batch := by
  have whole := play_agreeToTerms ticks time context world config
  generalize play ticks time context world (agreeToTerms config) = finish at answered whole
  obtain ⟨reply, laterTime⟩ := finish
  simp only at answered whole
  generalize (stamping (ticks (time + 1)).timeOfDay).run (ticks (time + 2)).moment
    context.withJournal world.table = stamp at whole
  rw [whole] at answered ⊢
  cases result : stamp.result with
  | error problem =>
      rw [result] at answered
      cases answered
  | ok _ =>
      rw [result] at answered
      exact Except.ok.inj answered

/-- An observer never sees a dangling reference. Take an intact store, a session of requests
under one context that began with an empty journal, and any beginning of the batch, also one that
ends between two records of one store call. Replayed on the store as it was, it gives an intact
table: listed windows are there, and so are the workspaces and tabs of windows, the tabs of
workspaces and the blocks of tabs. The whole batch gives the rows as they are now. The same holds
of the batch that an acceptance of the terms answers at the end of the session. -/
theorem observers_see_no_dangling_reference (ticks : Nat → Tick) (time : Nat) (deadline : Instant)
    (world : World) (reached : world.table.Reached) (intact : world.table.Intact)
    (calls : List GraphCall) (config : Config) :
    let finish := Request.play ticks time ⟨deadline, some []⟩ world (GraphCall.session calls)
    let accepted := Request.play ticks finish.time finish.context finish.world
      (Request.agreeToTerms config)
    ((∀ done, done <+: finish.context.batch → (UpdateBatch.replay done world.table).Intact) ∧
      (UpdateBatch.replay finish.context.batch world.table).rows = finish.world.table.rows) ∧
    ∀ batch, accepted.answer = .ok batch →
      (∀ done, done <+: batch → (UpdateBatch.replay done world.table).Intact) ∧
        (UpdateBatch.replay batch world.table).rows = accepted.world.table.rows := by
  intro finish accepted
  have holds := reached.holdsObjects
  obtain ⟨written, way, told⟩ := (GraphCall.keepsIntact_session calls).run ticks time
    ⟨deadline, some []⟩ world rfl holds intact world.table.hasAll_nil
  have batch : finish.context.batch = written.map RowWrite.record := by
    rw [Context.batch, show finish.context.journal = _ from told]
    rfl
  have journaled : finish.context.hasJournal = true := by
    rw [Context.hasJournal, show finish.context.journal = _ from told]
    rfl
  constructor
  · rw [batch]
    exact ⟨fun done early => way.intact_replay early, congrArg Table.rows way.writes.replay_records⟩
  intro answer answered
  obtain ⟨later, laterWay, laterTold⟩ := (Request.KeepsIntact.agreeToTerms config).run ticks
    finish.time finish.context finish.world journaled (holds.writes way.writes) way.intact_after
    finish.world.table.hasAll_nil
  have whole := way.append laterWay
  have answer_eq : answer = (written ++ later).map RowWrite.record := by
    rw [← Request.batch_of_agreeToTerms answered, Context.batch,
      show accepted.context.journal = _ from laterTold, show finish.context.journal = _ from told,
      List.map_append]
    rfl
  rw [answer_eq]
  exact ⟨fun done early => whole.intact_replay early,
    congrArg Table.rows whole.writes.replay_records⟩

/-- A window is made and gets a block. Another block fails, since its name is taken. The six
records can be applied one by one. -/
theorem a_session_with_a_failure_shows_no_dangling_reference :
    let ticks : Nat → Tick := fun _ => ⟨.quiet 0, "a", 5⟩
    let start : World :=
      ⟨((StoreCall.create .client (Client.new "c")).run (.quiet 0) ⟨1, none⟩ .empty).table, .empty⟩
    let calls : List GraphCall :=
      [.makeWindow, .createBlock "a" ⟨.empty⟩, .createBlock "a" ⟨.empty⟩]
    let batch :=
      (Request.play ticks 0 ⟨1, some []⟩ start (GraphCall.session calls)).context.batch
    start.table.Reached ∧ start.table.Intact ∧
      batch.map (fun record => (record.updateType, record.kind)) =
        [(.created, .tab), (.created, .workspace), (.created, .window), (.updated, .client),
          (.created, .block), (.updated, .tab)] ∧
      ∀ done, done <+: batch → (UpdateBatch.replay done start.table).Intact := by
  intro ticks start calls batch
  have reached : start.table.Reached := .call .empty _ _ _
  have intact : start.table.Intact := by
    obtain ⟨written, way, -⟩ := @StoreCall.KeepsIntact.create [] .client (Client.new "c")
      (List.nil_subset _) (.quiet 0) ⟨1, none⟩ .empty Table.holdsObjects_empty Table.intact_empty
      Table.empty.hasAll_nil
    exact way.intact_after
  obtain ⟨⟨early, -⟩, -⟩ := observers_see_no_dangling_reference ticks 0 1 start reached intact calls
    (.default .debug)
  exact ⟨reached, intact, by decide +kernel, early⟩

end Workbench
