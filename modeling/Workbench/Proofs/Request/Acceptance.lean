/-
# Accepting the terms

The acceptance is a stamp on the client, and the starter layout comes after it. If the stamp
fails, nothing has happened. Once it is made the request succeeds, however far the layout
comes, and gives back the journal: the records that were there before, the stamped client, and
two records for each step of the layout that was done.

The client is read from its row and written back. The text of a double need not be read as the
same double, so the metadata of the client is not always what it was; everything else is.
-/

import Workbench.Proofs.Request.Bootstrap

namespace Workbench

/-- The records of blocks that were created, each followed by that of the tab with the block. -/
def creationRecords (made : List (Block × Tab)) : List UpdateRecord :=
  made.flatMap fun both => [.ofObject .created .block both.1, .ofObject .updated .tab both.2]

/-! ## How far a layout came -/

/-- Writing an object leaves the rows of the other kinds as they are. -/
theorem Table.filter_map_putRow {kind other : Kind} (apart : kind ≠ other)
    (object : other.Object) (table : Table) :
    (table.rows.map (other.putRow object)).filter (fun row => row.kind = kind.name) =
      table.ofKind kind.name := by
  have kinds : ∀ row, (other.putRow object row).kind = row.kind := by
    intro row
    unfold Kind.putRow
    split
    · rename_i same
      exact (congrArg Prod.fst same).symm
    · rfl
  have each : ∀ row ∈ table.ofKind kind.name, other.putRow object row = row := by
    intro row there
    rw [ofKind, List.mem_filter, decide_eq_true_iff] at there
    apply if_neg
    intro same
    exact apart (Kind.eq_of_name_eq (there.2.symm.trans (congrArg Prod.fst same)))
  rw [List.filter_map]
  simp only [Function.comp_def, kinds]
  exact (List.map_congr_left each).trans (List.map_id' _)

/-- What a layout did, told by the blocks that it created and the tabs that it wrote. -/
structure LayoutDone (layout : Layout) (context : Context) (table : Table)
    (made : List (Block × Tab)) (reply : Reply (Except RequestError Unit)) : Prop where
  /-- One block was created for each step that was done. -/
  few : made.length ≤ layout.length
  /-- The layout succeeded exactly if all steps were done. -/
  answer : reply.answer = .ok () ↔ made.length = layout.length
  /-- The blocks are those of the first steps. -/
  blocks : made.map (fun both => (both.1.version, both.1.metadata)) =
    (layout.take made.length).map fun step => (1, step.definition.metadata)
  /-- Each block was put at the end of the tab that was written with it. -/
  tabs : ∀ both ∈ made, ∃ earlier, both.2.blockIds = earlier ++ [both.1.oid]
  /-- The journal has the records of the blocks, and the deadline is as before. -/
  journal : reply.context = context.recordAll (creationRecords made)
  /-- The rows of the blocks stand behind those of the older blocks. -/
  stored : reply.world.table.ofKind Kind.block.name =
    table.ofKind Kind.block.name ++ made.map fun both => Kind.block.toRow both.1
  /-- Only blocks and tabs were written. -/
  others : ∀ kind : Kind, kind ≠ .block → kind ≠ .tab →
    reply.world.table.ofKind kind.name = table.ofKind kind.name

namespace LayoutDone

variable {layout : Layout} {context limited : Context} {world : World}

/-- A layout that failed at once. -/
theorem nothing (nonempty : layout ≠ []) (problem : RequestError) (bus : Bus) :
    LayoutDone layout context world.table [] ⟨.error problem, context, { world with bus }⟩ where
  few := Nat.zero_le _
  answer := by
    refine iff_of_false ?_ ?_
    · intro impossible
      cases impossible
    · intro none
      exact nonempty (List.eq_nil_of_length_eq_zero none.symm)
  blocks := rfl
  tabs := fun _ impossible => absurd impossible List.not_mem_nil
  journal := rfl
  stored := (List.append_nil _).symm
  others := fun _ _ _ => rfl

/-- A layout whose blocks were created in a stored tab, under an earlier deadline. -/
theorem of_fills {stored : Tab} {table : Table} {series : BlockSeries}
    (fills : series.Fills stored layout limited table)
    (restored : limited.withDeadline context.deadline = context) (bus : Bus) :
    LayoutDone layout context table series.made
      ⟨series.answer, series.context.withDeadline context.deadline, ⟨series.table, bus⟩⟩ where
  few := fills.count.1
  answer := by
    refine Iff.trans ?_ fills.count.2
    unfold BlockSeries.answer
    cases series.failure <;> simp
  blocks := by
    rw [← fills.blocks, BlockSeries.blocks, List.map_map]
    rfl
  tabs := by
    rintro ⟨block, tab⟩ there
    obtain ⟨early, late, split⟩ := List.append_of_mem there
    have gained := (fills.tabs early block tab late split).blockIds
    rw [List.map_append, ← List.append_assoc] at gained
    exact ⟨_, gained⟩
  journal := by
    show series.context.withDeadline context.deadline = _
    rw [fills.context, Context.withDeadline_recordAll, restored]
    rfl
  stored := by
    obtain ⟨tab, -, rows⟩ := fills.rows
    have blocks : (series.blocks.map Kind.block.toRow).filter
        (fun row => row.kind = Kind.block.name) = series.blocks.map Kind.block.toRow := by
      rw [List.filter_map]
      exact congrArg _ (List.filter_eq_self.2 fun _ _ => rfl)
    show series.table.ofKind _ = _
    rw [Table.ofKind, rows, List.filter_append, Table.filter_map_putRow (by decide), blocks,
      BlockSeries.blocks, List.map_map]
    rfl
  others := by
    intro kind notBlock notTab
    obtain ⟨tab, -, rows⟩ := fills.rows
    have none : (series.blocks.map Kind.block.toRow).filter
        (fun row => row.kind = kind.name) = [] := by
      rw [List.filter_map, List.map_eq_nil_iff, List.filter_eq_nil_iff]
      intro block _ same
      have kinds : Kind.block.name = kind.name := of_decide_eq_true same
      exact notBlock (Kind.eq_of_name_eq kinds).symm
    show series.table.ofKind _ = _
    rw [Table.ofKind, rows, List.filter_append, Table.filter_map_putRow notTab, none,
      List.append_nil]

/-- A layout in order does this, whatever stops it. -/
theorem bootstrapLayout (ticks : Nat → Tick) (time : Nat) (context : Context) (config : Config)
    (valid : layout.validate = .ok ()) (nonempty : layout ≠ [])
    (holds : world.table.HoldsObjects) :
    ∃ made, LayoutDone layout context world.table made
      (Request.play ticks time context world (Request.bootstrapLayout config layout)).toReply := by
  rw [Request.play_bootstrapLayout_of_valid ticks time context world config valid]
  let limited := context.narrow (ticks time).moment.now config.bootstrapTimeout
  have restored : limited.withDeadline context.deadline = context := rfl
  cases read : (ticks (time + 1)).moment.enter limited *>
      Store.demandSingleton (ticks (time + 1)).moment .client world.table with
  | error problem =>
      rw [Request.play_applyLayout_of_client_error ticks layout read]
      exact ⟨[], nothing nonempty _ world.bus⟩
  | ok client =>
      cases front : Client.windowIds client with
      | nil =>
          rw [Request.play_applyLayout_of_no_windows ticks layout read front]
          exact ⟨[], nothing nonempty _ world.bus⟩
      | cons windowId others =>
          cases found : (ticks (time + 2)).moment.enter limited *>
              Store.demandObject (ticks (time + 2)).moment .window windowId world.table with
          | error problem =>
              rw [Request.play_applyLayout_of_window_error ticks layout read front found]
              exact ⟨[], nothing nonempty _ world.bus⟩
          | ok window =>
              rw [Request.play_applyLayout_of_window ticks layout read front found,
                Request.play_insertSteps]
              cases here : world.table.find? Kind.tab.name (Window.activeTabId window) with
              | none =>
                  obtain ⟨failure, ended, made⟩ :=
                    BlockSeries.create_of_missing ticks layout here (time + 3) limited
                  rw [made]
                  cases failure with
                  | none =>
                      exact absurd (List.eq_nil_of_length_eq_zero (ended.1 rfl).symm) nonempty
                  | some cause => exact ⟨[], nothing nonempty _ _⟩
              | some row =>
                  obtain ⟨stored, rfl, oid⟩ := holds.of_find? here
                  rw [← oid] at here
                  have fills : (BlockSeries.create ticks (Window.activeTabId window) (time + 3)
                      limited world.table layout).Fills stored layout limited world.table :=
                    oid ▸ BlockSeries.fills_create ticks layout here (time + 3) limited
                  exact ⟨_, of_fills fills restored _⟩

end LayoutDone

/-! ## The stamp -/

/-- The store call that stamps the client with the time of the acceptance. -/
def stamping (time : Int64) : StoreCall :=
  .modifySingleton .client fun client => ({ (client : Client) with tosAgreed := time }, true)

/-- The client with the time of the acceptance, as it is stored. -/
def Client.stamped (client : Client) (time : Int64) : Client :=
  { client with tosAgreed := time, version := client.version + 1 }

/-- The statement that stores a stamped client. -/
def stampStatement (client : Client) (time : Int64) : Statement :=
  .update Kind.client.name client.oid client.version (client.version + 1)
    (Kind.client.objectCodec.encode (client.stamped time))

section Stamping

variable {moment : Moment} {context : Context} {table : Table} (time : Int64)

/-- A stamp is a read of the client, followed by a write of the client with the time in it. -/
theorem run_stamping :
    (stamping time).run moment context table =
      match moment.enter context *> Store.demandSingleton moment .client table with
      | .error problem => ⟨.error problem, context, table⟩
      | .ok client =>
          let edited : Client := { (client : Client) with tosAgreed := time }
          let written := Store.writeExisting moment .client edited table
          match written.result with
          | .error problem => ⟨.error problem, context, written.table⟩
          | .ok () =>
              ⟨.ok written.object, context.record (.ofObject .updated .client written.object),
                written.table⟩ := by
  unfold stamping
  rw [StoreCall.run, Store.modifySingleton]
  show Store.modifyWith moment context table .client _ _ = _
  rw [Store.modifyWith]
  cases moment.enter context *> Store.demandSingleton moment .client table <;> rfl

/-- Without the client there is no stamp. -/
theorem stamping_of_load_error {problem : StoreError}
    (failed : moment.enter context *> Store.demandSingleton moment .client table =
      .error problem) :
    (stamping time).run moment context table = ⟨.error problem, context, table⟩ := by
  rw [run_stamping, failed]

variable {client : Client}
    (loaded : moment.enter context *> Store.demandSingleton moment .client table = .ok client)

include loaded

/-- A stamp that the engine refuses changes nothing. -/
theorem stamping_of_failure {failure : EngineFailure}
    (failed : moment.failure (stampStatement client time) table = some failure) :
    (stamping time).run moment context table = ⟨.error (.ofFailure failure), context, table⟩ := by
  let edited : Client := { client with tosAgreed := time }
  have refused := @Store.writeExisting_of_failure moment .client table edited failure failed
  rw [run_stamping, loaded]
  simp only [edited] at refused
  simp only [refused]

/-- A stamp that the engine lets through is written over the row of the client. -/
theorem stamping_of_fits {row : Row}
    (sound : moment.failure (stampStatement client time) table = none)
    (found : table.find? Kind.client.name client.oid = some row)
    (fits : row.version = client.version) :
    ∃ after : Table, after.rows = table.rows.map (Kind.client.putRow (client.stamped time)) ∧
      (stamping time).run moment context table =
        ⟨.ok (client.stamped time),
          context.record (.ofObject .updated .client (client.stamped time)), after⟩ := by
  let edited : Client := { client with tosAgreed := time }
  have wrote := @Store.writeExisting_of_fits moment .client table edited row sound found fits
  have rows := congrArg (fun put => table.rows.map put)
    (@Kind.overwriteRow_eq_putRow .client (client.stamped time))
  refine ⟨table.overwrite Kind.client.name client.oid (client.version + 1)
    (Kind.client.objectCodec.encode (client.stamped time)), rows, ?_⟩
  rw [run_stamping, loaded]
  simp only [edited] at wrote
  simp only [wrote]
  rfl

omit loaded

/-- A stamp of the client that the oldest row is read as, in a store of objects: the engine lets
it through, so the row of the client is now that of the stamped client. -/
theorem stamping_of_oldest {row : Row} {rows : List Row} (holds : table.HoldsObjects)
    (oldest : table.ofKind Kind.client.name = row :: rows)
    (decoded : Kind.client.ofRow row = .ok client)
    (entered : moment.enter context = .ok ())
    (readable : moment.failure (.selectFirst Kind.client.name) table = none)
    (sound : moment.failure (stampStatement client time) table = none) :
    ∃ after : Table, after.rows = table.rows.map (Kind.client.putRow (client.stamped time)) ∧
      after.find? Kind.client.name client.oid = some (Kind.client.toRow (client.stamped time)) ∧
      (stamping time).run moment context table =
        ⟨.ok (client.stamped time),
          context.record (.ofObject .updated .client (client.stamped time)), after⟩ := by
  obtain ⟨-, found, fits⟩ := holds.of_oldest oldest decoded
  have loaded : moment.enter context *> Store.demandSingleton moment .client table =
      .ok client := by
    rw [entered]
    show Store.demandSingleton moment .client table = .ok client
    rw [Store.demandSingleton_eq readable, oldest]
    exact decoded
  obtain ⟨after, rowsAfter, ran⟩ := stamping_of_fits time loaded sound found fits
  obtain ⟨present, key⟩ := Table.find?_eq_some_iff.1 found
  have written : Kind.client.putRow (client.stamped time) row =
      Kind.client.toRow (client.stamped time) := if_pos key
  have here : after.find? Kind.client.name client.oid =
      some (Kind.client.toRow (client.stamped time)) := by
    rw [Table.find?_eq_some_iff, rowsAfter]
    exact ⟨List.mem_map.2 ⟨row, present, written⟩, rfl⟩
  exact ⟨after, rowsAfter, here, ran⟩

end Stamping

/-! ## The request -/

/-- An acceptance opens the journal, reads the time of day and stamps the client. If the stamp
is made, the layout runs next; its answer is dropped, and the journal is given back. -/
theorem Request.play_agreeToTerms (ticks : Nat → Tick) (time : Nat) (context : Context)
    (world : World) (config : Config) :
    (play ticks time context world (agreeToTerms config)).toReply =
      let stamp := (stamping (ticks (time + 1)).timeOfDay).run (ticks (time + 2)).moment
        context.withJournal world.table
      match stamp.result with
      | .error problem =>
          ⟨.error (.store "updating client data" problem), stamp.context,
            { world with table := stamp.table }⟩
      | .ok _ =>
          let layout := (play ticks (time + 3) stamp.context { world with table := stamp.table }
            (bootstrapStarterLayout config)).toReply
          ⟨.ok layout.context.batch, layout.context, layout.world⟩ := by
  rw [agreeToTerms, play_bind, play_openJournal]
  show (play ticks (time + 1) context.withJournal world (timeOfDay >>= fun now =>
    call "updating client data" (stamping now) >>= fun _ =>
      settle (bootstrapStarterLayout config) >>= fun _ => batch)).toReply = _
  rw [play_bind, play_timeOfDay]
  show (play ticks (time + 2) context.withJournal world
    (call "updating client data" (stamping (ticks (time + 1)).timeOfDay) >>= fun _ =>
      settle (bootstrapStarterLayout config) >>= fun _ => batch)).toReply = _
  rw [play_bind, play_call, completionOf]
  generalize (stamping (ticks (time + 1)).timeOfDay).run (ticks (time + 2)).moment
    context.withJournal world.table = stamp
  obtain ⟨result, later, table⟩ := stamp
  cases result with
  | error problem => rfl
  | ok client =>
      show (play ticks (time + 3) later { world with table }
        (settle (bootstrapStarterLayout config) >>= fun _ => batch)).toReply = _
      rw [play_bind, play_settle]
      simp only [play_batch]

/-- A stamp that is not made fails the acceptance, and nothing has changed. -/
theorem Request.play_agreeToTerms_of_refused (ticks : Nat → Tick) (time : Nat) (context : Context)
    (world : World) (config : Config) {problem : StoreError}
    (refused : (stamping (ticks (time + 1)).timeOfDay).run (ticks (time + 2)).moment
      context.withJournal world.table = ⟨.error problem, context.withJournal, world.table⟩) :
    (play ticks time context world (agreeToTerms config)).toReply =
      ⟨.error (.store "updating client data" problem), context.withJournal, world⟩ := by
  rw [play_agreeToTerms, refused]

/-- After a stamp that was made, the acceptance gives back the journal as the layout left it. -/
theorem Request.play_agreeToTerms_of_stamped (ticks : Nat → Tick) (time : Nat) (context : Context)
    (world : World) (config : Config) {stamped : Client} :
    let stamp := (stamping (ticks (time + 1)).timeOfDay).run (ticks (time + 2)).moment
      context.withJournal world.table
    let layout := (play ticks (time + 3) stamp.context { world with table := stamp.table }
      (bootstrapStarterLayout config)).toReply
    stamp.result = .ok stamped →
      (play ticks time context world (agreeToTerms config)).toReply =
        ⟨.ok layout.context.batch, layout.context, layout.world⟩ := by
  intro stamp layout succeeded
  refine (play_agreeToTerms ticks time context world config).trans ?_
  show (match stamp.result with
    | .error problem => _
    | .ok _ => _) = _
  rw [succeeded]

/-- An acceptance that succeeded: the stamp was made, and after it the layout ran, which created
these blocks. -/
structure TermsAccepted (context : Context) (world : World) (stamped : Client)
    (stamp : Outcome Client) (layout : Reply (Except RequestError Unit))
    (made : List (Block × Tab)) (finish : Reply (Except RequestError UpdateBatch)) : Prop where
  /-- The stamp hands back the stamped client and notes it in the journal, and the row of the
  client is the only one that it changes. -/
  stamp : stamp.result = .ok stamped ∧
    stamp.context = context.withJournal.record (.ofObject .updated .client stamped) ∧
    stamp.table.rows = world.table.rows.map (Kind.client.putRow stamped)
  /-- The answer is what the journal had before, the stamped client, and for each step that was
  done the block and its tab. -/
  answer : finish.answer = .ok (context.batch ++ .ofObject .updated .client stamped ::
    creationRecords made)
  /-- One block was created for each step that was done, and all seven were done exactly if
  the layout succeeded. -/
  count : made.length ≤ 7 ∧ (layout.answer = .ok () ↔ made.length = 7)
  /-- The blocks are those of the first steps of the starter layout. -/
  blocks : made.map (fun both => (both.1.version, both.1.metadata)) =
    (Layout.starter.take made.length).map fun step => (1, step.definition.metadata)
  /-- Each block was put at the end of the tab that was written with it. -/
  tabs : ∀ both ∈ made, ∃ earlier, both.2.blockIds = earlier ++ [both.1.oid]
  /-- Rows and queues are those that the layout left. -/
  left : finish.world = layout.world
  /-- The deadline is as before. -/
  deadline : finish.context.deadline = context.deadline
  /-- The blocks of these steps are stored. -/
  stored : finish.world.table.ofKind Kind.block.name =
    world.table.ofKind Kind.block.name ++ made.map fun both => Kind.block.toRow both.1
  /-- The row of the client is still the stamped one. -/
  client : finish.world.table.ofKind Kind.client.name = [Kind.client.toRow stamped]

/-- A stamp that was made is followed by the layout, which cannot make the acceptance fail. -/
theorem termsAccepted_of_stamp (ticks : Nat → Tick) (time : Nat) (context : Context)
    (world : World) (config : Config) (holds : world.table.HoldsObjects) {row : Row}
    {rows : List Row} {client : Client}
    (oldest : world.table.ofKind Kind.client.name = row :: rows)
    (decoded : Kind.client.ofRow row = .ok client)
    (entered : (ticks (time + 2)).moment.enter context = .ok ())
    (readable : (ticks (time + 2)).moment.failure (.selectFirst Kind.client.name) world.table = none)
    (sound : (ticks (time + 2)).moment.failure
      (stampStatement client (ticks (time + 1)).timeOfDay) world.table = none) :
    let stamped := client.stamped (ticks (time + 1)).timeOfDay
    let stamp := (stamping (ticks (time + 1)).timeOfDay).run (ticks (time + 2)).moment
      context.withJournal world.table
    let layout := (Request.play ticks (time + 3) stamp.context { world with table := stamp.table }
      (Request.bootstrapStarterLayout config)).toReply
    ∃ made, TermsAccepted context world stamped stamp layout made
      (Request.play ticks time context world (Request.agreeToTerms config)).toReply := by
  intro stamped stamp layout
  have live : (ticks (time + 2)).moment.enter context.withJournal = .ok () := entered
  obtain ⟨after, rowsAfter, here, ran⟩ :=
    stamping_of_oldest _ holds oldest decoded live readable sound
  have stampEq : stamp = ⟨.ok stamped,
      context.withJournal.record (.ofObject .updated .client stamped), after⟩ := ran
  have holdsAfter : stamp.table.HoldsObjects := holds.call _ _ _
  have finish : (Request.play ticks time context world (Request.agreeToTerms config)).toReply =
      ⟨.ok layout.context.batch, layout.context, layout.world⟩ :=
    Request.play_agreeToTerms_of_stamped ticks time context world config
      (congrArg Outcome.result stampEq)
  obtain ⟨made, done⟩ : ∃ made, LayoutDone Layout.starter stamp.context stamp.table made layout :=
    @LayoutDone.bootstrapLayout Layout.starter { world with table := stamp.table } ticks (time + 3)
      stamp.context config rfl nofun holdsAfter
  rw [stampEq] at done holdsAfter
  have journal : layout.context = context.withJournal.recordAll
      (.ofObject .updated .client stamped :: creationRecords made) := done.journal
  refine ⟨made, ?_⟩
  rw [finish]
  exact {
    stamp := by
      rw [stampEq]
      exact ⟨rfl, rfl, rowsAfter⟩
    answer := by
      rw [journal, Context.batch, Context.journal_recordAll]
      rfl
    count := ⟨done.few, done.answer⟩
    blocks := done.blocks
    tabs := done.tabs
    left := rfl
    deadline := by
      rw [journal, Context.recordAll_eq]
      rfl
    stored := by
      show layout.world.table.ofKind _ = _
      rw [done.stored, Table.ofKind, rowsAfter, Table.filter_map_putRow (by decide)]
    client := by
      show layout.world.table.ofKind _ = _
      rw [done.others .client (by decide) (by decide)]
      exact holdsAfter.ofKind_eq_singleton rfl here }

/-- What a failed statement means for the caller. -/
theorem RequestError.category_ofFailure (operation : String) (failure : EngineFailure) :
    (RequestError.store operation (.ofFailure failure)).category =
      if failure.isInterruption then .deadlineExceeded else .persistenceFailure := by
  unfold StoreError.ofFailure
  split <;> rfl

/-- Accepting the terms in any reachable store. If the context is expired or the client missing,
or the engine fails in the stamp, the acceptance says so and nothing has changed. Otherwise it
succeeds, whatever the layout does after it. The stamped client is that of the row in everything
but the time, the version and the metadata, which is what its text is worth. -/
theorem acceptance_does_not_depend_on_the_layout (ticks : Nat → Tick) (time : Nat)
    (context : Context) (world : World) (config : Config) (reached : world.table.Reached) :
    let finish := (Request.play ticks time context world (Request.agreeToTerms config)).toReply
    let now := (ticks (time + 1)).timeOfDay
    let moment := (ticks (time + 2)).moment
    let refused (cause : StoreError) (category : ErrorCategory) : Prop :=
      finish = ⟨.error (.store "updating client data" cause), context.withJournal, world⟩ ∧
        (RequestError.store "updating client data" cause).category = category
    let broken (failure : EngineFailure) : Prop := refused (.ofFailure failure)
      (if failure.isInterruption then .deadlineExceeded else .persistenceFailure)
    (context.isExpired moment.now = true ∨ moment.lockedOut = true →
      refused .deadlineExceeded .deadlineExceeded) ∧
    (context.isExpired moment.now = false → moment.lockedOut = false →
      (∀ failure, moment.failure (.selectFirst Kind.client.name) world.table = some failure →
        broken failure) ∧
      (moment.failure (.selectFirst Kind.client.name) world.table = none →
        (world.table.ofKind Kind.client.name = [] → refused (.singletonMissing .client) .notFound) ∧
        ∀ row rows client, world.table.ofKind Kind.client.name = row :: rows →
          Kind.client.ofRow row = .ok client →
          (∃ (stored : Client) (metadata : Meta), row = Kind.client.toRow stored ∧
            stored.metadata.reread = .ok metadata ∧ client = { stored with metadata }) ∧
          (∀ failure, moment.failure (stampStatement client now) world.table = some failure →
            broken failure) ∧
          (moment.failure (stampStatement client now) world.table = none →
            let stamp := (stamping now).run moment context.withJournal world.table
            let layout := (Request.play ticks (time + 3) stamp.context
              { world with table := stamp.table } (Request.bootstrapStarterLayout config)).toReply
            ∃ made, TermsAccepted context world (client.stamped now) stamp layout made finish))) := by
  intro finish now moment refused broken
  have holds := reached.holdsObjects
  have ended : ∀ problem, (stamping now).run moment context.withJournal world.table =
      ⟨.error problem, context.withJournal, world.table⟩ →
        finish = ⟨.error (.store "updating client data" problem), context.withJournal, world⟩ :=
    fun problem => Request.play_agreeToTerms_of_refused ticks time context world config
  constructor
  · intro late
    have entered : moment.enter context.withJournal *>
        Store.demandSingleton moment .client world.table = .error .deadlineExceeded := by
      have stopped : moment.enter context.withJournal = .error .deadlineExceeded := by
        refine if_pos ?_
        rcases late with expired | locked
        · exact Bool.or_eq_true_iff.2 (.inl expired)
        · exact Bool.or_eq_true_iff.2 (.inr locked)
      rw [stopped]
      rfl
    exact ⟨ended _ (stamping_of_load_error now entered), rfl⟩
  intro live unlocked
  have enters : moment.enter context.withJournal = .ok () := Moment.enter_eq_ok live unlocked
  constructor
  · intro failure failed
    have unread : moment.enter context.withJournal *>
        Store.demandSingleton moment .client world.table = .error (.ofFailure failure) := by
      rw [enters]
      show Store.demandSingleton moment .client world.table = _
      rw [Store.demandSingleton, Store.readSingleton, Moment.attempt, failed]
      rfl
    exact ⟨ended _ (stamping_of_load_error now unread), RequestError.category_ofFailure ..⟩
  intro readable
  have read := @Store.enter_demandSingleton_eq moment .client world.table context.withJournal
    ⟨live, unlocked, readable⟩
  constructor
  · intro missing
    rw [missing] at read
    exact ⟨ended _ (stamping_of_load_error now read), rfl⟩
  intro row rows client oldest decoded
  obtain ⟨held, -⟩ := holds.of_oldest oldest decoded
  rw [oldest] at read
  have loaded := read.trans decoded
  refine ⟨held, ?_, ?_⟩
  · intro failure failed
    exact ⟨ended _ (stamping_of_failure now loaded failed), RequestError.category_ofFailure ..⟩
  · intro sound
    exact termsAccepted_of_stamp ticks time context world config holds oldest decoded enters
      readable sound

/-- Terms that are accepted with a client in the store and no window: behind the earlier record
the answer has the stamped client alone. -/
theorem terms_are_accepted_without_a_window :
    let ticks : Nat → Tick := fun _ => ⟨.quiet 0, "b", 5⟩
    let client : Client := ⟨"c", 1, [], 0, .empty⟩
    let stamped : Client := ⟨"c", 2, [], 5, .empty⟩
    let earlier : UpdateRecord := .ofObject .created .client client
    let world : World :=
      ⟨((StoreCall.create .client client).run (.quiet 0) ⟨1, none⟩ .empty).table, .empty⟩
    let finish := (Request.play ticks 0 ⟨1, some [earlier]⟩ world
      (Request.agreeToTerms (.default .debug))).toReply
    world.table.Reached ∧ finish.answer = .ok [earlier, .ofObject .updated .client stamped] ∧
      finish.world.table.ofKind Kind.client.name = [Kind.client.toRow stamped] ∧
      finish.context.deadline = 1 := by
  intro ticks client stamped earlier world finish
  have reached : world.table.Reached := .call .empty _ _ _
  have decoded : Kind.client.ofRow (Kind.client.toRow client) = .ok client :=
    Kind.client.ofRow_toRow Meta.withinLimits_empty
  have oldest : world.table.ofKind Kind.client.name = [Kind.client.toRow client] := rfl
  obtain ⟨-, accepted⟩ := acceptance_does_not_depend_on_the_layout ticks 0 ⟨1, some [earlier]⟩
    world (.default .debug) reached
  obtain ⟨-, found⟩ := (accepted rfl rfl).2 rfl
  obtain ⟨-, -, fine⟩ := found _ [] client oldest decoded
  obtain ⟨made, done⟩ := fine rfl
  obtain ⟨-, noted, rows⟩ := done.stamp
  have written : Kind.client.putRow (client.stamped 5) (Kind.client.toRow client) =
      Kind.client.toRow stamped := if_pos rfl
  have oneRow : world.table.rows = [Kind.client.toRow client] := rfl
  rw [oneRow, List.map_singleton, written] at rows
  generalize (stamping (ticks (0 + 1)).timeOfDay).run (ticks (0 + 2)).moment
    (Context.withJournal ⟨1, some [earlier]⟩) world.table = stamp at done noted rows
  obtain ⟨result, noting, after⟩ := stamp
  simp only at noted rows
  subst noted
  have stopped : made = [] := by
    -- the stamped client has no window, so the layout stops before it does anything
    let noting : Context := ⟨1, some [earlier, .ofObject .updated .client stamped]⟩
    let between : World := { world with table := after }
    have read :
        (ticks 4).moment.enter (noting.narrow 0 (Config.default .debug).bootstrapTimeout) *>
        Store.demandSingleton (ticks 4).moment .client between.table = .ok stamped := by
      rw [Store.enter_demandSingleton_eq ⟨rfl, rfl, rfl⟩, Table.ofKind, rows]
      exact Kind.client.ofRow_toRow Meta.withinLimits_empty
    have unchanged : (Request.play ticks 3 noting between
        (Request.bootstrapStarterLayout (.default .debug))).toReply.world = between := by
      have valid : Layout.starter.validate = .ok () := rfl
      rw [Request.bootstrapStarterLayout,
        Request.play_bootstrapLayout_of_valid ticks 3 noting between (.default .debug) valid]
      exact congrArg Reply.world
        (@Request.play_applyLayout_of_no_windows ticks 4 _ between Layout.starter stamped read rfl)
    have blocks := done.stored
    rw [done.left] at blocks
    have none : between.table.ofKind Kind.block.name =
        [] ++ made.map fun both => Kind.block.toRow both.1 := by
      rw [← unchanged]
      exact blocks
    rw [Table.ofKind, rows] at none
    exact List.map_eq_nil_iff.1 none.symm
  subst stopped
  exact ⟨reached, done.answer, done.client, done.deadline⟩

/-- Metadata with one number in it. -/
def Meta.ofNumber (number : Number) : Meta := Meta.empty.insert "x" ⟨.num number, .num number⟩

/-- The text of such metadata is worth what the text of the number is worth. -/
theorem Meta.reread_ofNumber {number read : Number} (worth : number.reread = some read) :
    (Meta.ofNumber number).reread = .ok (Meta.ofNumber read) := by
  have printed : Json.Node.ofPrinted (Meta.codec.write (Meta.ofNumber number)) =
      Json.Node.ofJson (Meta.codec.write (Meta.ofNumber read)) := by
    show Json.Node.object [(some "x", .number number.reread)] true = _
    rw [worth]
    rfl
  rw [Meta.reread, printed]
  have flat : (Meta.codec.write (Meta.ofNumber read)).depth = 1 := rfl
  exact Meta.faithful_codec _ _ (flat ▸ by decide)

/-- Different numbers make different metadata. -/
theorem Meta.ofNumber_inj {first second : Number}
    (same : Meta.ofNumber first = Meta.ofNumber second) : first = second := by
  have members : [("x", Json.num first)] = [("x", Json.num second)] := congrArg Meta.members same
  simpa using members

/-- An acceptance can change metadata. This client was stored with a double whose text is read as
the next double, and the text of that one as the next again; so the double in the row moves
when the client is stamped. -/
theorem acceptance_can_move_a_double :
    let double (magnitude : Fin 0x7FF0000000000000) : Number :=
      .double ⟨false, magnitude, magnitude.isLt⟩
    let client : Client := ⟨"c", 0, [], 0, .ofNumber (double 0x3E67AB737B5DA12E)⟩
    let ticks : Nat → Tick := fun _ => ⟨.quiet 0, "b", 5⟩
    let world : World :=
      ⟨((StoreCall.create .client client).run (.quiet 0) ⟨1, none⟩ .empty).table, .empty⟩
    let finish :=
      (Request.play ticks 0 ⟨1, none⟩ world (Request.agreeToTerms (.default .debug))).toReply
    world.table.Reached ∧ (∃ batch, finish.answer = .ok batch) ∧
      ∃ rowBefore rowAfter before after,
        world.table.rows = [rowBefore] ∧ Kind.client.ofRow rowBefore = .ok before ∧
        finish.world.table.ofKind Kind.client.name = [rowAfter] ∧
        Kind.client.ofRow rowAfter = .ok after ∧
        before.metadata = .ofNumber (double 0x3E67AB737B5DA12F) ∧
        after.metadata = .ofNumber (double 0x3E67AB737B5DA130) ∧
        before.metadata ≠ after.metadata := by
  intro double client ticks world finish
  have first : (double 0x3E67AB737B5DA12E).reread = some (double 0x3E67AB737B5DA12F) := by
    decide +kernel
  have second : (double 0x3E67AB737B5DA12F).reread = some (double 0x3E67AB737B5DA130) := by
    decide +kernel
  have reached : world.table.Reached := .call .empty _ _ _
  let stored : Client := ⟨"c", 1, [], 0, .ofNumber (double 0x3E67AB737B5DA12E)⟩
  let before : Client := ⟨"c", 1, [], 0, .ofNumber (double 0x3E67AB737B5DA12F)⟩
  let after : Client := ⟨"c", 2, [], 5, .ofNumber (double 0x3E67AB737B5DA130)⟩
  have rows : world.table.rows = [Kind.client.toRow stored] := rfl
  have oldest : world.table.ofKind Kind.client.name = [Kind.client.toRow stored] := rfl
  have readBefore : Kind.client.ofRow (Kind.client.toRow stored) = .ok before :=
    (Kind.client.ofRow_toRow_eq_ok_iff stored before).2 ⟨_, Meta.reread_ofNumber first, rfl⟩
  have readAfter : Kind.client.ofRow (Kind.client.toRow (before.stamped 5)) = .ok after :=
    (Kind.client.ofRow_toRow_eq_ok_iff (before.stamped 5) after).2
      ⟨_, Meta.reread_ofNumber second, rfl⟩
  obtain ⟨made, done⟩ := termsAccepted_of_stamp ticks 0 ⟨1, none⟩ world (.default .debug)
    reached.holdsObjects oldest readBefore rfl rfl rfl
  refine ⟨reached, ⟨_, done.answer⟩, _, _, before, after, rows, readBefore, done.client, readAfter,
    rfl, rfl, ?_⟩
  intro same
  exact absurd (Meta.ofNumber_inj same) (by decide)

end Workbench
