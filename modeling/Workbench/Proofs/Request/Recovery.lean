/-
# Launches after failed launches

A launch that gives back the client leaves it with a window, and the next launch only looks at
it. A launch that failed leaves no more than one client, and if that client lists a window then
it lists just one, which was completely made. So any number of failed launches may come before
the one that succeeds: there is one client then, and it lists one window.
-/

import Workbench.Proofs.Request.FirstLaunch

namespace Workbench

/-! ## Windows that were made -/

namespace NewWindow

variable {new : NewWindow} {before after : Table}

/-- The tab, the workspace and the window of a new window were not stored before, and are stored
now as they were created. -/
structure Made (new : NewWindow) (before after : Table) : Prop where
  fresh : ∀ write ∈ new.creations, before.find? write.row.kind write.row.oid = none
  stored : ∀ write ∈ new.creations, after.find? write.row.kind write.row.oid = some write.row

theorem updateType_of_mem {write : RowWrite} (created : write ∈ new.creations) :
    write.updateType = .created := by
  simp only [creations, List.mem_cons, List.not_mem_nil, or_false] at created
  rcases created with rfl | rfl | rfl <;> rfl

/-- Each of the three objects is created once. -/
theorem writesTo_creations {write : RowWrite} (created : write ∈ new.creations) :
    writesTo write.kind (write.kind.oid write.object) new.creations = [write] := by
  simp only [creations, List.mem_cons, List.not_mem_nil, or_false] at created
  rcases created with rfl | rfl | rfl <;>
    simp [creations, writesTo, RowWrite.isTo]

/-- A window that was created was made, whatever else was written to the client. -/
theorem made_of_writes {early late : List RowWrite}
    (earlyClient : ∀ write ∈ early, write.kind = .client)
    (lateClient : ∀ write ∈ late, write.kind = .client)
    (all : Table.Writes before (early ++ (new.creations ++ late)) after) :
    new.Made before after := by
  have apart {write : RowWrite} (created : write ∈ new.creations) {others : List RowWrite}
      (clients : ∀ other ∈ others, other.kind = .client) :
      writesTo write.kind (write.kind.oid write.object) others = [] :=
    writesTo_eq_nil_of_ne fun other there =>
      (clients other there).trans_ne (kind_ne_client_of_mem created).symm
  have once {write : RowWrite} (created : write ∈ new.creations) :
      writesTo write.kind (write.kind.oid write.object) (early ++ (new.creations ++ late)) =
        [write] := by
    rw [writesTo_append, writesTo_append, apart created earlyClient, apart created lateClient,
      List.nil_append, List.append_nil]
    exact writesTo_creations created
  constructor
  · exact fun write created => all.fresh_of_created (once created) (updateType_of_mem created)
  · exact fun write created => all.find?_of_writesTo_eq_singleton (once created)

end NewWindow

/-! ## What a launch leaves behind -/

/-- Whatever was written for the client of a launch is the client. -/
theorem LaunchClient.kind_of_mem {table : Table} {client : Client} {creation : List RowWrite}
    (launched : LaunchClient table client creation) :
    ∀ write ∈ creation, write.kind = .client := by
  intro write written
  cases launched with
  | found => cases written
  | created oid none => rw [List.mem_singleton.1 written]

/-- A client that came to list a window is read as one that lists it. -/
theorem Client.windowIds_of_listing {client found : Client} {windowId : String}
    (read : Kind.client.ofRow (Kind.client.toRow (client.listing windowId)) = .ok found) :
    found.windowIds = [windowId] := by
  obtain ⟨metadata, -, rfl⟩ := (Kind.client.ofRow_toRow_eq_ok_iff _ _).1 read
  rfl

/-- There is one client, and it lists windows. -/
def Table.ListsWindows (table : Table) : Prop :=
  ∃ row client, table.ofKind Kind.client.name = [row] ∧ Kind.client.ofRow row = .ok client ∧
    Client.windowIds client ≠ []

/-- A client without windows that a launch goes on with was there before, if at all, without
windows. -/
theorem LaunchClient.not_listsWindows {table : Table} {client : Client}
    {creation : List RowWrite} (launched : LaunchClient table client creation)
    (without : client.windowIds = []) : ¬ table.ListsWindows := by
  rintro ⟨row, other, single, decoded, listed⟩
  cases launched with
  | found there read =>
      cases there.symm.trans single
      cases read.symm.trans decoded
      exact listed without
  | created oid none => cases none.symm.trans single

/-- The client after a launch that came to list a window. -/
theorem LaunchClient.ofKind_of_listed {before after : Table} {client : Client}
    {creation : List RowWrite} {new : NewWindow} (launched : LaunchClient before client creation)
    (all : Table.Writes before
      (creation ++ (new.creations ++ [⟨.updated, .client, client.listing new.windowId⟩])) after) :
    after.ofKind Kind.client.name = [Kind.client.toRow (client.listing new.windowId)] := by
  obtain ⟨first, created, rest⟩ := all.of_append
  obtain ⟨second, made, listed⟩ := rest.of_append
  obtain ⟨row, single, -⟩ := launched.ofKind created
  cases listed with
  | more takes done =>
      cases done
      have still : second.ofKind Kind.client.name = [row] := by
        rw [made.ofKind_of_ne fun _ => NewWindow.kind_ne_client_of_mem, single]
      exact takes.ofKind_of_single still

/-- What a launch that gave back the client leaves behind. -/
structure Launched (before : World) (context : Context) (client : Client)
    (finish : Reply (Except RequestError Client)) : Prop where
  /-- The client is the stored one, and the only one. -/
  stored : ∃ row, finish.world.table.ofKind Kind.client.name = [row] ∧
    Kind.client.ofRow row = .ok client
  lists : client.windowIds ≠ []
  /-- If there were windows, the launch did nothing. -/
  nothing : before.table.ListsWindows → finish = ⟨.ok client, context, before⟩
  /-- Otherwise the client lists one more, which was made in this launch with a workspace and a
  tab of its own. Apart from that only the client was written, and all was recorded. -/
  first : ¬ before.table.ListsWindows →
    ∃ (old : Client) (creation : List RowWrite) (new : NewWindow),
    let writes :=
      creation ++ (new.creations ++ [⟨.updated, .client, old.listing new.windowId⟩])
    LaunchClient before.table old creation ∧
      client.windowIds = old.windowIds ++ [new.windowId] ∧ old.windowIds = [] ∧
      new.Made before.table finish.world.table ∧
      Table.Writes before.table writes finish.world.table ∧
      finish.world.bus = before.bus ∧
      finish.context = context.recordAll (writes.map RowWrite.record)
  /-- The next launch gives back the same client, and does nothing. -/
  again : ∀ (ticks : Nat → Tick) (time : Nat) (next : Context),
    (ticks time).moment.Unhindered next →
      (Request.play ticks time next finish.world Request.ensureInitialData).toReply =
        ⟨.ok client, next, finish.world⟩

namespace Request

variable (ticks : Nat → Tick) (time : Nat) (context : Context) (world : World)

/-- A launch on a client with windows only looks at the client. -/
theorem play_ensureInitialData_of_lists {row : Row} {client : Client}
    (unhindered : (ticks time).moment.Unhindered context)
    (single : world.table.ofKind Kind.client.name = [row])
    (decoded : Kind.client.ofRow row = .ok client) (lists : client.windowIds ≠ []) :
    play ticks time context world ensureInitialData =
      ⟨⟨.ok client, context, world⟩, time + 1⟩ := by
  have read : (ticks time).moment.enter context *>
      Store.demandSingleton (ticks time).moment .client world.table = .ok client := by
    rw [Store.enter_demandSingleton_eq
      ⟨unhindered.live, unhindered.unlocked, unhindered.sound _ _⟩, single]
    exact decoded
  have found : (StoreCall.getSingleton .client).run (ticks time).moment context world.table =
      ⟨.ok client, context, world.table⟩ :=
    congrArg (fun result => Outcome.mk result context world.table) read
  have some : client.windowIds.isEmpty = false := by simpa using lists
  rw [ensureInitialData, play_bind, findOrCreateClient_eq,
    play_attempt_bind ticks time context world (.getSingleton .client) takeClient found]
  show play ticks (time + 1) context world (if client.windowIds.isEmpty then _ else _) = _
  rw [some]
  rfl

/-- A launch that gives back a client sets it up, or finds it set up. -/
theorem launched_of_ok (few : (world.table.ofKind Kind.client.name).length ≤ 1)
    {client : Client}
    (gave : (play ticks time context world ensureInitialData).answer = .ok client) :
    Launched world context client (play ticks time context world ensureInitialData).toReply := by
  obtain ⟨answer, writes, after, later, ended, all, played⟩ :=
    play_ensureInitialData_cases ticks time context world few
  rw [played] at gave ⊢
  have gave : answer = .ok client := gave
  cases ended with
  | stopped | begun => cases gave
  | @found row held single decoded lists =>
      cases gave
      cases all
      refine ⟨⟨row, single, decoded⟩, lists, fun _ => rfl, ?_, ?_⟩
      · exact fun without => absurd ⟨row, client, single, decoded, lists⟩ without
      · intro ticks time next unhindered
        rw [play_ensureInitialData_of_lists ticks time next world unhindered single decoded lists]
  | @listed old creation new _ launched without known =>
      have single := launched.ofKind_of_listed all
      have decoded := known client gave
      have windowIds := Client.windowIds_of_listing decoded
      have lists : client.windowIds ≠ [] := windowIds ▸ List.cons_ne_nil _ _
      refine ⟨⟨_, single, decoded⟩, lists, ?_, ?_, ?_⟩
      · exact fun windows => absurd windows (launched.not_listsWindows without)
      · refine fun _ => ⟨old, creation, new, launched, ?_, without, ?_, all, rfl, rfl⟩
        · rw [windowIds, without, List.nil_append]
        · refine NewWindow.made_of_writes launched.kind_of_mem ?_ all
          exact fun write there => List.mem_singleton.1 there ▸ rfl
      · intro ticks time next unhindered
        rw [play_ensureInitialData_of_lists ticks time next { world with table := after }
          unhindered single decoded lists]

end Request

/-! ## Failed launches -/

/-- One launch: its circumstances, its context, and the event bus as it finds it. -/
structure LaunchAttempt where
  ticks : Nat → Tick
  time : Nat
  context : Context
  bus : Bus

/-- How an attempt ends that finds this table. -/
def LaunchAttempt.finish (attempt : LaunchAttempt) (table : Table) :
    Reply (Except RequestError Client) :=
  (Request.play attempt.ticks attempt.time attempt.context ⟨table, attempt.bus⟩
    Request.ensureInitialData).toReply

/-- The tables that launches lead to if all of them fail. -/
inductive FailedLaunches (start : Table) : Table → Prop where
  | none : FailedLaunches start start
  | more {table : Table} {problem : RequestError} (attempt : LaunchAttempt) :
      FailedLaunches start table → (attempt.finish table).answer = .error problem →
      FailedLaunches start (attempt.finish table).world.table

/-- There is one client, it can be read as this one, and it lists one window, which was made
since the start. -/
def ListsMade (start table : Table) (client : Client) : Prop :=
  ∃ row new, table.ofKind Kind.client.name = [row] ∧ Kind.client.ofRow row = .ok client ∧
    client.windowIds = [NewWindow.windowId new] ∧ new.Made start table

/-- What failed launches leave behind. -/
structure Retryable (start table : Table) : Prop where
  /-- No row went away. -/
  kept : ∀ (kind : Kind) (oid : String),
    table.find? kind.name oid = none → start.find? kind.name oid = none
  few : (table.ofKind Kind.client.name).length ≤ 1
  /-- If the client lists windows, it lists one that was made since the start. -/
  client : ∀ row client, table.ofKind Kind.client.name = [row] →
    Kind.client.ofRow row = .ok client → Client.windowIds client ≠ [] → ListsMade start table client

namespace Retryable

variable {start table : Table}

theorem start_of (few : (start.ofKind Kind.client.name).length ≤ 1)
    (without : ¬ start.ListsWindows) : Retryable start start :=
  ⟨fun _ _ absent => absent, few, fun row client single decoded lists =>
    absurd ⟨row, client, single, decoded, lists⟩ without⟩

variable {after : Table} {answer : Except RequestError Client} {writes : List RowWrite}

/-- Whatever a launch does, another may follow it; and one that gave back the client left it with
one window. -/
theorem launch (retryable : Retryable start table) (ended : LaunchEnds table answer writes)
    (all : Table.Writes table writes after) :
    Retryable start after ∧ ∀ client, answer = .ok client → ListsMade start after client := by
  have kept (kind : Kind) (oid : String) (absent : after.find? kind.name oid = none) :
      start.find? kind.name oid = none :=
    retryable.kept kind oid (all.find?_eq_none_of_after absent)
  cases ended with
  | stopped problem =>
      cases all
      exact ⟨retryable, nofun⟩
  | @found row client single decoded lists =>
      cases all
      refine ⟨retryable, ?_⟩
      intro client same
      cases same
      exact retryable.client row client single decoded lists
  | @begun client creation made new problem launched without first =>
      obtain ⟨between, created, creating⟩ := all.of_append
      obtain ⟨row, single, decoded⟩ := launched.ofKind created
      have still : after.ofKind Kind.client.name = [row] := by
        rw [creating.ofKind_of_ne fun write there =>
          NewWindow.kind_ne_client_of_mem (first.subset there), single]
      refine ⟨⟨kept, still ▸ Nat.le_refl 1, ?_⟩, nofun⟩
      intro other found alone read lists
      cases still.symm.trans alone
      cases decoded.symm.trans read
      exact absurd without lists
  | @listed client creation new _ launched without known =>
      have single := launched.ofKind_of_listed all
      have made : new.Made start after := by
        have now : new.Made table after := NewWindow.made_of_writes launched.kind_of_mem
          (fun write there => List.mem_singleton.1 there ▸ rfl) all
        exact ⟨fun write created => retryable.kept _ _ (now.fresh write created), now.stored⟩
      refine ⟨⟨kept, single ▸ Nat.le_refl 1, ?_⟩, ?_⟩
      · intro row found alone read lists
        cases single.symm.trans alone
        exact ⟨_, new, single, read, Client.windowIds_of_listing read, made⟩
      · intro found same
        have read := known found same
        exact ⟨_, new, single, read, Client.windowIds_of_listing read, made⟩

theorem attempt (retryable : Retryable start table) (attempt : LaunchAttempt) :
    Retryable start (attempt.finish table).world.table ∧
      ∀ client, (attempt.finish table).answer = .ok client →
        ListsMade start (attempt.finish table).world.table client := by
  obtain ⟨answer, writes, after, later, ended, all, played⟩ :=
    Request.play_ensureInitialData_cases attempt.ticks attempt.time attempt.context
      ⟨table, attempt.bus⟩ retryable.few
  rw [LaunchAttempt.finish, played]
  exact retryable.launch ended all

end Retryable

/-- After any failed launches the next launch may be tried. -/
theorem FailedLaunches.retryable {start table : Table} (failed : FailedLaunches start table)
    (few : (start.ofKind Kind.client.name).length ≤ 1) (without : ¬ start.ListsWindows) :
    Retryable start table := by
  induction failed with
  | none => exact .start_of few without
  | more attempt _ _ ih => exact (ih.attempt attempt).1

/-- The first launch sets things up once, and recovers from launches that failed. Take a store
with at most one client. A launch that gives back a client has set it up, or found it set up,
and the next launch finds it so. If the client has no windows, or is not there yet, any number of
launches may fail, each at any of its steps: there is still at most one client, and the first
launch that gives back a client leaves it with one window, which was made since. -/
theorem launches_set_up_once_and_recover (start : Table)
    (few : (start.ofKind Kind.client.name).length ≤ 1) :
    (∀ (attempt : LaunchAttempt) (client : Client), (attempt.finish start).answer = .ok client →
      Launched ⟨start, attempt.bus⟩ attempt.context client (attempt.finish start)) ∧
    (¬ start.ListsWindows → ∀ table, FailedLaunches start table →
      (table.ofKind Kind.client.name).length ≤ 1 ∧
      ∀ (attempt : LaunchAttempt) (client : Client), (attempt.finish table).answer = .ok client →
        ListsMade start (attempt.finish table).world.table client) := by
  constructor
  · intro attempt client gave
    exact Request.launched_of_ok attempt.ticks attempt.time attempt.context ⟨start, attempt.bus⟩
      few gave
  · intro without table failed
    have retryable := failed.retryable few without
    exact ⟨retryable.few, fun attempt => (retryable.attempt attempt).2⟩

/-- A launch on an empty store cannot have the lock when it is to create the workspace. The next
launch takes the client that is there, and lists a window of its own. -/
theorem a_launch_recovers_from_a_locked_store :
    let ticks (oid : String) (locked : Nat) : Nat → Tick := fun time =>
      ⟨{ Moment.quiet 0 with lockedOut := decide (time = locked) }, oid, 0⟩
    let broken : LaunchAttempt := ⟨ticks "a" 6, 0, ⟨1, some []⟩, .empty⟩
    let whole : LaunchAttempt := ⟨ticks "b" 99, 0, ⟨1, some []⟩, .empty⟩
    let between := (broken.finish .empty).world.table
    FailedLaunches .empty between ∧ ∃ client, (whole.finish between).answer = .ok client ∧
      ListsMade .empty (whole.finish between).world.table client ∧
      Launched ⟨between, .empty⟩ ⟨1, some []⟩ client (whole.finish between) := by
  intro ticks broken whole between
  have stopped : (broken.finish .empty).answer.isOk = false := by decide +kernel
  have went : (whole.finish between).answer.isOk = true := by decide +kernel
  have nobody : ¬ Table.empty.ListsWindows := by
    rintro ⟨row, client, single, -⟩
    cases single
  have failed : FailedLaunches .empty between := by
    cases answer : (broken.finish .empty).answer with
    | error problem => exact .more broken .none answer
    | ok client =>
        rw [answer] at stopped
        cases stopped
  cases answer : (whole.finish between).answer with
  | error problem =>
      rw [answer] at went
      cases went
  | ok client =>
      have recovers := (launches_set_up_once_and_recover .empty (Nat.zero_le 1)).2 nobody
        between failed
      exact ⟨failed, client, rfl, recovers.2 whole client answer,
        (launches_set_up_once_and_recover between recovers.1).1 whole client answer⟩

end Workbench
