/-
# The first launch, tried again and again

On the first launch the client is created and gets a window with a workspace and a tab. That
takes seven store calls, and the launch can end at each of them. What it leaves then is no
obstacle to the next launch: at worst there are tabs, workspaces and windows that nobody lists,
or a window that is listed already although the launch that made it reported a failure.

A launch is told by the rows that it wrote, in order. The rows of the client are read again
after they were written, so the metadata of the client is what its text is worth then; nothing
is assumed of it.
-/

import Workbench.Proofs.Request.Run
import Workbench.Proofs.Store.Turns
import Workbench.Request.Windows

namespace Workbench

/-! ## Steps of a launch -/

namespace Request

variable {β : Type} (ticks : Nat → Tick) (time : Nat) (context : Context) (world : World)

/-- An object is created under an identifier that is drawn for it, or the request ends with
nothing changed. -/
theorem play_creating_cases (operation : String) (kind : Kind) (make : String → kind.Object)
    (rest : kind.Object → Request β) :
    (∃ problem, play ticks time context world
        (freshOid >>= fun oid => call operation (.create kind (make oid)) >>= rest) =
          ⟨⟨.error problem, context, world⟩, time + 2⟩) ∨
      ∃ after,
        let created := kind.withVersion (make (ticks time).freshOid) 1
        RowWrite.Takes world.table ⟨.created, kind, created⟩ after ∧
        play ticks time context world
            (freshOid >>= fun oid => call operation (.create kind (make oid)) >>= rest) =
          play ticks (time + 2) (context.record (.ofObject .created kind created))
            { world with table := after } (rest created) := by
  rw [play_bind, play_freshOid]
  show (∃ problem, play ticks (time + 1) context world
    (call operation (.create kind (make (ticks time).freshOid)) >>= rest) = _) ∨ _
  rcases Store.create_cases (ticks (time + 1)).moment context world.table kind
      (make (ticks time).freshOid) with ⟨problem, failed⟩ | ⟨after, takes, succeeded⟩
  · exact .inl ⟨_, play_call_bind_of_error ticks (time + 1) context world operation
      (.create kind (make (ticks time).freshOid)) rest failed⟩
  · exact .inr ⟨after, takes, play_call_bind_of_ok ticks (time + 1) context world operation
      (.create kind (make (ticks time).freshOid)) rest succeeded⟩

end Request

/-! ## A new window -/

/-- The identifiers of a window that is made, and of the workspace and the tab that come
with it. -/
structure NewWindow where
  tabId : String
  workspaceId : String
  windowId : String

namespace NewWindow

/-- The tab, as it is created. -/
def tab (new : NewWindow) : Tab := ⟨new.tabId, 1, Request.tabName, [], .empty⟩

/-- The workspace with the tab, as it is created. -/
def workspace (new : NewWindow) : Workspace :=
  ⟨new.workspaceId, 1, Request.workspaceName, [new.tabId], .empty⟩

/-- The window, as it is created. -/
def window (new : NewWindow) : Window := ⟨new.windowId, 1, new.workspaceId, new.tabId, .empty⟩

/-- The creations for a window, in order. -/
def creations (new : NewWindow) : List RowWrite :=
  [⟨.created, .tab, new.tab⟩, ⟨.created, .workspace, new.workspace⟩,
    ⟨.created, .window, new.window⟩]

theorem kind_ne_client_of_mem {new : NewWindow} {write : RowWrite}
    (made : write ∈ new.creations) : write.kind ≠ .client := by
  simp only [creations, List.mem_cons, List.not_mem_nil, or_false] at made
  rcases made with rfl | rfl | rfl <;> exact nofun

end NewWindow

namespace Request

variable (ticks : Nat → Tick) (time : Nat) (context : Context) (world : World)

/-- The last step of making a window: the client is to list it. -/
def listWindow (window : Window) : Request Window :=
  call "adding window to client"
    (.modifySingleton .client fun client => Client.addWindow client (Window.oid window)) >>=
      fun _ => pure window

/-- Making a window once its tab and its workspace are there. -/
def makeWindowIn (tab : Tab) (workspace : Workspace) : Request Window :=
  freshOid >>= fun windowId =>
    call "creating window" (.create .window
      (Window.new windowId (Workspace.oid workspace) (Tab.oid tab))) >>= listWindow

/-- Making a window once its tab is there. -/
def makeWindowWith (tab : Tab) : Request Window :=
  freshOid >>= fun workspaceId =>
    call "creating workspace" (.create .workspace
      (Workspace.addTab (.new workspaceId workspaceName) (Tab.oid tab))) >>= makeWindowIn tab

theorem makeWindow_eq :
    makeWindow = freshOid >>= fun tabId =>
      call "creating tab" (.create .tab (Tab.new tabId tabName)) >>= makeWindowWith :=
  rfl

/-- The steps up to the creation of the window. Wherever they stop, the first of the three
objects were created, and nothing else. -/
theorem play_makeWindow_cases :
    let new : NewWindow :=
      ⟨(ticks time).freshOid, (ticks (time + 2)).freshOid, (ticks (time + 4)).freshOid⟩
    (∃ problem made later after, made <+: new.creations ∧ Table.Writes world.table made after ∧
      play ticks time context world makeWindow =
        ⟨⟨.error problem, context.recordAll (made.map RowWrite.record),
          { world with table := after }⟩, later⟩) ∨
    ∃ after, Table.Writes world.table new.creations after ∧
      play ticks time context world makeWindow =
        play ticks (time + 6) (context.recordAll (new.creations.map RowWrite.record))
          { world with table := after } (listWindow new.window) := by
  intro new
  let tabWrite : RowWrite := ⟨.created, .tab, new.tab⟩
  let workspaceWrite : RowWrite := ⟨.created, .workspace, new.workspace⟩
  rw [makeWindow_eq]
  rcases play_creating_cases ticks time context world "creating tab" .tab
      (fun oid => Tab.new oid tabName) makeWindowWith with
    ⟨problem, failed⟩ | ⟨first, tabTakes, withTab⟩
  · exact .inl ⟨problem, [], _, _, List.nil_prefix, .none _, failed⟩
  rcases play_creating_cases ticks (time + 2) (context.record tabWrite.record)
      { world with table := first } "creating workspace" .workspace
      (fun oid => Workspace.addTab (.new oid workspaceName) new.tabId) (makeWindowIn new.tab) with
    ⟨problem, failed⟩ | ⟨second, workspaceTakes, withWorkspace⟩
  · exact .inl ⟨problem, [tabWrite], _, _, ⟨_, rfl⟩, .single tabTakes, withTab.trans failed⟩
  rcases play_creating_cases ticks (time + 4)
      ((context.record tabWrite.record).record workspaceWrite.record)
      { world with table := second } "creating window" .window
      (fun oid => Window.new oid new.workspaceId new.tabId) listWindow with
    ⟨problem, failed⟩ | ⟨third, windowTakes, withWindow⟩
  · exact .inl ⟨problem, [tabWrite, workspaceWrite], _, _, ⟨_, rfl⟩,
      .more tabTakes (.single workspaceTakes), withTab.trans (withWorkspace.trans failed)⟩
  exact .inr ⟨third, .more tabTakes (.more workspaceTakes (.single windowTakes)),
    withTab.trans (withWorkspace.trans withWindow)⟩

/-- A client without windows lists the new window, or nothing changes. -/
theorem play_listWindow_cases (window : Window) {row : Row} {client : Client}
    (single : world.table.ofKind Kind.client.name = [row])
    (decoded : Kind.client.ofRow row = .ok client) (without : client.windowIds = []) :
    (∃ problem, play ticks time context world (listWindow window) =
        ⟨⟨.error problem, context, world⟩, time + 1⟩) ∨
      ∃ after,
        let listed : Client :=
          { client with windowIds := [window.oid], version := client.version + 1 }
        RowWrite.Takes world.table ⟨.updated, .client, listed⟩ after ∧
        play ticks time context world (listWindow window) =
          ⟨⟨.ok window, context.record (.ofObject .updated .client listed),
            { world with table := after }⟩, time + 1⟩ := by
  let edit (client : Client) : Client × Bool := Client.addWindow client window.oid
  rw [listWindow]
  rcases Store.modifyWith_edits (ticks time).moment context world.table .client
      (Store.demandSingleton (ticks time).moment .client) edit with
    ⟨problem, failed⟩ | ⟨held, edited, changed, loaded, answer, ended⟩
  · exact .inl ⟨_, play_call_bind_of_error ticks time context world _
      (.modifySingleton .client edit) _ failed⟩
  · right
    obtain ⟨found, there, read⟩ := Store.row_of_demandSingleton loaded
    rw [single, List.mem_singleton] at there
    subst there
    rw [decoded, Except.ok.injEq] at read
    subst read
    have adds : edit client = ({ client with windowIds := [window.oid] }, true) := by
      simp only [edit, Client.addWindow, without, List.not_mem_nil, if_false, List.nil_append]
    rw [adds] at answer
    cases answer
    obtain ⟨after, takes, wrote⟩ := ended
    exact ⟨after, takes, play_call_bind_of_ok ticks time context world _
      (.modifySingleton .client edit) _ wrote⟩

end Request

/-! ## The client of a launch -/

/-- The client that a launch goes on with, and what was written for it: the stored client, or, if
there is none, one that was created without windows. -/
inductive LaunchClient (table : Table) : Client → List RowWrite → Prop where
  | found {row : Row} {client : Client} : table.ofKind Kind.client.name = [row] →
      Kind.client.ofRow row = .ok client → LaunchClient table client []
  | created (oid : String) : table.ofKind Kind.client.name = [] →
      LaunchClient table ⟨oid, 1, [], 0, .empty⟩ [⟨.created, .client, ⟨oid, 1, [], 0, .empty⟩⟩]

/-- Either way the client is afterwards the only one, and it can be read. -/
theorem LaunchClient.ofKind {before after : Table} {client : Client} {creation : List RowWrite}
    (launched : LaunchClient before client creation) (writes : Table.Writes before creation after) :
    ∃ row, after.ofKind Kind.client.name = [row] ∧ Kind.client.ofRow row = .ok client := by
  cases launched with
  | found single decoded =>
      cases writes
      exact ⟨_, single, decoded⟩
  | created oid none =>
      cases writes with
      | more takes done =>
          cases done
          refine ⟨_, takes.ofKind_of_created.trans (congrArg (· ++ _) none), ?_⟩
          exact Kind.client.ofRow_toRow Meta.withinLimits_empty

namespace Request

variable (ticks : Nat → Tick) (time : Nat) (context : Context) (world : World)

/-- What a look at the client says when there is at most one. -/
theorem getSingleton_client_cases (moment : Moment) {table : Table}
    (few : (table.ofKind Kind.client.name).length ≤ 1) :
    (∃ problem, (StoreCall.getSingleton .client).run moment context table =
        ⟨.error problem, context, table⟩) ∨
      ∃ row client, table.ofKind Kind.client.name = [row] ∧ Kind.client.ofRow row = .ok client ∧
        (StoreCall.getSingleton .client).run moment context table =
          ⟨.ok client, context, table⟩ := by
  have run : (StoreCall.getSingleton .client).run moment context table =
      ⟨moment.enter context *> Store.demandSingleton moment .client table, context, table⟩ := rfl
  rw [run]
  cases entered : moment.enter context with
  | error problem => exact .inl ⟨problem, rfl⟩
  | ok _ =>
      cases loaded : Store.demandSingleton moment .client table with
      | error problem => exact .inl ⟨problem, rfl⟩
      | ok client =>
          right
          obtain ⟨row, there, decoded⟩ := Store.row_of_demandSingleton loaded
          refine ⟨row, client, ?_, decoded, rfl⟩
          cases rows : table.ofKind Kind.client.name with
          | nil =>
              rw [rows] at there
              cases there
          | cons first others =>
              rw [rows] at there few
              have nothing : others = [] := List.eq_nil_of_length_eq_zero (by simpa using few)
              subst nothing
              rw [List.mem_singleton.1 there]

/-- What becomes of an attempt to create the client. -/
def takeFirstClient : Except StoreError Client → Request Client
  | .ok client => pure client
  | .error (.alreadyExists _ _) => call "getting client data" (.getSingleton .client)
  | .error cause => throw (.store "creating client" cause)

/-- What a launch does when there is no client yet. -/
def createFirstClient : Request Client :=
  freshOid >>= fun oid => attempt (.create .client (Client.new oid)) >>= takeFirstClient

/-- What a launch does about the client that it looked for. -/
def takeClient : Except StoreError Client → Request Client
  | .ok client => pure client
  | .error (.singletonMissing _) => createFirstClient
  | .error cause => throw (.store "getting client data" cause)

theorem findOrCreateClient_eq :
    findOrCreateClient = attempt (.getSingleton .client) >>= takeClient := by
  refine congrArg (attempt (.getSingleton .client) >>= ·) (funext fun found => ?_)
  cases found with
  | ok client => rfl
  | error problem =>
      cases problem with
      | singletonMissing =>
          refine congrArg (freshOid >>= ·) (funext fun oid =>
            congrArg (attempt (.create .client (Client.new oid)) >>= ·) (funext fun created => ?_))
          cases created with
          | ok client => rfl
          | error cause => cases cause <;> rfl
      | _ => rfl

/-- A request for the client ends with the client of the launch, or with nothing changed. -/
def EndsWithClient (finish : Completion (Except RequestError Client)) : Prop :=
  (∃ problem later, finish = ⟨⟨.error problem, context, world⟩, later⟩) ∨
    ∃ client creation after later, LaunchClient world.table client creation ∧
      Table.Writes world.table creation after ∧
      finish = ⟨⟨.ok client, context.recordAll (creation.map RowWrite.record),
        { world with table := after }⟩, later⟩

variable (few : (world.table.ofKind Kind.client.name).length ≤ 1)

include few

theorem endsWithClient_getSingleton (operation : String) :
    EndsWithClient context world
      (play ticks time context world (call operation (.getSingleton .client))) := by
  rw [play_call, completionOf]
  rcases getSingleton_client_cases context (ticks time).moment few with
    ⟨problem, failed⟩ | ⟨row, client, single, decoded, found⟩
  · rw [failed]
    exact .inl ⟨_, _, rfl⟩
  · rw [found]
    exact .inr ⟨client, [], world.table, _, .found single decoded, .none _, rfl⟩

theorem endsWithClient_createFirstClient :
    EndsWithClient context world (play ticks time context world createFirstClient) := by
  rw [createFirstClient, play_bind, play_freshOid]
  show EndsWithClient context world (play ticks (time + 1) context world
    (attempt (.create .client (Client.new (ticks time).freshOid)) >>= takeFirstClient))
  rcases Store.create_cases (ticks (time + 1)).moment context world.table .client
      (Client.new (ticks time).freshOid) with ⟨problem, failed⟩ | ⟨after, takes, succeeded⟩
  · rw [play_attempt_bind ticks (time + 1) context world
      (.create .client (Client.new (ticks time).freshOid)) takeFirstClient failed]
    cases problem with
    | alreadyExists => exact endsWithClient_getSingleton ticks (time + 2) context world few _
    | _ => exact .inl ⟨_, _, rfl⟩
  · rw [play_attempt_bind ticks (time + 1) context world
      (.create .client (Client.new (ticks time).freshOid)) takeFirstClient succeeded]
    have alone : world.table.ofKind Kind.client.name = [] := by
      cases takes with
      | created first alone inserted => exact alone rfl
    exact .inr ⟨_, _, after, _, .created _ alone, .single takes, rfl⟩

theorem endsWithClient_findOrCreateClient :
    EndsWithClient context world (play ticks time context world findOrCreateClient) := by
  rw [findOrCreateClient_eq]
  rcases getSingleton_client_cases context (ticks time).moment few with
    ⟨problem, failed⟩ | ⟨row, client, single, decoded, found⟩
  · rw [play_attempt_bind ticks time context world (.getSingleton .client) takeClient failed]
    cases problem with
    | singletonMissing =>
        exact endsWithClient_createFirstClient ticks (time + 1) context world few
    | _ => exact .inl ⟨_, _, rfl⟩
  · rw [play_attempt_bind ticks time context world (.getSingleton .client) takeClient found]
    exact .inr ⟨client, [], world.table, _, .found single decoded, .none _, rfl⟩

end Request

/-! ## The launch -/

/-- The client as it is stored once it lists its first window. -/
def Client.listing (client : Client) (windowId : String) : Client :=
  { client with windowIds := [windowId], version := client.version + 1 }

/-- How a launch can end: its answer, and the rows that it wrote. -/
inductive LaunchEnds (before : Table) : Except RequestError Client → List RowWrite → Prop where
  /-- There was no client to go on with. -/
  | stopped (problem : RequestError) : LaunchEnds before (.error problem) []
  /-- The client had windows already. -/
  | found {row : Row} {client : Client} : before.ofKind Kind.client.name = [row] →
      Kind.client.ofRow row = .ok client → client.windowIds ≠ [] →
      LaunchEnds before (.ok client) []
  /-- The client had no windows, and it did not come to list one. -/
  | begun {client : Client} {creation made : List RowWrite} {new : NewWindow}
      (problem : RequestError) : LaunchClient before client creation → client.windowIds = [] →
      made <+: new.creations → LaunchEnds before (.error problem) (creation ++ made)
  /-- The client lists its new window; it was looked at once more, or could not be. -/
  | listed {client : Client} {creation : List RowWrite} {new : NewWindow}
      {answer : Except RequestError Client} : LaunchClient before client creation →
      client.windowIds = [] →
      (∀ found, answer = .ok found →
        Kind.client.ofRow (Kind.client.toRow (client.listing new.windowId)) = .ok found) →
      LaunchEnds before answer
        (creation ++ (new.creations ++ [⟨.updated, .client, client.listing new.windowId⟩]))

namespace Request

variable (ticks : Nat → Tick) (time : Nat) (context : Context) (world : World)

/-- A client without windows gets one. -/
theorem play_firstWindow_cases {client : Client} {row : Row}
    (single : world.table.ofKind Kind.client.name = [row])
    (decoded : Kind.client.ofRow row = .ok client) (without : client.windowIds = []) :
    (∃ problem new made after later, made <+: NewWindow.creations new ∧
      Table.Writes world.table made after ∧
      play ticks time context world
          (makeWindow >>= fun _ => call "getting client data" (.getSingleton .client)) =
        ⟨⟨.error problem, context.recordAll (made.map RowWrite.record),
          { world with table := after }⟩, later⟩) ∨
    ∃ answer new after later,
      let writes :=
        NewWindow.creations new ++ [⟨.updated, .client, client.listing new.windowId⟩]
      (∀ found, answer = .ok found →
        Kind.client.ofRow (Kind.client.toRow (client.listing new.windowId)) = .ok found) ∧
      Table.Writes world.table writes after ∧
      play ticks time context world
          (makeWindow >>= fun _ => call "getting client data" (.getSingleton .client)) =
        ⟨⟨answer, context.recordAll (writes.map RowWrite.record),
          { world with table := after }⟩, later⟩ := by
  rw [play_bind]
  rcases play_makeWindow_cases ticks time context world with
    ⟨problem, made, later, after, first, writes, stopped⟩ | ⟨between, writes, went⟩
  · rw [stopped]
    exact .inl ⟨problem, _, made, after, later, first, writes, rfl⟩
  let new : NewWindow :=
    ⟨(ticks time).freshOid, (ticks (time + 2)).freshOid, (ticks (time + 4)).freshOid⟩
  have still : between.ofKind Kind.client.name = [row] :=
    (writes.ofKind_of_ne fun _ => NewWindow.kind_ne_client_of_mem).trans single
  rw [went]
  rcases play_listWindow_cases ticks (time + 6)
      (context.recordAll (new.creations.map RowWrite.record)) { world with table := between }
      new.window still decoded without with ⟨problem, failed⟩ | ⟨after, takes, listed⟩
  · rw [failed]
    exact .inl ⟨problem, new, new.creations, between, _, List.prefix_rfl, writes, rfl⟩
  · rw [listed]
    have alone : after.ofKind Kind.client.name =
        [Kind.client.toRow (client.listing new.windowId)] := takes.ofKind_of_single still
    right
    rcases endsWithClient_getSingleton ticks (time + 7) _ { world with table := after }
        (alone ▸ Nat.le_refl 1) "getting client data" with
      ⟨problem, later, failed⟩ | ⟨found, creation, last, later, launched, silent, looked⟩
    · refine ⟨.error problem, new, after, later, nofun, writes.append (.single takes), ?_⟩
      rw [List.map_append, Context.recordAll_append]
      exact failed
    · cases launched with
      | created oid none => cases alone.symm.trans none
      | @found held found there read =>
          cases silent
          obtain rfl := List.singleton_inj.1 (there.symm.trans alone)
          refine ⟨.ok found, new, after, later, ?_, writes.append (.single takes), ?_⟩
          · intro other same
            cases same
            exact read
          · rw [List.map_append, Context.recordAll_append]
            exact looked

/-- A launch ends in one of four ways, and its context has a record of each row that it wrote. -/
theorem play_ensureInitialData_cases
    (few : (world.table.ofKind Kind.client.name).length ≤ 1) :
    ∃ answer writes after later, LaunchEnds world.table answer writes ∧
      Table.Writes world.table writes after ∧
      play ticks time context world ensureInitialData =
        ⟨⟨answer, context.recordAll (writes.map RowWrite.record),
          { world with table := after }⟩, later⟩ := by
  rw [ensureInitialData, play_bind]
  rcases endsWithClient_findOrCreateClient ticks time context world few with
    ⟨problem, later, stopped⟩ | ⟨client, creation, between, middle, launched, writes, taken⟩
  · rw [stopped]
    exact ⟨_, [], _, later, .stopped problem, .none _, rfl⟩
  rw [taken]
  obtain ⟨row, single, decoded⟩ := launched.ofKind writes
  cases without : client.windowIds with
  | cons first others =>
      cases launched with
      | created oid none => cases without
      | found there read =>
          cases writes
          have listed : client.windowIds ≠ [] := without ▸ List.cons_ne_nil first others
          refine ⟨_, [], _, middle, .found there read listed, .none _, ?_⟩
          simp only [without]
          rfl
  | nil =>
      simp only [without, List.isEmpty_nil, if_true]
      rcases play_firstWindow_cases ticks middle (context.recordAll (creation.map RowWrite.record))
          { world with table := between } single decoded without with
        ⟨problem, new, made, after, later, first, writesMade, stopped⟩ |
        ⟨answer, new, after, later, known, writesListed, ended⟩
      · refine ⟨_, creation ++ made, after, later, .begun problem launched without first,
          writes.append writesMade, ?_⟩
        rw [List.map_append, Context.recordAll_append]
        exact stopped
      · refine ⟨_, _, after, later, .listed launched without known,
          writes.append writesListed, ?_⟩
        rw [List.map_append, Context.recordAll_append]
        exact ended

end Request

end Workbench
