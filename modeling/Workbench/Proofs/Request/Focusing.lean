/-
# Windows brought to the front, one after another

A request to bring a window to the front is one edit of the client. It always succeeds unless
something stands in its way, also for a window that is not listed. Only a window that is listed and
not in front yet is worth a write and a record.

So after any number of such requests, whoever makes them, the client lists its windows in the order
of focus.
-/

import Mathlib.Logic.Function.Basic
import Workbench.Proofs.Object.FocusOrder
import Workbench.Proofs.Request.Run
import Workbench.Proofs.Store.ClientRow
import Workbench.Request.Windows

namespace Workbench

/-- The contexts of several requests, and the world that they share. -/
structure SharedWorld where
  contexts : Nat → Context
  world : World

/-- A request to bring a window to the front, the context that it runs under, and what happens
around it. -/
structure FocusRequest where
  owner : Nat
  windowId : String
  ticks : Nat → Tick
  time : Nat

namespace FocusRequest

/-- What is left of a request. -/
def completion (asked : FocusRequest) (shared : SharedWorld) :
    Completion (Except RequestError Unit) :=
  Request.play asked.ticks asked.time (shared.contexts asked.owner) shared.world
    (Request.focusWindow asked.windowId)

/-- The world after a request. Only the context of the request changes. -/
def play (shared : SharedWorld) (asked : FocusRequest) : SharedWorld where
  contexts := Function.update shared.contexts asked.owner (asked.completion shared).context
  world := (asked.completion shared).world

/-- Nothing stands in the way of a request. -/
def Unhindered (asked : FocusRequest) (shared : SharedWorld) : Prop :=
  (asked.ticks asked.time).moment.Unhindered (shared.contexts asked.owner)

/-- The window that is asked for is listed and not in front. -/
def IsBehind (asked : FocusRequest) (client : Client) : Prop :=
  asked.windowId ∈ client.windowIds ∧ client.windowIds.head? ≠ some asked.windowId

/-- The client after the request, as it is written if the window is behind. -/
def moved (asked : FocusRequest) (client : Client) : Client :=
  (ClientEdit.focus asked.windowId).applied client

variable (asked : FocusRequest) {shared : SharedWorld} {client : Client}

/-- A window that is not behind is left where it is. -/
theorem apply_focus_snd :
    ((ClientEdit.focus asked.windowId).apply client).2 = true ↔ asked.IsBehind client := by
  rw [ClientEdit.apply, Client.focusWindow, IsBehind]
  split
  · rename_i behind
    exact iff_of_true rfl behind
  · rename_i unmoved
    exact iff_of_false Bool.false_ne_true unmoved

theorem version_moved (behind : asked.IsBehind client) :
    (asked.moved client).version = client.version + 1 := by
  rw [moved, ClientEdit.version_applied, asked.apply_focus_snd.2 behind]
  rfl

/-- A request that nothing stands in the way of succeeds. Either nothing is to be done, or the
client is written and recorded. -/
theorem completion_cases (unhindered : asked.Unhindered shared)
    (holds : shared.world.table.HoldsObjects) (stored : shared.world.table.client? = some client) :
    ¬ asked.IsBehind client ∧ asked.moved client = client ∧
        asked.completion shared =
          ⟨⟨.ok (), shared.contexts asked.owner, shared.world⟩, asked.time + 1⟩ ∨
      asked.IsBehind client ∧ ∃ after metadata,
        RowWrite.Takes shared.world.table ⟨.updated, .client, asked.moved client⟩ after ∧
        after.client? = some { asked.moved client with metadata } ∧
        asked.completion shared =
          ⟨⟨.ok (), (shared.contexts asked.owner).record
            (.ofObject .updated .client (asked.moved client)),
            { shared.world with table := after }⟩, asked.time + 1⟩ := by
  have finish {answer : Client} {later : Context} {after : Table}
      (ran : (ClientEdit.focus asked.windowId).call.run (asked.ticks asked.time).moment
        (shared.contexts asked.owner) shared.world.table = ⟨.ok answer, later, after⟩) :
      asked.completion shared =
        ⟨⟨.ok (), later, { shared.world with table := after }⟩, asked.time + 1⟩ :=
    Request.play_call_bind_of_ok asked.ticks asked.time _ shared.world "updating client data"
      (ClientEdit.focus asked.windowId).call (fun _ => pure ()) ran
  obtain ⟨answer, succeeded⟩ := (ClientEdit.focus asked.windowId).exists_result_of_unhindered
    (asked.ticks asked.time).moment _ holds stored unhindered
  rcases (ClientEdit.focus asked.windowId).run_edits (asked.ticks asked.time).moment
      (shared.contexts asked.owner) holds stored with
    ⟨problem, failed⟩ | ⟨unchanged, same, ran⟩ | ⟨changed, after, metadata, takes, ran, now⟩
  · rw [failed] at succeeded
    cases succeeded
  · refine .inl ⟨fun behind => ?_, same, finish ran⟩
    rw [asked.apply_focus_snd.2 behind] at unchanged
    cases unchanged
  · exact .inr ⟨asked.apply_focus_snd.1 changed, after, metadata, takes, now, finish ran⟩

end FocusRequest

namespace SharedWorld

open FocusRequest

variable {start shared : SharedWorld} {first : Client} {focused : List String}

/-- What stays as it is at the start, and what becomes of the client: the rows are in shape, the
deadlines are the same, and the client lists its windows in the order of focus. -/
structure Focused (start : SharedWorld) (first : Client) (focused : List String)
    (shared : SharedWorld) : Prop where
  holds : shared.world.table.HoldsObjects
  deadlines : ∀ owner, (shared.contexts owner).deadline = (start.contexts owner).deadline
  stored : ∃ client, shared.world.table.client? = some client ∧
    FocusOrder first.windowIds focused client.windowIds

namespace Focused

theorem unhindered (order : start.Focused first focused shared) {asked : FocusRequest}
    (unhindered : asked.Unhindered start) : asked.Unhindered shared :=
  Moment.Unhindered.congr unhindered (order.deadlines asked.owner)

/-- One more request keeps the order. -/
theorem play (order : start.Focused first focused shared) (distinct : first.windowIds.Nodup)
    {asked : FocusRequest} (unhindered : asked.Unhindered start) :
    start.Focused first (focused ++ [asked.windowId]) (asked.play shared) := by
  obtain ⟨client, stored, ordered⟩ := order.stored
  have next : FocusOrder first.windowIds (focused ++ [asked.windowId])
      (asked.moved client).windowIds := by
    rw [moved, ClientEdit.windowIds_applied]
    exact ordered.focusWindow distinct asked.windowId
  have deadlines {later : Context} (same : later.deadline = (shared.contexts asked.owner).deadline)
      (owner : Nat) : (Function.update shared.contexts asked.owner later owner).deadline =
        (start.contexts owner).deadline := by
    rw [← order.deadlines, Function.update_apply]
    split
    · rename_i here
      rw [here, same]
    · rfl
  rcases asked.completion_cases (order.unhindered unhindered) order.holds stored with
    ⟨-, same, ran⟩ | ⟨-, after, metadata, takes, now, ran⟩
  · rw [FocusRequest.play, ran]
    rw [same] at next
    exact ⟨order.holds, deadlines rfl, client, stored, next⟩
  · rw [FocusRequest.play, ran]
    exact ⟨order.holds.takes takes, deadlines rfl, _, now, next⟩

/-- Any number of requests keep the order. -/
theorem playAll (order : start.Focused first focused shared) (distinct : first.windowIds.Nodup)
    {requests : List FocusRequest} (unhindered : ∀ asked ∈ requests, asked.Unhindered start) :
    start.Focused first (focused ++ requests.map FocusRequest.windowId)
      (requests.foldl FocusRequest.play shared) := by
  induction requests generalizing focused shared with
  | nil => rwa [List.map_nil, List.append_nil]
  | cons asked rest ih =>
      obtain ⟨here, later⟩ := List.forall_mem_cons.1 unhindered
      have both := ih (order.play distinct here) later
      rwa [List.append_assoc] at both

end Focused

end SharedWorld

/-- After any number of requests to bring windows to the front, under any contexts, the client
lists its windows in the order of focus: first those that were focused, the latest first, then the
others in the order in which they stood at first. Every request succeeds. One whose window is
listed and not in front writes the client, with its version raised by one, and records that once;
any other changes nothing at all. Of any list whatever, with or without duplicates, a focus makes
a rearrangement, and a focus and a listing both report a change exactly if there is one. -/
theorem windows_are_listed_in_the_order_of_focus (start : SharedWorld) (first : Client)
    (reached : start.world.table.Reached) (stored : start.world.table.client? = some first)
    (distinct : first.windowIds.Nodup) (requests : List FocusRequest)
    (unhindered : ∀ asked ∈ requests, asked.Unhindered start) :
    (∃ client, (requests.foldl FocusRequest.play start).world.table.client? = some client ∧
      FocusOrder first.windowIds (requests.map FocusRequest.windowId) client.windowIds) ∧
    (∀ early asked late, requests = early ++ asked :: late →
      let before := early.foldl FocusRequest.play start
      let done := asked.completion before
      let context := before.contexts asked.owner
      ∃ client, before.world.table.client? = some client ∧ done.answer = .ok () ∧
        if asked.windowId ∈ client.windowIds ∧ client.windowIds.head? ≠ some asked.windowId then
          ∃ written later : Client,
            RowWrite.Takes before.world.table ⟨.updated, .client, written⟩ done.world.table ∧
            written.version = client.version + 1 ∧
            done.context = context.record (.ofObject .updated .client written) ∧
            done.world.table.client? = some later ∧ later.version = client.version + 1 ∧
            done.world.bus = before.world.bus
        else done.context = context ∧ done.world = before.world) ∧
    ∀ (client : Client) (windowId : String),
      ((client.focusWindow windowId).2 = true ↔
        (client.focusWindow windowId).1.windowIds ≠ client.windowIds) ∧
      ((client.addWindow windowId).2 = true ↔
        (client.addWindow windowId).1.windowIds ≠ client.windowIds) ∧
      (client.focusWindow windowId).1.windowIds.Perm client.windowIds := by
  have order : start.Focused first [] start :=
    ⟨reached.holdsObjects, fun _ => rfl, first, stored, .start first.windowIds⟩
  refine ⟨(order.playAll distinct unhindered).stored, ?_, fun client windowId =>
    ⟨client.focusWindow_changes_iff windowId, client.addWindow_changes_iff windowId,
      client.perm_focusWindow windowId⟩⟩
  rintro early asked late rfl before done context
  obtain ⟨earlier, here⟩ := List.forall_mem_append.1 unhindered
  have asked_unhindered := (List.forall_mem_cons.1 here).1
  have reachedSo := order.playAll distinct earlier
  obtain ⟨client, now, -⟩ := reachedSo.stored
  rcases asked.completion_cases (reachedSo.unhindered asked_unhindered) reachedSo.holds now with
    ⟨inPlace, -, ran⟩ | ⟨behind, after, metadata, takes, changed, ran⟩
  · have ended : done = _ := ran
    refine ⟨client, now, congrArg (·.answer) ended, ?_⟩
    rw [FocusRequest.IsBehind] at inPlace
    rw [if_neg inPlace, ended]
    exact ⟨rfl, rfl⟩
  · have ended : done = _ := ran
    have version := asked.version_moved behind
    refine ⟨client, now, congrArg (·.answer) ended, ?_⟩
    rw [FocusRequest.IsBehind] at behind
    rw [if_pos behind, ended]
    exact ⟨asked.moved client, _, takes, version, rfl, changed, version, rfl⟩

/-! ### Six focuses -/

/-- A client that lists four windows, before it is stored. -/
def fourWindows : Client := ⟨"c", 0, ["a", "b", "c", "d"], 0, .empty⟩

/-- The world after the client was stored. All contexts have a journal. -/
def fourWindowWorld : SharedWorld :=
  ⟨fun _ => ⟨1, some []⟩,
    ⟨((StoreCall.create .client fourWindows).run (.quiet 0) ⟨1, none⟩ .empty).table, .empty⟩⟩

/-- Windows are focused, some of them twice, and one that is not listed. -/
def sixFocuses : List FocusRequest :=
  ["c", "x", "a", "c", "d", "a"].map fun windowId =>
    ⟨0, windowId, fun _ => ⟨.quiet 0, "", 0⟩, 0⟩

/-- The window that was focused last is in front, the one that never was is last, and the window
that is not listed left no record. -/
theorem six_focuses_order_four_windows :
    fourWindowWorld.world.table.Reached ∧
      fourWindowWorld.world.table.client? = some { fourWindows with version := 1 } ∧
      fourWindows.windowIds.Nodup ∧ (∀ asked ∈ sixFocuses, asked.Unhindered fourWindowWorld) ∧
      FocusOrder ["a", "b", "c", "d"] ["c", "x", "a", "c", "d", "a"] ["a", "d", "c", "b"] ∧
      ((sixFocuses.foldl FocusRequest.play fourWindowWorld).contexts 0).batch.length = 5 := by
  have reached : fourWindowWorld.world.table.Reached := .call .empty (.quiet 0) ⟨1, none⟩ _
  have row : fourWindowWorld.world.table.ofKind Kind.client.name =
      [Kind.client.toRow { fourWindows with version := 1 }] := by
    decide +kernel
  have stored : fourWindowWorld.world.table.client? = some { fourWindows with version := 1 } :=
    Table.client?_eq_some_iff.2 ⟨_, row, Kind.client.ofRow_toRow Meta.withinLimits_empty⟩
  have distinct : fourWindows.windowIds.Nodup := by decide
  have unhindered : ∀ asked ∈ sixFocuses, asked.Unhindered fourWindowWorld := by
    refine List.forall_mem_map.2 fun windowId _ => ?_
    exact ⟨rfl, rfl, fun _ _ => rfl⟩
  obtain ⟨⟨client, now, ordered⟩, -⟩ := windows_are_listed_in_the_order_of_focus fourWindowWorld
    _ reached stored distinct sixFocuses unhindered
  obtain ⟨windows, records⟩ :
      (sixFocuses.foldl FocusRequest.play fourWindowWorld).world.table.client?.map
          Client.windowIds = some ["a", "d", "c", "b"] ∧
        ((sixFocuses.foldl FocusRequest.play fourWindowWorld).contexts 0).batch.length = 5 := by
    decide +kernel
  rw [now, Option.map_some, Option.some.injEq] at windows
  rw [windows] at ordered
  exact ⟨reached, stored, distinct, unhindered, ordered, records⟩

end Workbench
