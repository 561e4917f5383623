/-
# Calls of many contexts on one store

Several requests may use a store at once, each with its own context. Every call is one step
on the table, because it runs under the lock of the store, so an order of calls is all that
is left of running at the same time. This module plays calls of many contexts in any order
and keeps the log of the rows that they wrote.

The log says what the version of a row is. A row begins with version one, and each later
write to it adds one. Versions are words of 64 bits, so all counting here is counting of
words.
-/

import Workbench.Proofs.Store.Reached
import Workbench.Proofs.Store.Unhindered

namespace Workbench

/-- A store, and the contexts of the requests that use it. -/
structure SharedStore where
  contexts : Nat → Context
  table : Table

/-- One store call of one request, and the moment at which it is made. -/
structure Turn where
  owner : Nat
  moment : Moment
  call : StoreCall

namespace Turn

/-- What the call of a turn leaves behind. -/
def outcome (turn : Turn) (shared : SharedStore) : Outcome turn.call.Value :=
  turn.call.run turn.moment (shared.contexts turn.owner) shared.table

/-- The store after a turn. Only the context whose turn it is changes. -/
def play (shared : SharedStore) (turn : Turn) : SharedStore where
  contexts owner :=
    if owner = turn.owner then (turn.outcome shared).context else shared.contexts owner
  table := (turn.outcome shared).table

/-- The rows that were written in a turn, in order. -/
def writes (turn : Turn) (shared : SharedStore) : List RowWrite :=
  match (turn.outcome shared).result with
  | .error _ => []
  | .ok value => turn.call.written shared.table (turn.outcome shared).table value

/-- Nothing stands in the way of a turn: its context is live, and the engine does its work. -/
def Unhindered (turn : Turn) (shared : SharedStore) : Prop :=
  turn.moment.Unhindered (shared.contexts turn.owner)

end Turn

namespace SharedStore

/-- The store after several turns. -/
def playAll (shared : SharedStore) (turns : List Turn) : SharedStore := turns.foldl Turn.play shared

/-- The rows that were written in several turns, in order. -/
def log (shared : SharedStore) : List Turn → List RowWrite
  | [] => []
  | turn :: rest => turn.writes shared ++ (turn.play shared).log rest

end SharedStore

namespace RowWrite

/-- Whether a write is a write to the row under a key. -/
def isTo (kind : Kind) (oid : String) (write : RowWrite) : Bool :=
  write.kind = kind && write.kind.oid write.object = oid

theorem isTo_iff {kind : Kind} {oid : String} {write : RowWrite} :
    write.isTo kind oid = true ↔ write.row.key = (kind.name, oid) := by
  have names : write.kind = kind ↔ write.kind.name = kind.name :=
    ⟨congrArg Kind.name, Kind.eq_of_name_eq⟩
  rw [isTo, Bool.and_eq_true, decide_eq_true_iff, decide_eq_true_iff, names, row, Row.key,
    Kind.toRow, Prod.mk.injEq]

end RowWrite

/-- The writes to the row under a key, among several writes. -/
def writesTo (kind : Kind) (oid : String) (writes : List RowWrite) : List RowWrite :=
  writes.filter (RowWrite.isTo kind oid)

section writesTo

variable {kind : Kind} {oid : String} {write : RowWrite} (rest : List RowWrite)

theorem writesTo_cons_of_isTo (here : write.isTo kind oid = true) :
    writesTo kind oid (write :: rest) = write :: writesTo kind oid rest :=
  List.filter_cons_of_pos here

theorem writesTo_cons_of_not (other : write.isTo kind oid = false) :
    writesTo kind oid (write :: rest) = writesTo kind oid rest :=
  List.filter_cons_of_neg (Bool.not_eq_true _ ▸ other)

end writesTo

/-- There are no writes to a row among writes to rows of other kinds. -/
theorem writesTo_eq_nil_of_ne {kind : Kind} {oid : String} {writes : List RowWrite}
    (others : ∀ write ∈ writes, write.kind ≠ kind) : writesTo kind oid writes = [] :=
  List.filter_eq_nil_iff.2 fun write written here =>
    others write written (Kind.eq_of_name_eq (Prod.mk.inj (RowWrite.isTo_iff.1 here)).1)

theorem writesTo_append (kind : Kind) (oid : String) (first second : List RowWrite) :
    writesTo kind oid (first ++ second) = writesTo kind oid first ++ writesTo kind oid second :=
  List.filter_append ..

/-! ## The log of a run -/

theorem Turn.writes_takes (turn : Turn) (shared : SharedStore) :
    Table.Writes shared.table (turn.writes shared) (turn.play shared).table := by
  have ended := turn.call.ends turn.moment (shared.contexts turn.owner) shared.table
  rw [Turn.writes, Turn.play, Turn.outcome]
  generalize turn.call.run turn.moment (shared.contexts turn.owner) shared.table = outcome at ended
  cases ended with
  | failed problem => exact .none _
  | succeeded value after writes => exact writes

/-- The table took the writes of the log one after another. -/
theorem SharedStore.log_takes (shared : SharedStore) (turns : List Turn) :
    Table.Writes shared.table (shared.log turns) (shared.playAll turns).table := by
  induction turns generalizing shared with
  | nil => exact .none _
  | cons turn rest ih => exact (turn.writes_takes shared).append (ih (turn.play shared))

/-! ## Versions count writes -/

namespace RowWrite.Takes

variable {before after : Table} {write : RowWrite} {kind : Kind} {oid : String}

/-- After a write its row is as it was written, and every other row is as it was. -/
theorem find?_after (takes : write.Takes before after) (kind oid : String) :
    after.find? kind oid =
      if write.row.key = (kind, oid) then some write.row else before.find? kind oid := by
  cases takes with
  | created first alone inserted => exact Table.find?_of_insert? inserted kind oid
  | updated expected raised swapped => exact Table.find?_of_replace? swapped kind oid

/-- A write is a creation with version one where there was no row, and a change that adds one
to the version where there was one. -/
theorem find?_before (takes : write.Takes before after) :
    match before.find? write.row.kind write.row.oid with
    | none => write.updateType = .created ∧ write.row.version = 1
    | some row => write.updateType = .updated ∧ write.row.version = row.version + 1 := by
  cases takes with
  | @created _ kind object first alone inserted =>
      have free : before.find? (kind.toRow object).kind (kind.toRow object).oid = none :=
        (Table.insert?_eq_some_iff.1 inserted).1
      rw [row, free]
      exact ⟨rfl, first⟩
  | @updated _ kind object expected raised swapped =>
      obtain ⟨⟨held, found, fits⟩, -⟩ := Table.replace?_eq_some_iff.1 swapped
      have there : before.find? (kind.toRow object).kind (kind.toRow object).oid = some held :=
        found
      rw [row, there]
      exact ⟨rfl, by rw [fits]; exact raised⟩

/-- A write to another row leaves a row alone. -/
theorem find?_of_not (takes : write.Takes before after) (other : write.isTo kind oid = false) :
    after.find? kind.name oid = before.find? kind.name oid := by
  have apart : write.row.key ≠ (kind.name, oid) := fun same => by
    rw [RowWrite.isTo_iff.2 same] at other
    cases other
  rw [takes.find?_after, if_neg apart]

/-- After a write to a row the row is what was written. -/
theorem find?_of_isTo (takes : write.Takes before after) (here : write.isTo kind oid = true) :
    after.find? kind.name oid = some write.row := by
  rw [takes.find?_after, if_pos (RowWrite.isTo_iff.1 here)]

/-- Where there is no row, a write to the row creates it with version one. -/
theorem created_of_absent (takes : write.Takes before after) (here : write.isTo kind oid = true)
    (absent : before.find? kind.name oid = none) :
    write.updateType = .created ∧ write.row.version = 1 := by
  obtain ⟨sameKind, sameOid⟩ := Prod.mk.inj (RowWrite.isTo_iff.1 here)
  have kinds := takes.find?_before
  rw [sameKind, sameOid, absent] at kinds
  exact kinds

/-- Where there is a row, a write to the row is a change and adds one to the version. -/
theorem updated_of_present (takes : write.Takes before after) (here : write.isTo kind oid = true)
    {row : Row} (present : before.find? kind.name oid = some row) :
    write.updateType = .updated ∧ write.row.version = row.version + 1 := by
  obtain ⟨sameKind, sameOid⟩ := Prod.mk.inj (RowWrite.isTo_iff.1 here)
  have kinds := takes.find?_before
  rw [sameKind, sameOid, present] at kinds
  exact kinds

end RowWrite.Takes

namespace Table.Writes

variable {before after : Table} {writes : List RowWrite} {kind : Kind} {oid : String}

/-- The version of a row that was there is the one it had and the number of writes to it. -/
theorem version_of_present (all : Table.Writes before writes after) {row : Row}
    (present : before.find? kind.name oid = some row) :
    (∀ write ∈ writesTo kind oid writes, write.updateType = .updated) ∧
      ∃ held, after.find? kind.name oid = some held ∧
        held.version = row.version + Int64.ofNat (writesTo kind oid writes).length := by
  induction all generalizing row with
  | none table =>
      refine ⟨fun _ impossible => absurd impossible List.not_mem_nil, row, present, ?_⟩
      exact (Int64.add_zero _).symm
  | @more before between after write rest takes _ ih =>
      cases here : write.isTo kind oid with
      | false =>
          rw [writesTo_cons_of_not rest here]
          exact ih ((takes.find?_of_not here).trans present)
      | true =>
          obtain ⟨change, raised⟩ := takes.updated_of_present here present
          obtain ⟨others, held, found, version⟩ := ih (takes.find?_of_isTo here)
          rw [writesTo_cons_of_isTo rest here]
          refine ⟨?_, held, found, ?_⟩
          · intro other there
            rcases List.mem_cons.1 there with rfl | later
            · exact change
            · exact others other later
          · rw [version, raised, List.length_cons, Int64.ofNat_add, Int64.add_assoc,
              Int64.add_comm 1]
            rfl

/-- Writes to other rows leave a row alone. -/
theorem find?_of_writesTo_eq_nil (all : Table.Writes before writes after)
    (apart : writesTo kind oid writes = []) :
    after.find? kind.name oid = before.find? kind.name oid := by
  induction all with
  | none table => rfl
  | @more before between after write rest takes _ ih =>
      cases here : write.isTo kind oid with
      | false =>
          rw [writesTo_cons_of_not rest here] at apart
          rw [ih apart, takes.find?_of_not here]
      | true =>
          rw [writesTo_cons_of_isTo rest here] at apart
          cases apart

/-- A row that was written once holds what was written. -/
theorem find?_of_writesTo_eq_singleton (all : Table.Writes before writes after)
    {write : RowWrite} (once : writesTo kind oid writes = [write]) :
    after.find? kind.name oid = some write.row := by
  induction all with
  | none table => cases once
  | @more before between after first rest takes others ih =>
      cases here : first.isTo kind oid with
      | false =>
          rw [writesTo_cons_of_not rest here] at once
          exact ih once
      | true =>
          rw [writesTo_cons_of_isTo rest here] at once
          obtain ⟨rfl, apart⟩ := List.cons.inj once
          rw [others.find?_of_writesTo_eq_nil apart, takes.find?_of_isTo here]

/-- A row that was not there begins with a creation, if it is written at all. From then on
its version is one and the number of writes since. -/
theorem version_of_absent (all : Table.Writes before writes after)
    (absent : before.find? kind.name oid = Option.none) :
    match writesTo kind oid writes with
    | [] => after.find? kind.name oid = Option.none
    | creation :: later =>
        creation.updateType = .created ∧ (∀ write ∈ later, write.updateType = .updated) ∧
          ∃ held, after.find? kind.name oid = some held ∧
            held.version = 1 + Int64.ofNat later.length := by
  induction all with
  | none table => exact absent
  | @more before between after write rest takes others ih =>
      cases here : write.isTo kind oid with
      | false =>
          rw [writesTo_cons_of_not rest here]
          exact ih ((takes.find?_of_not here).trans absent)
      | true =>
          obtain ⟨creation, first⟩ := takes.created_of_absent here absent
          have present := takes.find?_of_isTo here
          obtain ⟨changes, held, found, version⟩ := others.version_of_present present
          rw [writesTo_cons_of_isTo rest here]
          exact ⟨creation, changes, held, found, by rw [version, first]⟩

end Table.Writes

/-! ## The rows of a kind after some writes -/

namespace RowWrite.Takes

variable {before after : Table} {write : RowWrite} {kind : Kind}

/-- The rows of other kinds are as they were. -/
theorem ofKind_of_ne (takes : write.Takes before after) (other : write.kind ≠ kind) :
    after.ofKind kind.name = before.ofKind kind.name := by
  cases takes with
  | @created _ written object first alone inserted =>
      have apart : (written.toRow object).kind ≠ kind.name := fun same =>
        other (Kind.eq_of_name_eq same)
      rw [Table.ofKind_of_insert? inserted, if_neg apart, List.append_nil]
  | @updated _ written object expected raised swapped =>
      obtain ⟨-, rfl⟩ := Table.replace?_eq_some_iff.1 swapped
      rw [Table.ofKind_overwrite]
      refine (List.map_congr_left fun row there => Table.overwriteRow_of_ne ?_ _ _).trans
        (List.map_id' _)
      intro same
      rw [Table.ofKind, List.mem_filter, decide_eq_true_iff] at there
      exact other (Kind.eq_of_name_eq ((congrArg Prod.fst same).symm.trans there.2))

/-- A change to the only row of a kind leaves the changed row as the only one. -/
theorem ofKind_of_single {object : kind.Object} {row : Row}
    (takes : Takes before ⟨.updated, kind, object⟩ after)
    (single : before.ofKind kind.name = [row]) :
    after.ofKind kind.name = [kind.toRow object] := by
  cases takes with
  | updated expected raised swapped =>
      obtain ⟨⟨held, found, -⟩, rfl⟩ := Table.replace?_eq_some_iff.1 swapped
      obtain ⟨present, key⟩ := Table.find?_eq_some_iff.1 found
      have there : held ∈ before.ofKind kind.name := by
        rw [Table.ofKind, List.mem_filter, decide_eq_true_iff]
        exact ⟨present, congrArg Prod.fst key⟩
      rw [single] at there
      obtain rfl := List.mem_singleton.1 there
      rw [Table.ofKind_overwrite, single, List.map_singleton, Table.overwriteRow_of_eq key]
      rfl

/-- A creation puts its row behind the other rows of its kind. -/
theorem ofKind_of_created {object : kind.Object}
    (takes : Takes before ⟨.created, kind, object⟩ after) :
    after.ofKind kind.name = before.ofKind kind.name ++ [kind.toRow object] := by
  cases takes with
  | created first alone inserted =>
      rw [Table.ofKind_of_insert? inserted]
      exact congrArg _ (if_pos rfl)

end RowWrite.Takes

namespace Table.Writes

variable {before after : Table} {writes : List RowWrite} {kind : Kind}

theorem ofKind_of_ne (all : Table.Writes before writes after)
    (others : ∀ write ∈ writes, write.kind ≠ kind) :
    after.ofKind kind.name = before.ofKind kind.name := by
  induction all with
  | none table => rfl
  | more takes _ ih =>
      rw [ih fun write later => others write (List.mem_cons_of_mem _ later),
        takes.ofKind_of_ne (others _ List.mem_cons_self)]

/-- Writes can be cut in two anywhere. -/
theorem of_append {first second : List RowWrite}
    (all : Table.Writes before (first ++ second) after) :
    ∃ between, Table.Writes before first between ∧ Table.Writes between second after := by
  induction first generalizing before with
  | nil => exact ⟨before, .none _, all⟩
  | cons write rest ih =>
      cases all with
      | more takes later =>
          obtain ⟨between, early, late⟩ := ih later
          exact ⟨between, .more takes early, late⟩

/-- A row that is written once, by a creation, was not there before. -/
theorem fresh_of_created {oid : String} {write : RowWrite}
    (all : Table.Writes before writes after) (once : writesTo kind oid writes = [write])
    (creation : write.updateType = .created) : before.find? kind.name oid = Option.none := by
  cases found : before.find? kind.name oid with
  | none => rfl
  | some row =>
      have change := (all.version_of_present found).1 write (once ▸ List.mem_cons_self)
      rw [creation] at change
      cases change

/-- No row goes away. -/
theorem find?_eq_none_of_after {oid : String} (all : Table.Writes before writes after)
    (absent : after.find? kind.name oid = Option.none) :
    before.find? kind.name oid = Option.none := by
  cases found : before.find? kind.name oid with
  | none => rfl
  | some row =>
      obtain ⟨-, held, still, -⟩ := all.version_of_present found
      rw [absent] at still
      cases still

end Table.Writes

end Workbench
