/-
# What reading calls agree on

Three queries look at one table: one asks for a key, one for the oldest row of a kind, and one for
all rows of a kind. What they say of a kind is said by one list, the objects of the rows of the
kind in the order in which these were created. An object is found under the identifier that it
carries, because each row holds an object with the row's own key.

The order of the list is the order of the creations in the log, and nothing else in the log plays
a part in it: a row that is written again keeps its place, and a call that fails writes nothing.
-/

import Workbench.Proofs.Store.Journals
import Workbench.Proofs.Store.ReadBack
import Workbench.Proofs.Store.Representation

namespace Workbench

/-! ## Objects of rows -/

namespace Table

/-- Every row of every kind gives back an object. -/
def Readable (table : Table) : Prop :=
  ∀ (kind : Kind), ∀ row ∈ table.ofKind kind.name, ∃ object, kind.ofRow row = .ok object

/-- It is enough if each row gives back an object of the kind that it names. -/
theorem readable_of_rows {table : Table} (each : ∀ row ∈ table.rows,
    ∃ (kind : Kind) (object : kind.Object), row.kind = kind.name ∧ kind.ofRow row = .ok object) :
    table.Readable := by
  intro kind row there
  rw [ofKind, List.mem_filter, decide_eq_true_iff] at there
  obtain ⟨other, object, named, read⟩ := each row there.1
  obtain rfl := Kind.eq_of_name_eq (named.symm.trans there.2)
  exact ⟨object, read⟩

/-- The rows of a kind give back these objects, in the order in which the rows stand. -/
def ReadsAs (table : Table) (kind : Kind) (objects : List kind.Object) : Prop :=
  (table.ofKind kind.name).map kind.ofRow = objects.map .ok

/-- A row is among the rows of a kind exactly if it is found under the kind and its own
identifier. -/
theorem mem_ofKind_iff {table : Table} {kind : String} {row : Row} :
    row ∈ table.ofKind kind ↔ table.find? kind row.oid = some row := by
  rw [ofKind, List.mem_filter, decide_eq_true_iff, find?_eq_some_iff, Row.key, Prod.mk.injEq]
  simp

theorem nodup_oids_ofKind (table : Table) (kind : String) :
    ((table.ofKind kind).map Row.oid).Nodup := by
  refine List.Nodup.map_on ?_ (table.keysDistinct.of_map.filter _)
  intro first here second there same
  rw [mem_ofKind_iff] at here there
  rw [same, there] at here
  exact (Option.some.inj here).symm

theorem Readable.exists_readsAs {table : Table} (readable : table.Readable) (kind : Kind) :
    ∃ objects, table.ReadsAs kind objects := by
  have each := readable kind
  unfold ReadsAs
  generalize table.ofKind kind.name = rows at each
  induction rows with
  | nil => exact ⟨[], rfl⟩
  | cons row rest ih =>
      obtain ⟨object, read⟩ := each row List.mem_cons_self
      obtain ⟨objects, others⟩ := ih fun later there => each later (List.mem_cons_of_mem row there)
      exact ⟨object :: objects, by rw [List.map_cons, List.map_cons, read, others]⟩

/-- What a row of a kind gives back carries the identifier and the version of the row. -/
theorem HoldsObjects.of_ofKind {table : Table} (holds : table.HoldsObjects) {kind : Kind}
    {row : Row} (there : row ∈ table.ofKind kind.name) {object : kind.Object}
    (read : kind.ofRow row = .ok object) :
    kind.oid object = row.oid ∧ kind.version object = row.version :=
  holds.oid_version_of_find? (mem_ofKind_iff.1 there) read

namespace ReadsAs

variable {table : Table} {kind : Kind} {objects : List kind.Object}

/-- An object is listed exactly if some row of the kind gives it back. -/
theorem mem_iff (reads : table.ReadsAs kind objects) {object : kind.Object} :
    object ∈ objects ↔ ∃ row ∈ table.ofKind kind.name, kind.ofRow row = .ok object := by
  have same : object ∈ objects ↔ Except.ok object ∈ (table.ofKind kind.name).map kind.ofRow := by
    rw [reads, List.mem_map]
    simp
  rw [same, List.mem_map]

/-- The objects carry the identifiers of the rows, in the same order. -/
theorem map_oid (reads : table.ReadsAs kind objects) (holds : table.HoldsObjects) :
    objects.map kind.oid = (table.ofKind kind.name).map Row.oid := by
  have each : ∀ row ∈ table.ofKind kind.name, ∀ object, kind.ofRow row = .ok object →
      kind.oid object = row.oid := fun row there object read => (holds.of_ofKind there read).1
  unfold ReadsAs at reads
  generalize table.ofKind kind.name = rows at reads each
  induction rows generalizing objects with
  | nil =>
      cases objects with
      | nil => rfl
      | cons object rest => cases reads
  | cons row rows ih =>
      cases objects with
      | nil => cases reads
      | cons object rest =>
          obtain ⟨read, others⟩ := List.cons.inj reads
          rw [List.map_cons, List.map_cons, each row List.mem_cons_self object read,
            ih others fun later there => each later (List.mem_cons_of_mem row there)]

/-- The row under an identifier gives back the listed object that carries it, and there is no
such row if no object carries it. -/
theorem find?_cases (reads : table.ReadsAs kind objects) (holds : table.HoldsObjects)
    (oid : String) :
    (∃ row, ∃ object ∈ objects, table.find? kind.name oid = some row ∧
        kind.ofRow row = .ok object ∧ kind.oid object = oid) ∨
      (table.find? kind.name oid = none ∧ ∀ object ∈ objects, kind.oid object ≠ oid) := by
  cases found : table.find? kind.name oid with
  | some row =>
      have same := (kind_oid_of_find? found).2
      subst same
      have there := mem_ofKind_iff.2 found
      obtain ⟨object, read⟩ : ∃ object, kind.ofRow row = .ok object := by
        have mapped := List.mem_map_of_mem (f := kind.ofRow) there
        rw [reads] at mapped
        obtain ⟨object, -, same⟩ := List.mem_map.1 mapped
        exact ⟨object, same.symm⟩
      exact .inl ⟨row, object, reads.mem_iff.2 ⟨row, there, read⟩, rfl, read,
        (holds.of_ofKind there read).1⟩
  | none =>
      refine .inr ⟨rfl, ?_⟩
      rintro object listed rfl
      obtain ⟨row, there, read⟩ := reads.mem_iff.1 listed
      rw [(holds.of_ofKind there read).1, mem_ofKind_iff.1 there] at found
      cases found

/-- Of the listed objects only one carries an identifier. -/
theorem eq_of_oid_eq (reads : table.ReadsAs kind objects) (holds : table.HoldsObjects)
    {first second : kind.Object} (here : first ∈ objects) (there : second ∈ objects)
    (same : kind.oid first = kind.oid second) : first = second := by
  have distinct := table.nodup_oids_ofKind kind.name
  rw [← reads.map_oid holds] at distinct
  exact List.inj_on_of_nodup_map distinct here there same

/-- Of a singleton kind at most one object is listed. -/
theorem length_le_one (reads : table.ReadsAs kind objects) (holds : table.HoldsObjects)
    (single : kind.isSingleton = true) : objects.length ≤ 1 := by
  have few := holds.single kind single
  have same := congrArg List.length reads
  rw [List.length_map, List.length_map] at same
  exact same ▸ few

end ReadsAs

end Table

/-! ## The order of creation -/

/-- The identifiers of the objects of a kind that some writes create, in order. -/
def createdOids (kind : Kind) (writes : List RowWrite) : List String :=
  (writes.filter fun write => write.updateType = .created && write.kind = kind).map
    fun write => write.row.oid

theorem createdOids_append (kind : Kind) (first second : List RowWrite) :
    createdOids kind (first ++ second) = createdOids kind first ++ createdOids kind second := by
  rw [createdOids, List.filter_append, List.map_append]
  rfl

/-- A creation puts its identifier behind the others of its kind, and a change moves none. -/
theorem RowWrite.Takes.oids_ofKind {before after : Table} {write : RowWrite}
    (takes : write.Takes before after) (kind : Kind) :
    (after.ofKind kind.name).map Row.oid =
      (before.ofKind kind.name).map Row.oid ++ createdOids kind [write] := by
  cases takes with
  | @created _ other object first alone inserted =>
      rw [Table.ofKind_of_insert? inserted, List.map_append]
      congr 1
      by_cases same : other = kind
      · subst same
        have named : (other.toRow object).kind = other.name := rfl
        rw [if_pos named]
        simp [createdOids, row]
      · have apart : (other.toRow object).kind ≠ kind.name := fun named =>
          same (Kind.eq_of_name_eq named)
        rw [if_neg apart]
        simp [createdOids, same]
  | @updated _ other object expected raised swapped =>
      obtain ⟨-, rfl⟩ := Table.replace?_eq_some_iff.1 swapped
      have kept : Row.oid ∘ Table.overwriteRow other.name (other.oid object) (other.version object)
          (other.objectCodec.encode object) = Row.oid :=
        funext fun row => congrArg Prod.snd (Table.key_overwriteRow ..)
      rw [Table.ofKind_overwrite, List.map_map, kept]
      exact (List.append_nil _).symm

/-- The rows of a kind stand in the order in which they were created. -/
theorem Table.Writes.oids_ofKind {before after : Table} {writes : List RowWrite}
    (all : Table.Writes before writes after) (kind : Kind) :
    (after.ofKind kind.name).map Row.oid =
      (before.ofKind kind.name).map Row.oid ++ createdOids kind writes := by
  induction all with
  | none table => exact (List.append_nil _).symm
  | @more before between after write rest takes _ ih =>
      rw [ih, takes.oids_ofKind, List.append_assoc, ← createdOids_append]
      rfl

/-- Whether a call is to create something. -/
def StoreCall.isCreation : StoreCall → Bool
  | create _ _ => true
  | createAttached _ _ _ _ _ => true
  | _ => false

/-- A turn creates nothing if its call fails, or if the call is not to create anything. -/
theorem Turn.createdOids_writes {turn : Turn} {shared : SharedStore}
    (creates : (turn.outcome shared).result.isOk = true → turn.call.isCreation = false)
    (kind : Kind) : createdOids kind (turn.writes shared) = [] := by
  obtain ⟨owner, moment, call⟩ := turn
  unfold writes
  generalize outcome ⟨owner, moment, call⟩ shared = outcome at creates
  obtain ⟨result, context, table⟩ := outcome
  cases result with
  | error problem => rfl
  | ok value =>
      have quiet : call.isCreation = false := creates rfl
      cases call with
      | create kind object => cases quiet
      | createAttached child parent object parentOid edit => cases quiet
      | modify kind oid edit => simp only [StoreCall.written]; split <;> rfl
      | modifySingleton kind edit => simp only [StoreCall.written]; split <;> rfl
      | _ => rfl

/-! ## The reading calls -/

/-- A reading call changes nothing, whether it succeeds or fails. -/
theorem StoreCall.run_of_isReading {call : StoreCall} (reading : call.isReading = true)
    (moment : Moment) (context : Context) (table : Table) :
    (call.run moment context table).context = context ∧
      (call.run moment context table).table = table := by
  cases call with
  | get | mustGet | getAll => exact ⟨rfl, rfl⟩
  | getSingleton kind =>
      rw [run, Store.getSingleton]
      cases kind.ensureSingleton <;> exact ⟨rfl, rfl⟩
  | _ => cases reading

namespace Store

variable {moment : Moment} {context : Context} {table : Table} {kind : Kind}

theorem mustGet_eq (unhindered : moment.Unhindered context) (oid : String) :
    mustGet moment context table kind oid =
      unchanged context table
        (match table.find? kind.name oid with
        | none => .error (.notFound kind oid)
        | some row => kind.ofRow row) :=
  congrArg (unchanged context table)
    (enter_demandObject_eq ⟨unhindered.live, unhindered.unlocked, unhindered.sound _ _⟩)

theorem getSingleton_eq (unhindered : moment.Unhindered context)
    (single : kind.isSingleton = true) :
    getSingleton moment context table kind =
      unchanged context table
        (match table.ofKind kind.name with
        | [] => .error (.singletonMissing kind)
        | row :: _ => kind.ofRow row) := by
  have allowed : kind.ensureSingleton = .ok () := if_pos single
  rw [getSingleton, allowed]
  exact congrArg (unchanged context table)
    (enter_demandSingleton_eq ⟨unhindered.live, unhindered.unlocked, unhindered.sound _ _⟩)

/-- All reading calls of a kind tell of one list of objects, and change nothing. -/
structure TellOf (moment : Moment) (context : Context) (table : Table) (kind : Kind)
    (objects : List kind.Object) : Prop where
  /-- The list is what a listing gives. -/
  listed : getAll moment context table kind = ⟨.ok objects, context, table⟩
  /-- What is found under an identifier is the object of the list that carries it. -/
  found : ∀ oid object, get moment context table kind oid = ⟨.ok (some object), context, table⟩ ↔
    object ∈ objects ∧ kind.oid object = oid
  /-- Nothing is found under an identifier that no object of the list carries. -/
  absent : ∀ oid, get moment context table kind oid = ⟨.ok none, context, table⟩ ↔
    ∀ object ∈ objects, kind.oid object ≠ oid
  /-- An object that must be there is what is found, -/
  demanded : ∀ oid object, mustGet moment context table kind oid = ⟨.ok object, context, table⟩ ↔
    get moment context table kind oid = ⟨.ok (some object), context, table⟩
  /-- and it is missing where nothing is found. -/
  missing : ∀ oid,
    mustGet moment context table kind oid = ⟨.error (.notFound kind oid), context, table⟩ ↔
      get moment context table kind oid = ⟨.ok none, context, table⟩
  /-- A singleton is all of the list, -/
  single : kind.isSingleton = true → ∀ object,
    getSingleton moment context table kind = ⟨.ok object, context, table⟩ ↔ objects = [object]
  /-- and it is missing where the list is empty. -/
  nobody : kind.isSingleton = true →
    (getSingleton moment context table kind =
      ⟨.error (.singletonMissing kind), context, table⟩ ↔ objects = [])

variable {objects : List kind.Object}

theorem get_of_mem (unhindered : moment.Unhindered context) (holds : table.HoldsObjects)
    (reads : table.ReadsAs kind objects) {object : kind.Object} (present : object ∈ objects) :
    get moment context table kind (kind.oid object) = ⟨.ok (some object), context, table⟩ ∧
      mustGet moment context table kind (kind.oid object) = ⟨.ok object, context, table⟩ := by
  rw [get_eq unhindered, mustGet_eq unhindered]
  rcases reads.find?_cases holds (kind.oid object) with
    ⟨row, other, there, found, read, same⟩ | ⟨-, nowhere⟩
  · obtain rfl := reads.eq_of_oid_eq holds there present same
    simp only [found, read]
    exact ⟨rfl, rfl⟩
  · exact absurd rfl (nowhere object present)

theorem get_of_forall_ne (unhindered : moment.Unhindered context) (holds : table.HoldsObjects)
    (reads : table.ReadsAs kind objects) {oid : String}
    (nowhere : ∀ object ∈ objects, kind.oid object ≠ oid) :
    get moment context table kind oid = ⟨.ok none, context, table⟩ ∧
      mustGet moment context table kind oid =
        ⟨.error (.notFound kind oid), context, table⟩ := by
  rw [get_eq unhindered, mustGet_eq unhindered]
  rcases reads.find?_cases holds oid with ⟨row, object, there, -, -, same⟩ | ⟨missing, -⟩
  · exact absurd same (nowhere object there)
  · simp only [missing]
    exact ⟨rfl, rfl⟩

theorem getSingleton_of_reads (unhindered : moment.Unhindered context)
    (single : kind.isSingleton = true) (reads : table.ReadsAs kind objects) :
    getSingleton moment context table kind =
      ⟨match objects with
        | [] => .error (.singletonMissing kind)
        | object :: _ => .ok object, context, table⟩ := by
  rw [getSingleton_eq unhindered single]
  unfold Table.ReadsAs at reads
  cases rows : table.ofKind kind.name with
  | nil =>
      rw [rows] at reads
      cases objects with
      | nil => rfl
      | cons object rest => cases reads
  | cons row others =>
      rw [rows] at reads
      cases objects with
      | nil => cases reads
      | cons object rest => exact congrArg (unchanged context table) (List.cons.inj reads).1

/-- Under each identifier there is an object of the list, or nothing. -/
theorem get_cases (unhindered : moment.Unhindered context) (holds : table.HoldsObjects)
    (reads : table.ReadsAs kind objects) (oid : String) :
    (∃ object ∈ objects, kind.oid object = oid ∧
        get moment context table kind oid = ⟨.ok (some object), context, table⟩ ∧
        mustGet moment context table kind oid = ⟨.ok object, context, table⟩) ∨
      (∀ object ∈ objects, kind.oid object ≠ oid) ∧
        get moment context table kind oid = ⟨.ok none, context, table⟩ ∧
        mustGet moment context table kind oid = ⟨.error (.notFound kind oid), context, table⟩ := by
  rcases reads.find?_cases holds oid with ⟨row, object, there, -, -, rfl⟩ | ⟨-, nowhere⟩
  · exact .inl ⟨object, there, rfl, get_of_mem unhindered holds reads there⟩
  · exact .inr ⟨nowhere, get_of_forall_ne unhindered holds reads nowhere⟩

/-- Reading calls that nothing stands in the way of tell of the objects of the rows. -/
theorem tellOf_of_reads (unhindered : moment.Unhindered context) (holds : table.HoldsObjects)
    (reads : table.ReadsAs kind objects) : TellOf moment context table kind objects where
  listed := by
    rw [getAll_eq unhindered, (decodeRows_eq_ok_iff _ _).2 reads]
    rfl
  found oid object := by
    rcases get_cases unhindered holds reads oid with
      ⟨other, there, rfl, got, -⟩ | ⟨nowhere, got, -⟩ <;> rw [got]
    · simp only [Outcome.mk.injEq, Except.ok.injEq, Option.some.injEq, and_true]
      constructor
      · rintro rfl
        exact ⟨there, rfl⟩
      · rintro ⟨here, same⟩
        exact reads.eq_of_oid_eq holds there here same.symm
    · simp only [Outcome.mk.injEq, Except.ok.injEq, reduceCtorEq, false_and, false_iff, not_and]
      exact nowhere object
  absent oid := by
    rcases get_cases unhindered holds reads oid with
      ⟨other, there, same, got, -⟩ | ⟨nowhere, got, -⟩ <;> rw [got]
    · simp only [Outcome.mk.injEq, Except.ok.injEq, reduceCtorEq, false_and, false_iff]
      exact fun nowhere => nowhere other there same
    · exact iff_of_true rfl nowhere
  demanded oid object := by
    rcases get_cases unhindered holds reads oid with
      ⟨other, -, -, got, must⟩ | ⟨-, got, must⟩ <;> rw [got, must] <;> simp
  missing oid := by
    rcases get_cases unhindered holds reads oid with
      ⟨other, -, -, got, must⟩ | ⟨-, got, must⟩ <;> rw [got, must] <;> simp
  single alone object := by
    have few := reads.length_le_one holds alone
    rw [getSingleton_of_reads unhindered alone reads]
    cases objects with
    | nil => simp
    | cons first rest =>
        obtain rfl : rest = [] := List.eq_nil_of_length_eq_zero (by simpa using few)
        simp
  nobody alone := by
    rw [getSingleton_of_reads unhindered alone reads]
    cases objects <;> simp

end Store

/-- The reading calls agree, and they tell of the objects in the order of their creation.

Take any calls on a store that began empty, and a kind all of whose rows can be read. Then there is
one list that all reading calls of the kind tell of, at any moment that nothing stands in the way
of. It holds the created objects in the order of the log, each once, and each as it was written
last. Whatever calls follow, the list keeps its order and grows at its end, with the objects that
they create; calls that fail create none, nor do calls that only write or read. And reading calls
change neither a row nor a context, whether they succeed or fail. -/
theorem reading_calls_tell_of_one_list (contexts : Nat → Context) (turns : List Turn) (kind : Kind)
    (readable : (SharedStore.playAll ⟨contexts, .empty⟩ turns).table.Readable) :
    let start : SharedStore := ⟨contexts, .empty⟩
    let shared := start.playAll turns
    (∃ objects : List kind.Object,
      (∀ (moment : Moment) (context : Context), moment.Unhindered context →
        Store.TellOf moment context shared.table kind objects) ∧
      objects.map kind.oid = createdOids kind (start.log turns) ∧ (objects.map kind.oid).Nodup ∧
      (∀ object ∈ objects, ∃ write,
        (writesTo kind (kind.oid object) (start.log turns)).getLast? = some write ∧
          kind.ofRow write.row = .ok object ∧ kind.version object = write.row.version) ∧
      ∀ (later : List Turn) (listed : List kind.Object),
        (shared.playAll later).table.ReadsAs kind listed →
          listed.map kind.oid = objects.map kind.oid ++ createdOids kind (shared.log later)) ∧
    (∀ (turn : Turn) (other : SharedStore),
      ((turn.outcome other).result.isOk = true → turn.call.isCreation = false) →
        createdOids kind (turn.writes other) = []) ∧
    ∀ (call : StoreCall) (moment : Moment) (context : Context), call.isReading = true →
      (call.run moment context shared.table).context = context ∧
        (call.run moment context shared.table).table = shared.table := by
  intro start shared
  have reached : shared.table.Reached := SharedStore.reached_playAll .empty turns
  have holds := reached.holdsObjects
  have all : Table.Writes .empty (start.log turns) shared.table := start.log_takes turns
  obtain ⟨objects, reads⟩ := readable.exists_readsAs kind
  refine ⟨⟨objects, fun moment context unhindered => Store.tellOf_of_reads unhindered holds reads,
    ?_, ?_, ?_, ?_⟩, fun turn other creates => Turn.createdOids_writes creates kind,
    fun call moment context reading => call.run_of_isReading reading moment context shared.table⟩
  · rw [reads.map_oid holds, all.oids_ofKind]
    rfl
  · rw [reads.map_oid holds]
    exact shared.table.nodup_oids_ofKind kind.name
  · intro object present
    obtain ⟨row, there, read⟩ := reads.mem_iff.1 present
    obtain ⟨sameOid, sameVersion⟩ := holds.of_ofKind there read
    have last := all.find?_of_getLast? kind row.oid
    rw [Table.mem_ofKind_iff.1 there, ← sameOid] at last
    cases ended : (writesTo kind (kind.oid object) (start.log turns)).getLast? with
    | none =>
        rw [ended] at last
        cases last
    | some write =>
        rw [ended, Option.some.injEq] at last
        exact ⟨write, rfl, last ▸ read, last ▸ sameVersion⟩
  · intro later listed after
    have holdsLater := (SharedStore.reached_playAll reached later).holdsObjects
    rw [after.map_oid holdsLater, reads.map_oid holds, (shared.log_takes later).oids_ofKind]

/-- Of two tabs the older one is renamed, and then there is a block as well. The renamed tab stays
the first in the list, and no tab is found under the identifier of the block. -/
theorem a_renamed_tab_keeps_its_place :
    let creation (owner : Nat) (oid : String) : Turn :=
      ⟨owner, .quiet 0, .create .tab (Tab.new oid "Main")⟩
    let renamed : Tab := ⟨"u", 1, "Renamed", [], .empty⟩
    let block : Block := ⟨"v", 1, .empty⟩
    let turns : List Turn := [creation 0 "u", creation 1 "t", ⟨2, .quiet 0, .update .tab renamed⟩,
      ⟨3, .quiet 0, .create .block block⟩]
    let table := (SharedStore.playAll ⟨fun _ => ⟨1, none⟩, .empty⟩ turns).table
    table.Readable ∧ table.find? Kind.block.name "v" = some (Kind.block.toRow block) ∧
      ∃ objects : List Tab, objects.map Tab.oid = ["u", "t"] ∧
        Store.getAll (.quiet 0) ⟨1, none⟩ table .tab = ⟨.ok objects, ⟨1, none⟩, table⟩ ∧
        Store.get (.quiet 0) ⟨1, none⟩ table .tab "v" = ⟨.ok none, ⟨1, none⟩, table⟩ := by
  intro creation renamed block turns table
  have rows : table.rows = [Kind.tab.toRow ⟨"u", 2, "Renamed", [], .empty⟩,
      Kind.tab.toRow ⟨"t", 1, "Main", [], .empty⟩, Kind.block.toRow block] := rfl
  have readable : table.Readable := by
    apply Table.readable_of_rows
    intro row there
    rw [rows] at there
    simp only [List.mem_cons, List.not_mem_nil, or_false] at there
    rcases there with rfl | rfl | rfl
    · exact ⟨.tab, _, rfl, Kind.tab.ofRow_toRow Meta.withinLimits_empty⟩
    · exact ⟨.tab, _, rfl, Kind.tab.ofRow_toRow Meta.withinLimits_empty⟩
    · exact ⟨.block, _, rfl, Kind.block.ofRow_toRow Meta.withinLimits_empty⟩
  obtain ⟨⟨objects, tells, created, -⟩, -⟩ :=
    reading_calls_tell_of_one_list (fun _ => ⟨1, none⟩) turns .tab readable
  have oids : objects.map Tab.oid = ["u", "t"] := created
  have tell := tells (.quiet 0) ⟨1, none⟩ ⟨rfl, rfl, fun _ _ => rfl⟩
  refine ⟨readable, rfl, objects, oids, tell.listed, (tell.absent "v").2 ?_⟩
  intro object present same
  have there := List.mem_map_of_mem (f := Tab.oid) present
  rw [oids, show Tab.oid object = "v" from same] at there
  exact absurd there (by decide)

end Workbench
