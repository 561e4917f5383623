/-
# The journals of many contexts

Each context keeps a journal of its own writes, and no context sees the journal of another. Still
the journals fit together: every write is recorded once, by the context that made it, so all
journals together are the log of the store in another order. What the log says about a row
is therefore said by the journals, and the versions in the records tell the order again.

A journal on its own is a part of the log with its order kept.
-/

import Mathlib.Data.List.Perm.Basic
import Workbench.Proofs.Store.Turns

namespace Workbench

/-! ## What records say -/

namespace UpdateRecord

/-- Whether a record is about the object under a key. -/
def isOf (kind : Kind) (oid : String) (record : UpdateRecord) : Bool :=
  record.kind = kind && record.oid = oid

/-- The version in the object of a record. -/
def version? (record : UpdateRecord) : Option Int64 :=
  (record.objectAs? record.kind).map record.kind.version

end UpdateRecord

namespace RowWrite

@[simp]
theorem isOf_record (kind : Kind) (oid : String) (write : RowWrite) :
    write.record.isOf kind oid = write.isTo kind oid := rfl

/-- The record of a write has the version of the row that was written. -/
@[simp]
theorem version?_record (write : RowWrite) : write.record.version? = some write.row.version :=
  congrArg (Option.map write.kind.version)
    (UpdateRecord.objectAs?_ofObject write.updateType write.kind write.object)

/-- The record of a write to a row holds the object of that row. -/
theorem objectAs?_record {kind : Kind} {oid : String} {write : RowWrite}
    (here : write.isTo kind oid = true) :
    ∃ object : kind.Object, write.record.objectAs? kind = some object ∧
      write.row = kind.toRow object := by
  obtain ⟨updateType, other, object⟩ := write
  have kinds : other = kind := by
    rw [isTo, Bool.and_eq_true, decide_eq_true_iff] at here
    exact here.1
  subst kinds
  exact ⟨object, UpdateRecord.objectAs?_ofObject updateType other object, rfl⟩

end RowWrite

/-- The records of a key are those of the writes to its row. -/
theorem filter_isOf_records (kind : Kind) (oid : String) (writes : List RowWrite) :
    (writes.map RowWrite.record).filter (UpdateRecord.isOf kind oid) =
      (writesTo kind oid writes).map RowWrite.record := by
  rw [List.filter_map, writesTo]
  rfl

/-! ## The versions of a row -/

namespace Table.Writes

variable {before after : Table} {writes : List RowWrite} {kind : Kind} {oid : String}

/-- A row that was written is as it was written last. -/
theorem find?_of_getLast? (all : Table.Writes before writes after) (kind : Kind) (oid : String) :
    after.find? kind.name oid =
      match (writesTo kind oid writes).getLast? with
      | some write => some write.row
      | Option.none => before.find? kind.name oid := by
  induction all with
  | none table => rfl
  | @more before between after write rest takes others ih =>
      rw [ih]
      cases here : write.isTo kind oid with
      | false => rw [writesTo_cons_of_not rest here, takes.find?_of_not here]
      | true =>
          rw [writesTo_cons_of_isTo rest here, List.getLast?_cons, takes.find?_of_isTo here]
          cases (writesTo kind oid rest).getLast? <;> rfl

/-- The versions of a row that was there go up by one with each write. -/
theorem versions_of_present (all : Table.Writes before writes after) {row : Row}
    (present : before.find? kind.name oid = some row) :
    (writesTo kind oid writes).map (fun write => write.row.version) =
      (List.range (writesTo kind oid writes).length).map
        fun earlier => row.version + Int64.ofNat (earlier + 1) := by
  induction all generalizing row with
  | none table => rfl
  | @more before between after write rest takes _ ih =>
      cases here : write.isTo kind oid with
      | false =>
          rw [writesTo_cons_of_not rest here]
          exact ih ((takes.find?_of_not here).trans present)
      | true =>
          obtain ⟨-, raised⟩ := takes.updated_of_present here present
          rw [writesTo_cons_of_isTo rest here, List.map_cons, ih (takes.find?_of_isTo here),
            List.length_cons, List.range_succ_eq_map, List.map_cons, List.map_map, raised]
          congr 1
          apply List.map_congr_left
          intro earlier _
          rw [Function.comp_apply, Int64.add_assoc, Int64.ofNat_add (earlier + 1) 1, Int64.add_comm 1]
          rfl

/-- The versions of a row that was not there are one, two, and so on. -/
theorem versions_of_absent (all : Table.Writes before writes after)
    (absent : before.find? kind.name oid = Option.none) :
    (writesTo kind oid writes).map (fun write => write.row.version) =
      (List.range (writesTo kind oid writes).length).map
        fun earlier => Int64.ofNat (earlier + 1) := by
  induction all with
  | none table => rfl
  | @more before between after write rest takes others ih =>
      cases here : write.isTo kind oid with
      | false =>
          rw [writesTo_cons_of_not rest here]
          exact ih ((takes.find?_of_not here).trans absent)
      | true =>
          obtain ⟨-, first⟩ := takes.created_of_absent here absent
          rw [writesTo_cons_of_isTo rest here, List.map_cons,
            others.versions_of_present (takes.find?_of_isTo here), List.length_cons,
            List.range_succ_eq_map, List.map_cons, List.map_map, first]
          congr 1
          apply List.map_congr_left
          intro earlier _
          rw [Function.comp_apply, Int64.ofNat_add (earlier + 1) 1, Int64.add_comm]
          rfl

end Table.Writes

/-! ## Who wrote what -/

/-- Whether a call only looks. -/
def StoreCall.isReading : StoreCall → Bool
  | get _ _ => true
  | mustGet _ _ => true
  | getSingleton _ => true
  | getAll _ => true
  | _ => false

namespace Turn

variable (turn : Turn) (shared : SharedStore)

theorem writes_of_isReading (reading : turn.call.isReading = true) : turn.writes shared = [] := by
  obtain ⟨owner, moment, call⟩ := turn
  unfold writes
  generalize outcome ⟨owner, moment, call⟩ shared = outcome
  obtain ⟨result, context, table⟩ := outcome
  cases result with
  | error problem => rfl
  | ok value => cases call <;> first | rfl | cases reading

/-- A turn adds the records of its writes to the journal of the context whose turn it is. -/
theorem contexts_play (owner : Nat) :
    (turn.play shared).contexts owner =
      if turn.owner = owner then
        (shared.contexts owner).recordAll ((turn.writes shared).map RowWrite.record)
      else shared.contexts owner := by
  simp only [play]
  by_cases here : owner = turn.owner
  · subst here
    rw [if_pos rfl, if_pos rfl]
    have ended := turn.call.ends turn.moment (shared.contexts turn.owner) shared.table
    unfold writes outcome
    generalize turn.call.run turn.moment (shared.contexts turn.owner) shared.table = outcome
      at ended
    cases ended with
    | failed problem => rfl
    | succeeded value after writes => rfl
  · rw [if_neg here, if_neg (Ne.symm here)]

end Turn

/-- Of a list without repetitions only one element is the given one. -/
theorem flatMap_ite_of_mem {α : Type} {owners : List Nat} (distinct : owners.Nodup) {owner : Nat}
    (there : owner ∈ owners) (values : List α) :
    (owners.flatMap fun other => if owner = other then values else []) = values := by
  induction owners with
  | nil => cases there
  | cons first others ih =>
      obtain ⟨alone, distinctOthers⟩ := List.nodup_cons.1 distinct
      rw [List.flatMap_cons]
      by_cases same : owner = first
      · have nothing : (others.flatMap fun other => if owner = other then values else []) = [] := by
          rw [List.flatMap_eq_nil_iff]
          intro other later
          apply if_neg
          rintro rfl
          exact alone (same ▸ later)
        rw [nothing, if_pos same, List.append_nil]
      · rw [if_neg same, List.nil_append]
        exact ih distinctOthers ((List.mem_cons.1 there).resolve_left same)

namespace SharedStore

/-- The rows that one context wrote in several turns, in order. -/
def logOf (owner : Nat) (shared : SharedStore) : List Turn → List RowWrite
  | [] => []
  | turn :: rest =>
      (if turn.owner = owner then turn.writes shared else []) ++ (turn.play shared).logOf owner rest

variable (shared : SharedStore) (turns : List Turn) (owner : Nat)

/-- What one context wrote is part of the log, in the same order. -/
theorem logOf_sublist : (shared.logOf owner turns).Sublist (shared.log turns) := by
  induction turns generalizing shared with
  | nil => exact List.Sublist.refl []
  | cons turn rest ih =>
      rw [logOf, log]
      refine List.Sublist.append ?_ (ih (turn.play shared))
      split
      · exact List.Sublist.refl _
      · exact List.nil_sublist _

/-- What everyone wrote is the log in another order. -/
theorem flatMap_logOf_perm {owners : List Nat} (distinct : owners.Nodup)
    (everyone : ∀ turn ∈ turns, turn.owner ∈ owners) :
    (owners.flatMap fun owner => shared.logOf owner turns).Perm (shared.log turns) := by
  induction turns generalizing shared with
  | nil => simp [logOf, log]
  | cons turn rest ih =>
      simp only [logOf]
      refine (List.flatMap_append_perm owners _ _).symm.trans ?_
      rw [flatMap_ite_of_mem distinct (everyone turn List.mem_cons_self), log]
      exact List.Perm.append_left _
        (ih (turn.play shared) fun later there => everyone later (List.mem_cons_of_mem turn there))

/-- A context has the journal that it had, and behind it the records of what it wrote. -/
theorem journal_playAll :
    ((shared.playAll turns).contexts owner).journal =
      (shared.contexts owner).journal.map
        (· ++ (shared.logOf owner turns).map RowWrite.record) := by
  induction turns generalizing shared with
  | nil =>
      rw [playAll, List.foldl_nil, logOf, List.map_nil]
      cases (shared.contexts owner).journal <;> simp
  | cons turn rest ih =>
      have later : shared.playAll (turn :: rest) = (turn.play shared).playAll rest := rfl
      rw [later, ih, turn.contexts_play shared owner, logOf]
      split
      · rw [Context.journal_recordAll, Option.map_map, List.map_append]
        congr 1
        funext earlier
        simp
      · rw [List.nil_append]

/-- A context that only looks writes nothing. -/
theorem logOf_eq_nil (reading : ∀ turn ∈ turns, turn.owner = owner → turn.call.isReading = true) :
    shared.logOf owner turns = [] := by
  induction turns generalizing shared with
  | nil => rfl
  | cons turn rest ih =>
      rw [logOf, ih (turn.play shared) fun later there => reading later (.tail turn there),
        List.append_nil]
      split
      · exact turn.writes_of_isReading shared (reading turn List.mem_cons_self ‹_›)
      · rfl

/-- The batch of a context is what it wrote, if it began with an empty journal, or if it had none
and only looked. -/
theorem batch_playAll (fresh : (shared.contexts owner).batch = [])
    (journaled : ∀ turn ∈ turns, turn.owner = owner →
      turn.call.isReading = true ∨ (shared.contexts owner).hasJournal = true) :
    ((shared.playAll turns).contexts owner).batch =
      (shared.logOf owner turns).map RowWrite.record := by
  rw [Context.batch, journal_playAll]
  unfold Context.batch Context.hasJournal at *
  cases journal : (shared.contexts owner).journal with
  | none =>
      rw [journal] at journaled
      rw [logOf_eq_nil]
      · rfl
      · intro turn there own
        exact (journaled turn there own).resolve_right Bool.false_ne_true
  | some earlier =>
      rw [journal, Option.getD_some] at fresh
      subst fresh
      rfl

end SharedStore

/-! ## All writes to a row -/

/-- Small counts are in the order of their words. -/
theorem ofNat_lt_ofNat {first second : Nat} (small : second < 2 ^ 63) (less : first < second) :
    Int64.ofNat first < Int64.ofNat second := by
  rw [Int64.lt_iff_toInt_lt, Int64.toInt_ofNat_of_lt (less.trans small),
    Int64.toInt_ofNat_of_lt small]
  exact Int.ofNat_lt.2 less

/-- The words of small counts from one on increase. -/
theorem pairwise_lt_words {count : Nat} (small : count < 2 ^ 63) :
    ((List.range count).map fun earlier => Int64.ofNat (earlier + 1)).Pairwise (· < ·) := by
  rw [List.pairwise_map]
  refine List.pairwise_lt_range.imp_of_mem fun _ later less => ?_
  exact ofNat_lt_ofNat (by have := List.mem_range.1 later; omega) (Nat.succ_lt_succ less)

/-- The writes that a row came from, in order. The first of them created it. -/
structure RowHistory (kind : Kind) (oid : String) (row : Row) (history : List RowWrite) : Prop where
  isTo : ∀ write ∈ history, write.isTo kind oid = true
  versions : history.map (fun write => write.row.version) =
    (List.range history.length).map fun earlier => Int64.ofNat (earlier + 1)
  first : ∃ creation later, history = creation :: later ∧ creation.updateType = .created ∧
    ∀ write ∈ later, write.updateType = .updated
  last : ∃ earlier change, history = earlier ++ [change] ∧ change.row = row

/-- Every row of a store that was empty once has a history. -/
theorem Table.Writes.rowHistory {before after : Table} {writes : List RowWrite} {kind : Kind}
    {oid : String} {row : Row} (all : Table.Writes before writes after)
    (absent : before.find? kind.name oid = Option.none)
    (present : after.find? kind.name oid = some row) :
    RowHistory kind oid row (writesTo kind oid writes) := by
  have latest := all.find?_of_getLast? kind oid
  have counted := all.version_of_absent absent
  refine ⟨fun write there => (List.mem_filter.1 there).2, all.versions_of_absent absent, ?_, ?_⟩
  · cases history : writesTo kind oid writes with
    | nil =>
        rw [history] at counted
        cases counted.symm.trans present
    | cons creation later =>
        rw [history] at counted
        exact ⟨creation, later, rfl, counted.1, counted.2.1⟩
  · rcases List.eq_nil_or_concat' (writesTo kind oid writes) with nothing | ⟨earlier, change, split⟩
    · rw [nothing, present] at latest
      cases latest.trans absent
    · rw [split, present, List.getLast?_concat] at latest
      exact ⟨earlier, change, split, (Option.some.inj latest).symm⟩

namespace RowHistory

variable {kind : Kind} {oid : String} {row : Row} {history : List RowWrite}
  (told : RowHistory kind oid row history)

include told

theorem length_pos : 0 < history.length := by
  obtain ⟨creation, later, split, -⟩ := told.first
  rw [split]
  exact Nat.zero_lt_succ _

/-- The version of the row is the number of writes. -/
theorem version_eq : row.version = Int64.ofNat history.length := by
  obtain ⟨earlier, change, split, same⟩ := told.last
  have versions := congrArg List.getLast? told.versions
  rw [split, List.map_append, List.map_singleton, List.getLast?_concat, List.length_append,
    List.length_singleton, List.range_succ, List.map_append, List.map_singleton,
    List.getLast?_concat, Option.some.injEq, same] at versions
  rw [versions, split, List.length_append, List.length_singleton]

/-- The versions of several writes to a row increase, if there are not too many. -/
theorem pairwise_lt (small : history.length < 2 ^ 63) :
    (history.map fun write => write.row.version).Pairwise (· < ·) := by
  rw [told.versions]
  exact pairwise_lt_words small

/-- A write is known by its version, if there are not too many. -/
theorem eq_of_version_eq (small : history.length < 2 ^ 63) {first second : RowWrite}
    (here : first ∈ history) (there : second ∈ history)
    (same : first.row.version = second.row.version) : first = second := by
  have distinct := (told.pairwise_lt small).imp fun less => Int64.ne_of_lt less
  exact List.inj_on_of_nodup_map distinct here there same

/-- Just the first write was a creation. -/
theorem updateType_eq (small : history.length < 2 ^ 63) {write : RowWrite}
    (there : write ∈ history) :
    write.updateType = if write.row.version = 1 then .created else .updated := by
  obtain ⟨creation, later, split, created, updated⟩ := told.first
  have one : creation.row.version = 1 := by
    have versions := told.versions
    rw [split, List.length_cons, List.range_succ_eq_map, List.map_cons, List.map_cons] at versions
    exact (List.cons.inj versions).1
  have begins : creation ∈ history := split ▸ List.mem_cons_self
  by_cases first : write.row.version = 1
  · rw [if_pos first, told.eq_of_version_eq small there begins (first.trans one.symm)]
    exact created
  · rw [if_neg first]
    rw [split] at there
    rcases List.mem_cons.1 there with rfl | after
    · exact absurd one first
    · exact updated write after

/-- The last write left the row. -/
theorem row_eq (small : history.length < 2 ^ 63) {write : RowWrite} (there : write ∈ history)
    (current : write.row.version = row.version) : write.row = row := by
  obtain ⟨earlier, change, split, same⟩ := told.last
  have ends : change ∈ history := by
    rw [split]
    exact List.mem_append_right _ (List.mem_singleton_self change)
  rw [told.eq_of_version_eq small there ends (by rw [current, same]), same]

end RowHistory

/-! ## The law -/

/-- Journals of many contexts fit together. Contexts begin with empty journals on an empty store
and take their turns in any order; who has no journal only looks. Then every record is about a
row that is there. Take all records of a row, from all the journals: their versions are one,
two, and so on up to the version of the row, each of them once. As long as there are fewer of
them than words, just the first is of a creation, the last holds the very object that is
stored, and within each journal the versions increase. -/
theorem journals_fit_together (contexts : Nat → Context) (turns : List Turn) (owners : List Nat)
    (distinct : owners.Nodup) (everyone : ∀ turn ∈ turns, turn.owner ∈ owners)
    (fresh : ∀ owner, (contexts owner).batch = [])
    (journaled : ∀ turn ∈ turns,
      turn.call.isReading = true ∨ (contexts turn.owner).hasJournal = true) :
    let shared := SharedStore.playAll ⟨contexts, .empty⟩ turns
    let journal (owner : Nat) : UpdateBatch := (shared.contexts owner).batch
    (∀ owner, ∀ record ∈ journal owner,
      (shared.table.find? record.kind.name record.oid).isSome = true) ∧
    ∀ (kind : Kind) (oid : String) (row : Row), shared.table.find? kind.name oid = some row →
      let records := (owners.flatMap journal).filter (UpdateRecord.isOf kind oid)
      0 < records.length ∧ row.version = Int64.ofNat records.length ∧
      (records.map UpdateRecord.version?).Perm
        ((List.range records.length).map fun earlier => some (Int64.ofNat (earlier + 1))) ∧
      (records.length < 2 ^ 63 →
        row.version.toInt = records.length ∧
        (∀ record ∈ records, record.updateType =
          if record.version? = some 1 then .created else .updated) ∧
        (∀ record ∈ records, record.version? = some row.version →
          ∃ object, record.objectAs? kind = some object ∧ row = kind.toRow object) ∧
        ∀ owner, (((journal owner).filter (UpdateRecord.isOf kind oid)).map
          UpdateRecord.version?).Pairwise (· < ·)) := by
  intro shared journal
  let start : SharedStore := ⟨contexts, .empty⟩
  have all : Table.Writes .empty (start.log turns) shared.table := start.log_takes turns
  have batches (owner : Nat) : journal owner = (start.logOf owner turns).map RowWrite.record :=
    start.batch_playAll turns owner (fresh owner) fun turn there own => own ▸ journaled turn there
  have recordsOf (kind : Kind) (oid : String) :
      ((owners.flatMap journal).filter (UpdateRecord.isOf kind oid)).Perm
        ((writesTo kind oid (start.log turns)).map RowWrite.record) := by
    rw [← filter_isOf_records, funext batches, ← List.map_flatMap]
    exact ((start.flatMap_logOf_perm turns distinct everyone).map _).filter _
  constructor
  · intro owner record recorded
    rw [batches] at recorded
    obtain ⟨write, written, rfl⟩ := List.mem_map.1 recorded
    have logged := (start.logOf_sublist turns owner).subset written
    have here : write.isTo write.kind (write.kind.oid write.object) = true := by simp [RowWrite.isTo]
    have latest := all.find?_of_getLast? write.kind (write.kind.oid write.object)
    have some : write ∈ writesTo write.kind (write.kind.oid write.object) (start.log turns) :=
      List.mem_filter.2 ⟨logged, here⟩
    show (shared.table.find? write.kind.name (write.kind.oid write.object)).isSome = true
    rw [latest, List.getLast?_eq_some_getLast (List.ne_nil_of_mem some)]
    rfl
  intro kind oid row present records
  have told := all.rowHistory rfl present
  have perm := recordsOf kind oid
  have length : records.length = (writesTo kind oid (start.log turns)).length :=
    perm.length_eq.trans (List.length_map _)
  rw [length]
  refine ⟨told.length_pos, told.version_eq, ?_, fun small => ⟨?_, ?_, ?_, ?_⟩⟩
  · refine (perm.map UpdateRecord.version?).trans ?_
    have versions := congrArg (List.map Option.some) told.versions
    rw [List.map_map, List.map_map] at versions
    rw [List.map_map]
    exact List.Perm.of_eq ((List.map_congr_left fun write _ => write.version?_record).trans versions)
  · rw [told.version_eq, Int64.toInt_ofNat_of_lt small]
  · intro record recorded
    obtain ⟨write, there, rfl⟩ := List.mem_map.1 (perm.mem_iff.1 recorded)
    simp only [write.version?_record, Option.some.injEq]
    exact told.updateType_eq small there
  · intro record recorded current
    obtain ⟨write, there, rfl⟩ := List.mem_map.1 (perm.mem_iff.1 recorded)
    rw [write.version?_record, Option.some.injEq] at current
    obtain ⟨object, held, same⟩ := RowWrite.objectAs?_record (told.isTo write there)
    exact ⟨object, held, (told.row_eq small there current).symm.trans same⟩
  · intro owner
    rw [batches, filter_isOf_records, List.map_map]
    have part := ((start.logOf_sublist turns owner).filter (RowWrite.isTo kind oid)).map
      fun write => write.row.version
    have increase := (told.pairwise_lt small).sublist part
    rw [List.pairwise_map] at increase ⊢
    exact increase.imp fun less => by simpa using less

/-- One context creates a tab, another one puts a block into it, and the first cannot rename the
tab from its stale copy; a third context only looks. Each of the first two journals has one record
of the tab. -/
theorem two_journals_tell_one_history :
    let contexts (owner : Nat) : Context := ⟨1, if owner = 2 then none else some []⟩
    let turns : List Turn :=
      [⟨0, .quiet 0, .create .tab (Tab.new "t" "Main")⟩,
        ⟨1, .quiet 0, .modify .tab "t" fun tab => (Tab.addBlock tab "a", true)⟩,
        ⟨0, .quiet 0, .update .tab ⟨"t", 1, "Stale", [], .empty⟩⟩,
        ⟨2, .quiet 0, .get .tab "t"⟩]
    let shared := SharedStore.playAll ⟨contexts, .empty⟩ turns
    let journal (owner : Nat) : UpdateBatch := (shared.contexts owner).batch
    let records := ([2, 1, 0].flatMap journal).filter (UpdateRecord.isOf .tab "t")
    (journal 0).length = 1 ∧ (journal 1).length = 1 ∧
      (records.map UpdateRecord.version?).Perm [some 1, some 2] ∧
      ∀ record ∈ records, record.version? = some 2 →
        ∃ object, record.objectAs? .tab = some object ∧
          Kind.tab.toRow ⟨"t", 2, "Main", ["a"], .empty⟩ = Kind.tab.toRow object := by
  intro contexts turns shared journal records
  have fresh : ∀ owner, (contexts owner).batch = [] := by
    intro owner
    show (if owner = 2 then none else some []).getD [] = ([] : UpdateBatch)
    split <;> rfl
  have present : shared.table.find? Kind.tab.name "t" =
      some (Kind.tab.toRow ⟨"t", 2, "Main", ["a"], .empty⟩) := by decide +kernel
  have two : records.length = 2 := by decide +kernel
  obtain ⟨-, each⟩ := journals_fit_together contexts turns [2, 1, 0] (by decide) (by decide) fresh
    (by decide)
  obtain ⟨-, -, versions, told⟩ := each .tab "t" _ present
  have small : records.length < 2 ^ 63 := by
    rw [two]
    decide
  obtain ⟨-, -, last, -⟩ := told small
  refine ⟨by decide +kernel, by decide +kernel, ?_, last⟩
  have words : ((List.range records.length).map fun earlier => some (Int64.ofNat (earlier + 1))) =
      [some 1, some 2] := by rw [two]; rfl
  exact words ▸ versions

end Workbench
