/-
# The shape of the rows

A row says some things twice: its identifier and its version stand in columns of their own and
again in the text of the object. Nothing but the store keeps them in step. Callers may pass
any object, and an edit may change the identifier and the version of the object that it is
given, so the row that is written need not be the row that was read.

Whatever is passed, one call adds at most one row, behind all others, and raises at most one
of the rows that were there. Versions are words of 64 bits, and a row with the largest of them
must not be written to again; this is the only thing that is asked of a run.
-/

import Workbench.Proofs.Store.Turns

namespace Workbench

/-! ## What one call may do -/

/-- The rows are the same, or one of them was written to and has the next version. -/
inductive Raised : List Row → List Row → Prop where
  | none (rows : List Row) : Raised rows rows
  | one (front back : List Row) {old new : Row} : new.key = old.key →
      new.version.toInt = old.version.toInt + 1 →
      Raised (front ++ old :: back) (front ++ new :: back)

/-- All rows keep their places and their keys, at most one of them is raised, and at most one
row is added behind them. -/
def Table.StepsTo (before after : Table) : Prop :=
  ∃ kept added, after.rows = kept ++ added ∧ Raised before.rows kept ∧ added.length ≤ 1 ∧
    ∀ row ∈ added, 1 ≤ row.version.toInt

namespace Table.StepsTo

variable {before after : Table} {kept : List Row}

theorem of_raised (raised : Raised before.rows kept) (rows : after.rows = kept) :
    before.StepsTo after :=
  ⟨kept, [], rows.trans (List.append_nil _).symm, raised, Nat.zero_le 1,
    fun _ impossible => absurd impossible List.not_mem_nil⟩

theorem of_added {row : Row} (raised : Raised before.rows kept)
    (rows : after.rows = kept ++ [row]) (positive : 1 ≤ row.version.toInt) :
    before.StepsTo after :=
  ⟨kept, [row], rows, raised, Nat.le_refl 1, fun _ there => List.mem_singleton.1 there ▸ positive⟩

end Table.StepsTo

/-- No version is raised past the largest word: a row that has it is left alone. -/
def Turn.InRange (turn : Turn) (shared : SharedStore) : Prop :=
  ∀ row ∈ shared.table.rows, row.version = Int64.maxValue → row ∈ (turn.play shared).table.rows

/-- No version is raised past the largest word in any of several turns. -/
def SharedStore.InRange (shared : SharedStore) : List Turn → Prop
  | [] => True
  | turn :: rest => turn.InRange shared ∧ (turn.play shared).InRange rest

theorem toInt_add_one {version : Int64} (below : version ≠ Int64.maxValue) :
    (version + 1).toInt = version.toInt + 1 := by
  have apart : version.toInt ≠ Int64.maxValue.toInt := fun same => below (Int64.toInt_inj.1 same)
  have low := Int64.le_toInt version
  have high := Int64.toInt_lt version
  rw [Int64.toInt_maxValue] at apart
  rw [Int64.toInt_add, Int64.toInt_one]
  exact Int.bmod_eq_of_le (by omega) (by omega)

/-! ## Single writes -/

namespace RowWrite.Takes

variable {before after : Table} {kind : Kind} {object : kind.Object}

/-- A created row comes behind all others, with version one. -/
theorem rows_of_created (takes : Takes before ⟨.created, kind, object⟩ after) :
    after.rows = before.rows ++ [kind.toRow object] ∧ (kind.toRow object).version = 1 := by
  cases takes with
  | created first alone inserted => exact ⟨(Table.insert?_eq_some_iff.1 inserted).2, first⟩

/-- A changed row takes the place of the row with its key and the version below. -/
theorem rows_of_updated (takes : Takes before ⟨.updated, kind, object⟩ after) :
    ∃ front old back, before.rows = front ++ old :: back ∧
      after.rows = front ++ kind.toRow object :: back ∧ (kind.toRow object).key = old.key ∧
      (kind.toRow object).version = old.version + 1 := by
  cases takes with
  | updated expected raised swapped =>
      obtain ⟨⟨old, found, fits⟩, rfl⟩ := Table.replace?_eq_some_iff.1 swapped
      obtain ⟨front, back, split, rows⟩ := Table.rows_overwrite_of_find? found
        (kind.version object) (kind.objectCodec.encode object)
      have key := (Table.find?_eq_some_iff.1 found).2
      exact ⟨front, old, back, split, rows, key.symm, fits ▸ raised⟩

/-- A change moves no row. -/
theorem keys_of_updated (takes : Takes before ⟨.updated, kind, object⟩ after) :
    after.rows.map Row.key = before.rows.map Row.key := by
  obtain ⟨front, old, back, split, rows, key, -⟩ := takes.rows_of_updated
  rw [split, rows, List.map_append, List.map_append, List.map_cons, List.map_cons, key]

/-- No row is removed or moved. -/
theorem keys_extend {write : RowWrite} (takes : write.Takes before after) :
    before.rows.map Row.key <+: after.rows.map Row.key := by
  obtain ⟨updateType, kind, object⟩ := write
  cases updateType with
  | created =>
      rw [takes.rows_of_created.1, List.map_append]
      exact List.prefix_append _ _
  | updated => exact takes.keys_of_updated.symm ▸ List.prefix_refl _
  | deleted => cases takes

end RowWrite.Takes

theorem Table.Writes.keys_extend {before after : Table} {writes : List RowWrite}
    (all : Table.Writes before writes after) :
    before.rows.map Row.key <+: after.rows.map Row.key := by
  induction all with
  | none table => exact List.prefix_refl _
  | more takes _ ih => exact takes.keys_extend.trans ih

/-- A row that was raised has the next version, if rows with the largest one are left alone. -/
theorem toInt_version_of_raised {after : Table} {old new : Row} (there : new ∈ after.rows)
    (key : new.key = old.key) (raised : new.version = old.version + 1)
    (spared : old.version = Int64.maxValue → old ∈ after.rows) :
    new.version.toInt = old.version.toInt + 1 := by
  rw [raised]
  apply toInt_add_one
  intro largest
  have same := Table.eq_of_key_eq there (spared largest) key
  rw [same, largest] at raised
  exact absurd raised (by decide)

/-! ## Single calls -/

/-- A call writes nothing, creates a row, changes a row, or creates a row and then changes
one. -/
theorem Turn.writes_cases (turn : Turn) (shared : SharedStore) :
    turn.writes shared = [] ∨
      (∃ (kind : Kind) (object : kind.Object),
        turn.writes shared = [⟨.created, kind, object⟩]) ∨
      (∃ (kind : Kind) (object : kind.Object),
        turn.writes shared = [⟨.updated, kind, object⟩]) ∨
      ∃ (child parent : Kind) (object : child.Object) (owner : parent.Object),
        turn.writes shared = [⟨.created, child, object⟩, ⟨.updated, parent, owner⟩] := by
  obtain ⟨owner, moment, call⟩ := turn
  unfold writes
  generalize outcome ⟨owner, moment, call⟩ shared = outcome
  obtain ⟨result, context, table⟩ := outcome
  cases result with
  | error problem => exact .inl rfl
  | ok value =>
      cases call with
      | create kind object => exact .inr (.inl ⟨kind, value, rfl⟩)
      | createAttached child parent object parentOid edit =>
          exact .inr (.inr (.inr ⟨child, parent, value.1, value.2, rfl⟩))
      | update kind object => exact .inr (.inr (.inl ⟨kind, value, rfl⟩))
      | modify kind oid edit =>
          by_cases same : table.rows = shared.table.rows
          · exact .inl (if_pos same)
          · exact .inr (.inr (.inl ⟨kind, value, if_neg same⟩))
      | modifySingleton kind edit =>
          by_cases same : table.rows = shared.table.rows
          · exact .inl (if_pos same)
          · exact .inr (.inr (.inl ⟨kind, value, if_neg same⟩))
      | _ => exact .inl rfl

/-- One call is one step on the rows, whatever it is passed. -/
theorem Turn.stepsTo {turn : Turn} {shared : SharedStore} (inRange : turn.InRange shared) :
    shared.table.StepsTo (turn.play shared).table := by
  have all := turn.writes_takes shared
  unfold InRange at inRange
  generalize (turn.play shared).table = after at all inRange
  rcases turn.writes_cases shared with writes | ⟨kind, object, writes⟩ | ⟨kind, object, writes⟩ |
    ⟨child, parent, object, owner, writes⟩ <;> rw [writes] at all
  · cases all
    exact .of_raised (.none _) rfl
  · cases all with
    | more takes rest =>
        cases rest
        obtain ⟨rows, first⟩ := takes.rows_of_created
        exact .of_added (.none _) rows (by rw [first]; decide)
  · cases all with
    | more takes rest =>
        cases rest
        obtain ⟨front, old, back, split, rows, key, raised⟩ := takes.rows_of_updated
        have next := toInt_version_of_raised (by rw [rows]; simp) key raised
          (inRange old (by rw [split]; simp))
        refine .of_raised ?_ rows
        rw [split]
        exact .one front back key next
  · cases all with
    | @more _ between _ _ _ creation others =>
        cases others with
        | more change rest =>
            cases rest
            obtain ⟨grown, first⟩ := creation.rows_of_created
            obtain ⟨front, old, back, split, rows, key, raised⟩ := change.rows_of_updated
            have ends := grown.symm.trans split
            rcases List.eq_nil_or_concat' back with rfl | ⟨others, last, rfl⟩
            · -- The change reached the row that was just created.
              obtain ⟨same, here⟩ := List.append_inj' ends rfl
              cases here
              refine .of_added (.none _) (same ▸ rows) ?_
              rw [raised, first]
              decide
            · rw [← List.cons_append, ← List.append_assoc] at ends
              obtain ⟨same, here⟩ := List.append_inj' ends rfl
              cases here
              have next := toInt_version_of_raised (by rw [rows]; simp) key raised
                (inRange old (by rw [same]; simp))
              have kept : Raised shared.table.rows (front ++ parent.toRow owner :: others) := by
                rw [same]
                exact .one front others key next
              refine .of_added kept ?_ (by rw [first]; decide)
              rw [rows, List.append_assoc, List.cons_append]

/-! ## Whole runs -/

/-- A step keeps versions positive. -/
theorem Table.StepsTo.positive {before after : Table} (steps : before.StepsTo after)
    (positive : ∀ row ∈ before.rows, 1 ≤ row.version.toInt) :
    ∀ row ∈ after.rows, 1 ≤ row.version.toInt := by
  obtain ⟨kept, added, rows, raised, -, first⟩ := steps
  intro row there
  rw [rows, List.mem_append] at there
  rcases there with there | there
  · generalize before.rows = earlier at raised positive
    cases raised with
    | none => exact positive row there
    | @one front back old new key next =>
        rcases List.mem_append.1 there with inFront | there
        · exact positive row (List.mem_append_left _ inFront)
        rcases List.mem_cons.1 there with rfl | inBack
        · have older := positive old (by simp)
          omega
        · exact positive row (by simp [inBack])
  · exact first row there

/-- Versions are positive as long as none is raised past the largest word. -/
theorem SharedStore.positive_playAll {shared : SharedStore} {turns : List Turn}
    (inRange : shared.InRange turns)
    (positive : ∀ row ∈ shared.table.rows, 1 ≤ row.version.toInt) :
    ∀ row ∈ (shared.playAll turns).table.rows, 1 ≤ row.version.toInt := by
  induction turns generalizing shared with
  | nil => exact positive
  | cons turn rest ih => exact ih inRange.2 ((Turn.stepsTo inRange.1).positive positive)

theorem SharedStore.reached_playAll {shared : SharedStore} (reached : shared.table.Reached)
    (turns : List Turn) : (shared.playAll turns).table.Reached := by
  induction turns generalizing shared with
  | nil => exact reached
  | cons turn rest ih => exact ih (reached.call turn.moment _ turn.call)

/-- An object of a singleton kind stays the only one, under the same identifier. -/
theorem SharedStore.ofKind_playAll {shared : SharedStore} (reached : shared.table.Reached)
    {kind : Kind} (single : kind.isSingleton = true) {row : Row}
    (there : row ∈ shared.table.ofKind kind.name) (turns : List Turn) :
    ∃ held, (shared.playAll turns).table.ofKind kind.name = [held] ∧ held.oid = row.oid := by
  obtain ⟨present, named⟩ := List.mem_filter.1 there
  have key : row.key = (kind.name, row.oid) := by
    rw [← of_decide_eq_true named]
    rfl
  have kept := (shared.log_takes turns).keys_extend.subset (List.mem_map_of_mem present)
  obtain ⟨held, still, same⟩ := List.mem_map.1 kept
  have found := Table.find?_eq_some_iff.2 ⟨still, same.trans key⟩
  exact ⟨held, (reached_playAll reached turns).holdsObjects.ofKind_eq_singleton single found,
    (Table.kind_oid_of_find? found).2⟩

/-- The rows keep their shape in every run from the empty store, whatever is passed to the
calls, whatever edits do, and wherever calls fail.

No two rows share a key. Every row holds the text of an object of its kind that has the row's
own identifier and version, and the version is positive. There is at most one client; once
there is one, it stays the only one under its identifier. And each further call leaves all rows
in their places, raises at most one of them by one, and adds at most one row, behind them. -/
theorem rows_keep_their_shape (contexts : Nat → Context) (turns : List Turn)
    (inRange : SharedStore.InRange ⟨contexts, .empty⟩ turns) :
    let shared := SharedStore.playAll ⟨contexts, .empty⟩ turns
    (shared.table.rows.map Row.key).Nodup ∧
      (∀ row ∈ shared.table.rows, ∃ (kind : Kind) (object : kind.Object),
        row.kind = kind.name ∧ row.oid = kind.oid object ∧ row.version = kind.version object ∧
          row.data = kind.objectCodec.encode object ∧ 1 ≤ row.version.toInt) ∧
      (shared.table.ofKind Kind.client.name).length ≤ 1 ∧
      (∀ client ∈ shared.table.ofKind Kind.client.name, ∀ later : List Turn,
        ∃ held, (shared.playAll later).table.ofKind Kind.client.name = [held] ∧
          held.oid = client.oid) ∧
      ∀ turn : Turn, turn.InRange shared → shared.table.StepsTo (turn.play shared).table := by
  intro shared
  have reached : shared.table.Reached := SharedStore.reached_playAll .empty turns
  have positive := SharedStore.positive_playAll inRange fun _ impossible =>
    absurd impossible List.not_mem_nil
  refine ⟨shared.table.keysDistinct, ?_, reached.holdsObjects.single .client rfl, ?_, ?_⟩
  · intro row there
    obtain ⟨kind, object, same⟩ := reached.holdsObjects.rows row there
    refine ⟨kind, object, ?_, ?_, ?_, ?_, positive row there⟩ <;> rw [same] <;> rfl
  · intro client there later
    exact SharedStore.ofKind_playAll reached rfl there later
  · intro turn spared
    exact Turn.stepsTo spared

/-- Two tabs are created, and then an edit of the first makes it pass for the second. The rows
keep their places and their shape. -/
theorem an_edit_cannot_move_rows :
    let start : SharedStore := ⟨fun _ => ⟨1, none⟩, .empty⟩
    let creation (owner : Nat) (oid : String) : Turn :=
      ⟨owner, .quiet 0, .create .tab (Tab.new oid "Main")⟩
    let turns : List Turn := [creation 0 "t", creation 1 "u"]
    let disguise : Turn :=
      ⟨2, .quiet 0, .modify .tab "t" fun tab => ({ (tab : Tab) with oid := "u" }, true)⟩
    let shared := start.playAll turns
    shared.table.rows = [Kind.tab.toRow ⟨"t", 1, "Main", [], .empty⟩,
        Kind.tab.toRow ⟨"u", 1, "Main", [], .empty⟩] ∧
      start.InRange turns ∧ (shared.table.rows.map Row.key).Nodup ∧
      shared.table.StepsTo (disguise.play shared).table := by
  intro start creation turns disguise shared
  have low : ∀ row : Row, row.version = 1 → row.version ≠ Int64.maxValue := by
    intro row first
    rw [first]
    decide
  have inRange : start.InRange turns := by
    refine ⟨fun _ impossible => absurd impossible List.not_mem_nil, ?_, trivial⟩
    intro row there largest
    cases List.mem_singleton.1 there
    exact absurd largest (low _ rfl)
  obtain ⟨distinct, -, -, -, steps⟩ := rows_keep_their_shape (fun _ => ⟨1, none⟩) turns inRange
  refine ⟨rfl, inRange, distinct, steps disguise ?_⟩
  intro row there largest
  rcases List.mem_pair.1 there with rfl | rfl <;> exact absurd largest (low _ rfl)

end Workbench
