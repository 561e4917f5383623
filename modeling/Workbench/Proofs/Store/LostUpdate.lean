/-
# No update is lost

Writers meet on a row in two ways. Some hold a copy that was read before and pass it to an
update; then the version decides, and of several writers with copies of one version at most
one gets through. Others hand an edit to the store, which reads, edits and writes in one step;
then nobody is refused, and the stored object is what comes of all the edits in the order of
the calls.

Both are statements about any order of calls by any number of contexts. The first rests on
the count of writes in the version of a row, the second on rows giving back the objects that
were put into them.
-/

import Workbench.Proofs.Store.Turns

namespace Workbench

/-! ## Updates from copies -/

namespace Store

/-- Whether an update goes through, and what it says if it does not, is decided by the row. -/
theorem result_update {moment : Moment} {context : Context} (unhindered : moment.Unhindered context)
    (table : Table) (kind : Kind) (object : kind.Object) :
    ((StoreCall.update kind object).run moment context table).result =
      match table.find? kind.name (kind.oid object) with
      | none => .error (.notFound kind (kind.oid object))
      | some row =>
          if row.version = kind.version object then
            .ok (kind.withVersion object (kind.version object + 1))
          else
            .error (.versionConflict kind (kind.oid object) (kind.version object) row.version) := by
  simp only [StoreCall.run, update, unhindered.enter, writeExisting_eq unhindered.sound]
  cases table.find? kind.name (kind.oid object) with
  | none => rfl
  | some row =>
      by_cases same : row.version = kind.version object
      · simp only [if_pos same]
        rfl
      · simp only [if_neg same]
        rfl

end Store

namespace Turn

/-- In this turn a copy with the given version is passed to an update, and gets through. -/
def UpdatesFrom (kind : Kind) (oid : String) (version : Int64) (turn : Turn)
    (shared : SharedStore) : Prop :=
  ∃ copy : kind.Object, turn.call = .update kind copy ∧ kind.oid copy = oid ∧
    kind.version copy = version ∧ (turn.outcome shared).result.isOk = true

variable {kind : Kind} {oid : String} {version : Int64} {turn : Turn} {shared : SharedStore}

/-- An update that gets through finds its own version in the row, and writes the row once. -/
theorem UpdatesFrom.row (updates : turn.UpdatesFrom kind oid version shared) :
    (∃ row, shared.table.find? kind.name oid = some row ∧ row.version = version) ∧
      (writesTo kind oid (turn.writes shared)).length = 1 := by
  obtain ⟨owner, moment, call⟩ := turn
  obtain ⟨copy, rfl, rfl, rfl, ok⟩ := updates
  simp only [writes, outcome, StoreCall.run, Store.update] at ok ⊢
  cases entered : moment.enter (shared.contexts owner) with
  | error problem =>
      rw [entered] at ok
      cases ok
  | ok _ =>
      rw [entered] at ok
      rcases Store.writeExisting_cases moment kind copy shared.table with
        ⟨problem, refused⟩ | ⟨after, wrote, takes⟩
      · simp only [refused] at ok
        cases ok
      · simp only [wrote, Except.map, StoreCall.written]
        constructor
        · cases takes with
          | updated expected raised swapped =>
              obtain ⟨⟨row, found, fits⟩, -⟩ := Table.replace?_eq_some_iff.1 swapped
              rw [Kind.oid_withVersion] at found
              rw [Kind.version_withVersion, Int64.add_left_inj] at raised
              exact ⟨row, found, fits.trans raised.symm⟩
        · have here : RowWrite.isTo kind (kind.oid copy)
              ⟨.updated, kind, kind.withVersion copy (kind.version copy + 1)⟩ = true := by
            simp [RowWrite.isTo]
          rw [writesTo_cons_of_isTo [] here]
          rfl

end Turn

/-- A count of writes that does not change the version is a multiple of the number of words. -/
theorem mod_eq_zero_of_add_ofNat_eq {version : Int64} {count : Nat}
    (same : version + Int64.ofNat count = version) : count % 2 ^ 64 = 0 := by
  have zero : Int64.ofNat count = 0 := by
    rw [← Int64.add_right_inj version, same, Int64.add_zero]
  have bits := congrArg (fun word => word.toBitVec.toNat) zero
  simpa [Int64.toBitVec_ofNat', BitVec.toNat_ofNat] using bits

/-- Two updates from copies of one version both get through only if the version has gone all
the way round in between. -/
theorem writes_between_updates {kind : Kind} {oid : String} {version : Int64}
    {first second : Turn} {between : List Turn} {shared : SharedStore}
    (early : first.UpdatesFrom kind oid version shared)
    (late : second.UpdatesFrom kind oid version (shared.playAll (first :: between))) :
    2 ^ 64 ≤ (writesTo kind oid (shared.log (first :: between))).length := by
  obtain ⟨⟨row, found, fits⟩, once⟩ := early.row
  obtain ⟨⟨again, there, unchanged⟩, -⟩ := late.row
  obtain ⟨-, held, present, count⟩ :=
    (shared.log_takes (first :: between)).version_of_present found
  rw [there, Option.some.injEq] at present
  subst present
  have round := mod_eq_zero_of_add_ofNat_eq (count.symm.trans (unchanged.trans fits.symm))
  have some : 0 < (writesTo kind oid (shared.log (first :: between))).length := by
    rw [SharedStore.log, writesTo, List.filter_append, List.length_append]
    rw [writesTo] at once
    omega
  omega

/-! ## Edits in one step -/

/-- A call that edits the object under a key: an edit of that object, or the edit of the
singleton of its kind. -/
inductive StoreCall.Edits (kind : Kind) (oid : String) :
    StoreCall → (kind.Object → kind.Object × Bool) → Prop where
  | modify (edit : kind.Object → kind.Object × Bool) : Edits kind oid (.modify kind oid edit) edit
  | modifySingleton (edit : kind.Object → kind.Object × Bool) : kind.isSingleton = true →
      Edits kind oid (.modifySingleton kind edit) edit

/-- The object that an editing call hands back. -/
def StoreCall.edited? : (call : StoreCall) → call.Value → Option (Sigma Kind.Object)
  | modify kind _ _, object => some ⟨kind, object⟩
  | modifySingleton kind _, object => some ⟨kind, object⟩
  | _, _ => none

namespace Kind

variable (kind : Kind)

/-- An edit that leaves identifier and version alone. -/
def KeepsKey (edit : kind.Object → kind.Object × Bool) : Prop :=
  ∀ object, kind.oid (edit object).1 = kind.oid object ∧
    kind.version (edit object).1 = kind.version object

/-- The stored object after an edit: the edited one with the next version, or the same as
before if the edit says that nothing changed. -/
def applyEdit (object : kind.Object) (edit : kind.Object → kind.Object × Bool) : kind.Object :=
  if (edit object).2 then kind.withVersion (edit object).1 (kind.version object + 1) else object

/-- What an editing call hands back: what it stored, or what the edit made of the object if
nothing was to be stored. -/
def editResult (object : kind.Object) (edit : kind.Object → kind.Object × Bool) : kind.Object :=
  if (edit object).2 then kind.applyEdit object edit else (edit object).1

variable {kind}

theorem KeepsKey.oid_applyEdit {edit : kind.Object → kind.Object × Bool}
    (keeps : kind.KeepsKey edit) (object : kind.Object) :
    kind.oid (kind.applyEdit object edit) = kind.oid object := by
  rw [applyEdit]
  split
  · rw [oid_withVersion]
    exact (keeps object).1
  · rfl

end Kind

namespace Store

variable {moment : Moment} {context : Context} {kind : Kind} {table : Table}

/-- An edit of a stored object that was read goes through, if it leaves the key alone. -/
theorem modifyWith_stored (unhindered : moment.Unhindered context) {object : kind.Object}
    {load : Table → Except StoreError kind.Object} (loaded : load table = .ok object)
    (stored : table.find? kind.name (kind.oid object) = some (kind.toRow object))
    {edit : kind.Object → kind.Object × Bool} (keeps : kind.KeepsKey edit) :
    (modifyWith moment context table kind load edit).result = .ok (kind.editResult object edit) ∧
      (modifyWith moment context table kind load edit).table.find? kind.name (kind.oid object) =
        some (kind.toRow (kind.applyEdit object edit)) := by
  obtain ⟨sameOid, sameVersion⟩ := keeps object
  rcases answer : edit object with ⟨edited, changed⟩
  rw [answer] at sameOid sameVersion
  simp only at sameOid sameVersion
  simp only [Kind.editResult, Kind.applyEdit, answer]
  cases changed with
  | false =>
      have entered : moment.enter context *> load table = .ok object := by
        rw [unhindered.enter, loaded]
        rfl
      simp only [modifyWith, entered, answer]
      exact ⟨rfl, stored⟩
  | true =>
      have found : table.find? kind.name (kind.oid edited) = some (kind.toRow object) := by
        rw [sameOid, stored]
      rw [modifyWith_of_fits unhindered loaded answer found sameVersion.symm, sameVersion, sameOid]
      refine ⟨rfl, ?_⟩
      have key : (kind.toRow object).key = (kind.name, kind.oid object) := rfl
      rw [Table.find?_overwrite, stored, Option.map_some, Table.overwriteRow_of_eq key, if_pos rfl,
        Kind.toRow, Kind.oid_withVersion, Kind.version_withVersion, sameOid]

end Store

section Edits

variable {kind : Kind} {oid : String}

/-- An edit in one step goes through, and runs on the object that is stored at that moment. -/
theorem Turn.edit_goes_through {shared : SharedStore} {turn : Turn}
    (holds : shared.table.HoldsObjects) {object : kind.Object} (sameOid : kind.oid object = oid)
    (stored : shared.table.find? kind.name oid = some (kind.toRow object))
    (limits : (kind.metadata object).WithinLimits)
    {edit : kind.Object → kind.Object × Bool} (edits : turn.call.Edits kind oid edit)
    (unhindered : turn.Unhindered shared) (keeps : kind.KeepsKey edit) :
    (∃ value, (turn.outcome shared).result = .ok value ∧
        turn.call.edited? value = some ⟨kind, kind.editResult object edit⟩) ∧
      (turn.play shared).table.find? kind.name oid =
        some (kind.toRow (kind.applyEdit object edit)) := by
  obtain ⟨owner, moment, call⟩ := turn
  subst sameOid
  have readable := kind.ofRow_toRow limits
  cases edits with
  | modify =>
      have loaded := Store.demandObject_of_find? (unhindered.sound _ _) stored readable
      obtain ⟨result, row⟩ := Store.modifyWith_stored unhindered loaded stored keeps
      exact ⟨⟨_, result, rfl⟩, row⟩
  | modifySingleton _ single =>
      have only := holds.ofKind_eq_singleton single stored
      have loaded : Store.demandSingleton moment kind shared.table = .ok object := by
        rw [Store.demandSingleton_eq (unhindered.sound _ _), only]
        exact readable
      obtain ⟨result, row⟩ := Store.modifyWith_stored unhindered loaded stored keeps
      have allowed : kind.ensureSingleton = .ok () := if_pos single
      have same : Store.modifySingleton moment (shared.contexts owner) shared.table kind edit =
          Store.modifyWith moment (shared.contexts owner) shared.table kind
            (Store.demandSingleton moment kind) edit := by
        rw [Store.modifySingleton, allowed]
      rw [Turn.play, Turn.outcome, StoreCall.run, same]
      exact ⟨⟨_, result, rfl⟩, row⟩

/-- A run in which the row under a key is written by edits only. The edits are listed in the
order of their calls, by whichever contexts they are made; all other calls leave the row
alone. -/
inductive OnlyEdited (kind : Kind) (oid : String) :
    SharedStore → List Turn → List (kind.Object → kind.Object × Bool) → Prop where
  | done (shared : SharedStore) : OnlyEdited kind oid shared [] []
  | edit {shared : SharedStore} {turn : Turn} {rest : List Turn}
      {edit : kind.Object → kind.Object × Bool} {edits : List (kind.Object → kind.Object × Bool)} :
      turn.call.Edits kind oid edit → turn.Unhindered shared → kind.KeepsKey edit →
      OnlyEdited kind oid (turn.play shared) rest edits →
      OnlyEdited kind oid shared (turn :: rest) (edit :: edits)
  | other {shared : SharedStore} {turn : Turn} {rest : List Turn}
      {edits : List (kind.Object → kind.Object × Bool)} :
      (∀ edit, ¬ turn.call.Edits kind oid edit) → writesTo kind oid (turn.writes shared) = [] →
      OnlyEdited kind oid (turn.play shared) rest edits →
      OnlyEdited kind oid shared (turn :: rest) edits

/-- The row under a key holds what comes of all the edits, in the order of the calls. -/
theorem OnlyEdited.stored {shared : SharedStore} {turns : List Turn}
    {edits : List (kind.Object → kind.Object × Bool)}
    (edited : OnlyEdited kind oid shared turns edits) (holds : shared.table.HoldsObjects)
    {object : kind.Object} (sameOid : kind.oid object = oid)
    (stored : shared.table.find? kind.name oid = some (kind.toRow object))
    (limits : ∀ done, done <+: edits →
      (kind.metadata (done.foldl kind.applyEdit object)).WithinLimits) :
    (shared.playAll turns).table.HoldsObjects ∧
      kind.oid (edits.foldl kind.applyEdit object) = oid ∧
      (shared.playAll turns).table.find? kind.name oid =
        some (kind.toRow (edits.foldl kind.applyEdit object)) := by
  induction edited generalizing object with
  | done shared => exact ⟨holds, sameOid, stored⟩
  | @edit shared turn rest edit edits edits' unhindered keeps _ ih =>
      have first : (kind.metadata object).WithinLimits := limits [] List.nil_prefix
      have row := (Turn.edit_goes_through holds sameOid stored first edits' unhindered keeps).2
      apply ih (holds.call _ _ _) ((keeps.oid_applyEdit object).trans sameOid) row
      intro done before
      exact limits (edit :: done) (List.cons_prefix_cons.2 ⟨rfl, before⟩)
  | @other shared turn rest edits _ apart _ ih =>
      have row := (turn.writes_takes shared).find?_of_writesTo_eq_nil apart
      exact ih (holds.call _ _ _) sameOid (row.trans stored) limits

end Edits

/-! ## The law -/

/-- No update is lost, whatever contexts make the calls and in whatever order.

An update from a copy goes through exactly if the row has the version of the copy, and
otherwise says what is the matter. The version of a row is one and the number of writes since
its creation. Two updates from copies of one version cannot both get through, unless as many
writes as there are words lie between them. And a row that is only edited in one step, after
its creation, holds at every moment what the edits so far made of the created object, and the
next edit runs on exactly that object and goes through. -/
theorem no_update_is_lost (kind : Kind) (oid : String) (shared : SharedStore) :
    (∀ (owner : Nat) (moment : Moment) (object : kind.Object), kind.oid object = oid →
      moment.Unhindered (shared.contexts owner) →
      (Turn.outcome ⟨owner, moment, .update kind object⟩ shared).result =
        match shared.table.find? kind.name oid with
        | none => .error (.notFound kind oid)
        | some row =>
            if row.version = kind.version object then
              .ok (kind.withVersion object (kind.version object + 1))
            else .error (.versionConflict kind oid (kind.version object) row.version)) ∧
    (∀ (turns : List Turn) (row : Row), shared.table.find? kind.name oid = none →
      (shared.playAll turns).table.find? kind.name oid = some row →
      ∃ creation later, writesTo kind oid (shared.log turns) = creation :: later ∧
        creation.updateType = .created ∧ (∀ write ∈ later, write.updateType = .updated) ∧
        row.version = 1 + Int64.ofNat later.length) ∧
    (∀ (version : Int64) (first second : Turn) (between : List Turn),
      first.UpdatesFrom kind oid version shared →
      second.UpdatesFrom kind oid version (shared.playAll (first :: between)) →
      2 ^ 64 ≤ (writesTo kind oid (shared.log (first :: between))).length) ∧
    (∀ (creation : Turn) (object : kind.Object) (turns : List Turn)
      (edits : List (kind.Object → kind.Object × Bool)), shared.table.Reached →
      writesTo kind oid (creation.writes shared) = [⟨.created, kind, object⟩] →
      OnlyEdited kind oid (creation.play shared) turns edits →
      (∀ done, done <+: edits →
        (kind.metadata (done.foldl kind.applyEdit object)).WithinLimits) →
      let later := (creation.play shared).playAll turns
      let stored := edits.foldl kind.applyEdit object
      later.table.find? kind.name oid = some (kind.toRow stored) ∧
        kind.ofRow (kind.toRow stored) = .ok stored ∧
        ∀ (turn : Turn) (edit : kind.Object → kind.Object × Bool),
          turn.call.Edits kind oid edit → turn.Unhindered later → kind.KeepsKey edit →
          (∃ value, (turn.outcome later).result = .ok value ∧
            turn.call.edited? value = some ⟨kind, kind.editResult stored edit⟩) ∧
          (turn.play later).table.find? kind.name oid =
            some (kind.toRow (kind.applyEdit stored edit))) := by
  refine ⟨?_, ?_, ?_, ?_⟩
  · rintro owner moment object rfl unhindered
    exact Store.result_update unhindered shared.table kind object
  · intro turns row absent present
    have counted := (shared.log_takes turns).version_of_absent absent
    cases writes : writesTo kind oid (shared.log turns) with
    | nil =>
        rw [writes] at counted
        rw [counted] at present
        cases present
    | cons creation later =>
        rw [writes] at counted
        obtain ⟨first, changes, held, found, version⟩ := counted
        rw [found, Option.some.injEq] at present
        exact ⟨creation, later, rfl, first, changes, present ▸ version⟩
  · intro version first second between early late
    exact writes_between_updates early late
  · intro creation object turns edits reached created edited limits later stored
    have holds : (creation.play shared).table.HoldsObjects := reached.holdsObjects.call _ _ _
    have row := (creation.writes_takes shared).find?_of_writesTo_eq_singleton created
    have sameOid : kind.oid object = oid := (Table.kind_oid_of_find? row).2
    obtain ⟨holdsLater, oidLater, rowLater⟩ := edited.stored holds sameOid row limits
    have limitsLater := limits edits (List.prefix_refl edits)
    refine ⟨rowLater, kind.ofRow_toRow limitsLater, ?_⟩
    intro turn edit edits unhindered keeps
    exact turn.edit_goes_through holdsLater oidLater rowLater limitsLater edits unhindered keeps

/-- Two contexts add a block to a new tab, one after the other, and both blocks are kept. Then
two others rename the tab that they see, and only the first gets through. -/
theorem edits_are_kept_and_one_rename_wins :
    let start : SharedStore := ⟨fun _ => ⟨1, none⟩, .empty⟩
    let add (block : String) (tab : Tab) : Tab × Bool := (tab.addBlock block, true)
    let creation : Turn := ⟨0, .quiet 0, .create .tab (Tab.new "t" "Main")⟩
    let turns : List Turn :=
      [⟨1, .quiet 0, .modify .tab "t" (add "a")⟩, ⟨2, .quiet 0, .modify .tab "t" (add "b")⟩]
    let rename (owner : Nat) (name : String) : Turn :=
      ⟨owner, .quiet 0, .update .tab ⟨"t", 3, name, ["a", "b"], .empty⟩⟩
    let later := (creation.play start).playAll turns
    later.table.find? "tab" "t" = some (Kind.tab.toRow ⟨"t", 3, "Main", ["a", "b"], .empty⟩) ∧
      (rename 3 "First").UpdatesFrom .tab "t" 3 later ∧
      ¬ (rename 4 "Second").UpdatesFrom .tab "t" 3 ((rename 3 "First").play later) := by
  intro start add creation turns rename later
  have keeps : ∀ block, Kind.tab.KeepsKey (add block) := fun _ _ => ⟨rfl, rfl⟩
  have edited : OnlyEdited .tab "t" (creation.play start) turns [add "a", add "b"] :=
    .edit (.modify _) ⟨rfl, rfl, fun _ _ => rfl⟩ (keeps "a")
      (.edit (.modify _) ⟨rfl, rfl, fun _ _ => rfl⟩ (keeps "b") (.done _))
  have plain : ∀ (edits : List (Tab → Tab × Bool)) (tab : Tab), edits ⊆ [add "a", add "b"] →
      tab.metadata = .empty → (edits.foldl Kind.tab.applyEdit tab).metadata = .empty := by
    intro edits
    induction edits with
    | nil => exact fun _ _ same => same
    | cons edit rest ih =>
        intro tab known same
        apply ih _ (fun _ there => known (List.mem_cons_of_mem _ there))
        rcases List.mem_pair.1 (known List.mem_cons_self) with rfl | rfl <;> exact same
  have limits : ∀ done, done <+: [add "a", add "b"] →
      (Kind.tab.metadata
        (done.foldl Kind.tab.applyEdit ⟨"t", 1, "Main", [], .empty⟩)).WithinLimits := by
    intro done before
    rw [Kind.metadata, plain done ⟨"t", 1, "Main", [], .empty⟩ before.subset rfl]
    exact Meta.withinLimits_empty
  obtain ⟨-, -, -, folds⟩ := no_update_is_lost .tab "t" start
  have row := (folds creation _ turns _ .empty rfl edited limits).1
  obtain ⟨decided, -, wins, -⟩ := no_update_is_lost .tab "t" later
  have first : (rename 3 "First").UpdatesFrom .tab "t" 3 later := by
    have result := decided 3 (.quiet 0) ⟨"t", 3, "First", ["a", "b"], .empty⟩ rfl
      ⟨rfl, rfl, fun _ _ => rfl⟩
    rw [row] at result
    exact ⟨_, rfl, rfl, rfl, congrArg Except.isOk result⟩
  refine ⟨row, first, fun second => ?_⟩
  have many := wins 3 _ (rename 4 "Second") [] first second
  have few : (writesTo .tab "t" (later.log [rename 3 "First"])).length = 1 := by
    rw [SharedStore.log, SharedStore.log, List.append_nil]
    exact first.row.2
  rw [few] at many
  exact absurd many (by decide)

end Workbench
