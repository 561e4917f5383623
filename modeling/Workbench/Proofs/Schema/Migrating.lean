/-
# Bringing a database up to date

A list of migrations whose versions increase falls into those that a database already has and
those that are still to come, wherever the version of the database lies, in a gap of the list as
well. Only the scripts of the latter run, each once and in order, and the database gets their
effect and the last version of the list, or, if one of them fails, nothing at all.

What a database is in the end does not depend on the stops on the way: a program that knows only
a part of the list may have brought it up to that part before.
-/

import Workbench.Schema.Objects

namespace Workbench

namespace Migration

variable {δ : Type} {migrations first second : List (Migration δ)}

/-- The scripts of some migrations ran one after another, and all of them went through. -/
inductive Runs : δ → List (Migration δ) → δ → Prop where
  | none (content : δ) : Runs content [] content
  | more {before between after : δ} {migration : Migration δ} {rest : List (Migration δ)} :
      migration.script before = .ok between → Runs between rest after →
      Runs before (migration :: rest) after

/-- The scripts before one of the migrations went through, and then that one failed. -/
def Stops (before : δ) (migrations : List (Migration δ)) (failing : Migration δ)
    (failure : EngineFailure) : Prop :=
  ∃ done rest between, migrations = done ++ failing :: rest ∧ Runs before done between ∧
    failing.script between = .error failure

theorem runs_append_iff {before after : δ} :
    Runs before (first ++ second) after ↔
      ∃ between, Runs before first between ∧ Runs between second after := by
  constructor
  · intro both
    induction first generalizing before with
    | nil => exact ⟨before, .none before, both⟩
    | cons migration rest ih =>
        cases both with
        | more went later =>
            obtain ⟨between, early, late⟩ := ih later
            exact ⟨between, .more went early, late⟩
  · rintro ⟨between, early, late⟩
    induction early with
    | none content => exact late
    | more went _ ih => exact .more went (ih late)

/-- All scripts go through, or one is the first to fail. -/
theorem runs_or_stops (before : δ) (migrations : List (Migration δ)) :
    (∃ after, Runs before migrations after) ∨
      ∃ failing failure, Stops before migrations failing failure := by
  induction migrations generalizing before with
  | nil => exact .inl ⟨before, .none before⟩
  | cons migration rest ih =>
      cases went : migration.script before with
      | error failure => exact .inr ⟨migration, failure, [], rest, before, rfl, .none before, went⟩
      | ok between =>
          rcases ih between with
            ⟨after, later⟩ | ⟨failing, failure, done, others, last, rfl, later, failed⟩
          · exact .inl ⟨after, .more went later⟩
          · exact .inr ⟨failing, failure, migration :: done, others, last, rfl, .more went later,
              failed⟩

/-- A list of migrations in the order of their versions, which the database can keep. -/
structure Ordered (migrations : List (Migration δ)) : Prop where
  increasing : migrations.Pairwise fun early late => early.version < late.version
  fits : ∀ migration ∈ migrations, migration.version < 0x80000000

theorem Ordered.of_append (ordered : Ordered (first ++ second)) : Ordered first where
  increasing := (List.pairwise_append.1 ordered.increasing).1
  fits migration there := ordered.fits migration (List.mem_append_left second there)

/-- What a database with a version already has comes before what it does not have. -/
theorem Ordered.exists_split (ordered : Ordered migrations) (current : Nat) :
    ∃ older newer, migrations = older ++ newer ∧
      (∀ migration ∈ older, migration.version ≤ current) ∧
      ∀ migration ∈ newer, current < migration.version := by
  obtain ⟨increasing, -⟩ := ordered
  induction migrations with
  | nil => exact ⟨[], [], rfl, nofun, nofun⟩
  | cons migration rest ih =>
      obtain ⟨above, later⟩ := List.pairwise_cons.1 increasing
      rcases Nat.lt_or_ge current migration.version with ahead | reached
      · refine ⟨[], migration :: rest, rfl, nofun, List.forall_mem_cons.2 ⟨ahead, ?_⟩⟩
        exact fun next there => Nat.lt_trans ahead (above next there)
      · obtain ⟨older, newer, rfl, had, missing⟩ := ih later
        exact ⟨migration :: older, newer, rfl, List.forall_mem_cons.2 ⟨reached, had⟩, missing⟩

end Migration

namespace Database

open Migration

variable {δ : Type} {migrations older newer : List (Migration δ)} {database : Database δ}
  {current : Nat}

/-! ## The last version of a list -/

theorem latest_append_cons (older : List (Migration δ)) (migration : Migration δ)
    (rest : List (Migration δ)) :
    latest (older ++ migration :: rest) = latest (migration :: rest) := by
  rw [latest, latest, List.getLast?_append]
  cases last : (migration :: rest).getLast? with
  | none => cases List.getLast?_eq_none_iff.1 last
  | some found => rfl

/-- The last version of a list is the version of one of its migrations. -/
theorem exists_version_eq_latest (nonempty : migrations ≠ []) :
    ∃ migration ∈ migrations, migration.version = latest migrations := by
  rw [latest]
  cases last : migrations.getLast? with
  | none => exact absurd (List.getLast?_eq_none_iff.1 last) nonempty
  | some migration => exact ⟨migration, List.mem_of_getLast? last, rfl⟩

theorem version_le_latest (ordered : Ordered migrations) {migration : Migration δ}
    (there : migration ∈ migrations) : migration.version ≤ latest migrations := by
  obtain ⟨early, late, rfl⟩ := List.append_of_mem there
  rw [latest_append_cons]
  cases late with
  | nil => exact Nat.le_refl _
  | cons next rest =>
      have rising := (List.pairwise_append.1 ordered.increasing).2.1
      obtain ⟨last, among, same⟩ := exists_version_eq_latest (List.cons_ne_nil next rest)
      rw [show migration :: next :: rest = [migration] ++ next :: rest from rfl,
        latest_append_cons, ← same]
      exact Nat.le_of_lt ((List.pairwise_cons.1 rising).1 last among)

/-- Only what is missing is pending. -/
theorem pending_append (had : ∀ migration ∈ older, migration.version ≤ current)
    (missing : ∀ migration ∈ newer, current < migration.version) :
    pending (older ++ newer) current = newer := by
  have nothing : older.filter (fun migration => current < migration.version) = [] :=
    List.filter_eq_nil_iff.2 fun migration there =>
      by simpa using had migration there
  have all : newer.filter (fun migration => current < migration.version) = newer :=
    List.filter_eq_self.2 fun migration there => decide_eq_true (missing migration there)
  rw [pending, List.filter_append, nothing, all, List.nil_append]

/-! ## Running scripts -/

theorem withVersion_of_fits {version : Nat} (fits : version < 0x80000000) :
    database.withVersion version = ⟨version, database.content⟩ := by
  have kept : storedVersion version = version := if_pos (by omega)
  rw [withVersion, kept]

/-- Scripts that go through leave their effect and the version of the last one. -/
theorem foldlM_apply_of_runs {content : δ} (ordered : Ordered newer)
    (runs : Runs database.content newer content) :
    newer.foldlM apply database =
      .ok ⟨if newer = [] then database.schemaVersion else latest newer, content⟩ := by
  obtain ⟨-, fits⟩ := ordered
  induction newer generalizing database with
  | nil =>
      cases runs with
      | none => rfl
  | cons migration rest ih =>
      cases runs with
      | @more _ between _ _ _ went later =>
          obtain ⟨here, others⟩ := List.forall_mem_cons.1 fits
          have applied : apply database migration = .ok ⟨migration.version, between⟩ := by
            rw [apply, went]
            exact congrArg Except.ok (withVersion_of_fits here)
          have rest_eq := @ih ⟨migration.version, between⟩ later others
          rw [List.foldlM_cons, applied]
          refine rest_eq.trans ?_
          cases rest with
          | nil => rfl
          | cons next others =>
              rw [if_neg (List.cons_ne_nil _ _), if_neg (List.cons_ne_nil _ _),
                ← latest_append_cons [migration]]
              rfl

/-- A script that fails is the end, and it is named. -/
theorem foldlM_apply_of_stops {failing : Migration δ} {failure : EngineFailure}
    (stops : Stops database.content newer failing failure) :
    newer.foldlM apply database = .error (.migrationFailed failing.version failure) := by
  obtain ⟨done, rest, between, rfl, early, failed⟩ := stops
  induction done generalizing database with
  | nil =>
      cases early with
      | none =>
          rw [List.nil_append, List.foldlM_cons, apply, failed]
          rfl
  | cons migration others ih =>
      cases early with
      | @more _ middle _ _ _ went later =>
          rw [List.cons_append, List.foldlM_cons, apply, went]
          exact @ih (withVersion ⟨database.schemaVersion, middle⟩ migration.version) later

/-! ## The whole way -/

section Kept

variable (kept : database.schemaVersion = current)

include kept

/-- A version that is not negative can be read. -/
theorem version_of_kept : database.version = .ok current := by
  rw [version, kept, if_neg (by omega), Int.toNat_natCast]

/-- A database from the future is left alone. -/
theorem migrate_of_future (future : latest migrations < current) :
    migrate migrations database =
      (.error (.unsupportedVersion current (latest migrations)), database) := by
  rw [migrate, version_of_kept kept]
  exact if_pos future

/-- A database that is up to date is left alone. -/
theorem migrate_of_newest (newest : current = latest migrations) :
    migrate migrations database = (.ok (), database) := by
  rw [migrate, version_of_kept kept]
  simp only [if_neg (Nat.not_lt.2 (Nat.le_of_eq newest)), if_pos newest]

end Kept

section Missing

variable (ordered : Ordered (older ++ newer))
  (had : ∀ migration ∈ older, migration.version ≤ current)
  (missing : ∀ migration ∈ newer, current < migration.version)
  (known : current ≤ latest (older ++ newer))

include ordered had missing known

/-- Nothing is missing exactly in a database that has the last version. -/
theorem current_eq_latest_iff : current = latest (older ++ newer) ↔ newer = [] := by
  constructor
  · rintro rfl
    refine List.eq_nil_iff_forall_not_mem.2 fun migration there => ?_
    exact Nat.not_lt.2 (version_le_latest ordered (List.mem_append_right _ there))
      (missing migration there)
  · rintro rfl
    refine Nat.le_antisymm known ?_
    by_cases nonempty : older ++ [] = []
    · rw [nonempty]
      exact Nat.zero_le _
    · obtain ⟨migration, there, same⟩ := exists_version_eq_latest nonempty
      rw [← same]
      exact had migration (by simpa using there)

variable (kept : database.schemaVersion = current)

include kept

/-- When what is missing goes through, the database gets its effect and the last version. -/
theorem migrate_of_runs {content : δ} (runs : Runs database.content newer content) :
    migrate (older ++ newer) database = (.ok (), ⟨latest (older ++ newer), content⟩) := by
  have nothingMissing := current_eq_latest_iff ordered had missing known
  by_cases newest : current = latest (older ++ newer)
  · obtain rfl := nothingMissing.1 newest
    cases runs with
    | none => rw [migrate_of_newest kept newest, ← newest, ← kept]
  · rw [migrate, version_of_kept kept]
    simp only [if_neg (Nat.not_lt.2 known), if_neg newest, pending_append had missing]
    obtain ⟨migration, rest, rfl⟩ := List.exists_cons_of_ne_nil (mt nothingMissing.2 newest)
    have later : Ordered (migration :: rest) :=
      ⟨(List.pairwise_append.1 ordered.increasing).2.1,
        fun next there => ordered.fits next (List.mem_append_right _ there)⟩
    rw [foldlM_apply_of_runs later runs, if_neg (List.cons_ne_nil _ _), latest_append_cons]

/-- When a script fails, the failure is reported and the database stays as it is. -/
theorem migrate_of_stops {failing : Migration δ} {failure : EngineFailure}
    (stops : Stops database.content newer failing failure) :
    migrate (older ++ newer) database =
      (.error (.migrationFailed failing.version failure), database) := by
  have old : current ≠ latest (older ++ newer) := by
    intro newest
    obtain ⟨done, rest, between, split, -⟩ := stops
    have nothing := (current_eq_latest_iff ordered had missing known).1 newest
    exact List.append_ne_nil_of_right_ne_nil done (List.cons_ne_nil failing rest)
      (split.symm.trans nothing)
  rw [migrate, version_of_kept kept]
  simp only [if_neg (Nat.not_lt.2 known), if_neg old, pending_append had missing,
    foldlM_apply_of_stops stops]

theorem runs_of_migrate {finished : Database δ}
    (migrated : migrate (older ++ newer) database = (.ok (), finished)) :
    ∃ content, Runs database.content newer content ∧
      finished = ⟨latest (older ++ newer), content⟩ := by
  rcases runs_or_stops database.content newer with ⟨content, runs⟩ | ⟨failing, failure, stops⟩
  · have same := migrate_of_runs ordered had missing known kept runs
    exact ⟨content, runs, (Prod.mk.inj (migrated.symm.trans same)).2⟩
  · have failed := migrate_of_stops ordered had missing known kept stops
    cases (Prod.mk.inj (migrated.symm.trans failed)).1

end Missing

/-- The two ways in which bringing up to date can end for a database that has no later version
than the list. -/
theorem migrate_cases (ordered : Ordered migrations) (kept : database.schemaVersion = current)
    (known : current ≤ latest migrations) :
    ∃ older newer, migrations = older ++ newer ∧
      (∀ migration ∈ older, migration.version ≤ current) ∧
      (∀ migration ∈ newer, current < migration.version) ∧
      ((∃ content, Runs database.content newer content ∧
          migrate migrations database = (.ok (), ⟨latest migrations, content⟩)) ∨
        ∃ failing failure, Stops database.content newer failing failure ∧
          migrate migrations database =
            (.error (.migrationFailed failing.version failure), database)) := by
  obtain ⟨older, newer, rfl, had, missing⟩ := ordered.exists_split current
  refine ⟨older, newer, rfl, had, missing, ?_⟩
  rcases runs_or_stops database.content newer with ⟨content, runs⟩ | ⟨failing, failure, stops⟩
  · exact .inl ⟨content, runs, migrate_of_runs ordered had missing known kept runs⟩
  · exact .inr ⟨failing, failure, stops, migrate_of_stops ordered had missing known kept stops⟩

/-- A database that is brought up to a part of the list first is brought up to the whole list
afterwards just as if there had been no stop. -/
theorem exists_migrate_between {early late : List (Migration δ)} (ordered : Ordered (early ++ late))
    (kept : database.schemaVersion = current) (partly : current ≤ latest early)
    {finished : Database δ} (migrated : migrate (early ++ late) database = (.ok (), finished)) :
    ∃ between, migrate early database = (.ok (), between) ∧
      migrate (early ++ late) between = (.ok (), finished) := by
  by_cases nothing : early = []
  · -- the version of the database is zero then, which is what the empty list leads to
    subst nothing
    exact ⟨database, migrate_of_newest kept (Nat.eq_zero_of_le_zero partly), migrated⟩
  · obtain ⟨lastEarly, among, same⟩ := exists_version_eq_latest nothing
    have ahead : ∀ migration ∈ late, latest early < migration.version := fun migration there =>
      same ▸ (List.pairwise_append.1 ordered.increasing).2.2 lastEarly among migration there
    have further : latest early ≤ latest (early ++ late) :=
      same ▸ version_le_latest ordered (List.mem_append_left late among)
    obtain ⟨older, newer, rfl, had, missing⟩ := ordered.of_append.exists_split current
    have missingAll : ∀ migration ∈ newer ++ late, current < migration.version :=
      List.forall_mem_append.2
        ⟨missing, fun migration there => Nat.lt_of_le_of_lt partly (ahead migration there)⟩
    rw [List.append_assoc] at migrated
    obtain ⟨content, runs, rfl⟩ := runs_of_migrate
      (List.append_assoc older newer late ▸ ordered) had missingAll
      (List.append_assoc older newer late ▸ Nat.le_trans partly further) kept migrated
    obtain ⟨between, early, late⟩ := runs_append_iff.1 runs
    have brought : Database.schemaVersion ⟨latest (older ++ newer), between⟩ =
        latest (older ++ newer) := rfl
    refine ⟨_, migrate_of_runs ordered.of_append had missing partly kept early, ?_⟩
    rw [← List.append_assoc]
    exact migrate_of_runs ordered (fun migration => version_le_latest ordered.of_append) ahead
      further brought late

/-- Bringing a database up to date, for any list of migrations whose versions increase. It is
refused exactly if the database has a later version than the list, and then nothing changes. Else
the migrations fall into those that the database has and those that it has not, and the scripts of
the latter run in order. If all go through, the database has their effect and the last version,
and bringing it up to date again changes nothing. If one fails, its version is reported with the
failure, and the database is as before. A stop on the way makes no difference. -/
theorem migrations_take_effect_together_and_compose {migrations : List (Migration δ)}
    (ordered : Ordered migrations) (database : Database δ) (current : Nat)
    (kept : database.schemaVersion = current) :
    let last := latest migrations
    ((∃ found known, (migrate migrations database).1 = .error (.unsupportedVersion found known)) ↔
      last < current) ∧
    (last < current →
      migrate migrations database = (.error (.unsupportedVersion current last), database)) ∧
    (current = last → migrate migrations database = (.ok (), database)) ∧
    (current ≤ last → ∃ older newer, migrations = older ++ newer ∧
      (∀ migration ∈ older, migration.version ≤ current) ∧
      (∀ migration ∈ newer, current < migration.version) ∧
      ((∃ content, Runs database.content newer content ∧
          migrate migrations database = (.ok (), ⟨last, content⟩) ∧
          migrate migrations ⟨last, content⟩ = (.ok (), ⟨last, content⟩)) ∨
        ∃ failing failure, Stops database.content newer failing failure ∧
          migrate migrations database =
            (.error (.migrationFailed failing.version failure), database))) ∧
    ∀ early late, migrations = early ++ late → current ≤ latest early →
      ∀ finished, migrate migrations database = (.ok (), finished) →
        ∃ between, migrate early database = (.ok (), between) ∧
          migrate migrations between = (.ok (), finished) := by
  intro last
  refine ⟨⟨?_, fun future => ?_⟩, fun future => migrate_of_future kept future,
    fun newest => migrate_of_newest kept newest, ?_, ?_⟩
  · rintro ⟨found, known, refused⟩
    rcases Nat.lt_or_ge last current with future | reached
    · exact future
    · obtain ⟨-, -, -, -, -, ⟨content, -, migrated⟩ | ⟨failing, failure, -, failed⟩⟩ :=
        migrate_cases ordered kept reached
      · rw [migrated] at refused
        cases refused
      · rw [failed] at refused
        cases refused
  · exact ⟨current, last, congrArg Prod.fst (migrate_of_future kept future)⟩
  · intro reached
    obtain ⟨older, newer, split, had, missing, ended⟩ := migrate_cases ordered kept reached
    refine ⟨older, newer, split, had, missing, ended.imp_left ?_⟩
    rintro ⟨content, runs, migrated⟩
    exact ⟨content, runs, migrated, migrate_of_newest rfl rfl⟩
  · rintro early late rfl partly finished migrated
    exact exists_migrate_between ordered kept partly migrated

/-! ### Three tables -/

/-- The migration that adds a table, which must not be there yet. -/
def addTable (version : Nat) (name : String) : Migration (List String) where
  version
  script tables :=
    if name ∈ tables then .error ⟨1, "table " ++ name ++ " already exists"⟩
    else .ok (tables ++ [name])

/-- Three tables came one after another, and some versions were never released. -/
def threeTables : List (Migration (List String)) :=
  [addTable 1 "objects", addTable 3 "panels", addTable 7 "themes"]

/-- From a version that was never released the database gets what is missing, with a stop and
without. Where somebody added the last table by hand, the migration before it takes no effect
either. -/
theorem a_gap_is_bridged_and_a_clash_leaves_no_trace :
    Ordered threeTables ∧
    (∃ between, migrate (threeTables.take 2) ⟨2, ["objects"]⟩ = (.ok (), between) ∧
      migrate threeTables between = (.ok (), ⟨7, ["objects", "panels", "themes"]⟩)) ∧
    migrate threeTables ⟨2, ["objects", "themes"]⟩ =
      (.error (.migrationFailed 7 ⟨1, "table themes already exists"⟩),
        ⟨2, ["objects", "themes"]⟩) := by
  have ordered : Ordered threeTables := ⟨by decide, by decide⟩
  refine ⟨ordered, ?_, ?_⟩
  · have split : Ordered (threeTables.take 1 ++ threeTables.drop 1) := ordered
    have finished : migrate threeTables ⟨2, ["objects"]⟩ =
        (.ok (), ⟨7, ["objects", "panels", "themes"]⟩) :=
      migrate_of_runs split (by decide) (by decide) (by decide) rfl
        (.more rfl (.more rfl (.none _)))
    obtain ⟨-, -, -, -, stop⟩ :=
      migrations_take_effect_together_and_compose ordered ⟨2, ["objects"]⟩ 2 rfl
    exact stop (threeTables.take 2) (threeTables.drop 2) rfl (by decide) _ finished
  · have answer : (migrate threeTables ⟨2, ["objects", "themes"]⟩).1 =
        .error (.migrationFailed 7 ⟨1, "table themes already exists"⟩) := by
      rfl
    obtain ⟨-, -, -, updated, -⟩ :=
      migrations_take_effect_together_and_compose ordered ⟨2, ["objects", "themes"]⟩ 2 rfl
    obtain ⟨-, -, -, -, -, ⟨content, -, migrated, -⟩ | ⟨failing, failure, -, failed⟩⟩ :=
      updated (by decide)
    · rw [migrated] at answer
      cases answer
    · rw [failed] at answer
      rw [failed]
      exact Prod.ext answer rfl

end Database

end Workbench
