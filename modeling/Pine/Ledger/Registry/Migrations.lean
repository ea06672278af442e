import Mathlib.Logic.Function.Basic
import Pine.Core.Catalog
import Pine.Core.Run
import Pine.Ledger.Errors

/-!
# Initialisations of the registry

Every process that opens a registry migrates it: it lists the applied versions, and then runs
each missing script in a transaction of its own. Between the listing and the scripts another
process may have run them. A script from the third on then fails and is rolled back; the
first two do nothing but set the version back.
-/

namespace Pine

/-- What the migrations do to rows. -/
inductive RegistryEffect where
  | copy_runs
  | copy_run_bindings
  | record_touched_windows

abbrev RegistryStatement := SchemaStatement Text RegistryEffect

def createTable (name : String) : RegistryStatement :=
  .create false ⟨.table, text name, text name⟩

def createTableIfNotExists (name : String) : RegistryStatement :=
  .create true ⟨.table, text name, text name⟩

def createIndex (name table : String) : RegistryStatement :=
  .create false ⟨.index, text name, text table⟩

def createIndexIfNotExists (name table : String) : RegistryStatement :=
  .create true ⟨.index, text name, text table⟩

def createTrigger (table name : String) : RegistryStatement :=
  .create false ⟨.trigger, text name, text table⟩

def createTriggerIfNotExists (table name : String) : RegistryStatement :=
  .create true ⟨.trigger, text name, text table⟩

def dropTable (name : String) : RegistryStatement := .drop .table (text name)

def dropTrigger (name : String) : RegistryStatement := .drop .trigger (text name)

def renameTable (table name : String) : RegistryStatement := .rename (text table) (text name)

/-- `_MIGRATION_1` -/
def migration1 : List RegistryStatement :=
  [createTableIfNotExists "schema_migrations", createTableIfNotExists "predictions",
    createTableIfNotExists "runs", createTableIfNotExists "touched_windows",
    createTableIfNotExists "integrity_violations",
    createIndexIfNotExists "idx_runs_prediction_id" "runs",
    createIndexIfNotExists "idx_integrity_violations_prediction_id" "integrity_violations",
    createTriggerIfNotExists "predictions" "predictions_write_once",
    createTriggerIfNotExists "predictions" "predictions_committed_at_write_once"]

/-- `_MIGRATION_2` -/
def migration2 : List RegistryStatement :=
  [createTableIfNotExists "capture_requests",
    createTriggerIfNotExists "capture_requests" "capture_requests_write_once_update",
    createTriggerIfNotExists "capture_requests" "capture_requests_write_once_delete",
    createIndexIfNotExists "idx_touched_windows_overlap" "touched_windows"]

/-- `_MIGRATION_3` -/
def migration3 : List RegistryStatement :=
  [renameTable "runs" "runs_v2", createTable "runs", .rows .copy_runs, dropTable "runs_v2",
    createIndex "idx_runs_prediction_id" "runs", createTable "run_bindings",
    createTrigger "runs" "runs_identity_write_once_update",
    createTrigger "runs" "runs_lifecycle_transitions",
    createTrigger "runs" "runs_permanent_delete",
    createTrigger "run_bindings" "run_bindings_write_once_update",
    createTrigger "run_bindings" "run_bindings_permanent_delete"]

/-- `_MIGRATION_4` -/
def migration4 : List RegistryStatement :=
  [dropTrigger "run_bindings_write_once_update", dropTrigger "run_bindings_permanent_delete",
    renameTable "run_bindings" "run_bindings_v3", createTable "run_bindings",
    .rows .copy_run_bindings, dropTable "run_bindings_v3",
    createTrigger "run_bindings" "run_bindings_write_once_update",
    createTrigger "run_bindings" "run_bindings_permanent_delete",
    createTable "external_run_imports",
    createTrigger "external_run_imports" "external_run_imports_require_low_integrity_terminal_run",
    createTrigger "external_run_imports" "external_run_imports_write_once_update",
    createTrigger "external_run_imports" "external_run_imports_permanent_delete"]

/-- `_MIGRATION_5` -/
def migration5 : List RegistryStatement :=
  [createTrigger "predictions" "predictions_quarantine_requires_evidence",
    createTrigger "predictions" "predictions_quarantine_terminal",
    createTrigger "integrity_violations" "integrity_violations_write_once_update",
    createTrigger "integrity_violations" "integrity_violations_permanent_delete"]

/-- `_MIGRATION_6`; its temporary table is part of the effect on rows. -/
def migration6 : List RegistryStatement :=
  [.rows .record_touched_windows,
    createTrigger "touched_windows" "touched_windows_write_once_update",
    createTrigger "touched_windows" "touched_windows_permanent_delete"]

/-- `_MIGRATION_7` -/
def migration7 : List RegistryStatement :=
  [createTable "run_results",
    createTrigger "run_results" "run_results_require_successful_bound_run",
    createTrigger "run_results" "run_results_write_once_update",
    createTrigger "run_results" "run_results_permanent_delete",
    createIndex "idx_run_results_source_timestamp" "run_results"]

/-- `_MIGRATION_VERSION` -/
def migrationVersion : Nat := 7

/-- `_MIGRATIONS` -/
def migrations : Nat → List RegistryStatement
  | 1 => migration1
  | 2 => migration2
  | 3 => migration3
  | 4 => migration4
  | 5 => migration5
  | 6 => migration6
  | 7 => migration7
  | _ => []

/-- A registry file: its objects, its rows, and the versions it is stamped with. -/
structure RegistryFile (ρ : Type) where
  catalog : Catalog Text
  rows : ρ
  applied : List Nat
  user_version : Nat

/-- The table of the applied versions. -/
def schemaMigrations : SchemaObject Text :=
  ⟨.table, text "schema_migrations", text "schema_migrations"⟩

/-- Where `_migrate` stands: before it creates the table of versions, before it lists them, with the
versions that are still to be applied, and at its end. -/
inductive MigratePhase where
  | connected
  | listing
  | applying (versions : List Nat)
  | ended (result : Except Error Unit)

/-- The result with which a process ended. -/
def MigratePhase.result? : MigratePhase → Option (Except Error Unit)
  | .ended result => some result
  | _ => none

theorem MigratePhase.result?_eq_some {phase : MigratePhase} {result : Except Error Unit}
    (h : phase.result? = some result) : phase = .ended result := by
  cases phase with
  | ended result' => rw [Option.some.inj h]
  | _ => cases h

/-- `IntegrityError` of a version that is not supported -/
def unsupportedVersion : Error := .integrityError (text "unsupported registry version")

section

variable {ρ : Type} (perform : RegistryEffect → ρ → Option ρ)

/-- The script of a version, with the stamps that follow it. -/
def applyMigration (version : Nat) (file : RegistryFile ρ) : Option (RegistryFile ρ) :=
  (SchemaStatement.runAll perform (migrations version) (file.catalog, file.rows)).map fun database =>
    { catalog := database.1, rows := database.2
      applied := if version ∈ file.applied then file.applied else file.applied ++ [version]
      user_version := version }

/-- A step of `_migrate`. -/
def migrateStep (file : RegistryFile ρ) : MigratePhase → RegistryFile ρ × MigratePhase
  | .connected => ({ file with
      catalog := (Catalog.create file.catalog true schemaMigrations).getD file.catalog }, .listing)
  | .listing => (file, .applying ((List.range' 1 migrationVersion).filter (· ∉ file.applied)))
  | .applying (version :: versions) =>
    match applyMigration perform version file with
    | some file' => (file', .applying versions)
    | none => (file, .ended (.error (.sqliteError (text "migration failed"))))
  | .applying [] =>
    (file, .ended (if file.user_version = migrationVersion then .ok () else .error unsupportedVersion))
  | .ended result => (file, .ended result)

end

/-- Any number of processes that open a registry file. -/
structure Initialisations (π ρ : Type) where
  file : RegistryFile ρ
  phase : π → MigratePhase

/-- The objects of a registry at a version. -/
def schemaAt : Nat → Catalog Text
  | 0 => [schemaMigrations]
  | m + 1 => ((schemaAt m).executeAll (migrations (m + 1))).getD []

/-- What a script does to the objects of a registry that has reached some version. -/
def expectedCatalog (m version : Nat) : Option (Catalog Text) :=
  if version = m + 1 then some (schemaAt version)
  else if version ≤ 2 then some (schemaAt m) else none

/-- The next script is applied; the first two change nothing when they are run again, and the others
fail. -/
theorem executeAll_schemaAt : ∀ m ∈ List.range 8, ∀ version ∈ List.range' 1 7, version ≤ m + 1 →
    (schemaAt m).executeAll (migrations version) = expectedCatalog m version := by
  decide +kernel

theorem create_schemaAt : ∀ m ∈ List.range 8,
    Catalog.create (schemaAt m) true schemaMigrations = some (schemaAt m) := by
  decide +kernel

/-- The first two scripts do nothing to rows. -/
theorem effects_first {version : Nat} (h : version ≤ 2) :
    SchemaStatement.effects (migrations version) = [] := by
  rcases version with _ | _ | _ | version
  · rfl
  · rfl
  · rfl
  · omega

/-- What the migrations between two versions do to rows. -/
def effectsBetween (v m : Nat) : List RegistryEffect :=
  (List.range' (v + 1) (m - v)).flatMap fun version => SchemaStatement.effects (migrations version)

theorem effectsBetween_self (v : Nat) : effectsBetween v v = [] := by
  simp [effectsBetween]

theorem effectsBetween_succ {v m : Nat} (h : v ≤ m) :
    effectsBetween v (m + 1) = effectsBetween v m ++ SchemaStatement.effects (migrations (m + 1)) := by
  have hlast : List.range' (v + 1) (m + 1 - v) = List.range' (v + 1) (m - v) ++ [m + 1] := by
    rw [Nat.sub_add_comm h, List.range'_concat]
    congr 2
    omega
  rw [effectsBetween, hlast, List.flatMap_append, List.flatMap_singleton]
  rfl

namespace RegistryFile

variable {ρ : Type} {perform : RegistryEffect → ρ → Option ρ} {v m version : Nat} {rows : ρ}
  {file : RegistryFile ρ}

/-- The file has reached a version: each script up to it took effect once, in order, on the rows that
the file began with, and it is stamped with these versions. -/
structure Level (perform : RegistryEffect → ρ → Option ρ) (v : Nat) (rows : ρ) (m : Nat)
    (file : RegistryFile ρ) : Prop where
  bounds : v ≤ m ∧ m ≤ migrationVersion
  catalog : file.catalog = schemaAt m ∨ (m = 0 ∧ file.catalog = [])
  applied : file.applied = List.range' 1 m
  rows : SchemaStatement.performAll perform (effectsBetween v m) rows = some file.rows

theorem Level.mem_applied (h : file.Level perform v rows m) :
    version ∈ file.applied ↔ 1 ≤ version ∧ version ≤ m := by
  rw [h.applied, List.mem_range'_1]
  omega

/-- The table of versions was created. -/
theorem Level.created (h : file.Level perform v rows m) :
    Level perform v rows m { file with
        catalog := (Catalog.create file.catalog true schemaMigrations).getD file.catalog } ∧
      (Catalog.create file.catalog true schemaMigrations).getD file.catalog = schemaAt m := by
  have hcreated : (Catalog.create file.catalog true schemaMigrations).getD file.catalog =
      schemaAt m := by
    rcases h.catalog with hcatalog | ⟨rfl, hcatalog⟩
    · rw [hcatalog, create_schemaAt m (List.mem_range.mpr (Nat.lt_succ_of_le h.bounds.2))]
      rfl
    · rw [hcatalog]
      rfl
  exact ⟨⟨h.bounds, Or.inl hcreated, h.applied, h.rows⟩, hcreated⟩

/-- What a script of a version that is not too high does to a file. -/
theorem Level.apply_eq (h : file.Level perform v rows m) (hcatalog : file.catalog = schemaAt m)
    (hversion : 1 ≤ version ∧ version ≤ m + 1) (hlast : version ≤ migrationVersion) :
    applyMigration perform version file = (expectedCatalog m version).bind fun catalog =>
      (SchemaStatement.performAll perform (SchemaStatement.effects (migrations version))
        file.rows).map fun rows => ⟨catalog, rows,
          if version ∈ file.applied then file.applied else file.applied ++ [version], version⟩ := by
  have hexecutes := executeAll_schemaAt m (List.mem_range.mpr (Nat.lt_succ_of_le h.bounds.2)) version
    (List.mem_range'_1.mpr ⟨hversion.1, Nat.lt_succ_of_le hlast⟩) hversion.2
  rw [applyMigration, SchemaStatement.runAll_eq, hcatalog, hexecutes]
  cases expectedCatalog m version with
  | none => rfl
  | some catalog =>
    simp only [Option.bind_some, Option.map_map]
    rfl

/-- The next script is applied, unless its rows are refused. -/
theorem Level.next (h : file.Level perform v rows m) (hcatalog : file.catalog = schemaAt m)
    (hm : m < migrationVersion) {file' : RegistryFile ρ}
    (happly : applyMigration perform (m + 1) file = some file') :
    file'.Level perform v rows (m + 1) ∧ file'.catalog = schemaAt (m + 1) ∧
      file'.user_version = m + 1 := by
  rw [h.apply_eq hcatalog ⟨by omega, Nat.le_refl _⟩ hm, expectedCatalog, if_pos rfl, Option.bind_some]
    at happly
  obtain ⟨rows', hrows', rfl⟩ := Option.map_eq_some_iff.mp happly
  have hnew : m + 1 ∉ file.applied := fun hmem => Nat.not_succ_le_self m (h.mem_applied.mp hmem).2
  refine ⟨⟨⟨by have := h.bounds.1; omega, hm⟩, Or.inl rfl, ?_, ?_⟩, rfl, rfl⟩
  · rw [if_neg hnew, h.applied, List.range'_concat, Nat.one_mul, Nat.add_comm 1 m]
  · rw [effectsBetween_succ h.bounds.1, SchemaStatement.performAll_append, h.rows]
    exact hrows'

/-- Rows that no constraint refuses do not keep the next script from being applied. -/
theorem Level.isSome_next (h : file.Level perform v rows m) (hcatalog : file.catalog = schemaAt m)
    (hm : m < migrationVersion) (hvalid : ∀ effect rows, (perform effect rows).isSome = true) :
    (applyMigration perform (m + 1) file).isSome = true := by
  rw [h.apply_eq hcatalog ⟨by omega, Nat.le_refl _⟩ hm, expectedCatalog, if_pos rfl, Option.bind_some,
    Option.isSome_map]
  exact SchemaStatement.isSome_performAll hvalid _ _

/-- One of the first two scripts is applied again. -/
theorem Level.again (h : file.Level perform v rows m) (hcatalog : file.catalog = schemaAt m)
    (hversion : 1 ≤ version ∧ version ≤ m) (hfirst : version ≤ 2) :
    applyMigration perform version file = some { file with user_version := version } := by
  have hbound : version ≤ migrationVersion := Nat.le_trans hversion.2 h.bounds.2
  rw [h.apply_eq hcatalog ⟨hversion.1, by omega⟩ hbound, expectedCatalog, if_neg (by omega),
    if_pos hfirst, effects_first hfirst, if_pos (h.mem_applied.mpr hversion), ← hcatalog]
  rfl

/-- Any other script fails when it is applied again. -/
theorem Level.fails (h : file.Level perform v rows m) (hcatalog : file.catalog = schemaAt m)
    (hversion : version ≤ m) (hlater : 3 ≤ version) :
    applyMigration perform version file = none := by
  have hbound : version ≤ migrationVersion := Nat.le_trans hversion h.bounds.2
  rw [h.apply_eq hcatalog ⟨by omega, by omega⟩ hbound, expectedCatalog, if_neg (by omega),
    if_neg (by omega)]
  rfl

end RegistryFile

/-! ## Interleavings -/

theorem ite_eq_ok {condition : Prop} [Decidable condition] {e : Error} :
    (if condition then Except.ok () else Except.error e) = Except.ok () ↔ condition := by
  split
  · rename_i h
    exact ⟨fun _ => h, fun _ => rfl⟩
  · rename_i h
    refine ⟨fun herror => ?_, fun hc => absurd hc h⟩
    cases herror

namespace Initialisations

section

variable {π ρ : Type} (perform : RegistryEffect → ρ → Option ρ)

/-- A file of some version, before any process opens it. -/
def initial (v : Nat) (rows : ρ) : Initialisations π ρ :=
  ⟨⟨if v = 0 then [] else schemaAt v, rows, List.range' 1 v, v⟩, fun _ => .connected⟩

/-- A process takes its next step; a process that takes none any more has died. -/
def Step [DecidableEq π] (s : Initialisations π ρ) (p : π) (t : Initialisations π ρ) : Prop :=
  t = ⟨(migrateStep perform s.file (s.phase p)).1,
    Function.update s.phase p (migrateStep perform s.file (s.phase p)).2⟩

/-- The process commits the script of a version. -/
def Commits (s : Initialisations π ρ) (p : π) (version : Nat) : Prop :=
  (∃ versions, s.phase p = .applying (version :: versions)) ∧
    (applyMigration perform version s.file).isSome = true

/-- It commits a script for the first time. -/
def First (x : Initialisations π ρ × π) : Prop :=
  ∃ version, x.1.Commits perform x.2 version ∧ version ∉ x.1.file.applied

/-- It commits a script that was applied before. -/
def Again (x : Initialisations π ρ × π) : Prop :=
  ∃ version, x.1.Commits perform x.2 version ∧ version ∈ x.1.file.applied

/-- Another process commits one of the later scripts, while this one has listed the applied versions
and has not ended. -/
def Overtakes (p : π) (x : Initialisations π ρ × π) : Prop :=
  x.2 ≠ p ∧ (∃ versions, x.1.phase p = .applying versions) ∧
    ∃ version, 3 ≤ version ∧ x.1.Commits perform x.2 version

/-- Since a script was last applied for the first time, some script was applied again. -/
def Regressed (trace : List (Initialisations π ρ × π)) : Prop :=
  ∃ before x after, trace = before ++ x :: after ∧ Again perform x ∧ ∀ y ∈ after, ¬ First perform y

/-- The process looked at the version of the file when it was set back. -/
def Misled (p : π) (trace : List (Initialisations π ρ × π)) : Prop :=
  ∃ before x after, trace = before ++ x :: after ∧
    (x.2 = p ∧ x.1.phase p = .applying []) ∧ Regressed perform before

end

variable {π ρ : Type} {perform : RegistryEffect → ρ → Option ρ} {v m : Nat} {rows : ρ}
  {s t : Initialisations π ρ} {p q : π} {trace : List (Initialisations π ρ × π)}

theorem Step.file [DecidableEq π] (h : Step perform s q t) :
    t.file = (migrateStep perform s.file (s.phase q)).1 := congrArg Initialisations.file h

theorem Step.own [DecidableEq π] (h : Step perform s q t) :
    t.phase q = (migrateStep perform s.file (s.phase q)).2 := by
  rw [congrArg Initialisations.phase h]
  exact Function.update_self _ _ _

theorem Step.other [DecidableEq π] (h : Step perform s q t) (hne : p ≠ q) :
    t.phase p = s.phase p := by
  rw [congrArg Initialisations.phase h]
  exact Function.update_of_ne hne _ _

theorem regressed_snoc (x : Initialisations π ρ × π) : Regressed perform (trace ++ [x]) ↔
    Again perform x ∨ (Regressed perform trace ∧ ¬ First perform x) := by
  constructor
  · rintro ⟨before, y, after, htrace, hagain, hnone⟩
    rcases List.eq_nil_or_concat' after with rfl | ⟨after, last, rfl⟩
    · obtain ⟨rfl, hsame⟩ := List.append_inj' htrace rfl
      obtain rfl := List.singleton_inj.mp hsame
      exact Or.inl hagain
    · rw [← List.cons_append, ← List.append_assoc] at htrace
      obtain ⟨rfl, hsame⟩ := List.append_inj' htrace rfl
      obtain rfl := List.singleton_inj.mp hsame
      exact Or.inr ⟨⟨before, y, after, rfl, hagain, fun z hz => hnone z (List.mem_append_left _ hz)⟩,
        hnone _ (List.mem_append_right _ (List.mem_singleton_self _))⟩
  · rintro (hagain | ⟨⟨before, y, after, rfl, hagain, hnone⟩, hlast⟩)
    · exact ⟨trace, x, [], rfl, hagain, fun y hy => absurd hy List.not_mem_nil⟩
    · refine ⟨before, y, after ++ [x], by simp, hagain, fun z hz => ?_⟩
      rcases List.mem_append.mp hz with hz | hz
      · exact hnone z hz
      · rw [List.mem_singleton.mp hz]
        exact hlast

theorem misled_snoc (x : Initialisations π ρ × π) : Misled perform p (trace ++ [x]) ↔
    Misled perform p trace ∨
      ((x.2 = p ∧ x.1.phase p = .applying []) ∧ Regressed perform trace) := by
  constructor
  · rintro ⟨before, y, after, htrace, hlooks, hregressed⟩
    rcases List.eq_nil_or_concat' after with rfl | ⟨after, last, rfl⟩
    · obtain ⟨rfl, hsame⟩ := List.append_inj' htrace rfl
      obtain rfl := List.singleton_inj.mp hsame
      exact Or.inr ⟨hlooks, hregressed⟩
    · rw [← List.cons_append, ← List.append_assoc] at htrace
      obtain ⟨rfl, -⟩ := List.append_inj' htrace rfl
      exact Or.inl ⟨before, y, after, rfl, hlooks, hregressed⟩
  · rintro (⟨before, y, after, rfl, hlooks, hregressed⟩ | ⟨hlooks, hregressed⟩)
    · exact ⟨before, y, after ++ [x], by simp, hlooks, hregressed⟩
    · exact ⟨trace, x, [], rfl, hlooks, hregressed⟩

/-- The versions from one on. -/
def versionsFrom (k : Nat) : List Nat := List.range' (k + 1) (migrationVersion - k)

theorem mem_versionsFrom {k version : Nat} (hk : k ≤ migrationVersion) :
    version ∈ versionsFrom k ↔ k < version ∧ version ≤ migrationVersion := by
  rw [versionsFrom, List.mem_range'_1]
  omega

theorem versionsFrom_cons {k version : Nat} {versions : List Nat}
    (h : versionsFrom k = version :: versions) :
    version = k + 1 ∧ k < migrationVersion ∧ versions = versionsFrom (k + 1) := by
  unfold versionsFrom at h ⊢
  cases hlength : migrationVersion - k with
  | zero =>
    rw [hlength] at h
    cases h
  | succ n =>
    rw [hlength, List.range'_succ] at h
    obtain ⟨rfl, rfl⟩ := List.cons.inj h
    refine ⟨rfl, by omega, ?_⟩
    congr 1
    omega

theorem missing_versions : ∀ m ∈ List.range 8, (List.range' 1 migrationVersion).filter
    (fun version => decide (version ∉ List.range' 1 m)) = versionsFrom m := by
  decide +kernel

/-- Where the file stands, and what the processes that have listed its versions go on from. -/
structure Migrating (perform : RegistryEffect → ρ → Option ρ) (v : Nat) (rows : ρ)
    (trace : List (Initialisations π ρ × π)) (m : Nat) (s : Initialisations π ρ) : Prop where
  level : s.file.Level perform v rows m
  created : ∀ q, s.phase q ≠ .connected → s.file.catalog = schemaAt m
  planned : ∀ q versions, s.phase q = .applying versions →
    ∃ k, (v ≤ k ∧ k ≤ m) ∧ versions = versionsFrom k
  current : ¬ Regressed perform trace → s.file.user_version = m
  regressed : Regressed perform trace → s.file.user_version ≤ 2

/-- What the next step of a process does to a file that has reached a version. -/
inductive Moves (perform : RegistryEffect → ρ → Option ρ) (s : Initialisations π ρ) (q : π)
    (v m : Nat) : RegistryFile ρ × MigratePhase → Prop
  | creates : s.phase q = .connected → Moves perform s q v m (⟨schemaAt m, s.file.rows, s.file.applied,
      s.file.user_version⟩, .listing)
  | lists : s.phase q = .listing → Moves perform s q v m (s.file, .applying (versionsFrom m))
  | applies (file : RegistryFile ρ) : s.phase q = .applying (versionsFrom m) → m < migrationVersion →
      applyMigration perform (m + 1) s.file = some file →
      Moves perform s q v m (file, .applying (versionsFrom (m + 1)))
  | repeats (k : Nat) : s.phase q = .applying (versionsFrom k) → v ≤ k → k + 1 ≤ m → k + 1 ≤ 2 →
      Moves perform s q v m ({ s.file with user_version := k + 1 }, .applying (versionsFrom (k + 1)))
  | fails (k : Nat) (e : Error) : s.phase q = .applying (versionsFrom k) → k < migrationVersion →
      (k = m ∧ applyMigration perform (m + 1) s.file = none ∨ k + 1 ≤ m ∧ 3 ≤ k + 1) →
      Moves perform s q v m (s.file, .ended (.error e))
  | checks : s.phase q = .applying [] → m = migrationVersion → Moves perform s q v m (s.file,
      .ended (if s.file.user_version = migrationVersion then .ok () else .error unsupportedVersion))
  | rests (result : Except Error Unit) : s.phase q = .ended result →
      Moves perform s q v m (s.file, .ended result)

theorem Migrating.moves (hs : s.Migrating perform v rows trace m) (q : π) :
    Moves perform s q v m (migrateStep perform s.file (s.phase q)) := by
  cases hphase : s.phase q with
  | connected =>
    rw [migrateStep, hs.level.created.2]
    exact .creates hphase
  | listing =>
    rw [migrateStep, hs.level.applied,
      missing_versions m (List.mem_range.mpr (Nat.lt_succ_of_le hs.level.bounds.2))]
    exact .lists hphase
  | ended result => exact .rests result hphase
  | applying versions =>
    obtain ⟨k, ⟨hbegan, hk⟩, rfl⟩ := hs.planned q versions hphase
    have hcatalog : s.file.catalog = schemaAt m := by
      refine hs.created q fun h => ?_
      rw [hphase] at h
      cases h
    cases hversions : versionsFrom k with
    | nil =>
      have hlast : ¬ k < migrationVersion := by
        intro hlt
        have hmem := (mem_versionsFrom (Nat.le_of_lt hlt)).mpr ⟨Nat.lt_succ_self k, hlt⟩
        rw [hversions] at hmem
        cases hmem
      rw [hversions] at hphase
      exact .checks hphase (by have := hs.level.bounds.2; omega)
    | cons version rest =>
      obtain ⟨rfl, hlast, rfl⟩ := versionsFrom_cons hversions
      rw [migrateStep]
      rcases Nat.lt_or_ge k m with hlt | hge
      · by_cases hfirst : k + 1 ≤ 2
        · rw [hs.level.again hcatalog ⟨by omega, hlt⟩ hfirst]
          exact .repeats k hphase hbegan hlt hfirst
        · rw [hs.level.fails hcatalog hlt (by omega)]
          exact .fails k _ hphase hlast (Or.inr ⟨hlt, by omega⟩)
      · obtain rfl : k = m := by omega
        cases happly : applyMigration perform (k + 1) s.file with
        | none => exact .fails k _ hphase hlast (Or.inl ⟨rfl, happly⟩)
        | some file => exact .applies file hphase hlast happly

theorem versionsFrom_succ {k : Nat} (h : k < migrationVersion) :
    versionsFrom k = (k + 1) :: versionsFrom (k + 1) := by
  obtain ⟨n, hn⟩ := Nat.exists_eq_add_of_lt h
  have hlength : migrationVersion - k = migrationVersion - (k + 1) + 1 := by omega
  rw [versionsFrom, hlength, List.range'_succ]
  rfl

theorem versionsFrom_inj {k l : Nat} (hk : k ≤ migrationVersion) (hl : l ≤ migrationVersion)
    (h : versionsFrom k = versionsFrom l) : k = l := by
  have hlength := congrArg List.length h
  rw [versionsFrom, versionsFrom, List.length_range', List.length_range'] at hlength
  omega

theorem Migrating.catalog_of_applying (hs : s.Migrating perform v rows trace m) {versions : List Nat}
    (hphase : s.phase q = .applying versions) : s.file.catalog = schemaAt m := by
  refine hs.created q fun h => ?_
  rw [hphase] at h
  cases h

/-- The process is about to apply the next script. -/
theorem Migrating.first_iff (hs : s.Migrating perform v rows trace m) :
    First perform (s, q) ↔ s.phase q = .applying (versionsFrom m) ∧ m < migrationVersion ∧
      (applyMigration perform (m + 1) s.file).isSome = true := by
  constructor
  · rintro ⟨version, ⟨⟨versions, hphase⟩, hsome⟩, hnew⟩
    obtain ⟨k, ⟨-, hk⟩, hversions⟩ := hs.planned q _ hphase
    obtain ⟨rfl, hlast, -⟩ := versionsFrom_cons hversions.symm
    rw [hs.level.mem_applied] at hnew
    obtain rfl : k = m := by omega
    exact ⟨hversions ▸ hphase, hlast, hsome⟩
  · rintro ⟨hphase, hlast, hsome⟩
    refine ⟨m + 1, ⟨⟨versionsFrom (m + 1), ?_⟩, hsome⟩, fun hmem => ?_⟩
    · rw [← versionsFrom_succ hlast]
      exact hphase
    · exact Nat.not_succ_le_self m (hs.level.mem_applied.mp hmem).2

/-- The process is about to apply one of the first two scripts again. -/
theorem Migrating.again_iff (hs : s.Migrating perform v rows trace m) :
    Again perform (s, q) ↔
      ∃ k, s.phase q = .applying (versionsFrom k) ∧ v ≤ k ∧ k + 1 ≤ m ∧ k + 1 ≤ 2 := by
  constructor
  · rintro ⟨version, ⟨⟨versions, hphase⟩, hsome⟩, hmem⟩
    obtain ⟨k, ⟨hbegan, -⟩, hversions⟩ := hs.planned q _ hphase
    obtain ⟨rfl, hlast, -⟩ := versionsFrom_cons hversions.symm
    have hle := (hs.level.mem_applied.mp hmem).2
    refine ⟨k, hversions ▸ hphase, hbegan, hle, ?_⟩
    by_contra hlater
    rw [hs.level.fails (hs.catalog_of_applying hphase) hle (by omega)] at hsome
    cases hsome
  · rintro ⟨k, hphase, -, hle, hfirst⟩
    have hlast : k < migrationVersion := Nat.lt_of_lt_of_le hle hs.level.bounds.2
    have hagain := hs.level.again (hs.catalog_of_applying hphase) ⟨by omega, hle⟩ hfirst
    rw [versionsFrom_succ hlast] at hphase
    exact ⟨k + 1, ⟨⟨_, hphase⟩, by rw [hagain]; rfl⟩, hs.level.mem_applied.mpr ⟨by omega, hle⟩⟩

/-- A step that commits nothing leaves it to the earlier ones whether the file is set back. -/
theorem regressed_quiet {x : Initialisations π ρ × π} (hfirst : ¬ First perform x)
    (hagain : ¬ Again perform x) : Regressed perform (trace ++ [x]) ↔ Regressed perform trace := by
  rw [regressed_snoc]
  simp [hfirst, hagain]

/-- A process that is not about to apply a script commits nothing. -/
theorem Migrating.quiet (hs : s.Migrating perform v rows trace m)
    (hphase : ∀ k < migrationVersion, s.phase q ≠ .applying (versionsFrom k)) :
    ¬ First perform (s, q) ∧ ¬ Again perform (s, q) := by
  refine ⟨fun h => ?_, fun h => ?_⟩
  · obtain ⟨happlies, hlast, -⟩ := hs.first_iff.mp h
    exact hphase m hlast happlies
  · obtain ⟨k, happlies, -, hle, -⟩ := hs.again_iff.mp h
    exact hphase k (Nat.lt_of_lt_of_le hle hs.level.bounds.2) happlies

/-- A process whose script fails commits nothing. -/
theorem Migrating.quiet_of_fails (hs : s.Migrating perform v rows trace m) {k : Nat}
    (hphase : s.phase q = .applying (versionsFrom k)) (hlast : k < migrationVersion)
    (hfails : k = m ∧ applyMigration perform (m + 1) s.file = none ∨ k + 1 ≤ m ∧ 3 ≤ k + 1) :
    ¬ First perform (s, q) ∧ ¬ Again perform (s, q) := by
  have hsame : ∀ {l : Nat}, l ≤ migrationVersion → s.phase q = .applying (versionsFrom l) → k = l := by
    intro l hl hother
    rw [hphase] at hother
    exact versionsFrom_inj (Nat.le_of_lt hlast) hl (MigratePhase.applying.inj hother)
  refine ⟨fun h => ?_, fun h => ?_⟩
  · obtain ⟨happlies, -, hsome⟩ := hs.first_iff.mp h
    obtain rfl := hsame hs.level.bounds.2 happlies
    rcases hfails with ⟨-, hnone⟩ | ⟨hle, -⟩
    · rw [hnone] at hsome
      cases hsome
    · omega
  · obtain ⟨l, happlies, -, hle, hfirst⟩ := hs.again_iff.mp h
    obtain rfl := hsame (Nat.le_of_succ_le (Nat.le_trans hle hs.level.bounds.2)) happlies
    omega

/-- Every step keeps the file at its version, or takes it to the next one. -/
theorem Migrating.step [DecidableEq π] (hs : s.Migrating perform v rows trace m)
    (h : Step perform s q t) : ∃ m', t.Migrating perform v rows (trace ++ [(s, q)]) m' ∧
      (First perform (s, q) ∧ m' = m + 1 ∨ ¬ First perform (s, q) ∧ m' = m) := by
  have hmove := hs.moves q
  obtain rfl := h
  revert hmove
  generalize migrateStep perform s.file (s.phase q) = next
  intro hmove
  have hmoved : ∀ {m' : Nat}, m ≤ m' → next.1.Level perform v rows m' →
      next.1.catalog = schemaAt m' →
      (∀ versions, next.2 = .applying versions →
        ∃ k, (v ≤ k ∧ k ≤ m') ∧ versions = versionsFrom k) →
      (¬ Regressed perform (trace ++ [(s, q)]) → next.1.user_version = m') →
      (Regressed perform (trace ++ [(s, q)]) → next.1.user_version ≤ 2) →
      Migrating perform v rows (trace ++ [(s, q)]) m' ⟨next.1, Function.update s.phase q next.2⟩ := by
    intro m' hm hlevel hcatalog hplanned hcurrent hregressed
    refine ⟨hlevel, fun _ _ => hcatalog, fun r versions hr => ?_, hcurrent, hregressed⟩
    simp only [Function.update_apply] at hr
    split at hr
    · exact hplanned versions hr
    · obtain ⟨k, ⟨hbegan, hk⟩, hversions⟩ := hs.planned r versions hr
      exact ⟨k, ⟨hbegan, Nat.le_trans hk hm⟩, hversions⟩
  have hkept : ¬ First perform (s, q) ∧ ¬ Again perform (s, q) → next.1 = { s.file with
      catalog := schemaAt m } →
      (∀ versions, next.2 = .applying versions →
        ∃ k, (v ≤ k ∧ k ≤ m) ∧ versions = versionsFrom k) →
      Migrating perform v rows (trace ++ [(s, q)]) m ⟨next.1, Function.update s.phase q next.2⟩ := by
    intro hquiet hfile hplanned
    refine hmoved (Nat.le_refl m) ?_ ?_ hplanned ?_ ?_
    · rw [hfile]
      exact ⟨hs.level.bounds, Or.inl rfl, hs.level.applied, hs.level.rows⟩
    · rw [hfile]
    · rw [regressed_quiet hquiet.1 hquiet.2, hfile]
      exact hs.current
    · rw [regressed_quiet hquiet.1 hquiet.2, hfile]
      exact hs.regressed
  have hidle : ∀ {phase : MigratePhase}, s.phase q = phase → (∀ versions, phase ≠ .applying versions) →
      ¬ First perform (s, q) ∧ ¬ Again perform (s, q) :=
    fun hphase hidle => hs.quiet fun k _ h => hidle _ (hphase.symm.trans h)
  cases hmove with
  | creates hphase =>
    have hquiet := hidle hphase (by simp)
    refine ⟨m, hkept hquiet rfl fun versions h => ?_, Or.inr ⟨hquiet.1, rfl⟩⟩
    cases h
  | lists hphase =>
    have hcatalog := hs.created q (by simp [hphase])
    have hquiet := hidle hphase (by simp)
    refine ⟨m, hkept hquiet (by rw [← hcatalog]) fun versions h => ?_, Or.inr ⟨hquiet.1, rfl⟩⟩
    exact ⟨m, ⟨hs.level.bounds.1, Nat.le_refl m⟩, (MigratePhase.applying.inj h).symm⟩
  | rests result hphase =>
    have hcatalog := hs.created q (by simp [hphase])
    have hquiet := hidle hphase (by simp)
    refine ⟨m, hkept hquiet (by rw [← hcatalog]) fun versions h => ?_, Or.inr ⟨hquiet.1, rfl⟩⟩
    cases h
  | checks hphase hm =>
    have hcatalog := hs.catalog_of_applying hphase
    have hquiet := hs.quiet (q := q) fun k hk h => by
      rw [hphase, versionsFrom_succ hk] at h
      cases h
    refine ⟨m, hkept hquiet (by rw [← hcatalog]) fun versions h => ?_, Or.inr ⟨hquiet.1, rfl⟩⟩
    cases h
  | fails k e hphase hlast hfails =>
    have hcatalog := hs.catalog_of_applying hphase
    have hquiet := hs.quiet_of_fails hphase hlast hfails
    refine ⟨m, hkept hquiet (by rw [← hcatalog]) fun versions h => ?_, Or.inr ⟨hquiet.1, rfl⟩⟩
    cases h
  | applies file hphase hlast happly =>
    obtain ⟨hlevel, hcatalog, hversion⟩ := hs.level.next (hs.catalog_of_applying hphase) hlast happly
    have hfirst : First perform (s, q) := hs.first_iff.mpr ⟨hphase, hlast, by rw [happly]; rfl⟩
    have hnot : ¬ Again perform (s, q) := by
      intro h
      obtain ⟨k, happlies, -, hle, -⟩ := hs.again_iff.mp h
      rw [hphase] at happlies
      have := versionsFrom_inj hs.level.bounds.2 (by have := hs.level.bounds.2; omega)
        (MigratePhase.applying.inj happlies)
      omega
    refine ⟨m + 1, hmoved (Nat.le_succ m) hlevel hcatalog (fun versions h => ?_)
      (fun _ => hversion) (fun h => ?_), Or.inl ⟨hfirst, rfl⟩⟩
    · exact ⟨m + 1, ⟨hlevel.bounds.1, Nat.le_refl _⟩, (MigratePhase.applying.inj h).symm⟩
    · rw [regressed_snoc] at h
      simp [hfirst, hnot] at h
  | repeats k hphase hbegan hle hfirst =>
    have hcatalog := hs.catalog_of_applying hphase
    have hagain : Again perform (s, q) := hs.again_iff.mpr ⟨k, hphase, hbegan, hle, hfirst⟩
    have hnot : ¬ First perform (s, q) := by
      intro h
      obtain ⟨happlies, -, -⟩ := hs.first_iff.mp h
      rw [hphase] at happlies
      have := versionsFrom_inj (by have := hs.level.bounds.2; omega) hs.level.bounds.2
        (MigratePhase.applying.inj happlies)
      omega
    refine ⟨m, hmoved (Nat.le_refl m) ⟨hs.level.bounds, Or.inl hcatalog, hs.level.applied,
      hs.level.rows⟩ hcatalog (fun versions h => ?_) (fun h => ?_) (fun _ => hfirst),
      Or.inr ⟨hnot, rfl⟩⟩
    · exact ⟨k + 1, ⟨Nat.le_succ_of_le hbegan, hle⟩, (MigratePhase.applying.inj h).symm⟩
    · exact absurd ((regressed_snoc _).mpr (Or.inl hagain)) h

/-- However processes open a registry, its file is at some version. -/
theorem migrating_of_run [DecidableEq π] (hv : v ≤ migrationVersion)
    (h : Run (Step perform) (initial v rows) trace t) :
    ∃ m, t.Migrating perform v rows trace m := by
  induction h with
  | nil =>
    refine ⟨v, ⟨⟨Nat.le_refl v, hv⟩, ?_, rfl, ?_⟩, fun q hq => absurd rfl hq, fun q versions hq => ?_,
      fun _ => rfl, fun h => ?_⟩
    · by_cases hzero : v = 0
      · exact Or.inr ⟨hzero, if_pos hzero⟩
      · exact Or.inl (if_neg hzero)
    · rw [effectsBetween_self]
      rfl
    · cases hq
    · obtain ⟨before, x, after, htrace, -⟩ := h
      simp at htrace
  | snoc _ hstep ih =>
    obtain ⟨m, hs⟩ := ih
    obtain ⟨m', ht, -⟩ := hs.step hstep
    exact ⟨m', ht⟩

/-- However any number of processes open a registry of a version, and wherever they fail or die: the
versions it is stamped with are the first ones, its objects are those of the last of these, and each
script after the version it began with took effect on the rows once, in order. -/
theorem applied_once [DecidableEq π] (hv : v ≤ migrationVersion)
    (h : Run (Step perform) (initial v rows) trace t) : ∃ m, v ≤ m ∧ m ≤ migrationVersion ∧
      t.file.applied = List.range' 1 m ∧
      (t.file.catalog = schemaAt m ∨ (m = 0 ∧ t.file.catalog = [])) ∧
      SchemaStatement.performAll perform (effectsBetween v m) rows = some t.file.rows := by
  obtain ⟨m, ht⟩ := migrating_of_run hv h
  exact ⟨m, ht.level.bounds.1, ht.level.bounds.2, ht.level.applied, ht.level.catalog, ht.level.rows⟩

/-! ## Outcomes -/

/-- What a process comes to: once it was overtaken it has a script ahead that fails, and it ends well
if it was neither overtaken nor misled. -/
def Fate (overtaken misled : Prop) (m : Nat) : MigratePhase → Prop
  | .connected | .listing => ¬ overtaken ∧ ¬ misled
  | .applying versions =>
    ¬ misled ∧ (overtaken ↔ ∃ version ∈ versions, 3 ≤ version ∧ version ≤ m)
  | .ended result => result = .ok () ↔ ¬ overtaken ∧ ¬ misled

/-- A file that all scripts were applied to has the right version unless it was set back. -/
theorem Migrating.version_iff (hs : s.Migrating perform v rows trace m) (hm : m = migrationVersion) :
    s.file.user_version = migrationVersion ↔ ¬ Regressed perform trace := by
  constructor
  · intro hcurrent hregressed
    have hlow := hs.regressed hregressed
    rw [hcurrent] at hlow
    exact absurd hlow (by decide)
  · exact fun hcurrent => (hs.current hcurrent).trans hm

/-- A process is overtaken by the first run of a later script. -/
theorem Migrating.overtakes_iff (hs : s.Migrating perform v rows trace m) :
    Overtakes perform p (s, q) ↔ q ≠ p ∧ (∃ versions, s.phase p = .applying versions) ∧
      First perform (s, q) ∧ 3 ≤ m + 1 := by
  refine and_congr_right fun _ => and_congr_right fun _ => ?_
  constructor
  · rintro ⟨version, hlater, hcommits⟩
    have hfirst : First perform (s, q) := by
      refine ⟨version, hcommits, fun hmem => ?_⟩
      obtain ⟨⟨versions, hphase⟩, hsome⟩ := hcommits
      rw [hs.level.fails (hs.catalog_of_applying hphase) (hs.level.mem_applied.mp hmem).2 hlater] at hsome
      cases hsome
    refine ⟨hfirst, ?_⟩
    obtain ⟨hphase, hlast, -⟩ := hs.first_iff.mp hfirst
    obtain ⟨⟨versions, hother⟩, -⟩ := hcommits
    rw [hphase, versionsFrom_succ hlast] at hother
    obtain ⟨rfl, -⟩ := List.cons.inj (MigratePhase.applying.inj hother)
    exact hlater
  · rintro ⟨hfirst, hlater⟩
    obtain ⟨hphase, hlast, hsome⟩ := hs.first_iff.mp hfirst
    rw [versionsFrom_succ hlast] at hphase
    exact ⟨m + 1, hlater, ⟨_, hphase⟩, hsome⟩

/-- A step of another process. -/
theorem Fate.other (hs : s.Migrating perform v rows trace m) (hne : q ≠ p) {m' : Nat}
    (hm : First perform (s, q) ∧ m' = m + 1 ∨ ¬ First perform (s, q) ∧ m' = m) {overtaken misled : Prop}
    (h : Fate overtaken misled m (s.phase p)) :
    Fate (overtaken ∨ Overtakes perform p (s, q)) misled m' (s.phase p) := by
  have hnot : (¬ ∃ versions, s.phase p = .applying versions) → ¬ Overtakes perform p (s, q) :=
    fun hnone hover => hnone hover.2.1
  cases hphase : s.phase p with
  | connected =>
    rw [hphase] at h
    rw [Fate, or_iff_left (hnot (by simp [hphase]))]
    exact h
  | listing =>
    rw [hphase] at h
    rw [Fate, or_iff_left (hnot (by simp [hphase]))]
    exact h
  | ended result =>
    rw [hphase] at h
    rw [Fate, or_iff_left (hnot (by simp [hphase]))]
    exact h
  | applying versions =>
    rw [hphase] at h
    obtain ⟨hmisled, hiff⟩ := h
    refine ⟨hmisled, ?_⟩
    rw [hiff, hs.overtakes_iff]
    obtain ⟨k, ⟨-, hk⟩, rfl⟩ := hs.planned p versions hphase
    rcases hm with ⟨hfirst, rfl⟩ | ⟨hfirst, rfl⟩
    · obtain ⟨-, hlast, -⟩ := hs.first_iff.mp hfirst
      constructor
      · rintro (⟨version, hmem, hlater, hle⟩ | ⟨-, -, -, hlater⟩)
        · exact ⟨version, hmem, hlater, Nat.le_succ_of_le hle⟩
        · refine ⟨m + 1, (mem_versionsFrom (by omega)).mpr ⟨by omega, hlast⟩, hlater, Nat.le_refl _⟩
      · rintro ⟨version, hmem, hlater, hle⟩
        rcases Nat.lt_or_ge m version with hlt | hge
        · exact Or.inr ⟨hne, ⟨_, hphase⟩, hfirst, by omega⟩
        · exact Or.inl ⟨version, hmem, hlater, hge⟩
    · rw [or_iff_left fun hover => hfirst hover.2.2.1]

/-- A step of the process itself. -/
theorem Fate.own [DecidableEq π] (hs : s.Migrating perform v rows trace m)
    (hvalid : ∀ effect rows, (perform effect rows).isSome = true) {m' : Nat}
    (hm : First perform (s, p) ∧ m' = m + 1 ∨ ¬ First perform (s, p) ∧ m' = m) {overtaken misled : Prop}
    (h : Fate overtaken misled m (s.phase p)) :
    Fate overtaken (misled ∨ (s.phase p = .applying [] ∧ Regressed perform trace)) m'
      (migrateStep perform s.file (s.phase p)).2 := by
  have hmove := hs.moves p
  revert hmove
  generalize migrateStep perform s.file (s.phase p) = next
  intro hmove
  have hbusy : s.phase p ≠ .applying [] →
      (misled ∨ (s.phase p = .applying [] ∧ Regressed perform trace) ↔ misled) :=
    fun hne => or_iff_left fun hchecks => hne hchecks.1
  have hbound := hs.level.bounds.2
  have happlying : ∀ {k : Nat}, k < migrationVersion → s.phase p = .applying (versionsFrom k) →
      s.phase p ≠ .applying [] := by
    intro k hk hphase hempty
    rw [hphase, versionsFrom_succ hk] at hempty
    cases hempty
  cases hmove with
  | creates hphase =>
    rw [hbusy (by simp [hphase])]
    rw [hphase] at h
    exact h
  | lists hphase =>
    have hnot := (hs.quiet (q := p) fun k _ happlies => by rw [hphase] at happlies; cases happlies).1
    obtain rfl : m' = m := (hm.resolve_left fun hfirst => hnot hfirst.1).2
    rw [hbusy (by simp [hphase])]
    rw [hphase] at h
    refine ⟨h.2, fun hover => absurd hover h.1, ?_⟩
    rintro ⟨version, hmem, -, hle⟩
    have := (mem_versionsFrom hbound).mp hmem
    omega
  | applies file hphase hlast happly =>
    have hfirst : First perform (s, p) := hs.first_iff.mpr ⟨hphase, hlast, by rw [happly]; rfl⟩
    obtain rfl : m' = m + 1 := (hm.resolve_right fun hnot => hnot.1 hfirst).2
    rw [hbusy (happlying hlast hphase)]
    rw [hphase] at h
    refine ⟨h.1, fun hover => ?_, ?_⟩
    · obtain ⟨version, hmem, -, hle⟩ := h.2.mp hover
      have := (mem_versionsFrom hbound).mp hmem
      omega
    · rintro ⟨version, hmem, -, hle⟩
      have := (mem_versionsFrom hlast).mp hmem
      omega
  | repeats k hphase hbegan hle hfirst =>
    have hlast : k < migrationVersion := Nat.lt_of_lt_of_le hle hbound
    have hnot : ¬ First perform (s, p) := by
      intro hnew
      obtain ⟨happlies, -, -⟩ := hs.first_iff.mp hnew
      rw [hphase] at happlies
      have := versionsFrom_inj (Nat.le_of_lt hlast) hbound (MigratePhase.applying.inj happlies)
      omega
    obtain rfl : m' = m := (hm.resolve_left fun hnew => hnot hnew.1).2
    rw [hbusy (happlying hlast hphase)]
    rw [hphase] at h
    refine ⟨h.1, h.2.trans ?_⟩
    rw [versionsFrom_succ hlast]
    constructor
    · rintro ⟨version, hmem, hlater, hbelow⟩
      rcases List.mem_cons.mp hmem with rfl | hmem
      · omega
      · exact ⟨version, hmem, hlater, hbelow⟩
    · rintro ⟨version, hmem, hrest⟩
      exact ⟨version, List.mem_cons_of_mem _ hmem, hrest⟩
  | fails k e hphase hlast hfails =>
    rw [hbusy (happlying hlast hphase)]
    rw [hphase] at h
    rcases hfails with ⟨rfl, hnone⟩ | ⟨hle, hlater⟩
    · have hsome := hs.level.isSome_next (hs.catalog_of_applying hphase) hlast hvalid
      rw [hnone] at hsome
      cases hsome
    · have hover := h.2.mpr ⟨k + 1, (mem_versionsFrom (Nat.le_of_lt hlast)).mpr ⟨by omega, hlast⟩,
        hlater, hle⟩
      refine ⟨fun herror => ?_, fun hnone => absurd hover hnone.1⟩
      cases herror
  | checks hphase hm =>
    rw [hphase] at h
    have hover : ¬ overtaken := by
      intro hover
      obtain ⟨version, hmem, -⟩ := h.2.mp hover
      cases hmem
    rw [Fate, ite_eq_ok, hs.version_iff hm]
    simp [h.1, hover, hphase]
  | rests result hphase =>
    rw [hbusy (by simp [hphase])]
    rw [hphase] at h
    exact h

theorem fate_of_run [DecidableEq π] (hv : v ≤ migrationVersion)
    (hvalid : ∀ effect rows, (perform effect rows).isSome = true)
    (h : Run (Step perform) (initial v rows) trace t) (p : π) :
    ∃ m, t.Migrating perform v rows trace m ∧
      Fate (∃ x ∈ trace, Overtakes perform p x) (Misled perform p trace) m (t.phase p) := by
  induction h with
  | nil =>
    obtain ⟨m, hs⟩ := migrating_of_run hv (Run.nil (initial v rows : Initialisations π ρ))
    refine ⟨m, hs, ?_, ?_⟩
    · simp
    · rintro ⟨before, x, after, htrace, -⟩
      simp at htrace
  | @snoc s t trace q _ hstep ih =>
    obtain ⟨m, hs, hfate⟩ := ih
    obtain ⟨m', ht, hm⟩ := hs.step hstep
    refine ⟨m', ht, ?_⟩
    have hover : (∃ x ∈ trace ++ [(s, q)], Overtakes perform p x) ↔
        (∃ x ∈ trace, Overtakes perform p x) ∨ Overtakes perform p (s, q) := by
      simp [or_and_right, exists_or]
    rw [hover, misled_snoc]
    by_cases hself : q = p
    · subst hself
      have hnot : ¬ Overtakes perform q (s, q) := fun h => h.1 rfl
      rw [or_iff_left hnot, hstep.own]
      have hown := Fate.own hs hvalid hm hfate
      simpa only [true_and] using hown
    · rw [hstep.other (Ne.symm hself), or_iff_left fun h : (q = p ∧ s.phase p = .applying []) ∧ Regressed perform trace =>
          hself h.1.1]
      exact Fate.other hs hself hm hfate

/-- From the second version on, no script is applied again. -/
theorem not_regressed [DecidableEq π] (hv : v ≤ migrationVersion) (hsecond : 2 ≤ v)
    (h : Run (Step perform) (initial v rows) trace t) : ¬ Regressed perform trace := by
  rintro ⟨before, x, after, rfl, hagain, -⟩
  obtain ⟨u, hbefore, -, -⟩ := h.split_at
  obtain ⟨m, hs⟩ := migrating_of_run hv hbefore
  obtain ⟨k, -, hbegan, -, hfirst⟩ := hs.again_iff.mp hagain
  omega

/-- A process that goes on alone ends, and succeeds if the file is not set back for good. -/
theorem Migrating.finishes [DecidableEq π]
    (hvalid : ∀ effect rows, (perform effect rows).isSome = true) {n : Nat}
    (hn : migrationVersion - m = n) (hs : s.Migrating perform v rows trace m)
    (hphase : s.phase p = .applying (versionsFrom m)) :
    ∃ after u result, Run (Step perform) s after u ∧ (∀ x ∈ after, x.2 = p) ∧
      u.phase p = .ended result ∧
      (result = .ok () ↔ m < migrationVersion ∨ s.file.user_version = migrationVersion) := by
  induction n generalizing s trace m with
  | zero =>
    have hm : m = migrationVersion := by
      have := hs.level.bounds.2
      omega
    subst hm
    have hempty : versionsFrom migrationVersion = [] := by decide
    rw [hempty] at hphase
    have hstep : Step perform s p ⟨_, _⟩ := rfl
    refine ⟨[(s, p)], _, if s.file.user_version = migrationVersion then .ok ()
      else .error unsupportedVersion, .single hstep, fun x hx => ?_, ?_, ?_⟩
    · rw [List.mem_singleton.mp hx]
    · rw [hstep.own, hphase]
      rfl
    · rw [ite_eq_ok]
      simp
  | succ n ih =>
    have hlast : m < migrationVersion := by omega
    obtain ⟨file, happly⟩ := Option.isSome_iff_exists.mp
      (hs.level.isSome_next (hs.catalog_of_applying hphase) hlast hvalid)
    have hnext : migrateStep perform s.file (s.phase p) =
        (file, .applying (versionsFrom (m + 1))) := by
      rw [hphase, versionsFrom_succ hlast, migrateStep, happly]
    have hfirst : First perform (s, p) := hs.first_iff.mpr ⟨hphase, hlast, by rw [happly]; rfl⟩
    have hstep : Step perform s p ⟨_, _⟩ := rfl
    obtain ⟨m', ht, hm⟩ := hs.step hstep
    obtain rfl : m' = m + 1 := (hm.resolve_right fun hnot => hnot.1 hfirst).2
    obtain ⟨after, u, result, hrun, halone, hended, hresult⟩ :=
      ih (by omega) ht (by rw [hstep.own, hnext])
    refine ⟨(s, p) :: after, u, result, .cons hstep hrun, fun x hx => ?_, hended, ?_⟩
    · rcases List.mem_cons.mp hx with rfl | hx
      · rfl
      · exact halone x hx
    · have hversion := (hs.level.next (hs.catalog_of_applying hphase) hlast happly).2.2
      rw [hresult, hstep.file, hnext, hversion]
      exact ⟨fun _ => Or.inl hlast, fun _ => by omega⟩

/-- A process creates the table of versions. -/
theorem Migrating.connects [DecidableEq π] (hs : s.Migrating perform v rows trace m)
    (hphase : s.phase p = .connected) : ∃ t, Step perform s p t ∧
      t.Migrating perform v rows (trace ++ [(s, p)]) m ∧ t.phase p = .listing ∧
      t.file.user_version = s.file.user_version := by
  have hstep : Step perform s p ⟨_, _⟩ := rfl
  obtain ⟨m', ht, hm⟩ := hs.step hstep
  have hidle := hs.quiet (q := p) fun k _ happlies => by
    rw [hphase] at happlies
    cases happlies
  obtain rfl : m' = m := (hm.resolve_left fun hfirst => hidle.1 hfirst.1).2
  refine ⟨_, hstep, ht, ?_, ?_⟩
  · rw [hstep.own, hphase]
    rfl
  · rw [hstep.file, hphase]
    rfl

/-- A process lists the applied versions. -/
theorem Migrating.lists [DecidableEq π] (hs : s.Migrating perform v rows trace m)
    (hphase : s.phase p = .listing) : ∃ t, Step perform s p t ∧
      t.Migrating perform v rows (trace ++ [(s, p)]) m ∧ t.phase p = .applying (versionsFrom m) ∧
      t.file.user_version = s.file.user_version := by
  have hstep : Step perform s p ⟨_, _⟩ := rfl
  obtain ⟨m', ht, hm⟩ := hs.step hstep
  have hidle := hs.quiet (q := p) fun k _ happlies => by
    rw [hphase] at happlies
    cases happlies
  obtain rfl : m' = m := (hm.resolve_left fun hfirst => hidle.1 hfirst.1).2
  refine ⟨_, hstep, ht, ?_, ?_⟩
  · rw [hstep.own, hphase, migrateStep, hs.level.applied,
      missing_versions _ (List.mem_range.mpr (Nat.lt_succ_of_le hs.level.bounds.2))]
  · rw [hstep.file, hphase]
    rfl

/-- Rows that log what is done to them. -/
def logEffect (effect : RegistryEffect) (rows : List RegistryEffect) : Option (List RegistryEffect) :=
  some (rows ++ [effect])

/-- The processes take their steps in this order. -/
def stepAll (s : Initialisations (Fin 3) (List RegistryEffect)) (processes : List (Fin 3)) :
    Initialisations (Fin 3) (List RegistryEffect) :=
  processes.foldl (fun s p => ⟨(migrateStep logEffect s.file (s.phase p)).1,
    Function.update s.phase p (migrateStep logEffect s.file (s.phase p)).2⟩) s

theorem run_stepAll (processes : List (Fin 3)) (s : Initialisations (Fin 3) (List RegistryEffect)) :
    ∃ trace, Run (Step logEffect) s trace (stepAll s processes) := by
  induction processes generalizing s with
  | nil => exact ⟨[], .nil s⟩
  | cons p processes ih =>
    obtain ⟨trace, hrun⟩ := ih (stepAll s [p])
    exact ⟨(s, p) :: trace, .cons rfl hrun⟩

/-- Both list the versions, the first applies all scripts, and then the second goes on. -/
def sampleOpened : Initialisations (Fin 3) (List RegistryEffect) :=
  stepAll (initial 0 []) [0, 1, 0, 1, 0, 0, 0, 0, 0, 0, 0, 0, 1, 1, 1]

theorem sampleOpened_run : ∃ trace, Run (Step logEffect) (initial 0 []) trace sampleOpened :=
  run_stepAll _ _

theorem sampleOpened_evaluates : sampleOpened.file.applied = [1, 2, 3, 4, 5, 6, 7] ∧
    sampleOpened.file.user_version = 2 ∧
    (sampleOpened.phase 1).result? = some (.error (.sqliteError (text "migration failed"))) := by
  decide +kernel

theorem applied_once_sample : SchemaStatement.performAll logEffect (effectsBetween 0 7) [] =
    some sampleOpened.file.rows := by
  obtain ⟨trace, hrun⟩ := sampleOpened_run
  obtain ⟨m, -, -, happlied, -, hrows⟩ := applied_once (by decide) hrun
  have hlength := congrArg List.length (happlied.symm.trans sampleOpened_evaluates.1)
  rw [List.length_range'] at hlength
  subst hlength
  exact hrows

end Initialisations

end Pine
