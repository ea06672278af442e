import Pine.Ledger.Integrity

/-!
# Registry tables

The rows of the version 7 schema and the statements the registry executes on
them, with the keys, foreign keys, checks and triggers that SQLite applies. A
statement that violates one raises and changes nothing.
-/

namespace Pine

/-- `LENGTH(x)`: the characters before the first NUL. -/
def sqlLength (s : Text) : Nat := (s.takeWhile (· ≠ '\x00')).length

inductive TransactionState where
  | in_progress
  | committed
  | rolled_back
  deriving DecidableEq

/-- The lifecycle column of `runs`. -/
inductive RunState where
  | registered
  | running
  | completed
  | failed
  deriving DecidableEq

def RunState.isTerminal : RunState → Bool
  | completed | failed => true
  | _ => false

structure PredictionRow where
  prediction_id : Text
  run_id : Text
  schema_id : Text
  schema_hash : Text
  registration_status : RegistrationStatus
  snapshot_ref : Text
  lineage_json : Text
  status : PredictionStatus
  outcome_json : Option Text
  grade_json : Option Text
  resolution_metadata_json : Option Text
  transaction_state : TransactionState
  immutable_hash : Text
  created_at : Text
  committed_at : Option Text
  deriving DecidableEq

structure RunRow where
  run_id : Text
  prediction_id : Option Text
  started_at : Text
  state : RunState
  execution_started_at : Option Text
  completed_at : Option Text
  exit_code : Option Int
  failure_note : Option Text
  deriving DecidableEq

structure RunBindingRow where
  run_id : Text
  idempotency_key : Text
  request_hash : Text
  registration_status : RegistrationStatus
  strategy_id : Text
  dataset_version : Text
  envelope_json : Text
  envelope_hash : Text
  bound_at : Text
  deriving DecidableEq

structure TouchedWindowRow where
  family_id : Text
  window_start : Text
  window_end : Text
  touched_at : Text
  deriving DecidableEq

structure IntegrityViolationRow where
  prediction_id : Text
  field : Text
  detected_at : Text
  note : Text
  deriving DecidableEq

structure CaptureRequestRow where
  idempotency_key : Text
  request_hash : Text
  prediction_id : Text
  created_at : Text
  deriving DecidableEq

structure ExternalRunImportRow where
  run_id : Text
  source_system : Text
  source_run_id : Text
  evidence_hash : Text
  ingested_at : Text
  deriving DecidableEq

structure RunResultRow where
  run_id : Text
  evidence_hash : Text
  evidence_json : Text
  source_timestamp : Text
  ingested_at : Text
  deriving DecidableEq

/-- The tables of a version 7 registry, each in insertion order. -/
structure Registry where
  predictions : List PredictionRow
  runs : List RunRow
  run_bindings : List RunBindingRow
  touched_windows : List TouchedWindowRow
  integrity_violations : List IntegrityViolationRow
  capture_requests : List CaptureRequestRow
  external_run_imports : List ExternalRunImportRow
  run_results : List RunResultRow
  deriving DecidableEq

namespace Registry

/-- A freshly migrated registry. -/
def empty : Registry := ⟨[], [], [], [], [], [], [], []⟩

/-! ## Rows by key -/

def prediction? (db : Registry) (prediction_id : Text) : Option PredictionRow :=
  db.predictions.find? (·.prediction_id == prediction_id)

def run? (db : Registry) (run_id : Text) : Option RunRow :=
  db.runs.find? (·.run_id == run_id)

def binding? (db : Registry) (run_id : Text) : Option RunBindingRow :=
  db.run_bindings.find? (·.run_id == run_id)

/-! ## Inserts -/

/-- Raise the message of the first violated constraint. -/
def enforce : List (Bool × String) → Except Error Unit
  | [] => .ok ()
  | (violated, message) :: rest =>
    if violated then .error (.sqliteError (text message)) else enforce rest

theorem enforce_ok {constraints : List (Bool × String)} {u : Unit} :
    enforce constraints = .ok u ↔ ∀ c ∈ constraints, c.1 = false := by
  induction constraints with
  | nil => simp [enforce]
  | cons c rest ih =>
    obtain ⟨violated, message⟩ := c
    cases violated <;> simp [enforce, ih]

/-- The keys, unique columns and foreign key of `runs`. -/
def insertRun (row : RunRow) (db : Registry) : Except Error Registry := do
  enforce [
    ((db.run? row.run_id).isSome, "UNIQUE constraint failed: runs.run_id"),
    (row.prediction_id.any fun id => db.runs.any (·.prediction_id == some id),
      "UNIQUE constraint failed: runs.prediction_id"),
    (row.prediction_id.any fun id => (db.prediction? id).isNone,
      "FOREIGN KEY constraint failed")]
  return { db with runs := db.runs ++ [row] }

def insertPrediction (row : PredictionRow) (db : Registry) : Except Error Registry := do
  enforce [
    ((db.prediction? row.prediction_id).isSome,
      "UNIQUE constraint failed: predictions.prediction_id"),
    (db.predictions.any (·.run_id == row.run_id), "UNIQUE constraint failed: predictions.run_id")]
  return { db with predictions := db.predictions ++ [row] }

def insertRunBinding (row : RunBindingRow) (db : Registry) : Except Error Registry := do
  enforce [
    ((db.binding? row.run_id).isSome, "UNIQUE constraint failed: run_bindings.run_id"),
    (db.run_bindings.any (·.idempotency_key == row.idempotency_key),
      "UNIQUE constraint failed: run_bindings.idempotency_key"),
    (row.registration_status == .imported,
      "CHECK constraint failed: registration_status IN ( 'preregistered', 'exploratory', 'unregistered_external' )"),
    ((db.run? row.run_id).isNone, "FOREIGN KEY constraint failed")]
  return { db with run_bindings := db.run_bindings ++ [row] }

def insertCaptureRequest (row : CaptureRequestRow) (db : Registry) : Except Error Registry := do
  enforce [
    (db.capture_requests.any (·.idempotency_key == row.idempotency_key),
      "UNIQUE constraint failed: capture_requests.idempotency_key"),
    (db.capture_requests.any (·.prediction_id == row.prediction_id),
      "UNIQUE constraint failed: capture_requests.prediction_id"),
    ((db.prediction? row.prediction_id).isNone, "FOREIGN KEY constraint failed")]
  return { db with capture_requests := db.capture_requests ++ [row] }

def insertIntegrityViolation (row : IntegrityViolationRow) (db : Registry) :
    Except Error Registry := do
  enforce [((db.prediction? row.prediction_id).isNone, "FOREIGN KEY constraint failed")]
  return { db with integrity_violations := db.integrity_violations ++ [row] }

/-- A run that is terminal, belongs to no prediction and is bound as external. -/
def isLowIntegrityTerminal (db : Registry) (run_id : Text) : Bool :=
  match db.run? run_id, db.binding? run_id with
  | some run, some binding => run.prediction_id.isNone && run.state.isTerminal &&
      binding.registration_status == .unregistered_external
  | _, _ => false

def insertExternalRunImport (row : ExternalRunImportRow) (db : Registry) :
    Except Error Registry := do
  enforce [
    (!db.isLowIntegrityTerminal row.run_id,
      "external import requires a terminal low-integrity run"),
    (db.external_run_imports.any (·.run_id == row.run_id),
      "UNIQUE constraint failed: external_run_imports.run_id"),
    (db.external_run_imports.any (·.evidence_hash == row.evidence_hash),
      "UNIQUE constraint failed: external_run_imports.evidence_hash"),
    (db.external_run_imports.any fun r =>
      r.source_system == row.source_system && r.source_run_id == row.source_run_id,
      "UNIQUE constraint failed: external_run_imports.source_system, external_run_imports.source_run_id"),
    ((db.run? row.run_id).isNone, "FOREIGN KEY constraint failed")]
  return { db with external_run_imports := db.external_run_imports ++ [row] }

/-- A bound run that completed with exit code zero and no failure note. -/
def isSuccessfulBound (db : Registry) (run_id : Text) : Bool :=
  match db.run? run_id, db.binding? run_id with
  | some run, some _ => run.state == .completed && run.exit_code == some 0 && run.failure_note.isNone
  | _, _ => false

def insertRunResult (row : RunResultRow) (db : Registry) : Except Error Registry := do
  enforce [
    (!db.isSuccessfulBound row.run_id, "result evidence requires a successful bound run"),
    ((Json.loads (F := Binary64) row.evidence_json).isNone,
      "CHECK constraint failed: json_valid(evidence_json)"),
    (db.run_results.any (·.run_id == row.run_id), "UNIQUE constraint failed: run_results.run_id"),
    (db.run_results.any (·.evidence_hash == row.evidence_hash),
      "UNIQUE constraint failed: run_results.evidence_hash")]
  return { db with run_results := db.run_results ++ [row] }

/-- `INSERT OR IGNORE INTO touched_windows`: the first touch of a window is kept. -/
def insertTouchedWindow (row : TouchedWindowRow) (db : Registry) : Registry :=
  if db.touched_windows.any fun r => r.family_id == row.family_id &&
      r.window_start == row.window_start && r.window_end == row.window_end then db
  else { db with touched_windows := db.touched_windows ++ [row] }

end Registry

end Pine
