import Pine.Core.Program
import Pine.Ledger.Registry.Triggers
import Pine.Ledger.Registry.Windows

/-!
# Registry operations

Each method of the registry that changes it, as a program of the statements it
executes. A method that takes a connection runs inside the transaction of its
caller; the others are the whole body of their own.
-/

namespace Pine

open Json (Value)

namespace Registry

/-- A program of statements on the registry. -/
abbrev Session := Program Registry Error

/-- Execute an INSERT. -/
def execute (statement : Registry → Except Error Registry) : Session Unit :=
  Program.update statement

/-- Execute an UPDATE and return its row count. -/
def executeUpdate (statement : Registry → Except Error (Nat × Registry)) : Session Nat :=
  Program.statement statement

/-- Read from the registry. -/
def select {α : Type} (read : Registry → α) : Session α :=
  Program.query fun db => .ok (read db)

/-- An integer parameter outside 64 bits is refused before its statement runs. -/
def bindInteger (n : Int) : Session Unit :=
  if -(2 ^ 63) ≤ n ∧ n < 2 ^ 63 then pure ()
  else Program.raise (.overflowError (text "Python int too large to convert to SQLite INTEGER"))

/-! ## Capture -/

/-- `begin_prediction` -/
def beginPrediction (prediction : CommittedPrediction) : Session Unit := do
  let lineage_json ← Program.check (canonicalJson prediction.lineage.toDict)
  execute (insertPrediction {
    prediction_id := prediction.prediction_id
    run_id := prediction.run_id
    schema_id := prediction.schema_id
    schema_hash := prediction.schema_hash
    registration_status := prediction.registration_status
    snapshot_ref := prediction.snapshot_ref
    lineage_json
    status := prediction.status
    outcome_json := none
    grade_json := none
    resolution_metadata_json := none
    transaction_state := .in_progress
    immutable_hash := prediction.immutable_hash
    created_at := prediction.created_at.isoformat
    committed_at := none })
  execute (insertRun {
    run_id := prediction.run_id
    prediction_id := some prediction.prediction_id
    started_at := prediction.created_at.isoformat
    state := .registered
    execution_started_at := none
    completed_at := none
    exit_code := none
    failure_note := none })

/-- The update that marks a staged prediction committed. -/
def commitUpdate (committed_at : DateTime) : PredictionUpdate :=
  { transaction_state := some .committed, committed_at := some (some committed_at.isoformat) }

/-- `commit_prediction` -/
def commitPrediction (prediction_id : Text) (committed_at : DateTime) : Session Unit := do
  let rowcount ← executeUpdate (updatePredictions
    (fun r => r.prediction_id == prediction_id && r.transaction_state == .in_progress)
    (commitUpdate committed_at))
  Program.check (refuse (rowcount ≠ 1)
    (.integrityError (text "prediction is not in progress: " ++ prediction_id)))

/-- `register_capture_request` -/
def registerCaptureRequest (idempotency_key request_hash prediction_id : Text)
    (created_at : DateTime) : Session Unit :=
  execute (insertCaptureRequest ⟨idempotency_key, request_hash, prediction_id, created_at.isoformat⟩)

/-! ## Run bindings -/

/-- The columns of a binding that its caller gives. -/
structure Binding where
  idempotency_key : Text
  request_hash : Text
  registration_status : RegistrationStatus
  strategy_id : Text
  dataset_version : Text
  envelope_json : Text
  envelope_hash : Text
  bound_at : DateTime

/-- `INSERT INTO run_bindings ... SELECT ... FROM runs WHERE run_id = ? AND state = 'registered'` -/
def insertBindingOfRegistered (run_id : Text) (b : Binding) (db : Registry) :
    Except Error (Nat × Registry) :=
  match db.run? run_id with
  | some run =>
    if run.state = .registered then do
      let db ← db.insertRunBinding ⟨run_id, b.idempotency_key, b.request_hash,
        b.registration_status, b.strategy_id, b.dataset_version, b.envelope_json, b.envelope_hash,
        b.bound_at.isoformat⟩
      return (1, db)
    else .ok (0, db)
  | none => .ok (0, db)

/-- `_bind_run` -/
def bindRun (run_id : Text) (b : Binding) : Session Unit := do
  let rowcount ← executeUpdate (insertBindingOfRegistered run_id b)
  Program.check (refuse (rowcount ≠ 1)
    (.integrityError (text "cannot bind unknown or started run: " ++ run_id)))

/-- The row of a run that belongs to no prediction. -/
def freshRun (run_id : Text) (started_at : DateTime) : RunRow :=
  ⟨run_id, none, started_at.isoformat, .registered, none, none, none, none⟩

/-- `create_exploratory_run` -/
def createExploratoryRun (run_id : Text) (started_at : DateTime) (idempotency_key request_hash
    strategy_id dataset_version envelope_json envelope_hash : Text) : Session Unit := do
  execute (insertRun (freshRun run_id started_at))
  bindRun run_id ⟨idempotency_key, request_hash, .exploratory, strategy_id, dataset_version,
    envelope_json, envelope_hash, started_at⟩

/-- The run is registered and allocated to a committed preregistered prediction. -/
def isAllocated (run_id : Text) (db : Registry) : Bool :=
  match db.run? run_id with
  | some run => run.state == .registered && (run.prediction_id.bind db.prediction?).any fun p =>
      p.transaction_state == .committed && p.registration_status == .preregistered
  | none => false

/-- `bind_preregistered_run` -/
def bindPreregisteredRun (run_id idempotency_key request_hash strategy_id dataset_version
    envelope_json envelope_hash : Text) (bound_at : DateTime) : Session Unit := do
  let eligible ← select (isAllocated run_id)
  Program.check (refuse (eligible = false) (.integrityError
    (text "run is not allocated to a preregistered prediction: " ++ run_id)))
  bindRun run_id ⟨idempotency_key, request_hash, .preregistered, strategy_id, dataset_version,
    envelope_json, envelope_hash, bound_at⟩

/-! ## Starting and finishing runs -/

/-- `value.get(key)` as a text, to be compared with a text column. -/
def fieldText (value : Document) (key : String) : Option Text :=
  (value.get? (text key)).bind Value.asText?

/-- `window["start"]` and `window["end"]`; only strings have dates. -/
def envelopeBound (window : Document) (key : String) : Except Error WindowBound :=
  match window.get? (text key) with
  | none => .error (.keyError (text key))
  | some (.str s) => .ok (.isoText s)
  | some _ => .error (.typeError (text "fromisoformat: argument must be str"))

/-- `_normalize_window(window["start"], window["end"])` -/
def envelopeWindow (window : Document) : Except Error (Text × Text) := do
  let start ← envelopeBound window "start"
  let stop ← envelopeBound window "end"
  normalizeWindow start stop

/-- The out-of-sample window of an envelope, when it is an object. -/
def outOfSampleWindow? (envelope : Document) : Option Document :=
  ((envelope.get? (text "snapshot")).bind (·.get? (text "out_of_sample_window"))).filter
    Value.isObject

/-- `lineage.get("family_id")` of a committed prediction; a missing one is `None`. -/
def lineageFamily (prediction : Option PredictionRow) : Except Error Document :=
  match prediction with
  | none => .error (.integrityError
      (text "preregistered run is missing its committed prediction"))
  | some p =>
    if p.transaction_state ≠ .committed then
      .error (.integrityError (text "preregistered run is missing its committed prediction"))
    else match Json.loads p.lineage_json with
      | none => .error (.integrityError (text "preregistered run lineage is not valid JSON"))
      | some lineage => .ok ((lineage.get? (text "family_id")).getD .null)

/-- The family of a bound run: its prediction's when preregistered, its strategy otherwise. -/
def bindingFamily (binding : RunBindingRow) (prediction : Option PredictionRow) :
    Except Error Document :=
  if binding.registration_status = .preregistered then lineageFamily prediction
  else .ok (.str binding.strategy_id)

/-- The identity that a binding derives, once its row is known. -/
def touchIdentity (sha256 : Text → Text) (binding : RunBindingRow)
    (prediction : Option PredictionRow) : Except Error (Text × Text × Text) := do
  let envelope ← required (Json.loads binding.envelope_json)
    (.integrityError (text "run binding envelope is not valid JSON"))
  refuse (envelope.isObject = false)
    (.integrityError (text "run binding envelope does not match its immutable hash"))
  let hash ← sha256Json sha256 envelope
  refuse (hash ≠ binding.envelope_hash)
    (.integrityError (text "run binding envelope does not match its immutable hash"))
  refuse (fieldText envelope "registration_status" ≠ some binding.registration_status.value)
    (.integrityError (text "run binding registration status does not match its envelope"))
  refuse (fieldText envelope "strategy_id" ≠ some binding.strategy_id)
    (.integrityError (text "run binding strategy does not match its envelope"))
  let window ← required (outOfSampleWindow? envelope)
    (.integrityError (text "run binding is missing its out-of-sample window"))
  let dates ← rethrow Error.isMalformed
    (.integrityError (text "run binding has an invalid out-of-sample window"))
    (envelopeWindow window)
  let family_id ← bindingFamily binding prediction
  let family ← rethrow Error.isMalformed
    (.integrityError (text "run binding has an invalid strategy family"))
    (normalizeFamilyId family_id)
  return (family, dates.1, dates.2)

/-- `runs JOIN run_bindings USING (run_id) LEFT JOIN predictions USING (prediction_id)`, of a
registered run. -/
def registeredBinding? (run_id : Text) (db : Registry) :
    Option (RunBindingRow × Option PredictionRow) :=
  match db.run? run_id, db.binding? run_id with
  | some run, some binding =>
    if run.state = .registered then some (binding, run.prediction_id.bind db.prediction?) else none
  | _, _ => none

/-- `_touch_identity_for_run` -/
def touchIdentityForRun (sha256 : Text → Text) (run_id : Text) : Session (Text × Text × Text) := do
  let row ← select (registeredBinding? run_id)
  match row with
  | none => Program.raise (.integrityError (text "run has no registered immutable binding: " ++ run_id))
  | some (binding, prediction) => Program.check (touchIdentity sha256 binding prediction)

/-- `_insert_touched_window` -/
def insertTouched (family window_start window_end : Text) (touched_at : DateTime) : Session Unit :=
  execute fun db =>
    .ok (db.insertTouchedWindow ⟨family, window_start, window_end, touched_at.isoformat⟩)

/-- The update that claims a run. -/
def claimUpdate (started_at : DateTime) : RunUpdate :=
  { state := some .running, execution_started_at := some (some started_at.isoformat) }

/-- `start_run` -/
def startRun (sha256 : Text → Text) (run_id : Text) (started_at : DateTime) : Session Unit := do
  Program.check (refuse (started_at.isAware = false)
    (.valueError (text "started_at must be timezone-aware")))
  let touch ← touchIdentityForRun sha256 run_id
  let rowcount ← executeUpdate fun db => updateRuns
    (fun r => r.run_id == run_id && r.state == .registered && (db.binding? r.run_id).isSome)
    (claimUpdate started_at) db
  Program.check (refuse (rowcount ≠ 1)
    (.integrityError (text "run is not available to start: " ++ run_id)))
  insertTouched touch.1 touch.2.1 touch.2.2 started_at

/-- The terminal state of an exit code and failure note. -/
def terminalState (exit_code : Int) (failure_note : Option Text) : RunState :=
  if exit_code = 0 ∧ failure_note = none then .completed else .failed

/-- The update that records a terminal state. -/
def finishUpdate (completed_at : DateTime) (exit_code : Int) (failure_note : Option Text) :
    RunUpdate :=
  { state := some (terminalState exit_code failure_note)
    completed_at := some (some completed_at.isoformat)
    exit_code := some (some exit_code)
    failure_note := some failure_note }

/-- `UPDATE runs SET state = ?, ... WHERE run_id = ? AND state = 'running'` -/
def executeFinish (run_id : Text) (completed_at : DateTime) (exit_code : Int)
    (failure_note : Option Text) : Session Nat := do
  bindInteger exit_code
  executeUpdate (updateRuns (fun r => r.run_id == run_id && r.state == .running)
    (finishUpdate completed_at exit_code failure_note))

/-- `finish_run` -/
def finishRun (run_id : Text) (completed_at : DateTime) (exit_code : Int)
    (failure_note : Option Text) : Session Unit := do
  let rowcount ← executeFinish run_id completed_at exit_code failure_note
  Program.check (refuse (rowcount ≠ 1)
    (.integrityError (text "run is not active: " ++ run_id)))

/-- The columns of a retroactive import. -/
structure ExternalRun where
  run_id : Text
  source_system : Text
  source_run_id : Text
  evidence_hash : Text
  idempotency_key : Text
  strategy_id : Text
  dataset_version : Text
  envelope_json : Text
  envelope_hash : Text
  started_at : DateTime
  completed_at : DateTime
  ingested_at : DateTime
  exit_code : Int
  failure_note : Option Text

/-- `create_external_run_import` -/
def createExternalRunImport (sha256 : Text → Text) (e : ExternalRun) : Session Unit := do
  execute (insertRun (freshRun e.run_id e.started_at))
  bindRun e.run_id ⟨e.idempotency_key, e.evidence_hash, .unregistered_external, e.strategy_id,
    e.dataset_version, e.envelope_json, e.envelope_hash, e.ingested_at⟩
  let touch ← touchIdentityForRun sha256 e.run_id
  let _ ← executeUpdate (updateRuns (fun r => r.run_id == e.run_id && r.state == .registered)
    (claimUpdate e.started_at))
  insertTouched touch.1 touch.2.1 touch.2.2 e.started_at
  let _ ← executeFinish e.run_id e.completed_at e.exit_code e.failure_note
  execute (insertExternalRunImport ⟨e.run_id, e.source_system, e.source_run_id, e.evidence_hash,
    e.ingested_at.isoformat⟩)

/-- `create_run_result` -/
def createRunResult (run_id evidence_hash evidence_json : Text)
    (source_timestamp ingested_at : DateTime) : Session Unit := do
  let rowcount ← executeUpdate fun db =>
    if db.isSuccessfulBound run_id then
      (db.insertRunResult ⟨run_id, evidence_hash, evidence_json, source_timestamp.isoformat,
        ingested_at.isoformat⟩).map fun db => (1, db)
    else .ok (0, db)
  Program.check (refuse (rowcount ≠ 1)
    (.integrityError (text "result evidence requires a successful bound run: " ++ run_id)))

/-! ## Touches, resolution and quarantine -/

/-- `mark_window_touched` -/
def markWindowTouched (family_id : Text) (window_start window_end : WindowBound)
    (touched_at : DateTime) : Session Unit := do
  let family ← Program.check (normalizeFamilyId (.str family_id))
  let window ← Program.check (normalizeWindow window_start window_end)
  Program.check (refuse (touched_at.isAware = false)
    (.valueError (text "touched_at must be timezone-aware")))
  insertTouched family window.1 window.2 touched_at

/-- `_optional_json` -/
def optionalJson (value : Option JsonObject) : Except Error (Option Text) :=
  match value with
  | none => .ok none
  | some o => (canonicalJson o.toDict).map some

/-- The update of the mutable fields. -/
def resolutionUpdate (status : PredictionStatus)
    (outcome_json grade_json resolution_metadata_json : Option Text) : PredictionUpdate :=
  { status := some status
    outcome_json := some outcome_json
    grade_json := some grade_json
    resolution_metadata_json := some resolution_metadata_json }

/-- `update_resolution` -/
def updateResolution (prediction_id : Text) (status : PredictionStatus)
    (outcome grade resolution_metadata : Option JsonObject) : Session Unit := do
  Program.check (refuse (status = .quarantined) (.integrityError
    (text "quarantine requires violation evidence; use quarantine_prediction")))
  let outcome_json ← Program.check (optionalJson outcome)
  let grade_json ← Program.check (optionalJson grade)
  let resolution_metadata_json ← Program.check (optionalJson resolution_metadata)
  let rowcount ← executeUpdate (updatePredictions
    (fun r => r.prediction_id == prediction_id && r.transaction_state == .committed)
    (resolutionUpdate status outcome_json grade_json resolution_metadata_json))
  Program.check (refuse (rowcount ≠ 1)
    (.integrityError (text "cannot resolve unknown or uncommitted prediction: " ++ prediction_id)))

/-- `record_integrity_violation` -/
def recordIntegrityViolation (prediction_id field note : Text) (detected_at : DateTime) :
    Session Unit :=
  execute (insertIntegrityViolation ⟨prediction_id, field, detected_at.isoformat, note⟩)

/-- Insert one violation unless identical evidence is already recorded. -/
def insertNewViolation (prediction_id field note : Text) (detected_at : DateTime) (db : Registry) :
    Except Error (Nat × Registry) :=
  if db.integrity_violations.any fun r =>
      r.prediction_id == prediction_id && r.field == field && r.note == note then .ok (0, db)
  else (db.insertIntegrityViolation ⟨prediction_id, field, detected_at.isoformat, note⟩).map
    fun db => (1, db)

/-- Insert the violations in order; the result is whether any row was added. -/
def insertNewViolations (prediction_id : Text) (detected_at : DateTime) :
    List (Text × Text) → Session Bool
  | [] => pure false
  | (field, note) :: rest => do
    let rowcount ← executeUpdate (insertNewViolation prediction_id field note detected_at)
    let changed ← insertNewViolations prediction_id detected_at rest
    return rowcount == 1 || changed

/-- The update that quarantines a prediction. -/
def quarantineUpdate : PredictionUpdate := { status := some .quarantined }

/-- `quarantine_prediction` -/
def quarantinePrediction (prediction_id : Text) (violations : List (Text × Text))
    (detected_at : DateTime) : Session Bool := do
  Program.check (refuse (violations = [])
    (.valueError (text "violations must contain at least one field")))
  Program.check (refuse (∃ v ∈ violations, v.1 = [] ∨ v.2 = [])
    (.valueError (text "violation fields and notes must be non-empty")))
  Program.check (refuse (detected_at.isAware = false)
    (.valueError (text "detected_at must be timezone-aware")))
  let row ← select fun db => (db.prediction? prediction_id).filter
    (·.transaction_state == .committed)
  match row with
  | none => Program.raise (.integrityError
      (text "cannot quarantine unknown or uncommitted prediction: " ++ prediction_id))
  | some row =>
    let changed ← insertNewViolations prediction_id detected_at violations
    if row.status ≠ .quarantined then
      let _ ← executeUpdate (updatePredictions (fun r => r.prediction_id == prediction_id)
        quarantineUpdate)
      return true
    else return changed

/-! ## All operations -/

/-- Every call that can change the registry, and the raw statements on touched windows that its
triggers are there to refuse. -/
inductive Operation where
  | begin_prediction (prediction : CommittedPrediction)
  | commit_prediction (prediction_id : Text) (committed_at : DateTime)
  | register_capture_request (idempotency_key request_hash prediction_id : Text)
      (created_at : DateTime)
  | create_exploratory_run (run_id : Text) (started_at : DateTime) (idempotency_key request_hash
      strategy_id dataset_version envelope_json envelope_hash : Text)
  | bind_preregistered_run (run_id idempotency_key request_hash strategy_id dataset_version
      envelope_json envelope_hash : Text) (bound_at : DateTime)
  | create_external_run_import (e : ExternalRun)
  | create_run_result (run_id evidence_hash evidence_json : Text)
      (source_timestamp ingested_at : DateTime)
  | start_run (run_id : Text) (started_at : DateTime)
  | finish_run (run_id : Text) (completed_at : DateTime) (exit_code : Int)
      (failure_note : Option Text)
  | mark_window_touched (family_id : Text) (window_start window_end : WindowBound)
      (touched_at : DateTime)
  | update_resolution (prediction_id : Text) (status : PredictionStatus)
      (outcome grade resolution_metadata : Option JsonObject)
  | record_integrity_violation (prediction_id field note : Text) (detected_at : DateTime)
  | quarantine_prediction (prediction_id : Text) (violations : List (Text × Text))
      (detected_at : DateTime)
  | update_touched_windows (selects : TouchedWindowRow → Bool)
      (apply : TouchedWindowRow → TouchedWindowRow)
  | delete_touched_windows (selects : TouchedWindowRow → Bool)

/-- The statements of an operation. -/
def Operation.program (sha256 : Text → Text) : Operation → Session Unit
  | begin_prediction prediction => beginPrediction prediction
  | commit_prediction id committed_at => commitPrediction id committed_at
  | register_capture_request key hash id created_at => registerCaptureRequest key hash id created_at
  | create_exploratory_run run_id started_at key hash strategy_id dataset_version envelope_json
      envelope_hash => createExploratoryRun run_id started_at key hash strategy_id dataset_version
        envelope_json envelope_hash
  | bind_preregistered_run run_id key hash strategy_id dataset_version envelope_json envelope_hash
      bound_at => bindPreregisteredRun run_id key hash strategy_id dataset_version envelope_json
        envelope_hash bound_at
  | create_external_run_import e => createExternalRunImport sha256 e
  | create_run_result run_id hash json source_timestamp ingested_at =>
      createRunResult run_id hash json source_timestamp ingested_at
  | start_run run_id started_at => startRun sha256 run_id started_at
  | finish_run run_id completed_at exit_code note => finishRun run_id completed_at exit_code note
  | mark_window_touched family_id start stop touched_at =>
      markWindowTouched family_id start stop touched_at
  | update_resolution id status outcome grade metadata =>
      updateResolution id status outcome grade metadata
  | record_integrity_violation id field note detected_at =>
      recordIntegrityViolation id field note detected_at
  | quarantine_prediction id violations detected_at => do
      let _ ← quarantinePrediction id violations detected_at
  | update_touched_windows selects apply => execute (updateTouchedWindows selects apply)
  | delete_touched_windows selects => execute (deleteTouchedWindows selects)

/-- Operations executed one after the other in one transaction; an error ends it. -/
def sequence (sha256 : Text → Text) : List Operation → Session Unit
  | [] => pure ()
  | op :: ops => do
    op.program sha256
    sequence sha256 ops

end Registry

end Pine
