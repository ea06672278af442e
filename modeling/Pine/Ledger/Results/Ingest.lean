import Pine.Ledger.Registry.Operations
import Pine.Ledger.Results.RoundTrip

/-!
# Ingesting results

`MSMResultIngestor`: the checks of evidence against the run that it belongs to, the
transaction that stores it, and the verification of what is stored.
-/

namespace Pine

open Json (Value)

/-- A row of `runs LEFT JOIN run_bindings USING (run_id)`. -/
structure BoundRun where
  run : RunRow
  binding : Option RunBindingRow

/-- `get_run` -/
def Registry.getRun (db : Registry) (run_id : Text) : Option BoundRun :=
  (db.run? run_id).map fun run => ⟨run, db.binding? run_id⟩

/-- `get_run_result` -/
def Registry.runResult? (db : Registry) (run_id : Text) : Option RunResultRow :=
  db.run_results.find? (·.run_id == run_id)

/-- Authoritative result of a new ingestion or an exact retry. -/
structure MSMResultIngestResult where
  run_id : Text
  prediction_id : Option Text
  registration_status : RegistrationStatus
  strategy_id : Text
  dataset_version : Text
  envelope_hash : Text
  evidence_hash : Text
  source_timestamp : DateTime
  ingested_at : DateTime
  created : Bool

/-- Evidence that was verified against its hash, its run and its snapshot. -/
structure VerifiedStoredRunResult where
  evidence : MSMRunResultEvidence
  evidence_hash : Text
  source_timestamp : DateTime
  ingested_at : DateTime
  snapshot : StrategySnapshot

namespace Registry

variable (L : ResultLibrary) (sha256 : Text → Text)

/-- The `invariants` of `_validate_run_binding`. -/
def provenance (e : MSMRunResultEvidence) (run : RunRow) (binding : RunBindingRow)
    (envelope : Document) (snapshot : StrategySnapshot) : List Bool :=
  [e.run_id.val == run.run_id && fieldEquals envelope "run_id" (.str run.run_id),
   e.prediction_id.map Subtype.val == run.prediction_id &&
     fieldEquals envelope "prediction_id" (optionalText run.prediction_id),
   e.registration_status == binding.registration_status &&
     fieldEquals envelope "registration_status" (.str binding.registration_status.value),
   e.strategy_id.val == binding.strategy_id &&
     fieldEquals envelope "strategy_id" (.str binding.strategy_id) &&
     binding.strategy_id == snapshot.strategy_id,
   e.envelope_hash.val == binding.envelope_hash,
   e.dataset_version.val == binding.dataset_version &&
     binding.dataset_version == snapshot.dataset_version,
   e.git_commit.val == snapshot.git_commit,
   e.metric_definition_version.val == snapshot.metric_definition_version,
   e.in_sample_window == snapshot.in_sample_window,
   e.out_of_sample_window == snapshot.out_of_sample_window]

/-- The run is successful, or it is refused. -/
def refuseUnsuccessful (run : RunRow) : Except Error Unit :=
  refuse (run.state ≠ .completed ∨ run.exit_code ≠ some 0 ∨ run.failure_note ≠ none)
    (.integrityError (text "result evidence requires a successful terminal run"))

/-- `_validate_run_binding`, of a bound run. -/
def validateBinding (e : MSMRunResultEvidence) (run : RunRow) (binding : RunBindingRow) :
    Except Error StrategySnapshot := do
  refuseUnsuccessful run
  let envelope ← required (Json.loads binding.envelope_json)
    (.integrityError (text "run envelope is not valid JSON"))
  refuse (envelope.isObject = false)
    (.integrityError (text "run envelope does not match its immutable hash"))
  let hash ← sha256Json sha256 envelope
  refuse (hash ≠ binding.envelope_hash)
    (.integrityError (text "run envelope does not match its immutable hash"))
  let snapshot ← required (L.validateSnapshot ((envelope.get? (text "snapshot")).getD .null))
    (.integrityError (text "run envelope contains an invalid snapshot"))
  refuse ((provenance e run binding envelope snapshot).all id = false)
    (.integrityError (text "result evidence provenance does not match its run envelope"))
  return snapshot

/-- `_validate_run_binding` -/
def validateRunBinding (e : MSMRunResultEvidence) (found : Option BoundRun) :
    Except Error StrategySnapshot :=
  match found with
  | some ⟨run, some binding⟩ => validateBinding L sha256 e run binding
  | _ => .error (.integrityError (text "result evidence requires a bound run: " ++ e.run_id.val))

/-- A stored timestamp of a run. -/
def executionTime (stored : Text) : Except Error DateTime :=
  required (DateTime.fromisoformat stored)
    (.integrityError (text "successful run has invalid execution timestamps"))

/-- `value.astimezone(UTC)` as its instant. -/
def toInstant (t : DateTime) : Except Error Int :=
  required t.utcInstant (.overflowError (text "date value out of range"))

/-- `_validate_times` -/
def validateTimes (source_timestamp : DateTime) (found : Option BoundRun) (ingested_at : DateTime) :
    Except Error Unit := do
  let started ← required (found.bind (·.run.execution_started_at))
    (.integrityError (text "successful run is missing execution timestamps"))
  let completed ← required (found.bind (·.run.completed_at))
    (.integrityError (text "successful run is missing execution timestamps"))
  let execution_started_at ← executionTime started
  let completed_at ← executionTime completed
  refuse (execution_started_at.isAware = false ∨ completed_at.isAware = false)
    (.integrityError (text "successful run execution timestamps must be timezone-aware"))
  let source ← toInstant source_timestamp
  let execution ← toInstant execution_started_at
  refuse (source < execution)
    (.integrityError (text "result source_timestamp cannot precede run execution"))
  let ingested ← toInstant ingested_at
  refuse (ingested < source)
    (.integrityError (text "result source_timestamp cannot follow ingestion time"))
  let completion ← toInstant completed_at
  refuse (ingested < completion)
    (.integrityError (text "result ingestion time cannot precede run completion"))

/-- A stored timestamp of a result. -/
def resultTime (stored : Text) : Except Error DateTime :=
  required (DateTime.fromisoformat stored)
    (.integrityError (text "stored run result timestamps are invalid"))

/-- The part of `verify_stored_result` once its snapshot is verified. -/
def verifyTimes (row : RunResultRow) (found : Option BoundRun) (evidence : MSMRunResultEvidence)
    (snapshot : StrategySnapshot) : Except Error VerifiedStoredRunResult := do
  refuse (evidence.dataset_version.val ≠ snapshot.dataset_version)
    (.integrityError (text "stored result dataset version does not match its snapshot"))
  let source_timestamp ← resultTime row.source_timestamp
  let ingested_at ← resultTime row.ingested_at
  refuse (source_timestamp.isAware = false ∨ ingested_at.isAware = false)
    (.integrityError (text "stored run result timestamps must be timezone-aware"))
  let stored ← toInstant source_timestamp
  let source ← toInstant evidence.source_timestamp.val
  refuse (stored ≠ source)
    (.integrityError (text "stored result source timestamp does not match its evidence"))
  validateTimes evidence.source_timestamp.val found ingested_at
  return { evidence, evidence_hash := row.evidence_hash, source_timestamp, ingested_at, snapshot }

/-- The evidence of a stored row. -/
def storedEvidence (row : RunResultRow) : Except Error MSMRunResultEvidence := do
  let payload ← required (Json.loads row.evidence_json)
    (.integrityError (text "stored run result evidence is not valid JSON"))
  refuse (payload.isObject = false)
    (.integrityError (text "stored run result evidence does not match its immutable hash"))
  let hash ← sha256Json sha256 payload
  refuse (hash ≠ row.evidence_hash)
    (.integrityError (text "stored run result evidence does not match its immutable hash"))
  let evidence ← required (MSMRunResultEvidence.modelValidate L payload)
    (.integrityError (text "stored run result evidence is invalid"))
  refuse (row.run_id ≠ evidence.run_id.val)
    (.integrityError (text "stored run result identity does not match its evidence"))
  return evidence

/-- `verify_stored_result`; a snapshot that is given is not validated again. -/
def verifyStoredResult (row : RunResultRow) (found : Option BoundRun)
    (snapshot : Option StrategySnapshot) : Except Error VerifiedStoredRunResult := do
  let evidence ← storedEvidence L sha256 row
  let verified ← match snapshot with
    | some snapshot => .ok snapshot
    | none => validateRunBinding L sha256 evidence found
  verifyTimes row found evidence verified

/-- `_result` -/
def ingestResult (row : RunResultRow) (found : Option BoundRun) (created : Bool)
    (snapshot : Option StrategySnapshot) : Except Error MSMResultIngestResult := do
  let verified ← verifyStoredResult L sha256 row found snapshot
  return { run_id := verified.evidence.run_id.val,
           prediction_id := verified.evidence.prediction_id.map Subtype.val,
           registration_status := verified.evidence.registration_status,
           strategy_id := verified.evidence.strategy_id.val,
           dataset_version := verified.evidence.dataset_version.val,
           envelope_hash := verified.evidence.envelope_hash.val,
           evidence_hash := verified.evidence_hash,
           source_timestamp := verified.source_timestamp,
           ingested_at := verified.ingested_at, created }

/-- `_clock_time` of the ingestor. -/
def resultClock (now : DateTime) : Except Error DateTime := do
  refuse (now.isAware = false)
    (.integrityError (text "result ingestion clock must return a timezone-aware value"))
  return now

/-- What a new ingestion checks before it stores anything. -/
def checkEvidence (now : DateTime) (e : MSMRunResultEvidence) (found : Option BoundRun) :
    Except Error (DateTime × StrategySnapshot) := do
  let ingested_at ← resultClock now
  let snapshot ← validateRunBinding L sha256 e found
  validateTimes e.source_timestamp.val found ingested_at
  return (ingested_at, snapshot)

/-- The ingestion of evidence for a run that has none. -/
def ingestNewEvidence (now : DateTime) (e : MSMRunResultEvidence) (evidence_hash : Text)
    (found : Option BoundRun) : Session MSMResultIngestResult := do
  let checked ← Program.check (checkEvidence L sha256 now e found)
  let evidence_json ← Program.check (canonicalJson (e.modelDump L))
  createRunResult e.run_id.val evidence_hash evidence_json e.source_timestamp.val checked.1
  let stored ← select (·.runResult? e.run_id.val)
  let row ← Program.check (required stored
    (.integrityError (text "run result disappeared during ingestion")))
  Program.check (ingestResult L sha256 row found true (some checked.2))

/-- `MSMResultIngestor.ingest` -/
def ingestEvidence (now : DateTime) (e : MSMRunResultEvidence) : Session MSMResultIngestResult := do
  let evidence_hash ← Program.check (sha256Json sha256 (e.modelDump L))
  let existing ← select (·.runResult? e.run_id.val)
  let found ← select (·.getRun e.run_id.val)
  match existing with
  | some row => do
    Program.check (refuse (row.evidence_hash ≠ evidence_hash) (.idempotencyConflictError
      (text "run already has different immutable result evidence")))
    Program.check (ingestResult L sha256 row found false none)
  | none => ingestNewEvidence L sha256 now e evidence_hash found

end Registry

end Pine
