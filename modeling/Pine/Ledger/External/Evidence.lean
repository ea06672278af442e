import Pine.Ledger.Msm
import Pine.Ledger.Registry.Operations

/-!
# Evidence of external runs

The evidence of a run that bypassed the wrapper, the envelope that an import stores,
and the result that is read back from a stored import. Validating a stored document
is the business of a library outside the repository and a parameter here, and so is
the text that the library writes for a time.
-/

namespace Pine

open Json (Value)

/-- Content identity of one file of a bypassed run. -/
structure ExternalArtifactEvidence where
  relative_path : Text
  sha256 : Sha256Text
  size_bytes : Nat

/-- Complete evidence of one finished direct run. -/
structure ExternalRunEvidence where
  source_system : Text
  source_run_id : Text
  strategy_id : Text
  started_at : DateTime
  completed_at : DateTime
  exit_code : Int
  failure_note : Option Text
  command : List Text
  working_directory : Text
  snapshot : StrategySnapshot
  artifacts : List ExternalArtifactEvidence
  metadata : JsonObject
  started_aware : started_at.isAware = true
  completed_aware : completed_at.isAware = true
  ordered : started_at.instant ≤ completed_at.instant
  snapshot_strategy : snapshot.strategy_id = strategy_id
  artifacts_nonempty : artifacts ≠ []
  command_nonempty : command ≠ []

/-- What the validation library does with evidence. -/
structure EvidenceLibrary where
  dumpTime : DateTime → Text
  validate : Document → Option ExternalRunEvidence

def ExternalArtifactEvidence.modelDump (a : ExternalArtifactEvidence) : Document :=
  .obj [(text "relative_path", .str a.relative_path), (text "sha256", .str a.sha256),
    (text "size_bytes", .int a.size_bytes)]

namespace ExternalRunEvidence

variable (L : EvidenceLibrary) (e : ExternalRunEvidence)

/-- `evidence.model_dump(mode="json")` -/
def modelDump : Document :=
  .obj [(text "evidence_format_version", .int 1),
    (text "source_system", .str e.source_system),
    (text "source_run_id", .str e.source_run_id),
    (text "strategy_id", .str e.strategy_id),
    (text "started_at", .str (L.dumpTime e.started_at)),
    (text "completed_at", .str (L.dumpTime e.completed_at)),
    (text "exit_code", .int e.exit_code),
    (text "failure_note", optionalText e.failure_note),
    (text "command", .arr (e.command.map Value.str)),
    (text "working_directory", .str e.working_directory),
    (text "snapshot", e.snapshot.modelDump.toDict),
    (text "artifacts", .arr (e.artifacts.map ExternalArtifactEvidence.modelDump)),
    (text "metadata", e.metadata.toDict)]

/-- The command of the run, as its envelope stores it. -/
def commandDump : Document :=
  .obj [(text "argv", .arr (e.command.map Value.str)),
    (text "working_directory", .str e.working_directory)]

/-- `_external_idempotency_key` -/
def idempotencyKey (sha256 : Text → Text) : Except Error Text := do
  let identity_hash ← sha256Json sha256 (.obj [(text "source_system", .str e.source_system),
    (text "source_run_id", .str e.source_run_id)])
  return text "external:" ++ identity_hash

/-- `_external_envelope` -/
def envelope (run_id : Text) (evidence_payload : Document) (evidence_hash : Text)
    (ingested_at : DateTime) : Document :=
  .obj [(text "envelope_format_version", .int 1),
    (text "run_id", .str run_id),
    (text "prediction_id", .null),
    (text "registration_status", .str RegistrationStatus.unregistered_external.value),
    (text "strategy_id", .str e.strategy_id),
    (text "bound_at", .str ingested_at.isoformat),
    (text "prediction_immutable_hash", .null),
    (text "command", e.commandDump),
    (text "snapshot", e.snapshot.modelDump.toDict),
    (text "external_evidence", evidence_payload),
    (text "external_evidence_hash", .str evidence_hash),
    (text "low_integrity_reason", .str (text "wrapper_bypass"))]

end ExternalRunEvidence

/-- A row of `external_run_imports JOIN runs USING (run_id) JOIN run_bindings USING (run_id)`. -/
structure ExternalRow where
  run : RunRow
  binding : RunBindingRow
  imported : ExternalRunImportRow
  deriving DecidableEq

/-- `get_external_run_import` -/
def Registry.externalRunImport? (db : Registry) (source_system source_run_id : Text) :
    Option ExternalRow :=
  (db.external_run_imports.find? fun r =>
    r.source_system == source_system && r.source_run_id == source_run_id).bind fun imported =>
      match db.run? imported.run_id, db.binding? imported.run_id with
      | some run, some binding => some ⟨run, binding, imported⟩
      | _, _ => none

/-- Authoritative result of a new import or an exact retry. -/
structure ExternalRunImportResult where
  run_id : Text
  source_system : Text
  source_run_id : Text
  registration_status : RegistrationStatus
  strategy_id : Text
  dataset_version : Text
  evidence_hash : Text
  envelope_hash : Text
  state : RunState
  exit_code : Int
  failure_note : Option Text
  created : Bool
  deriving DecidableEq

/-- The state of a run with this evidence. -/
def ExternalRunEvidence.expectedState (e : ExternalRunEvidence) : RunState :=
  if e.exit_code = 0 ∧ e.failure_note = none then .completed else .failed

/-- The `invariants` of `_result`. -/
def externalInvariants (key : Text) (row : ExternalRow) (envelope : Document)
    (e : ExternalRunEvidence) : List Bool :=
  [fieldEquals envelope "run_id" (.str row.run.run_id),
   fieldEquals envelope "prediction_id" .null && row.run.prediction_id.isNone,
   fieldEquals envelope "strategy_id" (.str e.strategy_id) &&
     e.strategy_id == row.binding.strategy_id,
   fieldEquals envelope "command" e.commandDump,
   fieldEquals envelope "snapshot" e.snapshot.modelDump.toDict,
   fieldEquals envelope "external_evidence_hash" (.str row.imported.evidence_hash),
   fieldEquals envelope "low_integrity_reason" (.str (text "wrapper_bypass")),
   row.imported.source_system == e.source_system,
   row.imported.source_run_id == e.source_run_id,
   row.binding.dataset_version == e.snapshot.dataset_version,
   row.binding.request_hash == row.imported.evidence_hash,
   row.binding.idempotency_key == key,
   row.binding.bound_at == row.imported.ingested_at,
   row.run.started_at == e.started_at.isoformat,
   row.run.execution_started_at == some e.started_at.isoformat,
   row.run.completed_at == some e.completed_at.isoformat,
   row.run.exit_code == some e.exit_code,
   row.run.failure_note == e.failure_note,
   row.run.state == e.expectedState]

/-- `_result` -/
def externalResult (L : EvidenceLibrary) (sha256 : Text → Text) (row : ExternalRow)
    (created : Bool) : Except Error ExternalRunImportResult := do
  let envelope ← required (Json.loads row.binding.envelope_json)
    (.integrityError (text "external run envelope is not valid JSON"))
  refuse (envelope.isObject = false)
    (.integrityError (text "external run envelope does not match its immutable hash"))
  let envelope_hash ← sha256Json sha256 envelope
  refuse (envelope_hash ≠ row.binding.envelope_hash)
    (.integrityError (text "external run envelope does not match its immutable hash"))
  refuse (fieldEquals envelope "registration_status"
      (.str RegistrationStatus.unregistered_external.value) = false)
    (.integrityError (text "external run envelope is not permanently low-integrity"))
  refuse (row.binding.registration_status ≠ .unregistered_external)
    (.integrityError (text "external run binding is not permanently low-integrity"))
  let evidence_payload ← required
    ((envelope.get? (text "external_evidence")).filter Value.isObject)
    (.integrityError (text "external run envelope is missing its evidence"))
  let evidence_hash ← sha256Json sha256 evidence_payload
  refuse (evidence_hash ≠ row.imported.evidence_hash)
    (.integrityError (text "external run evidence does not match its immutable hash"))
  let evidence ← required (L.validate evidence_payload)
    (.integrityError (text "stored external run evidence is invalid"))
  let key ← evidence.idempotencyKey sha256
  refuse ((externalInvariants key row envelope evidence).all id = false)
    (.integrityError (text "external run registry state does not match its evidence"))
  return { run_id := row.run.run_id, source_system := evidence.source_system,
           source_run_id := evidence.source_run_id, registration_status := .unregistered_external,
           strategy_id := evidence.strategy_id,
           dataset_version := evidence.snapshot.dataset_version,
           evidence_hash := row.imported.evidence_hash,
           envelope_hash := row.binding.envelope_hash, state := evidence.expectedState,
           exit_code := evidence.exit_code, failure_note := evidence.failure_note, created }

/-! ## The ingestion transaction -/

/-- What one ingestion reads outside the registry: its clock and a fresh identifier. -/
structure IngestWorld where
  ingested_at : DateTime
  hex : Text

namespace Registry

variable (L : EvidenceLibrary) (sha256 : Text → Text)

/-- `_clock_time`, and the check that the run is over. -/
def ingestionTime (world : IngestWorld) (e : ExternalRunEvidence) : Except Error DateTime := do
  refuse (world.ingested_at.isAware = false)
    (.integrityError (text "external ingestion clock must return a timezone-aware value"))
  let ingested ← required world.ingested_at.utcInstant
    (.overflowError (text "date value out of range"))
  let completed ← required e.completed_at.utcInstant
    (.overflowError (text "date value out of range"))
  refuse (ingested < completed)
    (.integrityError (text "external ingestion time cannot precede run completion"))
  return world.ingested_at

/-- The columns of a new import. -/
def externalRun (world : IngestWorld) (e : ExternalRunEvidence) (evidence_hash : Text) :
    Except Error ExternalRun := do
  let ingested_at ← ingestionTime world e
  let run_id := text "run_external_" ++ world.hex
  let envelope := e.envelope run_id (e.modelDump L) evidence_hash ingested_at
  let envelope_hash ← sha256Json sha256 envelope
  let idempotency_key ← e.idempotencyKey sha256
  let envelope_json ← canonicalJson envelope
  return { run_id, source_system := e.source_system, source_run_id := e.source_run_id,
           evidence_hash, idempotency_key, strategy_id := e.strategy_id,
           dataset_version := e.snapshot.dataset_version, envelope_json, envelope_hash,
           started_at := e.started_at, completed_at := e.completed_at, ingested_at,
           exit_code := e.exit_code, failure_note := e.failure_note }

/-- A new import, read back and verified before the commit. -/
def ingestNew (world : IngestWorld) (e : ExternalRunEvidence) (evidence_hash : Text) :
    Session ExternalRunImportResult := do
  let columns ← Program.check (externalRun L sha256 world e evidence_hash)
  createExternalRunImport sha256 columns
  let stored ← select (·.externalRunImport? e.source_system e.source_run_id)
  let row ← Program.check (required stored
    (.integrityError (text "external run disappeared during its import")))
  Program.check (externalResult L sha256 row true)

/-- `ExternalRunIngestor.ingest` -/
def ingestExternalRun (world : IngestWorld) (e : ExternalRunEvidence) :
    Session ExternalRunImportResult := do
  let evidence_hash ← Program.check (sha256Json sha256 (e.modelDump L))
  let existing ← select (·.externalRunImport? e.source_system e.source_run_id)
  match existing with
  | some row => do
    Program.check (refuse (row.imported.evidence_hash ≠ evidence_hash) (.idempotencyConflictError
      (text "external source run identity is already bound to different evidence")))
    Program.check (externalResult L sha256 row false)
  | none => ingestNew L sha256 world e evidence_hash

end Registry

end Pine
