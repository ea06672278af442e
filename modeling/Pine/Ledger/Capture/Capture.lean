import Pine.Ledger.Writer.Prepare

/-!
# The capture transaction

`CaptureService.capture` between the beginning of its immediate transaction and the
commit: the lookup of its idempotency key, the checks, the rows. What it reads
outside the registry (clocks, fresh identifiers, the snapshot provider, schemas and
artifacts) is given with the call.
-/

namespace Pine

/-- `_request_hash` hashes this payload. -/
def requestPayload (request : PreregisteredCaptureRequest) : Document :=
  .obj ([(text "schema_id", .str request.schema_id),
    (text "registration_status", .str RegistrationStatus.preregistered.value),
    (text "forecast", request.forecast.modelDump),
    (text "decision", .str request.decision),
    (text "lineage", request.lineage.toDict),
    (text "body", .str request.body)] ++
    (request.expected_schema_hash.map fun hash =>
      (text "expected_schema_hash", .str hash)).toList)

/-- `_request_hash` -/
def requestHash (sha256 : Text → Text) (request : PreregisteredCaptureRequest) : Except Error Text :=
  sha256Json sha256 (requestPayload request)

namespace Registry

/-- `get_prediction_by_idempotency_key`, with the request hash it is bound to. -/
def capture? (db : Registry) (idempotency_key : Text) : Option (Text × PredictionRow) :=
  (db.capture_requests.find? (·.idempotency_key == idempotency_key)).bind fun request =>
    (db.prediction? request.prediction_id).map fun prediction => (request.request_hash, prediction)

/-- The prediction that the key is bound to; a different request under the key is refused. -/
def captureLookup (idempotency_key request_hash : Text) (db : Registry) :
    Except Error (Option PredictionRow) :=
  match db.capture? idempotency_key with
  | none => .ok none
  | some (bound, prediction) =>
    if bound ≠ request_hash then .error (.idempotencyConflictError
      (text "idempotency key is already bound to a different capture request"))
    else .ok (some prediction)

/-- Raise on a window that overlaps one already touched. -/
def refuseOverlap (request : PreregisteredCaptureRequest) (db : Registry) : Except Error Unit := do
  let window := request.forecast.out_of_sample_window
  let overlap ← findTouchedWindowOverlap request.family_id (.date window.start) (.date window.stop) db
  match overlap with
  | none => .ok ()
  | some row => .error (.freshWindowError
      (text "out-of-sample window overlaps previously observed data [" ++ row.window_start ++
        text ", " ++ row.window_end ++ text "]"))

/-- The schema and fresh-window checks of a capture; the result is the schema hash. -/
def captureChecks (sha256 : Text → Text) (schemas : Schemas)
    (request : PreregisteredCaptureRequest) (db : Registry) : Except Error Text := do
  let schema_hash ← schemas.check sha256 request.schema_id request.forecast
  refuse (∃ expected ∈ request.expected_schema_hash, schema_hash ≠ expected)
    (.integrityError (text "capture schema differs from the reviewed schema hash"))
  refuseOverlap request db
  return schema_hash

end Registry

/-- What one capture reads outside the registry. -/
structure CaptureWorld where
  schemas : Schemas
  schemasAtWrite : Schemas
  decision_at : DateTime
  committed_at : DateTime
  prediction_id : Identifier
  run_id : Identifier
  snapshot : Except Error JsonObject
  artifacts : PredictionRow → Bool

/-- A snapshot that its validator accepted. -/
abbrev Snapshot := {snapshot : JsonObject // snapshot.fields ≠ []}

/-- `_capture_snapshot`, of what the provider returned or raised. -/
def captureSnapshot (provided : Except Error JsonObject) : Except Error Snapshot :=
  match provided with
  | .ok snapshot =>
    if h : snapshot.fields ≠ [] then .ok ⟨snapshot, h⟩
    else .error (.snapshotCaptureError (text "snapshot capture failed"))
  | .error (.snapshotCaptureError message) => .error (.snapshotCaptureError message)
  | .error e => .error (if e.isException then
      .snapshotCaptureError (text "snapshot capture failed") else e)

/-- `_clock_time` -/
def captureClock (value : DateTime) : Except Error {t : DateTime // t.isAware = true} :=
  clockTime value (.snapshotCaptureError (text "capture clock must return a timezone-aware value"))

/-- The draft of a capture. -/
def captureDraft (request : PreregisteredCaptureRequest) (prediction_id run_id : Identifier)
    (snapshot : Snapshot) (decision_at : {t : DateTime // t.isAware = true}) : PredictionDraft where
  prediction_id := prediction_id
  run_id := run_id
  schema_id := request.schema_id
  registration_status := .preregistered
  forecast := request.forecast
  decision := request.decision
  snapshot := snapshot.val
  lineage := request.lineage
  body := request.body
  status := .open
  created_at := decision_at.val
  decision_nonempty := request.decision_nonempty
  snapshot_nonempty := snapshot.property
  created_at_aware := decision_at.property

/-- The draft of a capture and its commit time, once its checks passed. -/
def captureInputs (request : PreregisteredCaptureRequest) (world : CaptureWorld) :
    Except Error (PredictionDraft × DateTime) := do
  let decision_at ← captureClock world.decision_at
  let snapshot ← captureSnapshot world.snapshot
  let committed_at ← captureClock world.committed_at
  return (captureDraft request world.prediction_id world.run_id snapshot decision_at,
    committed_at.val)

/-- `result_for_row`, given whether both artifacts of the row are there. -/
def resultForRow (artifacts : Bool) (row : PredictionRow) : Except Error Unit := do
  refuse (row.transaction_state ≠ .committed)
    (.integrityError (text "prediction exists in non-committed state: " ++ row.prediction_id))
  refuse (artifacts = false)
    (.integrityError (text "committed registry entry is missing an artifact: " ++ row.prediction_id))

namespace Registry

/-- The rows that a prepared prediction stages. -/
def stageRows (prediction : CommittedPrediction) : Session Unit := do
  beginPrediction prediction
  commitPrediction prediction.prediction_id prediction.committed_at

/-- `stage_in_transaction`, of its rows. -/
def stageInTransaction (sha256 : Text → Text) (world : CaptureWorld) (draft : PredictionDraft)
    (expected_schema_hash : Option Text) (committed_at : DateTime) : Session Unit := do
  let existing ← select (·.prediction? draft.prediction_id)
  match existing with
  | some row => Program.check (resultForRow (world.artifacts row) row)
  | none =>
    let prediction ← Program.check
      (prepareCommitted sha256 world.schemasAtWrite draft expected_schema_hash committed_at)
    stageRows prediction

/-- A capture under a key that is not bound yet. -/
def captureNew (sha256 : Text → Text) (request : PreregisteredCaptureRequest) (world : CaptureWorld)
    (request_hash : Text) : Session Unit := do
  let schema_hash ← Program.query (captureChecks sha256 world.schemas request)
  let inputs ← Program.check (captureInputs request world)
  stageInTransaction sha256 world inputs.1 (some schema_hash) inputs.2
  registerCaptureRequest request.idempotency_key request_hash inputs.1.prediction_id
    inputs.1.created_at

/-- `capture`, from the beginning of its transaction to the commit. -/
def captureTransaction (sha256 : Text → Text) (request : PreregisteredCaptureRequest)
    (world : CaptureWorld) : Session Unit := do
  let request_hash ← Program.check (requestHash sha256 request)
  let existing ← Program.query (captureLookup request.idempotency_key request_hash)
  match existing with
  | some row => Program.check (resultForRow (world.artifacts row) row)
  | none => captureNew sha256 request world request_hash

end Registry

end Pine
