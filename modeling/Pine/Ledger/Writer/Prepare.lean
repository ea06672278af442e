import Pine.Ledger.Registry.Operations

/-!
# Preparing a committed prediction

What the writer derives from a validated draft before it stages anything: the schema
is loaded, checked and hashed again, the times are ordered, and the immutable hash
covers the payload. Reading schema files and JSON Schema validation are parameters.
-/

namespace Pine

/-- The schema registry: what loading a schema gives, and the formatted failures of a forecast. -/
structure Schemas where
  load : Text → Except Error JsonObject
  iterErrors : JsonObject → Document → List Text

/-- `load`, `validate_schema` and `hash` of the schema of a forecast. -/
def Schemas.check (schemas : Schemas) (sha256 : Text → Text) (schema_id : Text)
    (forecast : StrategyEdgeForecast) : Except Error Text := do
  let schema ← schemas.load schema_id
  let errors := schemas.iterErrors schema forecast.modelDump
  refuse (errors ≠ []) (.forecastValidationError errors)
  sha256Json sha256 schema.toDict

/-- A clock that must return a timezone-aware value. -/
def clockTime (value : DateTime) (e : Error) : Except Error {t : DateTime // t.isAware = true} :=
  if h : value.isAware = true then .ok ⟨value, h⟩ else .error e

/-- The snapshot file of a prediction, below the vault root. -/
def snapshotRef (prediction_id : Text) : Text :=
  text ".ledger/snapshots/" ++ prediction_id ++ text ".json"

/-- `_prepare_committed` -/
def prepareCommitted (sha256 : Text → Text) (schemas : Schemas) (draft : PredictionDraft)
    (expected_schema_hash : Option Text) (commit_time : DateTime) :
    Except Error CommittedPrediction := do
  let schema_hash ← schemas.check sha256 draft.schema_id draft.forecast
  refuse (∃ expected ∈ expected_schema_hash, schema_hash ≠ expected)
    (.integrityError (text "forecast schema changed during the capture transaction"))
  let _ ← clockTime commit_time (.integrityError (text "committed_at must be timezone-aware"))
  refuse (commit_time.instant < draft.created_at.instant)
    (.integrityError (text "committed_at cannot precede created_at"))
  let snapshot_ref := snapshotRef draft.prediction_id
  let immutable_hash ← sha256Json sha256 (immutablePayload draft schema_hash snapshot_ref)
  return {
    prediction_id := draft.prediction_id
    run_id := draft.run_id
    schema_id := draft.schema_id
    schema_hash
    registration_status := draft.registration_status
    forecast := draft.forecast
    decision := draft.decision
    snapshot := draft.snapshot
    snapshot_ref
    lineage := draft.lineage
    immutable_hash
    body := draft.body
    status := draft.status
    created_at := draft.created_at
    committed_at := commit_time }

/-- What a prepared prediction takes from its draft. -/
theorem prepareCommitted_ok {sha256 : Text → Text} {schemas : Schemas} {draft : PredictionDraft}
    {expected : Option Text} {commit_time : DateTime} {committed : CommittedPrediction}
    (h : prepareCommitted sha256 schemas draft expected commit_time = .ok committed) :
    ∃ schema_hash immutable_hash,
      sha256Json sha256 (immutablePayload draft schema_hash (snapshotRef draft.prediction_id)) =
        .ok immutable_hash ∧ commit_time.isAware = true ∧
      draft.created_at.instant ≤ commit_time.instant ∧
      committed = {
        prediction_id := draft.prediction_id, run_id := draft.run_id,
        schema_id := draft.schema_id, schema_hash,
        registration_status := draft.registration_status, forecast := draft.forecast,
        decision := draft.decision, snapshot := draft.snapshot,
        snapshot_ref := snapshotRef draft.prediction_id, lineage := draft.lineage, immutable_hash,
        body := draft.body, status := draft.status, created_at := draft.created_at,
        committed_at := commit_time } := by
  obtain ⟨schema_hash, -, h⟩ := bind_eq_ok.mp h
  obtain ⟨_, -, h⟩ := bind_eq_ok.mp h
  obtain ⟨aware, haware, h⟩ := bind_eq_ok.mp h
  obtain ⟨_, hordered, h⟩ := bind_eq_ok.mp h
  obtain ⟨immutable_hash, hhash, h⟩ := bind_eq_ok.mp h
  have hclock : commit_time.isAware = true := by
    unfold clockTime at haware
    split at haware
    · assumption
    · cases haware
  cases h
  exact ⟨schema_hash, immutable_hash, hhash, hclock, not_lt.mp (refuse_ok.mp hordered), rfl⟩

end Pine
