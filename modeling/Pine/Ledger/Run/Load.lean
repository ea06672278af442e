import Pine.Core.Bytes
import Pine.Ledger.Capture.Capture
import Pine.Ledger.Record.Yaml
import Pine.Ledger.Results.Evidence
import Pine.Ledger.Run.Prepare

/-!
# Loading committed artifacts

What a preregistered preparation reads of the vault before it binds a run: the record and
the snapshot of the prediction, each checked against the row and both against its hash.
The YAML loader and the validators are those of libraries outside the repository.
-/

namespace Pine

open Json (Value)

/-- How records are read as well: `yaml.safe_load`, and the validator of forecasts. -/
structure RecordLibrary extends ResultLibrary where
  safeLoad : Text → Option YamlValue
  validateForecast : YamlValue → Option StrategyEdgeForecast

/-- What the vault holds at the paths of a prediction. -/
structure Artifacts where
  is_file : Bool
  record : Except Error Bytes
  snapshot : Except Error Bytes

/-- Universal newlines: a carriage return ends a line, with or without a line feed. -/
def universalNewlines : Text → Text
  | '\r' :: '\n' :: s => '\n' :: universalNewlines s
  | '\r' :: s => '\n' :: universalNewlines s
  | c :: s => c :: universalNewlines s
  | [] => []

/-- `path.read_text(encoding="utf-8")` of a file with the content. -/
def readUtf8 (content : Except Error Bytes) : Except Error Text := do
  let raw ← content
  let decoded ← required raw.decodeUtf8 (.valueError (text "'utf-8' codec can't decode the file"))
  return universalNewlines decoded

/-- `_read_frontmatter` -/
def readFrontmatter (L : RecordLibrary) (record : Except Error Bytes) : Except Error YamlValue := do
  let content ← readUtf8 record
  let rest ← required (stripPrefix (text "---\n") content)
    (.integrityError (text "prediction record has no YAML frontmatter"))
  let parts ← required (splitOnce (text "---\n") rest)
    (.integrityError (text "prediction record has malformed YAML frontmatter"))
  let value ← required (L.safeLoad parts.1) (.otherException (text "YAMLError") [])
  refuse (value.isMapping = false)
    (.integrityError (text "prediction record frontmatter is not an object"))
  return value

/-- `_isoformat` -/
def isoformatField (value : Option YamlValue) : Option Text :=
  match value with
  | some (.time t) => some t.isoformat
  | some (.str s) => some s
  | _ => none

/-- `frontmatter[key]` -/
def frontmatterField (frontmatter : YamlValue) (key : String) : Except Error YamlValue :=
  required (frontmatter.get? key) (.keyError (text key))

/-- The columns of a row that the front matter repeats as texts. -/
def PredictionRow.repeated (row : PredictionRow) : List (String × Text) :=
  [("id", row.prediction_id), ("run_id", row.run_id), ("schema_id", row.schema_id),
    ("schema_hash", row.schema_hash), ("registration_status", row.registration_status.value),
    ("snapshot_ref", row.snapshot_ref), ("immutable_hash", row.immutable_hash)]

/-- A field of a record that differs from the registry. -/
def recordMismatch (key : String) : Error :=
  .integrityError (text "prediction record " ++ text key ++ text " does not match the registry")

/-- The repeated columns, compared one after the other. -/
def checkRepeated (frontmatter : YamlValue) : List (String × Text) → Except Error Unit
  | [] => .ok ()
  | (key, expected) :: rest => do
    refuse (frontmatter.fieldIs key expected = false) (recordMismatch key)
    checkRepeated frontmatter rest

/-- `immutable_payload`, as it is read back from the artifacts of a row. -/
def storedPayload (row : PredictionRow) (forecast : StrategyEdgeForecast)
    (decision lineage : YamlValue) (snapshot : Document) : YamlValue :=
  .map [(.str (text "registration_status"), .str row.registration_status.value),
    (.str (text "forecast"), .ofDocument forecast.modelDump),
    (.str (text "decision"), decision),
    (.str (text "snapshot"), .ofDocument snapshot),
    (.str (text "snapshot_ref"), .str row.snapshot_ref),
    (.str (text "schema_hash"), .str row.schema_hash),
    (.str (text "lineage"), lineage)]

section

variable (L : RecordLibrary) (sha256 : Text → Text)

/-- The artifacts of a row, once both files are known to be there. -/
def loadArtifacts (prediction : PredictionRow) (artifacts : Artifacts) :
    Except Error (StrategyEdgeForecast × StrategySnapshot) := do
  let content ← readUtf8 artifacts.snapshot
  let snapshot_value ← required (Json.loads content) (.valueError (text "invalid JSON"))
  let snapshot ← required (L.validateSnapshot snapshot_value)
    (.valueError (text "validation errors for StrategySnapshot"))
  let frontmatter ← readFrontmatter L artifacts.record
  let value ← frontmatterField frontmatter "forecast"
  let forecast ← required (L.validateForecast value)
    (.valueError (text "validation errors for StrategyEdgeForecast"))
  checkRepeated frontmatter prediction.repeated
  refuse (isoformatField (frontmatter.get? "created_at") ≠ some prediction.created_at)
    (recordMismatch "created_at")
  refuse (isoformatField (frontmatter.get? "committed_at") ≠ prediction.committed_at)
    (recordMismatch "committed_at")
  let decision ← frontmatterField frontmatter "decision"
  let lineage ← frontmatterField frontmatter "lineage"
  let hash ← (storedPayload prediction forecast decision lineage snapshot_value).sha256Json sha256
  refuse (hash ≠ prediction.immutable_hash) (.integrityError
    (text "prediction artifacts do not match the immutable registry hash"))
  let decision_at ← required (DateTime.fromisoformat prediction.created_at)
    (.valueError (text "Invalid isoformat string"))
  verifySnapshotBinding snapshot forecast.strategy_id forecast.in_sample_window
    forecast.out_of_sample_window decision_at
  return (forecast, snapshot)

/-- `_load_preregistered_snapshot` -/
def loadPreregisteredSnapshot (vault : PredictionRow → Artifacts) (prediction : PredictionRow) :
    Except Error (StrategyEdgeForecast × StrategySnapshot) := do
  resultForRow (vault prediction).is_file prediction
  rethrow (fun e => e.isException && !e.isIntegrityError)
    (.integrityError (text "committed prediction artifacts are not executable"))
    (loadArtifacts L sha256 prediction (vault prediction))

end

/-- What a load returned: a validated snapshot that belongs to the forecast. -/
theorem loadPreregisteredSnapshot_ok {L : RecordLibrary} {sha256 : Text → Text}
    {vault : PredictionRow → Artifacts} {prediction : PredictionRow}
    {loaded : StrategyEdgeForecast × StrategySnapshot}
    (h : loadPreregisteredSnapshot L sha256 vault prediction = .ok loaded) :
    (∃ value, L.validateSnapshot value = some loaded.2) ∧
      loaded.2.strategy_id = loaded.1.strategy_id := by
  obtain ⟨_, -, h⟩ := bind_eq_ok.mp h
  replace h := rethrow_ok.mp h
  obtain ⟨content, -, h⟩ := bind_eq_ok.mp h
  obtain ⟨value, -, h⟩ := bind_eq_ok.mp h
  obtain ⟨snapshot, hsnapshot, h⟩ := bind_eq_ok.mp h
  obtain ⟨frontmatter, -, h⟩ := bind_eq_ok.mp h
  obtain ⟨_, -, h⟩ := bind_eq_ok.mp h
  obtain ⟨forecast, -, h⟩ := bind_eq_ok.mp h
  obtain ⟨_, -, h⟩ := bind_eq_ok.mp h
  obtain ⟨_, -, h⟩ := bind_eq_ok.mp h
  obtain ⟨_, -, h⟩ := bind_eq_ok.mp h
  obtain ⟨_, -, h⟩ := bind_eq_ok.mp h
  obtain ⟨_, -, h⟩ := bind_eq_ok.mp h
  obtain ⟨_, -, h⟩ := bind_eq_ok.mp h
  obtain ⟨_, -, h⟩ := bind_eq_ok.mp h
  obtain ⟨_, -, h⟩ := bind_eq_ok.mp h
  obtain ⟨_, hbinding, h⟩ := bind_eq_ok.mp h
  cases h
  obtain ⟨_, hstrategy, -⟩ := bind_eq_ok.mp hbinding
  exact ⟨⟨value, required_ok.mp hsnapshot⟩, not_not.mp (refuse_ok.mp hstrategy)⟩

end Pine
