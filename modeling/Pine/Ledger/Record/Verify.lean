import Pine.Ledger.Run.Load

/-!
# The evidence verifier

What the verifier reads of a record and its snapshot, and every violation it reports when it
compares them with the row that was committed. It reads under size limits, changes nothing, and
returns evidence only when it reports no violation.
-/

namespace Pine

open Json (Value)

/-- What the file system answers about a path: whether it stays inside its directory and is no
symbolic link, and what is read there, which is nothing where a file is missing. -/
structure ManagedFile where
  managed : Bool
  read : Except Error (Option Bytes)

/-- How artifacts are read: the libraries, and what `json.loads` makes of bytes that are no UTF-8
text of a document. -/
structure EvidenceReader extends RecordLibrary where
  loadsOther : Bytes → Option Document

structure VerifiedRecordEvidence where
  forecast : StrategyEdgeForecast
  decision : Text
  snapshot : Document
  lineage : YamlValue
  body : Text

structure EvidenceVerificationResult where
  evidence : Option VerifiedRecordEvidence
  violations : List (Text × Text)

/-- `verified` -/
def EvidenceVerificationResult.verified (r : EvidenceVerificationResult) : Bool :=
  r.evidence.isSome && r.violations.isEmpty

/-- `_failed` -/
def EvidenceVerificationResult.failed (field note : String) : EvidenceVerificationResult :=
  ⟨none, [(text field, text note)]⟩

/-! ## Reading -/

/-- `_MAX_RECORD_BYTES` -/
def maxRecordBytes : Nat := 1024 * 1024

/-- `_MAX_SNAPSHOT_BYTES` -/
def maxSnapshotBytes : Nat := 16 * 1024 * 1024

/-- One line feed is dropped at each end of a body. -/
def trimBody (body : Text) : Text :=
  let body := (stripPrefix ['\n'] body).getD body
  if body.getLast? = some '\n' then body.dropLast else body

/-- `_load_record`, with nothing for every error that the verifier reports as malformed. -/
def loadRecord (L : RecordLibrary) (raw : Bytes) : Option (YamlValue × Text) := do
  if maxRecordBytes < raw.length then none
  let content ← raw.decodeUtf8
  let rest ← stripPrefix (text "---\n") (replaceCrLf content)
  let parts ← splitOnce (text "---\n") rest
  let frontmatter ← L.safeLoad parts.1
  if frontmatter.isMapping then some (frontmatter, trimBody parts.2) else none

namespace EvidenceReader

variable (R : EvidenceReader)

/-- `json.loads(raw)` -/
def jsonLoads (raw : Bytes) : Option Document :=
  ((raw.decodeUtf8).bind Json.loads).or (R.loadsOther raw)

/-- `_load_snapshot`: the snapshot, or what is wrong with it. -/
def loadSnapshot (file : ManagedFile) : Except Error (Except Text Document) := do
  refuse (file.managed = false)
    (.valueError (text "registry snapshot_ref escapes the managed snapshot directory"))
  match ← file.read with
  | none => return .error (text "committed snapshot is missing")
  | some raw =>
    refuse (maxSnapshotBytes < raw.length) (.otherException (text "SnapshotReadLimitError")
      (text "committed snapshot exceeds the read limit"))
    match R.jsonLoads raw with
    | none => return .error (text "committed snapshot is malformed")
    | some snapshot =>
      if snapshot.isObject = false then
        return .error (text "committed snapshot must be a JSON object")
      else if isFinite snapshot then return .ok snapshot
      else return .error (text "committed snapshot is not canonical JSON data")

end EvidenceReader

/-! ## Comparisons -/

/-- The note of a field that differs. -/
def valueDiffers : Text := text "frontmatter value differs from committed registry value"

/-- `expected_scalars` -/
def PredictionRow.expectedScalars (row : PredictionRow) : List (String × Text) :=
  [("id", row.prediction_id), ("run_id", row.run_id), ("type", text "prediction"),
    ("schema_id", row.schema_id), ("schema_hash", row.schema_hash),
    ("registration_status", row.registration_status.value), ("snapshot_ref", row.snapshot_ref),
    ("immutable_hash", row.immutable_hash)]

/-- The scalars that differ. -/
def scalarViolations (frontmatter : YamlValue) (row : PredictionRow) : List (Text × Text) :=
  (row.expectedScalars.filter fun field => !frontmatter.fieldIs field.1 field.2).map fun field =>
    (text field.1, valueDiffers)

/-- The time that a value is or spells. -/
def observedTime : Option YamlValue → Option DateTime
  | some (.time t) => some t
  | some (.str s) => DateTime.fromisoformat s
  | _ => none

/-- `_timestamps_match`; only a time that UTC cannot express is an error. -/
def timestampsMatch (observed : Option YamlValue) (expected : Option Text) : Except Error Bool :=
  match observedTime observed, expected.bind DateTime.fromisoformat with
  | some observed_time, some expected_time =>
    if observed_time.isAware && expected_time.isAware then do
      let observed_utc ← required observed_time.astimezoneUtc
        (.overflowError (text "date value out of range"))
      let expected_utc ← required expected_time.astimezoneUtc
        (.overflowError (text "date value out of range"))
      return observed_utc.instant == expected_utc.instant
    else return false
  | _, _ => return false

/-- The violation of a time that differs. -/
def timeViolations (frontmatter : YamlValue) (field : String) (expected : Option Text) :
    Except Error (List (Text × Text)) := do
  let same ← timestampsMatch (frontmatter.get? field) expected
  return if same then [] else [(text field, valueDiffers)]

/-- `canonical_json(lineage) == canonical_json(expected_lineage)`, which an error makes false. -/
def lineageMatches (lineage : YamlValue) (expected : Document) : Bool :=
  match lineage.canonicalJson, canonicalJson expected with
  | .ok observed, .ok expected => observed == expected
  | _, _ => false

/-- The lineage of a record, when it and the registry have one, and what is wrong with it. -/
def compareLineage (frontmatter : YamlValue) (row : PredictionRow) :
    Option YamlValue × List (Text × Text) :=
  match Json.loads row.lineage_json with
  | none => (none, [(text "lineage", text "committed registry lineage is malformed")])
  | some expected =>
    match (frontmatter.get? "lineage").filter YamlValue.isMapping with
    | none => (none, [(text "lineage", valueDiffers)])
    | some lineage =>
      if expected.isObject = false then (none, [(text "lineage", valueDiffers)])
      else (some lineage,
        if lineageMatches lineage expected then [] else [(text "lineage", valueDiffers)])

/-- A decision that is a text and not empty. -/
def observedDecision (frontmatter : YamlValue) : Option Text :=
  ((frontmatter.get? "decision").bind YamlValue.asText?).filter (· ≠ [])

/-- A note about a value that is missing. -/
def missing {α : Type} (value : Option α) (field note : String) : List (Text × Text) :=
  if value.isSome then [] else [(text field, text note)]

/-- The payload that the verifier hashes. -/
def observedPayload (registration_status snapshot_ref schema_hash : Text)
    (forecast : StrategyEdgeForecast) (decision lineage : YamlValue) (snapshot : Document) :
    YamlValue :=
  .map [(.str (text "registration_status"), .str registration_status),
    (.str (text "forecast"), .ofDocument forecast.modelDump),
    (.str (text "decision"), decision),
    (.str (text "snapshot"), .ofDocument snapshot),
    (.str (text "snapshot_ref"), .str snapshot_ref),
    (.str (text "schema_hash"), .str schema_hash),
    (.str (text "lineage"), lineage)]

/-- What is wrong with the hash of a payload. -/
def hashViolations (observed : Except Error Text) (expected : Text) : List (Text × Text) :=
  match observed with
  | .error _ => [(text "immutable_payload",
      text "record contains values that cannot be canonically hashed")]
  | .ok observed_hash =>
    if observed_hash = expected then [] else [(text "immutable_payload",
      text "canonical immutable payload hash differs from committed registry hash; observed " ++
        observed_hash)]

/-- The hash of the payload, once all its parts are there. -/
def payloadViolations (sha256 : Text → Text) (row : PredictionRow) (frontmatter : YamlValue)
    (forecast : Option StrategyEdgeForecast) (decision : Option Text) (snapshot : Option Document)
    (lineage : Option YamlValue) : List (Text × Text) :=
  let field name := (frontmatter.get? name).bind YamlValue.asText?
  match forecast, decision, snapshot, lineage, field "registration_status", field "snapshot_ref",
      field "schema_hash" with
  | some forecast, some decision, some snapshot, some lineage, some registration_status,
      some snapshot_ref, some schema_hash =>
    hashViolations ((observedPayload registration_status snapshot_ref schema_hash forecast
      (.str decision) lineage snapshot).sha256Json sha256) row.immutable_hash
  | _, _, _, _, _, _, _ => []

/-- What is wrong with a snapshot. -/
def snapshotViolations (loaded : Except Text Document) : List (Text × Text) :=
  match loaded with
  | .ok _ => []
  | .error note => [(text "snapshot", note)]

/-- The evidence, when all of it was found. -/
def evidenceOf (forecast : Option StrategyEdgeForecast) (decision : Option Text)
    (snapshot : Option Document) (lineage : Option YamlValue) (body : Text) :
    Option VerifiedRecordEvidence :=
  match forecast, decision, snapshot, lineage with
  | some forecast, some decision, some snapshot, some lineage =>
    some ⟨forecast, decision, snapshot, lineage, body⟩
  | _, _, _, _ => none

/-! ## The verifier -/

section

variable (R : EvidenceReader) (sha256 : Text → Text)

/-- The result of a comparison, once the times are compared and the snapshot is loaded. -/
def comparedEvidence (row : PredictionRow) (frontmatter : YamlValue) (body : Text)
    (created_at committed_at : List (Text × Text)) (loaded : Except Text Document) :
    EvidenceVerificationResult :=
  let lineage := compareLineage frontmatter row
  let forecast := R.validateForecast ((frontmatter.get? "forecast").getD .null)
  let decision := observedDecision frontmatter
  let violations := scalarViolations frontmatter row ++ created_at ++ committed_at ++ lineage.2 ++
    missing forecast "forecast" "frontmatter forecast is missing or malformed" ++
    missing decision "decision" "frontmatter decision is missing or malformed" ++
    snapshotViolations loaded ++
    payloadViolations sha256 row frontmatter forecast decision loaded.toOption lineage.1
  ⟨if violations = [] then evidenceOf forecast decision loaded.toOption lineage.1 body else none,
    violations⟩

/-- The comparison of a record that was read, and of its snapshot. -/
def inspectRecord (row : PredictionRow) (frontmatter : YamlValue) (body : Text)
    (snapshot : ManagedFile) : Except Error EvidenceVerificationResult := do
  let created_at ← timeViolations frontmatter "created_at" (some row.created_at)
  let committed_at ← timeViolations frontmatter "committed_at" row.committed_at
  let loaded ← R.loadSnapshot snapshot
  return comparedEvidence R sha256 row frontmatter body created_at committed_at loaded

/-- `verify` -/
def verify (row : PredictionRow) (record snapshot : ManagedFile) :
    Except Error EvidenceVerificationResult := do
  refuse (record.managed = false)
    (.valueError (text "record path is outside the managed record directory"))
  match ← record.read with
  | none => return .failed "record" "committed Markdown record is missing"
  | some raw =>
    match loadRecord R.toRecordLibrary raw with
    | none => return .failed "record" "committed Markdown record is malformed"
    | some (frontmatter, body) => inspectRecord R sha256 row frontmatter body snapshot

/-- What a verification without violations found. -/
structure Verifies (row : PredictionRow) (record snapshot : ManagedFile) (frontmatter : YamlValue)
    (e : VerifiedRecordEvidence) : Prop where
  managed : record.managed = true
  loaded : ∃ raw, record.read = .ok (some raw) ∧
    loadRecord R.toRecordLibrary raw = some (frontmatter, e.body)
  scalars : ∀ field ∈ row.expectedScalars, frontmatter.fieldIs field.1 field.2 = true
  created_at : timestampsMatch (frontmatter.get? "created_at") (some row.created_at) = .ok true
  committed_at : timestampsMatch (frontmatter.get? "committed_at") row.committed_at = .ok true
  lineage : compareLineage frontmatter row = (some e.lineage, [])
  forecast : R.validateForecast ((frontmatter.get? "forecast").getD .null) = some e.forecast
  decision : observedDecision frontmatter = some e.decision
  snapshot : R.loadSnapshot snapshot = .ok (.ok e.snapshot)
  payload : (observedPayload row.registration_status.value row.snapshot_ref row.schema_hash e.forecast
    (.str e.decision) e.lineage e.snapshot).sha256Json sha256 = .ok row.immutable_hash

end

section

variable {R : EvidenceReader} {sha256 : Text → Text} {row : PredictionRow}
  {record snapshot : ManagedFile} {frontmatter : YamlValue} {body : Text}

theorem scalarViolations_eq_nil : scalarViolations frontmatter row = [] ↔
    ∀ field ∈ row.expectedScalars, frontmatter.fieldIs field.1 field.2 = true := by
  rw [scalarViolations, List.map_eq_nil_iff, List.filter_eq_nil_iff]
  simp

theorem timeViolations_eq_nil {field : String} {expected : Option Text} :
    timeViolations frontmatter field expected = .ok [] ↔
      timestampsMatch (frontmatter.get? field) expected = .ok true := by
  unfold timeViolations
  rw [bind_eq_ok]
  constructor
  · rintro ⟨same, hsame, heq⟩
    cases same with
    | true => exact hsame
    | false => cases heq
  · intro h
    exact ⟨true, h, rfl⟩

theorem missing_eq_nil {α : Type} {value : Option α} {field note : String} :
    missing value field note = [] ↔ ∃ a, value = some a := by
  cases value <;> simp [missing]

/-- The field of a front matter that is the expected text. -/
theorem asText?_of_fieldIs {field : String} {expected : Text}
    (h : frontmatter.fieldIs field expected = true) :
    (frontmatter.get? field).bind YamlValue.asText? = some expected := by
  unfold YamlValue.fieldIs at h
  exact eq_of_beq h

/-- A lineage without violations was found. -/
theorem compareLineage_found (h : (compareLineage frontmatter row).2 = []) :
    ∃ lineage, compareLineage frontmatter row = (some lineage, []) := by
  unfold compareLineage at h ⊢
  split at h
  · cases h
  · split at h
    · cases h
    · rename_i lineage _
      split at h
      · cases h
      · rename_i hobject
        refine ⟨lineage, ?_⟩
        rw [if_neg hobject]
        exact Prod.ext rfl h

theorem hashViolations_eq_nil {observed : Except Error Text} {expected : Text} :
    hashViolations observed expected = [] ↔ observed = .ok expected := by
  cases observed with
  | error e => simp [hashViolations]
  | ok hash =>
    by_cases hsame : hash = expected
    · simp [hashViolations, hsame]
    · simp [hashViolations, hsame]

theorem payloadViolations_eq_nil
    (hscalars : ∀ field ∈ row.expectedScalars, frontmatter.fieldIs field.1 field.2 = true)
    {forecast : StrategyEdgeForecast} {decision : Text} {value : Document} {lineage : YamlValue} :
    payloadViolations sha256 row frontmatter (some forecast) (some decision) (some value)
        (some lineage) = [] ↔
      (observedPayload row.registration_status.value row.snapshot_ref row.schema_hash forecast
        (.str decision) lineage value).sha256Json sha256 = .ok row.immutable_hash := by
  simp only [PredictionRow.expectedScalars, List.forall_mem_cons] at hscalars
  obtain ⟨-, -, -, -, hhash, hstatus, href, -⟩ := hscalars
  simp only [payloadViolations, asText?_of_fieldIs hhash, asText?_of_fieldIs hstatus,
    asText?_of_fieldIs href, hashViolations_eq_nil]

/-- Evidence that was found and agrees with the row is returned without violations. -/
theorem comparedEvidence_clean
    (hscalars : ∀ field ∈ row.expectedScalars, frontmatter.fieldIs field.1 field.2 = true)
    {forecast : StrategyEdgeForecast} {decision : Text} {value : Document} {lineage : YamlValue}
    (hlineage : compareLineage frontmatter row = (some lineage, []))
    (hforecast : R.validateForecast ((frontmatter.get? "forecast").getD .null) = some forecast)
    (hdecision : observedDecision frontmatter = some decision)
    (hpayload : (observedPayload row.registration_status.value row.snapshot_ref row.schema_hash
      forecast (.str decision) lineage value).sha256Json sha256 = .ok row.immutable_hash) :
    comparedEvidence R sha256 row frontmatter body [] [] (.ok value) =
      ⟨some ⟨forecast, decision, value, lineage, body⟩, []⟩ := by
  have hnone := (payloadViolations_eq_nil hscalars).mpr hpayload
  unfold comparedEvidence
  simp only [scalarViolations_eq_nil.mpr hscalars, hlineage, hforecast, hdecision, Except.toOption,
    hnone, missing, snapshotViolations, Option.isSome_some, if_true, List.append_nil, evidenceOf]

/-- The comparison reports no violation exactly when it found what it compares. -/
theorem inspectRecord_clean {r : EvidenceVerificationResult} :
    (inspectRecord R sha256 row frontmatter body snapshot = .ok r ∧ r.violations = []) ↔
      ∃ e : VerifiedRecordEvidence, e.body = body ∧ r = ⟨some e, []⟩ ∧
        (∀ field ∈ row.expectedScalars, frontmatter.fieldIs field.1 field.2 = true) ∧
        timestampsMatch (frontmatter.get? "created_at") (some row.created_at) = .ok true ∧
        timestampsMatch (frontmatter.get? "committed_at") row.committed_at = .ok true ∧
        compareLineage frontmatter row = (some e.lineage, []) ∧
        R.validateForecast ((frontmatter.get? "forecast").getD .null) = some e.forecast ∧
        observedDecision frontmatter = some e.decision ∧
        R.loadSnapshot snapshot = .ok (.ok e.snapshot) ∧
        (observedPayload row.registration_status.value row.snapshot_ref row.schema_hash e.forecast
          (.str e.decision) e.lineage e.snapshot).sha256Json sha256 = .ok row.immutable_hash := by
  constructor
  · rintro ⟨h, hclean⟩
    obtain ⟨created, hcreated, h⟩ := bind_eq_ok.mp h
    obtain ⟨committed, hcommitted, h⟩ := bind_eq_ok.mp h
    obtain ⟨loaded, hloaded, h⟩ := bind_eq_ok.mp h
    obtain rfl := Except.ok.inj h
    have hviolations := hclean
    simp only [comparedEvidence, List.append_eq_nil_iff] at hclean
    obtain ⟨⟨⟨⟨⟨⟨⟨hscalars, rfl⟩, rfl⟩, hlineages⟩, hforecast⟩, hdecision⟩, hsnapshot⟩, hpayload⟩ := hclean
    rw [scalarViolations_eq_nil] at hscalars
    obtain ⟨forecast, hforecast⟩ := missing_eq_nil.mp hforecast
    obtain ⟨decision, hdecision⟩ := missing_eq_nil.mp hdecision
    obtain ⟨lineage, hlineage⟩ := compareLineage_found hlineages
    cases loaded with
    | error note => cases hsnapshot
    | ok value =>
      rw [hforecast, hdecision, hlineage] at hpayload
      have hhash := (payloadViolations_eq_nil hscalars).mp hpayload
      refine ⟨⟨forecast, decision, value, lineage, body⟩, rfl, ?_, hscalars,
        timeViolations_eq_nil.mp hcreated, timeViolations_eq_nil.mp hcommitted, hlineage, hforecast,
        hdecision, hloaded, hhash⟩
      exact comparedEvidence_clean hscalars hlineage hforecast hdecision hhash
  · rintro ⟨e, rfl, rfl, hscalars, hcreated, hcommitted, hlineage, hforecast, hdecision, hsnapshot,
      hpayload⟩
    refine ⟨bind_eq_ok.mpr ⟨[], timeViolations_eq_nil.mpr hcreated, bind_eq_ok.mpr ⟨[],
      timeViolations_eq_nil.mpr hcommitted, bind_eq_ok.mpr ⟨.ok e.snapshot, hsnapshot, ?_⟩⟩⟩, rfl⟩
    exact congrArg Except.ok (comparedEvidence_clean hscalars hlineage hforecast hdecision hpayload)

/-- The verifier reports no violation exactly when it found everything that it compares, and then
it returns the evidence. -/
theorem verify_clean {r : EvidenceVerificationResult} :
    (verify R sha256 row record snapshot = .ok r ∧ r.violations = []) ↔
      ∃ frontmatter e, Verifies R sha256 row record snapshot frontmatter e ∧ r = ⟨some e, []⟩ := by
  constructor
  · rintro ⟨h, hclean⟩
    obtain ⟨_, hmanaged, h⟩ := bind_eq_ok.mp h
    obtain ⟨found, hread, h⟩ := bind_eq_ok.mp h
    cases found with
    | none =>
      cases h
      cases hclean
    | some raw =>
      cases hload : loadRecord R.toRecordLibrary raw with
      | none =>
        simp only [hload] at h
        cases h
        cases hclean
      | some parts =>
        obtain ⟨frontmatter, body⟩ := parts
        simp only [hload] at h
        obtain ⟨e, rfl, rfl, hscalars, hcreated, hcommitted, hlineage, hforecast, hdecision, hsnapshot,
          hpayload⟩ := inspectRecord_clean.mp ⟨h, hclean⟩
        exact ⟨frontmatter, e, ⟨Bool.eq_true_of_not_eq_false (refuse_ok.mp hmanaged), ⟨raw, hread, hload⟩,
          hscalars, hcreated, hcommitted, hlineage, hforecast, hdecision, hsnapshot, hpayload⟩, rfl⟩
  · rintro ⟨frontmatter, e, h, rfl⟩
    obtain ⟨raw, hread, hload⟩ := h.loaded
    have hinspect := inspectRecord_clean.mpr ⟨e, rfl, rfl, h.scalars, h.created_at, h.committed_at,
      h.lineage, h.forecast, h.decision, h.snapshot, h.payload⟩
    refine ⟨bind_eq_ok.mpr ⟨(), refuse_ok.mpr (by simp [h.managed]), bind_eq_ok.mpr ⟨some raw, hread, ?_⟩⟩,
      rfl⟩
    simp only [hload]
    exact hinspect.1

end

end Pine
