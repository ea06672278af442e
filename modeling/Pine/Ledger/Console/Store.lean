import Pine.Core.Program
import Pine.Ledger.Console.Projection

/-!
# The workflow store

The operations of the console state store, each one immediate transaction on the
workflow table. Most of them read one row of a user, check its state and version, and
apply one update; what each of them sets is its own.
-/

namespace Pine

/-- The database operations of the workflow store. -/
abbrev ConsoleStore := Program (List WorkflowRow) ConsoleError

/-- What the store is configured with, and what one operation reads besides the rows: each
reading of its clock, fresh UUIDs, and which texts the database takes for JSON. -/
structure StoreWorld where
  ordinary_retention : Nat
  receipt_retention : Nat
  clock : Nat → DateTime
  uuid_factory : Nat → Text
  json_valid : Text → Bool
  retention_positive : 0 < ordinary_retention ∧ 0 < receipt_retention

/-- The capture of a confirmation: validated input, or a mapping that is validated in the store. -/
inductive CaptureArgument where
  | input (value : CaptureInput)
  | mapping (value : Document)

/-- The validated input of a confirmation. -/
def CaptureArgument.validated (L : ConsoleLibrary) : CaptureArgument → Option CaptureInput
  | input value => some value
  | mapping value => CaptureInput.modelValidate L value

/-- What an operation of the store returns; a workflow is projected after the commit. -/
inductive StoreResult where
  | workflow (row : WorkflowRow)
  | recovered (submitting_to_uncertain extracting_to_editing : Nat)
  | deleted (count : Nat)

/-- The identity that an operation is scoped to. -/
def normalizedIdentity (user_id : Text) : Except ConsoleError Text :=
  demand (normalizeUserIdentity user_id)
    (.raised (.valueError (text "authenticated identity is invalid")))

/-- `_require_state` -/
def requireState (row : WorkflowRow) (expected : WorkflowState) : Except ConsoleError Unit :=
  reject (row.state ≠ expected) (.workflowConflictError
    (text "workflow is " ++ row.state.value ++ text "; expected " ++ expected.value))

/-- `_require_version` -/
def requireVersion (row : WorkflowRow) (expected : Option Int) : Except ConsoleError Unit :=
  reject (∃ version ∈ expected, (row.version : Int) ≠ version)
    (.workflowConflictError (text "workflow version is stale"))

/-- `canonical_json({"details": [...]})` -/
def detailsJson (details : List Text) : Except ConsoleError Text :=
  consoleJson (.obj [(text "details", .arr (details.map .str))])

/-- The stored text of a later instant. -/
def laterText (now : Int) (retention : Nat) : Except ConsoleError Text := do
  let _ ← demand (DateTime.ofInstant (now + retention)) .outOfRange
  return timestamp (now + retention)

namespace StoreWorld

variable (S : StoreWorld)

/-- `_now`, at one reading of the clock. -/
def now (reading : Nat) : Except ConsoleError Int := do
  reject ((S.clock reading).isAware = false)
    (.consoleStateError (text "console clock returned a naive timestamp"))
  demand (S.clock reading).utcInstant .outOfRange

/-- The expiry check of `_get_row`. -/
def checkExpiry (reading : Nat) (row : WorkflowRow) : Except ConsoleError Unit :=
  match row.expires_at with
  | none => .ok ()
  | some s => do
    let expires_at ← demand (DateTime.fromisoformat s)
      (.consoleStateError (text "console workflow expiry is invalid"))
    let now ← S.now reading
    reject (expires_at.isAware = false)
      (.raised (.typeError (text "can't compare offset-naive and offset-aware datetimes")))
    reject (expires_at.instant ≤ now) .workflowNotFound

/-- `_get_row` -/
def getRow (reading : Nat) (workflow_id user_id : Text) (reject_expired : Bool) :
    ConsoleStore WorkflowRow := do
  let row ← Program.query fun rows => demand
    (rows.find? fun r => r.workflow_id == workflow_id && r.user_id == user_id) .workflowNotFound
  Program.check (if reject_expired then S.checkExpiry reading row else .ok ())
  return row

/-- `_update` -/
def updateRow (workflow_id : Text) (u : WorkflowUpdate) : ConsoleStore Unit :=
  Program.update fun rows =>
    match Workflows.updateWorkflows S.json_valid (·.workflow_id == workflow_id) u rows with
    | .error _ => .error
        (.workflowConflictError (text "console workflow transition was rejected"))
    | .ok (count, updated) => if count = 1 then .ok updated else .error .workflowNotFound

/-- The common course of the operations: a row of the user, its guard, one update, and the row
as it is then. -/
def transition (workflow_id user_id : Text) (reject_expired : Bool)
    (guard : WorkflowRow → Except ConsoleError Unit)
    (assignments : Int → Except ConsoleError WorkflowUpdate) : ConsoleStore StoreResult := do
  let identity ← Program.check (normalizedIdentity user_id)
  let now ← Program.check (S.now 0)
  let row ← S.getRow 1 workflow_id identity reject_expired
  Program.check (guard row)
  let u ← Program.check (assignments now)
  S.updateRow workflow_id u
  let updated ← S.getRow 2 workflow_id identity true
  return .workflow updated

/-- `create_workflow` -/
def createWorkflow (user_id source_text schema_id : Text) : ConsoleStore StoreResult := do
  let request ← Program.check (HypothesisExtractionRequest.of source_text schema_id)
  let identity ← Program.check (normalizedIdentity user_id)
  let now ← Program.check (S.now 0)
  let expires_at ← Program.check (laterText now S.ordinary_retention)
  let row : WorkflowRow :=
    { workflow_id := S.uuid_factory 0, user_id := identity, state := .editing,
      schema_id := request.schema_id, source_text := some request.text, proposal_json := none,
      idempotency_key := text "console-" ++ S.uuid_factory 1, frozen_request_json := none,
      capture_response_json := none, error_code := none, error_details_json := none,
      created_at := timestamp now, updated_at := timestamp now, expires_at := some expires_at,
      version := 0 }
  Program.update fun rows => match Workflows.insertWorkflow S.json_valid row rows with
    | .ok rows' => .ok rows'
    | .error _ => .error (.consoleStateError (text "console workflow identity collision"))
  let created ← S.getRow 1 (S.uuid_factory 0) identity true
  return .workflow created

/-- `begin_extraction` -/
def beginExtraction (workflow_id user_id : Text) (expected_version : Option Int) :
    ConsoleStore StoreResult :=
  S.transition workflow_id user_id true
    (fun row => do
      requireState row .editing
      requireVersion row expected_version)
    fun now => return {
      state := some .extracting, error_code := some none, error_details_json := some none,
      updated_at := some (timestamp now), version := some (· + 1) }

/-- `revise_source` -/
def reviseSource (workflow_id user_id source_text schema_id : Text)
    (expected_version : Option Int) : ConsoleStore StoreResult := do
  let request ← Program.check (HypothesisExtractionRequest.of source_text schema_id)
  S.transition workflow_id user_id true
    (fun row => do
      requireState row .editing
      requireVersion row expected_version
      reject (request.schema_id ≠ row.schema_id)
        (.workflowConflictError (text "workflow schema cannot be changed")))
    fun now => do
      let expires_at ← laterText now S.ordinary_retention
      return {
        source_text := some (some request.text), proposal_json := some none,
        error_code := some none, error_details_json := some none,
        updated_at := some (timestamp now), expires_at := some (some expires_at),
        version := some (· + 1) }

/-- What `finish_extraction` sets. -/
def extractionUpdate (result : ExtractionResult) (now : Int) : Except ConsoleError WorkflowUpdate := do
  let expires_at ← laterText now S.ordinary_retention
  match result with
  | .ready proposal => do
    let proposal_json ← consoleJson proposal.modelDump
    return {
      state := some .reviewing, proposal_json := some (some proposal_json),
      error_code := some none, error_details_json := some none,
      updated_at := some (timestamp now), expires_at := some (some expires_at),
      version := some (· + 1) }
  | .unable errors _ => do
    let details ← detailsJson errors
    return {
      state := some .editing, proposal_json := some none,
      error_code := some (some (text "extraction_unable")),
      error_details_json := some (some details), updated_at := some (timestamp now),
      expires_at := some (some expires_at), version := some (· + 1) }

/-- `finish_extraction` -/
def finishExtraction (workflow_id user_id : Text) (result : ExtractionResult) :
    ConsoleStore StoreResult :=
  S.transition workflow_id user_id false (fun row => requireState row .extracting)
    (S.extractionUpdate result)

/-- `fail_extraction` -/
def failExtraction (workflow_id user_id code : Text) (details : List Text) :
    ConsoleStore StoreResult :=
  S.transition workflow_id user_id false (fun row => requireState row .extracting)
    fun now => do
      let details_json ← detailsJson details
      let expires_at ← laterText now S.ordinary_retention
      return {
        state := some .editing, proposal_json := some none, error_code := some (some code),
        error_details_json := some (some details_json), updated_at := some (timestamp now),
        expires_at := some (some expires_at), version := some (· + 1) }

/-- The request that a confirmation freezes for a workflow under review. -/
def frozenRequest (L : ConsoleLibrary) (row : WorkflowRow) (capture : CaptureArgument) :
    Except ConsoleError FrozenCaptureRequest := do
  let capture_input ← demand (capture.validated L) (.validationError (text "CaptureInput"))
  reject (capture_input.schema_id ≠ row.schema_id)
    (.workflowConflictError (text "capture schema differs from the workflow schema"))
  let workflow ← workflowFromRow L row
  let proposal ← demand workflow.proposal
    (.workflowConflictError (text "reviewing workflow lacks a proposal"))
  reject (capture_input.schema_hash ≠ proposal.schema_hash)
    (.workflowConflictError (text "capture schema hash differs from the reviewed proposal"))
  demand (capture_input.freeze L row.idempotency_key)
    (.validationError (text "FrozenCaptureRequest"))

/-- The part of `freeze_and_begin_submission` for a workflow that is not committed: the request
is frozen and the submission begun by two updates of one transaction. -/
def freezeAndSubmit (L : ConsoleLibrary) (workflow_id identity : Text) (now : Int)
    (row : WorkflowRow) (capture : CaptureArgument) (expected_version : Option Int) :
    ConsoleStore StoreResult := do
  Program.check (requireState row .reviewing)
  Program.check (requireVersion row expected_version)
  let request ← Program.check (frozenRequest L row capture)
  let request_json ← Program.check (consoleJson request.modelDump)
  S.updateRow workflow_id {
    state := some .frozen, frozen_request_json := some (some request_json),
    expires_at := some none, error_code := some none, error_details_json := some none,
    updated_at := some (timestamp now), version := some (· + 1) }
  S.updateRow workflow_id {
    state := some .submitting, updated_at := some (timestamp now), version := some (· + 1) }
  let updated ← S.getRow 2 workflow_id identity true
  return .workflow updated

/-- `freeze_and_begin_submission` -/
def freezeAndBeginSubmission (L : ConsoleLibrary) (workflow_id user_id : Text)
    (capture : CaptureArgument) (expected_version : Option Int) : ConsoleStore StoreResult := do
  let identity ← Program.check (normalizedIdentity user_id)
  let now ← Program.check (S.now 0)
  let row ← S.getRow 1 workflow_id identity true
  if row.state = .committed then do
    let _ ← Program.check (workflowFromRow L row)
    return .workflow row
  else S.freezeAndSubmit L workflow_id identity now row capture expected_version

/-- `begin_retry` -/
def beginRetry (workflow_id user_id : Text) (expected_version : Option Int) :
    ConsoleStore StoreResult :=
  S.transition workflow_id user_id true
    (fun row => do
      reject (row.state ≠ .uncertain ∧ row.state ≠ .retryable_failure)
        (.workflowConflictError (text "workflow is not eligible for exact retry"))
      requireVersion row expected_version)
    fun now => return {
      state := some .submitting, error_code := some none, error_details_json := some none,
      updated_at := some (timestamp now), expires_at := some none, version := some (· + 1) }

/-- `record_capture_response` -/
def recordCaptureResponse (workflow_id user_id : Text) (response : CaptureResponse) :
    ConsoleStore StoreResult :=
  S.transition workflow_id user_id true (fun row => requireState row .submitting)
    fun now => do
      let response_json ← consoleJson response.modelDump
      let expires_at ← laterText now S.receipt_retention
      return {
        state := some .committed, capture_response_json := some (some response_json),
        error_code := some none, error_details_json := some none,
        updated_at := some (timestamp now), expires_at := some (some expires_at),
        version := some (· + 1) }

/-- The expiry of a failed capture: only a terminal failure expires. -/
def failureExpiry (state : WorkflowState) (now : Int) : Except ConsoleError (Option Text) :=
  if state = .terminal_failure then do
    let expires_at ← laterText now S.ordinary_retention
    return some expires_at
  else return none

/-- `record_capture_failure` -/
def recordCaptureFailure (workflow_id user_id : Text) (state : WorkflowState) (code : Text)
    (details : List Text) : ConsoleStore StoreResult := do
  Program.check (reject
    (state ≠ .uncertain ∧ state ≠ .retryable_failure ∧ state ≠ .terminal_failure)
    (.raised (.valueError (text "capture failure requires a failure state"))))
  S.transition workflow_id user_id true (fun row => requireState row .submitting)
    fun now => do
      let details_json ← detailsJson details
      let expires_at ← S.failureExpiry state now
      return {
        state := some state, error_code := some (some code),
        error_details_json := some (some details_json), updated_at := some (timestamp now),
        expires_at := some expires_at, version := some (· + 1) }

/-- `cancel_workflow` -/
def cancelWorkflow (workflow_id user_id : Text) (expected_version : Option Int) :
    ConsoleStore StoreResult :=
  S.transition workflow_id user_id true
    (fun row => do
      reject (row.state ≠ .editing ∧ row.state ≠ .reviewing)
        (.workflowConflictError (text "workflow can no longer be cancelled"))
      requireVersion row expected_version)
    fun now => do
      let expires_at ← laterText now S.ordinary_retention
      return {
        state := some .cancelled, source_text := some none, proposal_json := some none,
        error_code := some none, error_details_json := some none,
        updated_at := some (timestamp now), expires_at := some (some expires_at),
        version := some (· + 1) }

/-- One update of `recover_abandoned_workflows`, of every workflow in a state. -/
def recoverState (state : WorkflowState) (u : WorkflowUpdate) : ConsoleStore Nat :=
  Program.statement fun rows =>
    match Workflows.updateWorkflows S.json_valid (·.state == state) u rows with
    | .ok r => .ok r
    | .error e => .error (.raised e)

/-- `recover_abandoned_workflows` -/
def recoverAbandonedWorkflows : ConsoleStore StoreResult := do
  let now ← Program.check (S.now 0)
  let submitting ← S.recoverState .submitting {
    state := some .uncertain, error_code := some (some (text "console_restarted")),
    error_details_json := some
      (some (text "\x7b\"details\":[\"capture outcome requires exact replay\"]\x7d")),
    updated_at := some (timestamp now), expires_at := some none, version := some (· + 1) }
  let expires_at ← Program.check (laterText now S.ordinary_retention)
  let extracting ← S.recoverState .extracting {
    state := some .editing, error_code := some (some (text "console_restarted")),
    error_details_json := some
      (some (text "\x7b\"details\":[\"extraction may be started again\"]\x7d")),
    updated_at := some (timestamp now), expires_at := some (some expires_at),
    version := some (· + 1) }
  return .recovered submitting extracting

/-- `cleanup_expired` -/
def cleanupExpired : ConsoleStore StoreResult := do
  let now ← Program.check (S.now 0)
  let count ← Program.statement fun rows =>
    match Workflows.deleteWorkflows
        (fun r => r.expires_at.any (textLe · (timestamp now)) && r.state.isDisposable) rows with
    | .ok r => .ok r
    | .error e => .error (.raised e)
  return .deleted count

end StoreWorld

/-- The operations of the store that write. -/
inductive StoreOperation where
  | create_workflow (user_id source_text schema_id : Text)
  | begin_extraction (workflow_id user_id : Text) (expected_version : Option Int)
  | revise_source (workflow_id user_id source_text schema_id : Text)
      (expected_version : Option Int)
  | finish_extraction (workflow_id user_id : Text) (result : ExtractionResult)
  | fail_extraction (workflow_id user_id code : Text) (details : List Text)
  | freeze_and_begin_submission (workflow_id user_id : Text) (capture : CaptureArgument)
      (expected_version : Option Int)
  | begin_retry (workflow_id user_id : Text) (expected_version : Option Int)
  | record_capture_response (workflow_id user_id : Text) (response : CaptureResponse)
  | record_capture_failure (workflow_id user_id : Text) (state : WorkflowState) (code : Text)
      (details : List Text)
  | cancel_workflow (workflow_id user_id : Text) (expected_version : Option Int)
  | recover_abandoned_workflows
  | cleanup_expired

/-- The transaction of an operation. -/
def StoreOperation.program (L : ConsoleLibrary) (S : StoreWorld) :
    StoreOperation → ConsoleStore StoreResult
  | create_workflow user_id source_text schema_id => S.createWorkflow user_id source_text schema_id
  | begin_extraction workflow_id user_id version => S.beginExtraction workflow_id user_id version
  | revise_source workflow_id user_id source_text schema_id version =>
    S.reviseSource workflow_id user_id source_text schema_id version
  | finish_extraction workflow_id user_id result => S.finishExtraction workflow_id user_id result
  | fail_extraction workflow_id user_id code details =>
    S.failExtraction workflow_id user_id code details
  | freeze_and_begin_submission workflow_id user_id capture version =>
    S.freezeAndBeginSubmission L workflow_id user_id capture version
  | begin_retry workflow_id user_id version => S.beginRetry workflow_id user_id version
  | record_capture_response workflow_id user_id response =>
    S.recordCaptureResponse workflow_id user_id response
  | record_capture_failure workflow_id user_id state code details =>
    S.recordCaptureFailure workflow_id user_id state code details
  | cancel_workflow workflow_id user_id version => S.cancelWorkflow workflow_id user_id version
  | recover_abandoned_workflows => S.recoverAbandonedWorkflows
  | cleanup_expired => S.cleanupExpired

end Pine
