import Pine.Core.Strip
import Pine.Ledger.Console.FrozenRequest
import Pine.Ledger.Console.Sessions
import Pine.Ledger.Console.Workflows

/-!
# Console workflow projections

The errors of the workflow store, the proposals and receipts it keeps as canonical
JSON, and the validated projection of one stored row.
-/

namespace Pine

open Json (Value)

/-- What an operation of the workflow store raises. -/
inductive ConsoleError where
  | consoleStateError (message : Text)
  | workflowNotFoundError (message : Text)
  | workflowConflictError (message : Text)
  | validationError (model : Text)
  | raised (e : Error)
  deriving DecidableEq

namespace ConsoleError

def workflowNotFound : ConsoleError := workflowNotFoundError (text "console workflow was not found")

def rowInvalid : ConsoleError := consoleStateError (text "console workflow row failed validation")

def outOfRange : ConsoleError := raised (.overflowError (text "date value out of range"))

end ConsoleError

/-- `if ...: raise ...` -/
def reject (condition : Prop) [Decidable condition] (e : ConsoleError) : Except ConsoleError Unit :=
  if condition then .error e else .ok ()

theorem reject_ok {condition : Prop} [Decidable condition] {e : ConsoleError} {u : Unit} :
    reject condition e = .ok u ↔ ¬ condition := by
  unfold reject
  split <;> simp_all

/-- A value that must be there. -/
def demand {α : Type} (value : Option α) (e : ConsoleError) : Except ConsoleError α :=
  match value with
  | some a => .ok a
  | none => .error e

theorem demand_ok {α : Type} {value : Option α} {e : ConsoleError} {a : α} :
    demand value e = .ok a ↔ value = some a := by
  cases value <;> simp [demand]

/-- `canonical_json` where a failure is let pass. -/
def consoleJson (value : Document) : Except ConsoleError Text :=
  match canonicalJson value with
  | .ok s => .ok s
  | .error e => .error (.raised e)

theorem consoleJson_ok {value : Document} {s : Text} :
    consoleJson value = .ok s ↔ canonicalJson value = .ok s := by
  unfold consoleJson
  cases canonicalJson value <;> simp

/-! ## Proposals, extraction results and receipts -/

/-- A proposal shown to a user before confirmation has side effects. -/
structure DraftProposal where
  schema_id : Text
  schema_hash : Text
  forecast : StrategyEdgeForecast
  decision : Text
  lineage : JsonObject
  body : Text
  fresh_window : Bool

namespace DraftProposal

def modelDump (p : DraftProposal) : Document :=
  .obj [(text "schema_id", .str p.schema_id), (text "schema_hash", .str p.schema_hash),
    (text "registration_status", .str RegistrationStatus.preregistered.value),
    (text "forecast", p.forecast.modelDump), (text "decision", .str p.decision),
    (text "lineage", p.lineage.toDict), (text "body", .str p.body),
    (text "fresh_window", .bool p.fresh_window)]

def modelValidate (L : ConsoleLibrary) (v : Document) : Option DraftProposal := do
  let schema_id ← readField v "schema_id" readString
  let schema_hash ← readField v "schema_hash" readString
  readDefault v "registration_status"
    (readLiteral (.str RegistrationStatus.preregistered.value)) ()
  let forecast ← readField v "forecast" (StrategyEdgeForecast.modelValidate L)
  let decision ← readField v "decision" readString
  let lineage ← readField v "lineage" readObject
  let body ← readField v "body" readString
  let fresh_window ← readField v "fresh_window" L.parseBool
  if closedObject ["schema_id", "schema_hash", "registration_status", "forecast", "decision",
      "lineage", "body", "fresh_window"] v then
    some { schema_id, schema_hash, forecast, decision, lineage, body, fresh_window }
  else none

end DraftProposal

/-- Explicit success or clean failure of an extraction: a ready result has one proposal, and any
other has errors. -/
inductive ExtractionResult where
  | ready (proposal : DraftProposal)
  | unable (errors : List Text) (nonempty : errors ≠ [])

/-- The free text and schema of an extraction. -/
structure HypothesisExtractionRequest where
  text : Text
  schema_id : Text
  bounds : (1 ≤ text.length ∧ text.length ≤ 200000) ∧ 1 ≤ schema_id.length ∧ schema_id.length ≤ 256

/-- The blanks that `str_strip_whitespace` removes. -/
def isWhiteSpace (c : Char) : Bool :=
  let n := c.toNat
  (9 ≤ n && n ≤ 13) || n == 32 || n == 0x85 || n == 0xA0 || n == 0x1680 ||
    (0x2000 ≤ n && n ≤ 0x200A) || n == 0x2028 || n == 0x2029 || n == 0x202F || n == 0x205F ||
    n == 0x3000

/-- The constructor, which strips both texts. -/
def HypothesisExtractionRequest.of (source_text schema_id : Text) :
    Except ConsoleError HypothesisExtractionRequest :=
  let stripped := stripOf isWhiteSpace source_text
  let schema := stripOf isWhiteSpace schema_id
  if h : (1 ≤ stripped.length ∧ stripped.length ≤ 200000) ∧ 1 ≤ schema.length ∧
      schema.length ≤ 256 then
    .ok ⟨stripped, schema, h⟩
  else .error (.validationError (Pine.text "HypothesisExtractionRequest"))

/-- The receipt of a capture. -/
structure CaptureResponse where
  prediction_id : Text
  run_id : Text
  record_ref : Text
  snapshot_ref : Text
  schema_id : Text
  schema_hash : Text
  immutable_hash : Text
  created : Bool
  deriving DecidableEq

namespace CaptureResponse

def modelDump (r : CaptureResponse) : Document :=
  .obj [(text "prediction_id", .str r.prediction_id), (text "run_id", .str r.run_id),
    (text "record_ref", .str r.record_ref), (text "snapshot_ref", .str r.snapshot_ref),
    (text "schema_id", .str r.schema_id), (text "schema_hash", .str r.schema_hash),
    (text "immutable_hash", .str r.immutable_hash), (text "created", .bool r.created)]

/-- Of a receipt as the console keeps it. -/
def modelValidate (L : ConsoleLibrary) (v : Document) : Option CaptureResponse := do
  let prediction_id ← readField v "prediction_id" readString
  let run_id ← readField v "run_id" readString
  let record_ref ← readField v "record_ref" readString
  let snapshot_ref ← readField v "snapshot_ref" readString
  let schema_id ← readField v "schema_id" readString
  let schema_hash ← readField v "schema_hash" readString
  let immutable_hash ← readField v "immutable_hash" readString
  let created ← readField v "created" L.parseBool
  if closedObject ["prediction_id", "run_id", "record_ref", "snapshot_ref", "schema_id",
      "schema_hash", "immutable_hash", "created"] v then
    some { prediction_id, run_id, record_ref, snapshot_ref, schema_id, schema_hash,
           immutable_hash, created }
  else none

end CaptureResponse

/-! ## Workflows -/

/-- `state_matches_durable_payload` -/
def durablePayload (state : WorkflowState) (source_text : Option Text)
    (proposal : Option DraftProposal) (frozen_request : Option FrozenCaptureRequest)
    (capture_response : Option CaptureResponse) (expires_at : Option DateTime) : Bool :=
  (!state.isFrozen || frozen_request.isSome) && (state != .reviewing || proposal.isSome) &&
    ((state == .committed) == capture_response.isSome) &&
    (!state.isReconciliation || expires_at.isNone) &&
    (state != .terminal_failure || expires_at.isSome) &&
    (state != .cancelled || (source_text.isNone && proposal.isNone))

/-- Validated projection of one row in the separate console database. -/
structure ConsoleWorkflow where
  workflow_id : Text
  user_id : Text
  state : WorkflowState
  schema_id : Text
  source_text : Option Text
  proposal : Option DraftProposal
  idempotency_key : Text
  frozen_request : Option FrozenCaptureRequest
  capture_response : Option CaptureResponse
  error_code : Option Text
  error_details : Option JsonObject
  created_at : DateTime
  updated_at : DateTime
  expires_at : Option DateTime
  version : Nat
  canonical_id : isUuid4 workflow_id = true
  console_key : isConsoleKey idempotency_key = true
  aware : created_at.isAware = true ∧ updated_at.isAware = true ∧ expires_at.all DateTime.isAware = true
  durable : durablePayload state source_text proposal frozen_request capture_response expires_at = true

/-- A nullable JSON column, read by a validator. -/
def readColumn {α : Type} (read : Document → Option α) : Option Text → Option (Option α)
  | none => some none
  | some s => ((Json.loads s).bind read).map some

/-- `_optional_json_object` -/
def optionalJsonObject : Option Text → Except ConsoleError (Option JsonObject)
  | none => .ok none
  | some s => do
    let parsed ← demand (Json.loads s) .rowInvalid
    let details ← demand (readObject parsed)
      (.consoleStateError (text "console error details must be an object"))
    reject (isFinite parsed = false) .rowInvalid
    return some details

/-- A nullable timestamp. -/
def readTimestamp : Option Text → Option (Option DateTime)
  | none => some none
  | some s => (DateTime.fromisoformat s).map some

/-- `_workflow_from_row` -/
def workflowFromRow (L : ConsoleLibrary) (row : WorkflowRow) : Except ConsoleError ConsoleWorkflow := do
  let proposal ← demand (readColumn (DraftProposal.modelValidate L) row.proposal_json) .rowInvalid
  let frozen_request ← demand
    (readColumn (FrozenCaptureRequest.modelValidate L) row.frozen_request_json) .rowInvalid
  let capture_response ← demand
    (readColumn (CaptureResponse.modelValidate L) row.capture_response_json) .rowInvalid
  let error_details ← optionalJsonObject row.error_details_json
  let created_at ← demand (DateTime.fromisoformat row.created_at) .rowInvalid
  let updated_at ← demand (DateTime.fromisoformat row.updated_at) .rowInvalid
  let expires_at ← demand (readTimestamp row.expires_at) .rowInvalid
  if h : isUuid4 row.workflow_id = true ∧ isConsoleKey row.idempotency_key = true ∧
      (created_at.isAware = true ∧ updated_at.isAware = true ∧
        expires_at.all DateTime.isAware = true) ∧
      durablePayload row.state row.source_text proposal frozen_request capture_response
        expires_at = true then
    .ok { workflow_id := row.workflow_id, user_id := row.user_id, state := row.state,
          schema_id := row.schema_id, source_text := row.source_text, proposal,
          idempotency_key := row.idempotency_key, frozen_request, capture_response,
          error_code := row.error_code, error_details, created_at, updated_at, expires_at,
          version := row.version, canonical_id := h.1, console_key := h.2.1, aware := h.2.2.1,
          durable := h.2.2.2 }
  else .error .rowInvalid

/-- What a projection keeps of its row. -/
theorem workflowFromRow_ok {L : ConsoleLibrary} {row : WorkflowRow} {workflow : ConsoleWorkflow}
    (h : workflowFromRow L row = .ok workflow) :
    workflow.workflow_id = row.workflow_id ∧ workflow.state = row.state ∧
      workflow.idempotency_key = row.idempotency_key ∧
      ∀ request, workflow.frozen_request = some request →
        ∃ s, row.frozen_request_json = some s ∧
          FrozenCaptureRequest.modelValidateJson L s = some request := by
  obtain ⟨proposal, -, h⟩ := bind_eq_ok.mp h
  obtain ⟨frozen, hfrozen, h⟩ := bind_eq_ok.mp h
  obtain ⟨response, -, h⟩ := bind_eq_ok.mp h
  obtain ⟨details, -, h⟩ := bind_eq_ok.mp h
  obtain ⟨created, -, h⟩ := bind_eq_ok.mp h
  obtain ⟨updated, -, h⟩ := bind_eq_ok.mp h
  obtain ⟨expires, -, h⟩ := bind_eq_ok.mp h
  split at h
  · cases h
    refine ⟨rfl, rfl, rfl, ?_⟩
    rintro request rfl
    have hcolumn := demand_ok.mp hfrozen
    cases hjson : row.frozen_request_json with
    | none => rw [hjson] at hcolumn; cases hcolumn
    | some s =>
      rw [hjson, readColumn, Option.map_eq_some_iff] at hcolumn
      obtain ⟨read, hread, heq⟩ := hcolumn
      cases heq
      exact ⟨s, rfl, hread⟩
  · cases h

end Pine
