import Pine.Core.DateTime
import Pine.Ledger.JsonUtils

/-!
# Write-once models

The validated inputs of the ledger. What a model validator checks is a field or a
subtype here, so a value of one of these types is one that its validator accepted.
-/

namespace Pine

inductive RegistrationStatus where
  | preregistered
  | exploratory
  | imported
  | unregistered_external
  deriving DecidableEq

def RegistrationStatus.value : RegistrationStatus → Text
  | preregistered => text "preregistered"
  | exploratory => text "exploratory"
  | imported => text "imported"
  | unregistered_external => text "unregistered_external"

theorem RegistrationStatus.value_injective : Function.Injective value := by
  intro a b h
  cases a <;> cases b <;> first | rfl | exact absurd h (by decide)

inductive PredictionStatus where
  | «open»
  | resolved
  | invalidated
  | quarantined
  deriving DecidableEq

def PredictionStatus.value : PredictionStatus → Text
  | .open => text "open"
  | resolved => text "resolved"
  | invalidated => text "invalidated"
  | quarantined => text "quarantined"

/-- A float that `allow_inf_nan=False` admits. -/
abbrev FiniteFloat := {x : Binary64 // x.finite = true}

/-- `dict[str, JsonValue]` -/
structure JsonObject where
  fields : List (Text × Document)
  keyed : Keyed (.obj fields)

theorem JsonObject.keyed_nil : Keyed (.obj []) := by decide

/-- The object as a document. -/
def JsonObject.toDict (o : JsonObject) : Document := .obj o.fields

theorem JsonObject.keyed_toDict (o : JsonObject) : Keyed o.toDict := o.keyed

/-- An inclusive research data window. -/
structure DateWindow where
  start : Date
  stop : Date
  ordered : start ≤ stop
  deriving DecidableEq

/-- `win_rate` lies between 0 and 1. -/
def Binary64.inUnitInterval : Binary64 → Bool
  | .fin negative units => if negative then units.val == 0 else units.val ≤ 2 ^ unitExponent
  | _ => false

/-- Expected strategy metrics committed before a run. -/
structure ExpectedMetrics where
  sharpe : FiniteFloat
  win_rate : FiniteFloat
  max_drawdown : FiniteFloat
  expectancy : FiniteFloat
  win_rate_bounds : win_rate.val.inUnitInterval = true
  deriving DecidableEq

/-- The runtime form of `finance/strategy-edge:1`. -/
structure StrategyEdgeForecast where
  strategy_id : Text
  expected_metrics : ExpectedMetrics
  in_sample_window : DateWindow
  out_of_sample_window : DateWindow
  invalidation : Text
  edge_source : Text
  nonempty : strategy_id ≠ [] ∧ invalidation ≠ [] ∧ edge_source ≠ []
  deriving DecidableEq

/-! ## `model_dump(mode="json")` -/

def DateWindow.modelDump (w : DateWindow) : Document :=
  .obj [(text "start", .str w.start.isoformat), (text "end", .str w.stop.isoformat)]

def ExpectedMetrics.modelDump (m : ExpectedMetrics) : Document :=
  .obj [(text "sharpe", .float m.sharpe), (text "win_rate", .float m.win_rate),
    (text "max_drawdown", .float m.max_drawdown), (text "expectancy", .float m.expectancy)]

def StrategyEdgeForecast.modelDump (f : StrategyEdgeForecast) : Document :=
  .obj [(text "strategy_id", .str f.strategy_id),
    (text "expected_metrics", f.expected_metrics.modelDump),
    (text "in_sample_window", f.in_sample_window.modelDump),
    (text "out_of_sample_window", f.out_of_sample_window.modelDump),
    (text "invalidation", .str f.invalidation), (text "edge_source", .str f.edge_source)]

theorem keyed_dateWindow (w : DateWindow) : Keyed w.modelDump :=
  keyed_obj ["start", "end"] rfl (by decide) ⟨trivial, trivial, trivial⟩

/-! ## Drafts and committed predictions -/

/-- `_validate_identifier` -/
def validateIdentifier (value : Text) : Except Error Text :=
  if value = [] ∨ 128 < value.length then
    .error (.valueError (text "identifier must contain 1..128 characters"))
  else if '/' ∈ value ∨ '\\' ∈ value ∨ '\x00' ∈ value then
    .error (.valueError (text "identifier cannot contain path separators"))
  else .ok value

/-- A prediction or run id that its validator accepted. -/
abbrev Identifier := {value : Text // validateIdentifier value = .ok value}

/-- Validated, pre-write input. -/
structure PredictionDraft where
  prediction_id : Identifier
  run_id : Identifier
  schema_id : Text
  registration_status : RegistrationStatus
  forecast : StrategyEdgeForecast
  decision : Text
  snapshot : JsonObject
  lineage : JsonObject
  body : Text
  status : PredictionStatus
  created_at : DateTime
  decision_nonempty : decision ≠ []
  snapshot_nonempty : snapshot.fields ≠ []
  created_at_aware : created_at.isAware = true

/-- The `family_id` of a lineage. -/
def lineageFamilyId (lineage : JsonObject) : Option Document := lineage.toDict.get? (text "family_id")

/-- `^sha256:[0-9a-f]{64}$` -/
def isSha256Text (s : Text) : Bool :=
  match stripPrefix (text "sha256:") s with
  | some digits => digits.length == 64 && digits.all fun c => c.isDigit || ('a' ≤ c && c ≤ 'f')
  | none => false

/-- Structured, pre-snapshot input of the confirmatory capture path. -/
structure PreregisteredCaptureRequest where
  idempotency_key : Text
  schema_id : Text
  expected_schema_hash : Option Text
  forecast : StrategyEdgeForecast
  decision : Text
  lineage : JsonObject
  body : Text
  family_id : Text
  key_length : 1 ≤ idempotency_key.length ∧ idempotency_key.length ≤ 256
  hash_pattern : ∀ hash ∈ expected_schema_hash, isSha256Text hash = true
  decision_nonempty : decision ≠ []
  lineage_family : lineageFamilyId lineage = some (.str family_id) ∧ strip family_id ≠ []

/-- The exact state committed by `LedgerWriter`. -/
structure CommittedPrediction where
  prediction_id : Identifier
  run_id : Identifier
  schema_id : Text
  schema_hash : Text
  registration_status : RegistrationStatus
  forecast : StrategyEdgeForecast
  decision : Text
  snapshot : JsonObject
  snapshot_ref : Text
  lineage : JsonObject
  immutable_hash : Text
  body : Text
  status : PredictionStatus
  created_at : DateTime
  committed_at : DateTime

/-- `immutable_payload`: what the registry's immutable hash covers. -/
def immutablePayload (draft : PredictionDraft) (schema_hash snapshot_ref : Text) : Document :=
  .obj [(text "registration_status", .str draft.registration_status.value),
    (text "forecast", draft.forecast.modelDump),
    (text "decision", .str draft.decision),
    (text "snapshot", draft.snapshot.toDict),
    (text "snapshot_ref", .str snapshot_ref),
    (text "schema_hash", .str schema_hash),
    (text "lineage", draft.lineage.toDict)]

end Pine
