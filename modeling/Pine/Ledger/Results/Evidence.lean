import Pine.Core.Path
import Pine.Ledger.Msm

/-!
# Result evidence

The result contract of one run: its fields, what its validators check, the document
that it dumps to, and reading such a document back. How a time or a date is read from
a document is the business of a library outside the repository; of that library only
this is used, that it reads back the times and dates which it writes.
-/

namespace Pine

open Json (Value)

/-- How the validation library writes times, and reads times, dates and snapshots. -/
structure ResultLibrary where
  dumpTime : DateTime → Text
  parseTime : Document → Option DateTime
  parseDate : Document → Option Date
  validateSnapshot : Document → Option StrategySnapshot
  parseTime_dumpTime : ∀ t : DateTime, t.offset.map Subtype.val = some 0 →
    parseTime (.str (dumpTime t)) = some t
  parseDate_isoformat : ∀ d : Date, parseDate (.str d.isoformat) = some d

/-- `value >= 0` -/
def Binary64.isNonnegative : Binary64 → Bool
  | .fin negative units => !negative || units.val == 0
  | .inf negative => !negative
  | .nan => false

/-- Realized strategy metrics. -/
structure MSMResultMetrics where
  sharpe : FiniteFloat
  win_rate : FiniteFloat
  max_drawdown : FiniteFloat
  expectancy : FiniteFloat
  total_return : FiniteFloat
  trade_count : Nat
  bounds : win_rate.val.inUnitInterval = true ∧ max_drawdown.val.isNonnegative = true

inductive ResultSample where
  | in_sample
  | out_of_sample
  deriving DecidableEq

def ResultSample.value : ResultSample → Text
  | in_sample => text "in_sample"
  | out_of_sample => text "out_of_sample"

/-- `regime_id_is_normalized`, `identifiers_are_normalized`, with the lengths of the field. -/
def isNormalizedText (limit : Nat) (s : Text) : Bool :=
  s.length != 0 && decide (s.length ≤ limit) && !s.contains '\x00' && strip s == s

/-- A normalized text of at most so many characters. -/
abbrev NormalizedText (limit : Nat) := {s : Text // isNormalizedText limit s = true}

/-- Metrics of one explicitly named market regime. -/
structure MSMRegimeResult where
  sample : ResultSample
  regime_id : NormalizedText 256
  metrics : MSMResultMetrics

/-- `path_is_normalized_and_relative`, with the length of the field. -/
def isArtifactPath (s : Text) : Bool :=
  s.length != 0 && decide (s.length ≤ 1024) && !s.contains '\\' && !s.contains '\x00' &&
    !pathAbsolute (purePath s) && pathText (purePath s) == s &&
    !(purePath s).2.any fun part => part == [] || part == ['.'] || part == ['.', '.']

/-- Content identity of one artifact. -/
structure MSMResultArtifactEvidence where
  relative_path : {s : Text // isArtifactPath s = true}
  sha256 : Sha256Text
  size_bytes : Nat

/-- `^[0-9a-f]{40,64}$` -/
def isGitCommit (s : Text) : Bool :=
  decide (40 ≤ s.length ∧ s.length ≤ 64) && s.all fun c => c.isDigit || ('a' ≤ c && c ≤ 'f')

/-- A version: 1 to 256 characters. -/
def isVersion (s : Text) : Bool := decide (1 ≤ s.length ∧ s.length ≤ 256)

/-- The order of regime results: by sample, then by regime. -/
def regimeLe (a b : Text × Text) : Prop :=
  if a.1 = b.1 then textLe a.2 b.2 = true else textLe a.1 b.1 = true

instance : DecidableRel regimeLe := fun _ _ => by unfold regimeLe; infer_instance

/-- The unique and canonical collections of `collections_are_unique_and_canonical`. -/
def CanonicalCollections (artifacts : List MSMResultArtifactEvidence)
    (regime_breakdown : List MSMRegimeResult) : Prop :=
  let artifact_paths := artifacts.map (·.relative_path.val)
  let regime_keys := regime_breakdown.map fun r => (r.sample.value, r.regime_id.val)
  artifacts ≠ [] ∧ artifact_paths.Nodup ∧
    artifact_paths.insertionSort (fun a b => textLe a b = true) = artifact_paths ∧
    regime_keys.Nodup ∧ regime_keys.insertionSort regimeLe = regime_keys

instance (artifacts : List MSMResultArtifactEvidence) (regime_breakdown : List MSMRegimeResult) :
    Decidable (CanonicalCollections artifacts regime_breakdown) :=
  @instDecidableAnd _ _ (by cases artifacts <;> (simp only [ne_eq]; infer_instance)) inferInstance

/-- A time of the zero offset. -/
abbrev UtcTime := {t : DateTime // t.offset.map Subtype.val = some 0}

/-- Versioned, self-contained result contract for one bound run. -/
structure MSMRunResultEvidence where
  run_id : NormalizedText 256
  prediction_id : Option (NormalizedText 128)
  registration_status : RegistrationStatus
  strategy_id : NormalizedText 256
  envelope_hash : Sha256Text
  dataset_version : Sha256Text
  git_commit : {s : Text // isGitCommit s = true}
  metric_definition_version : {s : Text // isVersion s = true}
  source_timestamp : UtcTime
  in_sample_window : DateWindow
  out_of_sample_window : DateWindow
  in_sample_metrics : MSMResultMetrics
  out_of_sample_metrics : MSMResultMetrics
  regime_breakdown : List MSMRegimeResult
  artifacts : List MSMResultArtifactEvidence
  metadata : JsonObject
  canonical : CanonicalCollections artifacts regime_breakdown

/-! ## `model_dump(mode="json")` -/

def MSMResultMetrics.modelDump (m : MSMResultMetrics) : Document :=
  .obj [(text "sharpe", .float m.sharpe), (text "win_rate", .float m.win_rate),
    (text "max_drawdown", .float m.max_drawdown), (text "expectancy", .float m.expectancy),
    (text "total_return", .float m.total_return), (text "trade_count", .int m.trade_count)]

def MSMRegimeResult.modelDump (r : MSMRegimeResult) : Document :=
  .obj [(text "sample", .str r.sample.value), (text "regime_id", .str r.regime_id),
    (text "metrics", r.metrics.modelDump)]

def MSMResultArtifactEvidence.modelDump (a : MSMResultArtifactEvidence) : Document :=
  .obj [(text "relative_path", .str a.relative_path), (text "sha256", .str a.sha256),
    (text "size_bytes", .int a.size_bytes)]

def MSMRunResultEvidence.modelDump (L : ResultLibrary) (e : MSMRunResultEvidence) : Document :=
  .obj [(text "result_format_version", .int 1),
    (text "source_system", .str (text "msm")),
    (text "metric_units", .str (text "finance/strategy-edge:decimal-v1")),
    (text "run_id", .str e.run_id),
    (text "prediction_id", (e.prediction_id.map fun id => .str id.val).getD .null),
    (text "registration_status", .str e.registration_status.value),
    (text "strategy_id", .str e.strategy_id),
    (text "envelope_hash", .str e.envelope_hash),
    (text "dataset_version", .str e.dataset_version),
    (text "git_commit", .str e.git_commit),
    (text "metric_definition_version", .str e.metric_definition_version),
    (text "source_timestamp", .str (L.dumpTime e.source_timestamp)),
    (text "in_sample_window", e.in_sample_window.modelDump),
    (text "out_of_sample_window", e.out_of_sample_window.modelDump),
    (text "in_sample_metrics", e.in_sample_metrics.modelDump),
    (text "out_of_sample_metrics", e.out_of_sample_metrics.modelDump),
    (text "regime_breakdown", .arr (e.regime_breakdown.map MSMRegimeResult.modelDump)),
    (text "artifacts", .arr (e.artifacts.map MSMResultArtifactEvidence.modelDump)),
    (text "metadata", e.metadata.toDict)]

/-! ## `model_validate` -/

/-- An object with no other keys. -/
def closedObject (keys : List String) : Document → Bool
  | .obj fields => fields.all fun f => keys.any fun key => text key == f.1
  | _ => false

/-- A field of an object, read by a validator. -/
def readField {α : Type} (v : Document) (key : String) (read : Document → Option α) : Option α :=
  (v.get? (text key)).bind read

/-- A strict float: integers are converted, and infinities and NaNs are refused. -/
def readFloat : Document → Option FiniteFloat
  | .float x => if h : x.finite = true then some ⟨x, h⟩ else none
  | .int z =>
    let x := Binary64.ofRatio (decide (z < 0)) z.natAbs 1
    if h : x.finite = true then some ⟨x, h⟩ else none
  | _ => none

/-- A strict integer that is not negative. -/
def readNat : Document → Option Nat
  | .int z => if 0 ≤ z then some z.toNat else none
  | _ => none

/-- A string of a class. -/
def readText (admits : Text → Bool) : Document → Option {s : Text // admits s = true}
  | .str s => if h : admits s = true then some ⟨s, h⟩ else none
  | _ => none

/-- A list whose items are read alike. -/
def readItems {α : Type} (read : Document → Option α) : Document → Option (List α)
  | .arr items => items.mapM read
  | _ => none

/-- `None`, or a value. -/
def readOptional {α : Type} (read : Document → Option α) : Document → Option (Option α)
  | .null => some none
  | v => (read v).map some

/-- One of the named constants. -/
def readLiteral (literal : Document) (v : Document) : Option Unit :=
  if v.equals literal then some () else none

def DateWindow.modelValidate (L : ResultLibrary) (v : Document) : Option DateWindow := do
  let start ← readField v "start" L.parseDate
  let stop ← readField v "end" L.parseDate
  if h : closedObject ["start", "end"] v = true ∧ start ≤ stop then some ⟨start, stop, h.2⟩ else none

def MSMResultMetrics.modelValidate (v : Document) : Option MSMResultMetrics := do
  let sharpe ← readField v "sharpe" readFloat
  let win_rate ← readField v "win_rate" readFloat
  let max_drawdown ← readField v "max_drawdown" readFloat
  let expectancy ← readField v "expectancy" readFloat
  let total_return ← readField v "total_return" readFloat
  let trade_count ← readField v "trade_count" readNat
  if h : closedObject ["sharpe", "win_rate", "max_drawdown", "expectancy", "total_return",
      "trade_count"] v = true ∧
      win_rate.val.inUnitInterval = true ∧ max_drawdown.val.isNonnegative = true then
    some { sharpe, win_rate, max_drawdown, expectancy, total_return, trade_count, bounds := h.2 }
  else none

/-- A sample by its name. -/
def ResultSample.modelValidate : Document → Option ResultSample
  | .str s => [in_sample, out_of_sample].find? (·.value == s)
  | _ => none

def MSMRegimeResult.modelValidate (v : Document) : Option MSMRegimeResult := do
  let sample ← readField v "sample" ResultSample.modelValidate
  let regime_id ← readField v "regime_id" (readText (isNormalizedText 256))
  let metrics ← readField v "metrics" MSMResultMetrics.modelValidate
  if closedObject ["sample", "regime_id", "metrics"] v then some { sample, regime_id, metrics }
  else none

def MSMResultArtifactEvidence.modelValidate (v : Document) : Option MSMResultArtifactEvidence := do
  let relative_path ← readField v "relative_path" (readText isArtifactPath)
  let sha256 ← readField v "sha256" (readText isSha256Text)
  let size_bytes ← readField v "size_bytes" readNat
  if closedObject ["relative_path", "sha256", "size_bytes"] v then
    some { relative_path, sha256, size_bytes }
  else none

/-- A registration status by its value. -/
def RegistrationStatus.modelValidate : Document → Option RegistrationStatus
  | .str s => [preregistered, exploratory, imported, unregistered_external].find? (·.value == s)
  | _ => none

/-- `timestamp_is_timezone_aware`: an aware time, converted to UTC. -/
def readUtc (L : ResultLibrary) (v : Document) : Option UtcTime :=
  ((L.parseTime v).filter (·.isAware)).bind fun t => t.astimezoneUtc.bind fun u =>
    if h : u.offset.map Subtype.val = some 0 then some ⟨u, h⟩ else none

/-- `dict[str, JsonValue]` -/
def readObject : Document → Option JsonObject
  | .obj fields => if h : Keyed (.obj fields) then some ⟨fields, h⟩ else none
  | _ => none

/-- The keys of the contract. -/
def resultKeys : List String :=
  ["result_format_version", "source_system", "metric_units", "run_id", "prediction_id",
    "registration_status", "strategy_id", "envelope_hash", "dataset_version", "git_commit",
    "metric_definition_version", "source_timestamp", "in_sample_window", "out_of_sample_window",
    "in_sample_metrics", "out_of_sample_metrics", "regime_breakdown", "artifacts", "metadata"]

/-- A field with a default. -/
def readDefault {α : Type} (v : Document) (key : String) (read : Document → Option α) (default : α) :
    Option α :=
  match v.get? (text key) with
  | some w => read w
  | none => some default

def MSMRunResultEvidence.modelValidate (L : ResultLibrary) (v : Document) :
    Option MSMRunResultEvidence := do
  readField v "result_format_version" (readLiteral (.int 1))
  readDefault v "source_system" (readLiteral (.str (text "msm"))) ()
  readField v "metric_units" (readLiteral (.str (text "finance/strategy-edge:decimal-v1")))
  let run_id ← readField v "run_id" (readText (isNormalizedText 256))
  let prediction_id ← readDefault v "prediction_id"
    (readOptional (readText (isNormalizedText 128))) none
  let registration_status ← readField v "registration_status" RegistrationStatus.modelValidate
  let strategy_id ← readField v "strategy_id" (readText (isNormalizedText 256))
  let envelope_hash ← readField v "envelope_hash" (readText isSha256Text)
  let dataset_version ← readField v "dataset_version" (readText isSha256Text)
  let git_commit ← readField v "git_commit" (readText isGitCommit)
  let metric_definition_version ← readField v "metric_definition_version" (readText isVersion)
  let source_timestamp ← readField v "source_timestamp" (readUtc L)
  let in_sample_window ← readField v "in_sample_window" (DateWindow.modelValidate L)
  let out_of_sample_window ← readField v "out_of_sample_window" (DateWindow.modelValidate L)
  let in_sample_metrics ← readField v "in_sample_metrics" MSMResultMetrics.modelValidate
  let out_of_sample_metrics ← readField v "out_of_sample_metrics" MSMResultMetrics.modelValidate
  let regime_breakdown ← readDefault v "regime_breakdown"
    (readItems MSMRegimeResult.modelValidate) []
  let artifacts ← readField v "artifacts" (readItems MSMResultArtifactEvidence.modelValidate)
  let metadata ← readDefault v "metadata" readObject ⟨[], List.nodup_nil, trivial⟩
  if h : closedObject resultKeys v = true ∧ CanonicalCollections artifacts regime_breakdown then
    some { run_id, prediction_id, registration_status, strategy_id, envelope_hash,
           dataset_version, git_commit, metric_definition_version, source_timestamp,
           in_sample_window, out_of_sample_window, in_sample_metrics, out_of_sample_metrics,
           regime_breakdown, artifacts, metadata, canonical := h.2 }
  else none

end Pine
