import Pine.Ledger.Results.Evidence

/-!
# Frozen capture requests

The request that a console workflow freezes, the canonical text it is stored as, and
the backend request that is rebuilt from that text for every attempt. Reading a
request back does not depend on the order of the keys it was written with, so every
request rebuilt from one stored text has that text as its canonical form.
-/

namespace Pine

open Json (Value sortKeys)

/-- How the validation library reads the values that it converts. -/
structure ConsoleLibrary extends ResultLibrary where
  parseFloat : Document → Option Binary64
  parseBool : Document → Option Bool
  parseFloat_float : ∀ x : FiniteFloat, parseFloat (.float x.val) = some x.val

/-- A float that is not infinite and not a NaN. -/
def readFinite (L : ConsoleLibrary) (v : Document) : Option FiniteFloat :=
  (L.parseFloat v).bind fun x => if h : x.finite = true then some ⟨x, h⟩ else none

/-- A string. -/
def readString (v : Document) : Option Text := v.asText?

def ExpectedMetrics.modelValidate (L : ConsoleLibrary) (v : Document) : Option ExpectedMetrics := do
  let sharpe ← readField v "sharpe" (readFinite L)
  let win_rate ← readField v "win_rate" (readFinite L)
  let max_drawdown ← readField v "max_drawdown" (readFinite L)
  let expectancy ← readField v "expectancy" (readFinite L)
  if h : closedObject ["sharpe", "win_rate", "max_drawdown", "expectancy"] v = true ∧
      win_rate.val.inUnitInterval = true then
    some { sharpe, win_rate, max_drawdown, expectancy, win_rate_bounds := h.2 }
  else none

/-- The keys of a forecast. -/
def forecastKeys : List String :=
  ["strategy_id", "expected_metrics", "in_sample_window", "out_of_sample_window", "invalidation",
    "edge_source"]

def StrategyEdgeForecast.modelValidate (L : ConsoleLibrary) (v : Document) :
    Option StrategyEdgeForecast := do
  let strategy_id ← readField v "strategy_id" readString
  let expected_metrics ← readField v "expected_metrics" (ExpectedMetrics.modelValidate L)
  let in_sample_window ← readField v "in_sample_window" (DateWindow.modelValidate L.toResultLibrary)
  let out_of_sample_window ← readField v "out_of_sample_window"
    (DateWindow.modelValidate L.toResultLibrary)
  let invalidation ← readField v "invalidation" readString
  let edge_source ← readField v "edge_source" readString
  if h : closedObject forecastKeys v = true ∧ strategy_id ≠ [] ∧ invalidation ≠ [] ∧
      edge_source ≠ [] then
    some { strategy_id, expected_metrics, in_sample_window, out_of_sample_window, invalidation,
           edge_source, nonempty := h.2 }
  else none

/-- The `family_id` of a lineage, when it is a string. -/
def lineageFamilyText (lineage : JsonObject) : Option Text :=
  (lineageFamilyId lineage).bind Value.asText?

theorem lineageFamilyText_eq_some {lineage : JsonObject} {family_id : Text} :
    lineageFamilyText lineage = some family_id ↔
      lineageFamilyId lineage = some (.str family_id) := by
  rw [lineageFamilyText, Option.bind_eq_some_iff]
  simp only [Value.asText?_eq_some, exists_eq_right]

/-- The `family_id` that `lineage_requires_family_id` asks for. -/
def requiredFamilyId (lineage : JsonObject) : Option {family_id : Text //
    lineageFamilyId lineage = some (.str family_id) ∧ strip family_id ≠ []} :=
  (lineageFamilyText lineage).bind fun family_id =>
    if h : lineageFamilyText lineage = some family_id ∧ strip family_id ≠ [] then
      some ⟨family_id, lineageFamilyText_eq_some.mp h.1, h.2⟩
    else none

theorem requiredFamilyId_eq {lineage : JsonObject} {family_id : Text}
    (h : lineageFamilyId lineage = some (.str family_id) ∧ strip family_id ≠ []) :
    requiredFamilyId lineage = some ⟨family_id, h⟩ := by
  have htext := lineageFamilyText_eq_some.mpr h.1
  exact Option.bind_eq_some_iff.mpr ⟨family_id, htext, dif_pos ⟨htext, h.2⟩⟩

/-! ## Requests to the backend -/

/-- The keys of a capture request. -/
def requestKeys : List String :=
  ["idempotency_key", "schema_id", "expected_schema_hash", "forecast", "decision", "lineage", "body"]

namespace PreregisteredCaptureRequest

def modelDump (p : PreregisteredCaptureRequest) : Document :=
  .obj [(text "idempotency_key", .str p.idempotency_key),
    (text "schema_id", .str p.schema_id),
    (text "expected_schema_hash", optionalText p.expected_schema_hash),
    (text "forecast", p.forecast.modelDump),
    (text "decision", .str p.decision),
    (text "lineage", p.lineage.toDict),
    (text "body", .str p.body)]

def modelValidate (L : ConsoleLibrary) (v : Document) : Option PreregisteredCaptureRequest := do
  let idempotency_key ← readField v "idempotency_key" readString
  let schema_id ← readDefault v "schema_id" readString (text "finance/strategy-edge:1")
  let expected_schema_hash ← readDefault v "expected_schema_hash" (readOptional readString) none
  let forecast ← readField v "forecast" (StrategyEdgeForecast.modelValidate L)
  let decision ← readField v "decision" readString
  let lineage ← readField v "lineage" readObject
  let body ← readDefault v "body" readString []
  let family_id ← requiredFamilyId lineage
  if h : closedObject requestKeys v = true ∧
      (1 ≤ idempotency_key.length ∧ idempotency_key.length ≤ 256) ∧
      (∀ hash ∈ expected_schema_hash, isSha256Text hash = true) ∧ decision ≠ [] then
    some { idempotency_key, schema_id, expected_schema_hash, forecast, decision, lineage, body,
           family_id := family_id.val, key_length := h.2.1, hash_pattern := h.2.2.1,
           decision_nonempty := h.2.2.2, lineage_family := family_id.property }
  else none

end PreregisteredCaptureRequest

/-! ## Requests of the console -/

/-- The text of a UUID of version 4 as the library writes one. -/
def isUuid4 (s : Text) : Bool :=
  s.length == 36 && s.zipIdx.all fun (c, i) =>
    if i = 8 ∨ i = 13 ∨ i = 18 ∨ i = 23 then c == '-'
    else if i = 14 then c == '4'
    else if i = 19 then c == '8' || c == '9' || c == 'a' || c == 'b'
    else c.isDigit || ('a' ≤ c && c ≤ 'f')

/-- `_validate_console_idempotency_key` -/
def isConsoleKey (s : Text) : Bool := (stripPrefix (text "console-") s).any isUuid4

/-- The deeply immutable request recovered for every capture attempt: a request to the backend
under a key that the console owns. -/
structure FrozenCaptureRequest extends PreregisteredCaptureRequest where
  console_key : isConsoleKey idempotency_key = true
  schema_length : 1 ≤ schema_id.length ∧ schema_id.length ≤ 256

namespace FrozenCaptureRequest

/-- The fields of a request to the backend; here `schema_id` has no default. -/
def modelValidate (L : ConsoleLibrary) (v : Document) : Option FrozenCaptureRequest := do
  let p ← PreregisteredCaptureRequest.modelValidate L v
  if h : (v.get? (text "schema_id")).isSome = true ∧ isConsoleKey p.idempotency_key = true ∧
      (1 ≤ p.schema_id.length ∧ p.schema_id.length ≤ 256) then
    some { toPreregisteredCaptureRequest := p, console_key := h.2.1, schema_length := h.2.2 }
  else none

/-- `model_validate_json` -/
def modelValidateJson (L : ConsoleLibrary) (s : Text) : Option FrozenCaptureRequest :=
  (Json.loads s).bind (modelValidate L)

/-- `to_backend_request`; `none` is a validation error. -/
def toBackendRequest (L : ConsoleLibrary) (request : FrozenCaptureRequest) :
    Option PreregisteredCaptureRequest :=
  PreregisteredCaptureRequest.modelValidate L request.modelDump

end FrozenCaptureRequest

/-- Editable confirmation fields before the server freezes an exact request. -/
structure CaptureInput where
  schema_id : Text
  schema_hash : Text
  forecast : StrategyEdgeForecast
  decision : Text
  lineage : JsonObject
  body : Text
  family_id : Text
  schema_length : 1 ≤ schema_id.length ∧ schema_id.length ≤ 256
  hash_pattern : isSha256Text schema_hash = true
  decision_nonempty : decision ≠ []
  lineage_family : lineageFamilyId lineage = some (.str family_id) ∧ strip family_id ≠ []

namespace CaptureInput

/-- The default of `schema_id` fits its bounds. -/
theorem default_schema_length : 1 ≤ (text "finance/strategy-edge:1").length ∧
    (text "finance/strategy-edge:1").length ≤ 256 := by decide

def modelValidate (L : ConsoleLibrary) (v : Document) : Option CaptureInput := do
  let schema_id ← readDefault v "schema_id" readString (text "finance/strategy-edge:1")
  let schema_hash ← readField v "schema_hash" readString
  let forecast ← readField v "forecast" (StrategyEdgeForecast.modelValidate L)
  let decision ← readField v "decision" readString
  let lineage ← readField v "lineage" readObject
  let body ← readDefault v "body" readString []
  let family_id ← requiredFamilyId lineage
  if h : closedObject ["schema_id", "schema_hash", "forecast", "decision", "lineage", "body"] v =
        true ∧
      (1 ≤ schema_id.length ∧ schema_id.length ≤ 256) ∧ isSha256Text schema_hash = true ∧
      decision ≠ [] then
    some { schema_id, schema_hash, forecast, decision, lineage, body, family_id := family_id.val,
           schema_length := h.2.1, hash_pattern := h.2.2.1, decision_nonempty := h.2.2.2,
           lineage_family := family_id.property }
  else none

/-- The request to the backend under a key; `none` is a validation error. -/
def request (input : CaptureInput) (idempotency_key : Text) : Option PreregisteredCaptureRequest :=
  if h : 1 ≤ idempotency_key.length ∧ idempotency_key.length ≤ 256 then
    some { idempotency_key, schema_id := input.schema_id,
           expected_schema_hash := some input.schema_hash, forecast := input.forecast,
           decision := input.decision, lineage := input.lineage, body := input.body,
           family_id := input.family_id, key_length := h,
           hash_pattern := by
             rintro hash ⟨⟩
             exact input.hash_pattern
           decision_nonempty := input.decision_nonempty, lineage_family := input.lineage_family }
  else none

/-- `freeze`; `none` is a validation error. -/
def freeze (L : ConsoleLibrary) (input : CaptureInput) (idempotency_key : Text) :
    Option FrozenCaptureRequest :=
  (input.request idempotency_key).bind fun p => FrozenCaptureRequest.modelValidate L p.modelDump

end CaptureInput

/-! ## Documents up to the order of their keys -/

/-- Two documents with the same fields, whatever the order of their keys. -/
structure Reordered (v w : Document) : Prop where
  left : Keyed v
  right : Keyed w
  sorted : sortKeys v = sortKeys w

namespace Reordered

variable {v w : Document}

theorem refl (h : Keyed v) : Reordered v v := ⟨h, h, rfl⟩

/-- A document and what its canonical text loads as. -/
theorem sortKeys (h : Keyed v) : Reordered (sortKeys v) v :=
  ⟨keyed_sortKeys h, h, Json.sortKeys_sortKeys v⟩

/-- The fields of a keyed object are keyed. -/
theorem keyed_get? {x : Document} {key : Text} (h : Keyed v) (hx : v.get? key = some x) :
    Keyed x := by
  cases v with
  | obj fs => exact fieldsKeyed_iff.mp h.2 _ ((get?_obj_eq_some h.1).mp hx)
  | _ => cases hx

/-- A field of one is there in the other. -/
theorem field (h : Reordered v w) {key : String} {y : Document} (hy : w.get? (text key) = some y) :
    ∃ x, v.get? (text key) = some x ∧ Reordered x y := by
  have hleft := get?_sortKeys h.left (text key)
  rw [h.sorted, get?_sortKeys h.right (text key), hy, Option.map_some] at hleft
  obtain ⟨x, hx, heq⟩ := Option.map_eq_some_iff.mp hleft.symm
  exact ⟨x, hx, keyed_get? h.left hx, keyed_get? h.right hy, heq⟩

theorem eq_str {s : Text} (h : Reordered v (.str s)) : v = .str s := by
  have hsorted := h.sorted
  cases v <;> cases hsorted
  rfl

theorem eq_float {x : Binary64} (h : Reordered v (.float x)) : v = .float x := by
  have hsorted := h.sorted
  cases v <;> cases hsorted
  rfl

theorem eq_null (h : Reordered v .null) : v = .null := by
  have hsorted := h.sorted
  cases v <;> cases hsorted
  rfl

theorem closed (h : Reordered v w) (keys : List String) : closedObject keys v = closedObject keys w := by
  have hall : ∀ u : Document, closedObject keys (Json.sortKeys u) = closedObject keys u := by
    intro u
    cases u with
    | obj fs =>
      have hperm := List.perm_insertionSort Json.fieldLe (Json.sortFields fs)
      rw [Json.sortKeys, closedObject, closedObject, hperm.all_eq, Json.sortFields_eq_map,
        List.all_map]
      rfl
    | _ => rfl
  rw [← hall v, h.sorted, hall w]

/-- A field that is read alike in every order of its keys. -/
theorem readField (h : Reordered v w) {α : Type} {key : String} {y : Document}
    {read : Document → Option α} {a : α} (hy : w.get? (text key) = some y)
    (hread : ∀ x, Reordered x y → read x = some a) : Pine.readField v key read = some a := by
  obtain ⟨x, hx, hxy⟩ := h.field hy
  rw [Pine.readField, hx, Option.bind_some, hread x hxy]

theorem readDefault (h : Reordered v w) {α : Type} {key : String} {y : Document}
    {read : Document → Option α} {a : α} (hy : w.get? (text key) = some y)
    (hread : ∀ x, Reordered x y → read x = some a) (default : α) :
    Pine.readDefault v key read default = some a := by
  obtain ⟨x, hx, hxy⟩ := h.field hy
  rw [Pine.readDefault, hx]
  exact hread x hxy

theorem readString {s : Text} (x : Document) (h : Reordered x (.str s)) :
    Pine.readString x = some s := by
  rw [h.eq_str]
  rfl

end Reordered

/-! ## Reading requests back -/

variable {L : ConsoleLibrary}

theorem readFinite_reordered {v : Document} (x : FiniteFloat) (h : Reordered v (.float x.val)) :
    readFinite L v = some x := by
  rw [h.eq_float, readFinite, L.parseFloat_float, Option.bind_some, dif_pos x.property]

theorem dateWindow_reordered {v : Document} {w : DateWindow} (h : Reordered v w.modelDump) :
    DateWindow.modelValidate L.toResultLibrary v = some w := by
  have hdate : ∀ (d : Date) (x : Document), Reordered x (.str d.isoformat) →
      L.parseDate x = some d := by
    intro d x hx
    rw [hx.eq_str]
    exact L.parseDate_isoformat d
  have hstart : readField v "start" L.parseDate = some w.start := h.readField rfl (hdate w.start)
  have hstop : readField v "end" L.parseDate = some w.stop := h.readField rfl (hdate w.stop)
  have hclosed : closedObject ["start", "end"] v = true := (h.closed _).trans rfl
  simp only [DateWindow.modelValidate, hstart, hstop, hclosed, Option.bind_eq_bind,
    Option.bind_some, true_and, dif_pos w.ordered]

theorem expectedMetrics_reordered {v : Document} {m : ExpectedMetrics}
    (h : Reordered v m.modelDump) : ExpectedMetrics.modelValidate L v = some m := by
  have hread (key : String) (x : FiniteFloat)
      (hx : m.modelDump.get? (text key) = some (.float x.val)) :
      readField v key (readFinite L) = some x :=
    h.readField hx fun _ hy => readFinite_reordered x hy
  have hclosed : closedObject ["sharpe", "win_rate", "max_drawdown", "expectancy"] v = true :=
    (h.closed _).trans rfl
  simp only [ExpectedMetrics.modelValidate, hread "sharpe" m.sharpe rfl,
    hread "win_rate" m.win_rate rfl, hread "max_drawdown" m.max_drawdown rfl,
    hread "expectancy" m.expectancy rfl, hclosed, Option.bind_eq_bind, Option.bind_some, true_and,
    dif_pos m.win_rate_bounds]

theorem forecast_reordered {v : Document} {f : StrategyEdgeForecast} (h : Reordered v f.modelDump) :
    StrategyEdgeForecast.modelValidate L v = some f := by
  have hstring (key : String) (s : Text) (hs : f.modelDump.get? (text key) = some (.str s)) :
      readField v key readString = some s := h.readField hs Reordered.readString
  have hmetrics : readField v "expected_metrics" (ExpectedMetrics.modelValidate L) =
      some f.expected_metrics := h.readField rfl fun _ => expectedMetrics_reordered
  have hin : readField v "in_sample_window" (DateWindow.modelValidate L.toResultLibrary) =
      some f.in_sample_window := h.readField rfl fun _ => dateWindow_reordered
  have hout : readField v "out_of_sample_window" (DateWindow.modelValidate L.toResultLibrary) =
      some f.out_of_sample_window := h.readField rfl fun _ => dateWindow_reordered
  have hclosed : closedObject forecastKeys v = true := (h.closed _).trans rfl
  simp only [StrategyEdgeForecast.modelValidate, hstring "strategy_id" f.strategy_id rfl, hmetrics,
    hin, hout, hstring "invalidation" f.invalidation rfl, hstring "edge_source" f.edge_source rfl,
    hclosed, Option.bind_eq_bind, Option.bind_some, true_and, dif_pos f.nonempty]

/-- A lineage reads back with its keys in the order they were written. -/
theorem readObject_reordered {v : Document} {o : JsonObject} (h : Reordered v o.toDict) :
    ∃ o', readObject v = some o' ∧ Reordered o'.toDict o.toDict := by
  have hsorted := h.sorted
  have hkeyed := h.left
  cases v with
  | obj fs => exact ⟨⟨fs, hkeyed⟩, dif_pos hkeyed, h⟩
  | _ => cases hsorted

/-- The family of a lineage does not depend on the order of its keys. -/
theorem lineageFamilyId_reordered {o o' : JsonObject} (h : Reordered o'.toDict o.toDict)
    {family_id : Text} (hfamily : lineageFamilyId o = some (.str family_id)) :
    lineageFamilyId o' = some (.str family_id) := by
  obtain ⟨x, hx, hxy⟩ := h.field hfamily
  rw [lineageFamilyId, hx, hxy.eq_str]

theorem keyed_expectedMetrics (m : ExpectedMetrics) : Keyed m.modelDump :=
  keyed_obj ["sharpe", "win_rate", "max_drawdown", "expectancy"] rfl (by decide)
    ⟨trivial, trivial, trivial, trivial, trivial⟩

theorem keyed_forecast (f : StrategyEdgeForecast) : Keyed f.modelDump :=
  keyed_obj forecastKeys rfl (by decide) ⟨trivial, keyed_expectedMetrics _, keyed_dateWindow _,
    keyed_dateWindow _, trivial, trivial, trivial⟩

theorem readOptional_reordered {v : Document} (s : Option Text) (h : Reordered v (optionalText s)) :
    readOptional readString v = some s := by
  cases s with
  | none =>
    rw [h.eq_null]
    rfl
  | some s =>
    rw [h.eq_str]
    rfl

namespace PreregisteredCaptureRequest

/-- The dump of a request repeats no key. -/
theorem keyed_modelDump (p : PreregisteredCaptureRequest) : Keyed p.modelDump :=
  keyed_obj requestKeys rfl (by decide) ⟨trivial, trivial, keyed_optionalText _, keyed_forecast _,
    trivial, p.lineage.keyed, trivial, trivial⟩

/-- One request up to the order of the keys of its lineage. -/
structure Same (p q : PreregisteredCaptureRequest) : Prop where
  idempotency_key : p.idempotency_key = q.idempotency_key
  schema_id : p.schema_id = q.schema_id
  expected_schema_hash : p.expected_schema_hash = q.expected_schema_hash
  forecast : p.forecast = q.forecast
  decision : p.decision = q.decision
  lineage : Reordered p.lineage.toDict q.lineage.toDict
  body : p.body = q.body

/-- The same request has the same dump, up to the order of keys. -/
theorem Same.reordered {p q : PreregisteredCaptureRequest} (h : p.Same q) :
    Reordered p.modelDump q.modelDump := by
  refine ⟨p.keyed_modelDump, q.keyed_modelDump, ?_⟩
  simp only [modelDump, Json.sortKeys, Json.sortFields, h.idempotency_key, h.schema_id,
    h.expected_schema_hash, h.forecast, h.decision, h.lineage.sorted, h.body]

/-- The same request has the same canonical text. -/
theorem Same.canonicalJson {p q : PreregisteredCaptureRequest} (h : p.Same q) :
    canonicalJson p.modelDump = canonicalJson q.modelDump := by
  have hsorted := h.reordered.sorted
  rw [Pine.canonicalJson, Pine.canonicalJson, ← isFinite_sortKeys p.modelDump,
    ← Json.canonicalText_sortKeys p.modelDump, hsorted, isFinite_sortKeys,
    Json.canonicalText_sortKeys]

/-- A request reads back from its dump in any order of keys. -/
theorem modelValidate_reordered {v : Document} {p : PreregisteredCaptureRequest}
    (h : Reordered v p.modelDump) : ∃ q, modelValidate L v = some q ∧ q.Same p := by
  have hstring (key : String) (s : Text) (hs : p.modelDump.get? (text key) = some (.str s)) :
      readField v key readString = some s := h.readField hs Reordered.readString
  have hdefault (key : String) (s default : Text)
      (hs : p.modelDump.get? (text key) = some (.str s)) :
      readDefault v key readString default = some s := h.readDefault hs Reordered.readString default
  have hhash : readDefault v "expected_schema_hash" (readOptional readString) none =
      some p.expected_schema_hash :=
    h.readDefault rfl (fun _ => readOptional_reordered p.expected_schema_hash) none
  have hforecast : readField v "forecast" (StrategyEdgeForecast.modelValidate L) =
      some p.forecast := h.readField rfl fun _ => forecast_reordered
  obtain ⟨x, hx, hxy⟩ := @Reordered.field _ _ h "lineage" _ rfl
  obtain ⟨lineage, hobject, hlineage⟩ := readObject_reordered hxy
  have hfield : readField v "lineage" readObject = some lineage := by
    rw [readField, hx, Option.bind_some, hobject]
  have hfamily : lineageFamilyId lineage = some (.str p.family_id) ∧ strip p.family_id ≠ [] :=
    ⟨lineageFamilyId_reordered hlineage p.lineage_family.1, p.lineage_family.2⟩
  have hclosed : closedObject requestKeys v = true := (h.closed _).trans rfl
  refine ⟨{ p with lineage, lineage_family := hfamily }, ?_,
    ⟨rfl, rfl, rfl, rfl, rfl, hlineage, rfl⟩⟩
  simp only [modelValidate, hstring "idempotency_key" p.idempotency_key rfl,
    hdefault "schema_id" p.schema_id _ rfl, hhash, hforecast, hstring "decision" p.decision rfl,
    hfield, hdefault "body" p.body _ rfl, requiredFamilyId_eq hfamily, hclosed,
    Option.bind_eq_bind, Option.bind_some, true_and]
  exact dif_pos ⟨p.key_length, p.hash_pattern, p.decision_nonempty⟩

end PreregisteredCaptureRequest

namespace FrozenCaptureRequest

/-- What a validated request of the console was read from. -/
theorem modelValidate_eq_some {v : Document} {request : FrozenCaptureRequest}
    (h : modelValidate L v = some request) :
    PreregisteredCaptureRequest.modelValidate L v = some request.toPreregisteredCaptureRequest := by
  obtain ⟨p, hp, hrequest⟩ := Option.bind_eq_some_iff.mp h
  split at hrequest
  · cases hrequest
    exact hp
  · cases hrequest

/-- The request to the backend is the frozen one. -/
theorem toBackendRequest_same (request : FrozenCaptureRequest) :
    ∃ p, request.toBackendRequest L = some p ∧ p.Same request.toPreregisteredCaptureRequest :=
  PreregisteredCaptureRequest.modelValidate_reordered (Reordered.refl request.keyed_modelDump)

/-- Every request rebuilt from a stored text has that text as its canonical form, and the key
that was frozen. -/
theorem rebuilt {request again : FrozenCaptureRequest} {s : Text} {p : PreregisteredCaptureRequest}
    (hstored : canonicalJson request.modelDump = .ok s) (hread : modelValidateJson L s = some again)
    (hsent : again.toBackendRequest L = some p) :
    p.Same request.toPreregisteredCaptureRequest ∧ canonicalJson p.modelDump = .ok s := by
  have hkeyed := request.keyed_modelDump
  have hfinite : isFinite request.modelDump = true ∧
      s = Json.canonicalText request.modelDump := by
    unfold canonicalJson at hstored
    split at hstored
    · exact ⟨‹_›, (Except.ok.inj hstored).symm⟩
    · cases hstored
  obtain ⟨v, hloads, hvalidated⟩ := Option.bind_eq_some_iff.mp hread
  rw [hfinite.2, Json.loads_canonicalText ((proper_iff _).mpr ⟨hkeyed, hfinite.1⟩)] at hloads
  obtain rfl := Option.some.inj hloads
  obtain ⟨q, hq, hqsame⟩ := PreregisteredCaptureRequest.modelValidate_reordered (L := L)
    (Reordered.sortKeys hkeyed)
  obtain rfl := Option.some.inj (hq.symm.trans (modelValidate_eq_some hvalidated))
  obtain ⟨p', hp', hpsame⟩ := again.toBackendRequest_same (L := L)
  obtain rfl := Option.some.inj (hp'.symm.trans hsent)
  have hsame : p'.Same request.toPreregisteredCaptureRequest := by
    refine ⟨hpsame.idempotency_key.trans hqsame.idempotency_key,
      hpsame.schema_id.trans hqsame.schema_id,
      hpsame.expected_schema_hash.trans hqsame.expected_schema_hash,
      hpsame.forecast.trans hqsame.forecast, hpsame.decision.trans hqsame.decision,
      ⟨hpsame.lineage.left, hqsame.lineage.right, ?_⟩, hpsame.body.trans hqsame.body⟩
    exact hpsame.lineage.sorted.trans hqsame.lineage.sorted
  exact ⟨hsame, hsame.canonicalJson.trans hstored⟩

end FrozenCaptureRequest

/-- A frozen request is the confirmed input under the key it was frozen with. -/
theorem CaptureInput.freeze_key {input : CaptureInput} {idempotency_key : Text}
    {request : FrozenCaptureRequest} (h : input.freeze L idempotency_key = some request) :
    request.idempotency_key = idempotency_key := by
  obtain ⟨p, hp, hvalidated⟩ := Option.bind_eq_some_iff.mp h
  obtain ⟨q, hq, hsame⟩ := PreregisteredCaptureRequest.modelValidate_reordered (L := L)
    (Reordered.refl p.keyed_modelDump)
  have hrequest := FrozenCaptureRequest.modelValidate_eq_some hvalidated
  obtain rfl := Option.some.inj (hq.symm.trans hrequest)
  unfold CaptureInput.request at hp
  split at hp
  · cases hp
    exact hsame.idempotency_key
  · cases hp

end Pine
