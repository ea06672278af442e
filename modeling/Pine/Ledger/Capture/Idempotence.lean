import Pine.Ledger.Capture.Outcome
import Pine.Ledger.Record.Soundness

/-!
# Repeated captures

What a capture returns, and what a later one under the same key returns, whatever the ledger did in
between: the same prediction for the same request, without a look at the provider, and a conflict
for any other one.
-/

namespace Pine

open Json (Value)

/-! ## Results -/

/-- `WriteResult` -/
structure WriteResult where
  prediction_id : Text
  run_id : Text
  record_path : Text
  snapshot_path : Text
  schema_id : Text
  schema_hash : Text
  immutable_hash : Text
  created : Bool
  deriving DecidableEq

variable (l : Layout) (sha256 : Text → Text)

/-- The result that `_stage_committed` prepares. -/
def CommittedPrediction.result (c : CommittedPrediction) : WriteResult where
  prediction_id := c.prediction_id
  run_id := c.run_id
  record_path := (l.recordPath c.prediction_id).str
  snapshot_path := (l.snapshotPath c.prediction_id).str
  schema_id := c.schema_id
  schema_hash := c.schema_hash
  immutable_hash := c.immutable_hash
  created := true

/-- The result that `result_for_row` builds. -/
def PredictionRow.result (row : PredictionRow) : WriteResult where
  prediction_id := row.prediction_id
  run_id := row.run_id
  record_path := (l.recordPath row.prediction_id).str
  snapshot_path := l.vault_root ++ '/' :: row.snapshot_ref
  schema_id := row.schema_id
  schema_hash := row.schema_hash
  immutable_hash := row.immutable_hash
  created := false

namespace Registry

/-- `stage_in_transaction`, with its result. -/
def stageResult (world : CaptureWorld) (draft : PredictionDraft)
    (expected_schema_hash : Option Text) (committed_at : DateTime) : Session WriteResult := do
  let existing ← select (·.prediction? draft.prediction_id)
  match existing with
  | some row =>
    Program.check (resultForRow (world.artifacts row) row)
    return row.result l
  | none =>
    let prediction ← Program.check
      (prepareCommitted sha256 world.schemasAtWrite draft expected_schema_hash committed_at)
    stageRows prediction
    return prediction.result l

/-- A capture under a key that is not bound yet, with its result. -/
def captureNewResult (request : PreregisteredCaptureRequest) (world : CaptureWorld)
    (request_hash : Text) : Session WriteResult := do
  let schema_hash ← Program.query (captureChecks sha256 world.schemas request)
  let inputs ← Program.check (captureInputs request world)
  let staged ← stageResult l sha256 world inputs.1 (some schema_hash) inputs.2
  registerCaptureRequest request.idempotency_key request_hash inputs.1.prediction_id
    inputs.1.created_at
  return staged

/-- `capture`, with its result. -/
def captureResult (request : PreregisteredCaptureRequest) (world : CaptureWorld) :
    Session WriteResult := do
  let request_hash ← Program.check (requestHash sha256 request)
  let existing ← Program.query (captureLookup request.idempotency_key request_hash)
  match existing with
  | some row =>
    Program.check (resultForRow (world.artifacts row) row)
    return row.result l
  | none => captureNewResult l sha256 request world request_hash

variable {l sha256} {request request' : PreregisteredCaptureRequest} {world : CaptureWorld}
  {db db' db1 : Registry} {r : WriteResult}

/-! ## The capture behind a result -/

/-- What staging returns, it stages. -/
theorem stageResult_stages {draft : PredictionDraft} {expected_schema_hash : Option Text}
    {committed_at : DateTime}
    (h : (stageResult l sha256 world draft expected_schema_hash committed_at).run db =
      (.ok r, db')) :
    (stageInTransaction sha256 world draft expected_schema_hash committed_at).run db =
      (.ok (), db') := by
  obtain ⟨existing, _, hexisting, hrest⟩ := Program.run_bind_ok.mp h
  refine Program.run_bind_ok.mpr ⟨existing, _, hexisting, ?_⟩
  cases existing with
  | some row =>
    obtain ⟨_, _, hchecked, hreturn⟩ := Program.run_bind_ok.mp hrest
    obtain ⟨-, rfl⟩ := Program.run_pure_ok.mp hreturn
    exact hchecked
  | none =>
    obtain ⟨prediction, _, hprepared, hstage⟩ := Program.run_bind_ok.mp hrest
    obtain ⟨_, _, hstaged, hreturn⟩ := Program.run_bind_ok.mp hstage
    obtain ⟨-, rfl⟩ := Program.run_pure_ok.mp hreturn
    exact Program.run_bind_ok.mpr ⟨prediction, _, hprepared, hstaged⟩

/-- A capture that returns a result is a capture that returns. -/
theorem captureResult_captures
    (h : (captureResult l sha256 request world).run db = (.ok r, db')) :
    (captureTransaction sha256 request world).run db = (.ok (), db') := by
  obtain ⟨request_hash, _, hhash, hlookup⟩ := Program.run_bind_ok.mp h
  refine Program.run_bind_ok.mpr ⟨request_hash, _, hhash, ?_⟩
  obtain ⟨existing, _, hexisting, hrest⟩ := Program.run_bind_ok.mp hlookup
  refine Program.run_bind_ok.mpr ⟨existing, _, hexisting, ?_⟩
  cases existing with
  | some row =>
    obtain ⟨_, _, hchecked, hreturn⟩ := Program.run_bind_ok.mp hrest
    obtain ⟨-, rfl⟩ := Program.run_pure_ok.mp hreturn
    exact hchecked
  | none =>
    obtain ⟨schema_hash, _, hschema, hinputs⟩ := Program.run_bind_ok.mp hrest
    obtain ⟨inputs, _, hread, hstage⟩ := Program.run_bind_ok.mp hinputs
    obtain ⟨staged, _, hstaged, hregister⟩ := Program.run_bind_ok.mp hstage
    obtain ⟨_, _, hregistered, hreturn⟩ := Program.run_bind_ok.mp hregister
    obtain ⟨-, rfl⟩ := Program.run_pure_ok.mp hreturn
    have hnew : ((Program.check (captureInputs request world) : Session _) >>= fun inputs => do
        stageInTransaction sha256 world inputs.1 (some schema_hash) inputs.2
        registerCaptureRequest request.idempotency_key request_hash inputs.1.prediction_id
          inputs.1.created_at).run _ = (.ok (), db') :=
      Program.run_bind_ok.mpr ⟨inputs, _, hread,
        Program.run_bind_ok.mpr ⟨(), _, stageResult_stages hstaged, hregistered⟩⟩
    exact Program.run_bind_ok.mpr ⟨schema_hash, _, hschema, hnew⟩

/-! ## What a returned capture leaves -/

/-- Staging leaves the committed row of its prediction. -/
theorem stageRows_ok {c : CommittedPrediction} {u : Unit}
    (h : (stageRows c).run db = (.ok u, db')) :
    ∃ row ∈ db'.predictions, row.Records c ∧ row.transaction_state = .committed := by
  obtain ⟨_, db1, hbegun, hmarked⟩ := Program.run_bind_ok.mp h
  obtain ⟨row, hrows, hrecords, hprogress⟩ := beginPrediction_records hbegun
  obtain ⟨n, db2, hupdate, hcount⟩ := Program.run_bind_ok.mp hmarked
  obtain ⟨-, rfl⟩ := Program.run_check_ok.mp hcount
  obtain ⟨rfl, -, htriggers⟩ := updatePredictions_ok (executeUpdate_ok hupdate)
  have hrow : row ∈ db1.predictions := by
    rw [hrows]
    exact List.mem_append_right _ (List.mem_singleton_self _)
  have hselected : (row.prediction_id == c.prediction_id.val &&
      row.transaction_state == .in_progress) = true := by
    rw [hrecords.prediction_id, hprogress, beq_self_eq_true]
    rfl
  refine ⟨(commitUpdate c.committed_at).apply row,
    List.mem_map.mpr ⟨row, hrow, if_pos hselected⟩, ?_, rfl⟩
  exact (predictionTriggers_records (htriggers row hrow hselected)).2 c hrecords

/-- The result of a staged prediction is that of its row, but for what it says about creation. -/
theorem result_of_records {row : PredictionRow} {c : CommittedPrediction} (hrecords : row.Records c)
    (href : c.snapshot_ref = snapshotRef c.prediction_id) :
    row.result l = { c.result l with created := false } := by
  have hpath : l.vault_root ++ '/' :: row.snapshot_ref = (l.snapshotPath c.prediction_id).str := by
    rw [hrecords.snapshot_ref, href]
    simp [snapshotRef, Layout.snapshotPath, Path.str, Layout.snapshots_dir, text]
  simp only [PredictionRow.result, CommittedPrediction.result, hpath, hrecords.prediction_id,
    hrecords.run_id, hrecords.schema_id, hrecords.schema_hash, hrecords.immutable_hash]

/-- The key is bound to the hash of a request and to the committed row of a result. -/
structure Bound (l : Layout) (db : Registry) (idempotency_key request_hash : Text)
    (row : PredictionRow) (r : WriteResult) : Prop where
  bound : db.capture? idempotency_key = some (request_hash, row)
  committed : row.transaction_state = .committed
  result : row.result l = { r with created := false }

/-- A row that was checked is committed. -/
theorem resultForRow_ok {artifacts : Bool} {row : PredictionRow} {u : Unit}
    (h : resultForRow artifacts row = .ok u) :
    row.transaction_state = .committed ∧ artifacts = true := by
  obtain ⟨_, hcommitted, hartifacts⟩ := bind_eq_ok.mp h
  exact ⟨not_not.mp (refuse_ok.mp hcommitted),
    Bool.eq_true_of_not_eq_false (refuse_ok.mp hartifacts)⟩

/-- What staging returns is the result of a committed row. -/
theorem stageResult_ok {draft : PredictionDraft} {expected_schema_hash : Option Text}
    {committed_at : DateTime}
    (h : (stageResult l sha256 world draft expected_schema_hash committed_at).run db =
      (.ok r, db')) :
    ∃ row ∈ db'.predictions, row.prediction_id = draft.prediction_id ∧
      row.transaction_state = .committed ∧ row.result l = { r with created := false } := by
  obtain ⟨existing, _, hexisting, hrest⟩ := Program.run_bind_ok.mp h
  obtain ⟨hfound, rfl⟩ := Program.run_query_ok.mp hexisting
  cases existing with
  | some row =>
    obtain ⟨_, _, hchecked, hreturn⟩ := Program.run_bind_ok.mp hrest
    obtain ⟨hcommitted, rfl⟩ := Program.run_check_ok.mp hchecked
    obtain ⟨rfl, rfl⟩ := Program.run_pure_ok.mp hreturn
    obtain ⟨hmem, hid⟩ := prediction?_some (Except.ok.inj hfound)
    exact ⟨row, hmem, hid, (resultForRow_ok hcommitted).1, rfl⟩
  | none =>
    obtain ⟨c, _, hchecked, hstage⟩ := Program.run_bind_ok.mp hrest
    obtain ⟨hprepared, rfl⟩ := Program.run_check_ok.mp hchecked
    obtain ⟨_, _, hstaged, hreturn⟩ := Program.run_bind_ok.mp hstage
    obtain ⟨rfl, rfl⟩ := Program.run_pure_ok.mp hreturn
    obtain ⟨row, hmem, hrecords, hcommitted⟩ := stageRows_ok hstaged
    obtain ⟨_, _, -, -, -, rfl⟩ := prepareCommitted_ok hprepared
    exact ⟨row, hmem, hrecords.prediction_id, hcommitted, result_of_records hrecords rfl⟩

/-- After a returned capture its key is bound to what it returned. -/
theorem captureResult_bound (hkeys : db'.Keys)
    (h : (captureResult l sha256 request world).run db = (.ok r, db')) :
    ∃ request_hash row, requestHash sha256 request = .ok request_hash ∧
      Bound l db' request.idempotency_key request_hash row r := by
  obtain ⟨request_hash, _, hhashed, hlookup⟩ := Program.run_bind_ok.mp h
  obtain ⟨hhash, rfl⟩ := Program.run_check_ok.mp hhashed
  obtain ⟨existing, _, hexisting, hrest⟩ := Program.run_bind_ok.mp hlookup
  obtain ⟨hfound, rfl⟩ := Program.run_query_ok.mp hexisting
  cases existing with
  | some row =>
    obtain ⟨_, _, hchecked, hreturn⟩ := Program.run_bind_ok.mp hrest
    obtain ⟨hcommitted, rfl⟩ := Program.run_check_ok.mp hchecked
    obtain ⟨rfl, rfl⟩ := Program.run_pure_ok.mp hreturn
    unfold captureLookup at hfound
    split at hfound
    · cases hfound
    · rename_i bound prediction hbound
      split at hfound
      · cases hfound
      · rename_i hsame
        cases hfound
        obtain rfl := not_not.mp hsame
        exact ⟨_, row, hhash, ⟨hbound, (resultForRow_ok hcommitted).1, rfl⟩⟩
  | none =>
    obtain ⟨schema_hash, _, hschema, hinputs⟩ := Program.run_bind_ok.mp hrest
    obtain ⟨inputs, _, hread, hstage⟩ := Program.run_bind_ok.mp hinputs
    obtain ⟨staged, db1, hstaged, hregister⟩ := Program.run_bind_ok.mp hstage
    obtain ⟨_, db2, hregistered, hreturn⟩ := Program.run_bind_ok.mp hregister
    obtain ⟨rfl, rfl⟩ := Program.run_pure_ok.mp hreturn
    obtain ⟨rfl, -, -⟩ := insertCaptureRequest_ok (Program.run_update_ok.mp hregistered)
    obtain ⟨row, hmem, hid, hcommitted, hresult⟩ := stageResult_ok hstaged
    refine ⟨request_hash, row, hhash, ⟨?_, hcommitted, hresult⟩⟩
    have hkey := find?_key_of_mem hkeys.capture_keys (x := ⟨request.idempotency_key, request_hash,
      inputs.1.prediction_id, inputs.1.created_at.isoformat⟩)
      (List.mem_append_right _ (List.mem_singleton_self _))
    have hprediction := hkeys.prediction?_of_mem hmem
    rw [hid] at hprediction
    rw [capture?, hkey, Option.bind_some, hprediction]
    rfl

/-- Staging binds no key. -/
theorem stageResult_requests {draft : PredictionDraft} {expected_schema_hash : Option Text}
    {committed_at : DateTime}
    (h : (stageResult l sha256 world draft expected_schema_hash committed_at).run db =
      (.ok r, db')) : db'.capture_requests = db.capture_requests := by
  obtain ⟨existing, _, hexisting, hrest⟩ := Program.run_bind_ok.mp h
  obtain ⟨-, rfl⟩ := Program.run_query_ok.mp hexisting
  cases existing with
  | some row =>
    obtain ⟨_, _, hchecked, hreturn⟩ := Program.run_bind_ok.mp hrest
    obtain ⟨-, rfl⟩ := Program.run_check_ok.mp hchecked
    obtain ⟨-, rfl⟩ := Program.run_pure_ok.mp hreturn
    rfl
  | none =>
    obtain ⟨c, _, hchecked, hstage⟩ := Program.run_bind_ok.mp hrest
    obtain ⟨-, rfl⟩ := Program.run_check_ok.mp hchecked
    obtain ⟨_, staged, hstaged, hreturn⟩ := Program.run_bind_ok.mp hstage
    obtain ⟨-, rfl⟩ := Program.run_pure_ok.mp hreturn
    obtain ⟨_, begun, hbegun, hmarked⟩ := Program.run_bind_ok.mp hstaged
    obtain ⟨_, _, hjson, hrows⟩ := Program.run_bind_ok.mp hbegun
    obtain ⟨-, rfl⟩ := Program.run_check_ok.mp hjson
    obtain ⟨_, _, hinsert, hrun⟩ := Program.run_bind_ok.mp hrows
    obtain ⟨rfl, -⟩ := insertPrediction_ok (Program.run_update_ok.mp hinsert)
    obtain ⟨rfl, -⟩ := insertRun_ok (Program.run_update_ok.mp hrun)
    obtain ⟨n, _, hupdate, hcount⟩ := Program.run_bind_ok.mp hmarked
    obtain ⟨-, rfl⟩ := Program.run_check_ok.mp hcount
    obtain ⟨rfl, -, -⟩ := updatePredictions_ok (executeUpdate_ok hupdate)
    rfl

/-- A capture binds no key but its own. -/
theorem captureResult_requests
    (h : (captureResult l sha256 request world).run db = (.ok r, db')) :
    ∀ bound ∈ db'.capture_requests,
      bound ∈ db.capture_requests ∨ bound.idempotency_key = request.idempotency_key := by
  obtain ⟨request_hash, _, hhashed, hlookup⟩ := Program.run_bind_ok.mp h
  obtain ⟨-, rfl⟩ := Program.run_check_ok.mp hhashed
  obtain ⟨existing, _, hexisting, hrest⟩ := Program.run_bind_ok.mp hlookup
  obtain ⟨-, rfl⟩ := Program.run_query_ok.mp hexisting
  cases existing with
  | some row =>
    obtain ⟨_, _, hchecked, hreturn⟩ := Program.run_bind_ok.mp hrest
    obtain ⟨-, rfl⟩ := Program.run_check_ok.mp hchecked
    obtain ⟨-, rfl⟩ := Program.run_pure_ok.mp hreturn
    exact fun bound hbound => Or.inl hbound
  | none =>
    obtain ⟨schema_hash, _, hschema, hinputs⟩ := Program.run_bind_ok.mp hrest
    obtain ⟨-, rfl⟩ := Program.run_query_ok.mp hschema
    obtain ⟨inputs, _, hread, hstage⟩ := Program.run_bind_ok.mp hinputs
    obtain ⟨-, rfl⟩ := Program.run_check_ok.mp hread
    obtain ⟨staged, db1, hstaged, hregister⟩ := Program.run_bind_ok.mp hstage
    obtain ⟨_, db2, hregistered, hreturn⟩ := Program.run_bind_ok.mp hregister
    obtain ⟨-, rfl⟩ := Program.run_pure_ok.mp hreturn
    obtain ⟨rfl, -, -⟩ := insertCaptureRequest_ok (Program.run_update_ok.mp hregistered)
    intro bound hbound
    rcases List.mem_append.mp hbound with hold | hnew
    · rw [stageResult_requests hstaged] at hold
      exact Or.inl hold
    · rw [List.mem_singleton.mp hnew]
      exact Or.inr rfl

end Registry

/-! ## Requests under one key -/

section

variable {sha256} {p q : PreregisteredCaptureRequest}

/-- The sorted payload of a request. -/
theorem sortKeys_requestPayload (p : PreregisteredCaptureRequest) :
    Json.sortKeys (requestPayload p) = .obj ([(text "body", .str p.body),
      (text "decision", .str p.decision)] ++
      (p.expected_schema_hash.map fun hash =>
        (text "expected_schema_hash", Value.str hash)).toList ++
      [(text "forecast", Json.sortKeys p.forecast.modelDump),
      (text "lineage", Json.sortKeys p.lineage.toDict),
      (text "registration_status", .str RegistrationStatus.preregistered.value),
      (text "schema_id", .str p.schema_id)]) := by
  cases hexpected : p.expected_schema_hash with
  | none =>
    rw [requestPayload, hexpected]
    rfl
  | some hash =>
    rw [requestPayload, hexpected]
    rfl

/-- The payload of a request repeats no key. -/
theorem keyed_requestPayload (p : PreregisteredCaptureRequest) : Keyed (requestPayload p) :=
  keyed_obj_optional ["schema_id", "registration_status", "forecast", "decision", "lineage", "body"]
    "expected_schema_hash" p.expected_schema_hash rfl (by decide)
    ⟨trivial, trivial, p.forecast.keyed_modelDump, trivial, p.lineage.keyed, trivial, trivial⟩

/-- Requests under one key with one sorted payload are the same. -/
theorem PreregisteredCaptureRequest.same_of_sorted (hkey : p.idempotency_key = q.idempotency_key)
    (h : Json.sortKeys (requestPayload p) = Json.sortKeys (requestPayload q)) : p.Same q := by
  have hfields := (sortKeys_requestPayload p).symm.trans (h.trans (sortKeys_requestPayload q))
  have hforecast : ∀ {f g : StrategyEdgeForecast}, Json.sortKeys f.modelDump =
      Json.sortKeys g.modelDump → f = g := StrategyEdgeForecast.sortKeys_modelDump_injective
  cases hp : p.expected_schema_hash with
  | none =>
    cases hq : q.expected_schema_hash with
    | none =>
      rw [hp, hq] at hfields
      simp only [Option.map_none, Option.toList_none, List.append_nil, List.cons_append,
        List.nil_append, Value.obj.injEq, List.cons.injEq, Prod.mk.injEq, Value.str.injEq, true_and,
        and_true] at hfields
      obtain ⟨hbody, hdecision, hf, hlineage, hschema⟩ := hfields
      exact ⟨hkey, hschema, hp.trans hq.symm, hforecast hf, hdecision,
        ⟨p.lineage.keyed, q.lineage.keyed, hlineage⟩, hbody⟩
    | some hash =>
      rw [hp, hq] at hfields
      have hlength := congrArg List.length (Value.obj.inj hfields)
      cases hlength
  | some hash =>
    cases hq : q.expected_schema_hash with
    | none =>
      rw [hp, hq] at hfields
      have hlength := congrArg List.length (Value.obj.inj hfields)
      cases hlength
    | some hash' =>
      rw [hp, hq] at hfields
      simp only [Option.map_some, Option.toList_some, List.cons_append, List.nil_append,
        Value.obj.injEq, List.cons.injEq, Prod.mk.injEq, Value.str.injEq, true_and,
        and_true] at hfields
      obtain ⟨hbody, hdecision, hsame, hf, hlineage, hschema⟩ := hfields
      exact ⟨hkey, hschema, hp.trans ((congrArg some hsame).trans hq.symm), hforecast hf, hdecision,
        ⟨p.lineage.keyed, q.lineage.keyed, hlineage⟩, hbody⟩

/-- The same request has the same hash. -/
theorem PreregisteredCaptureRequest.Same.requestHash (h : p.Same q) :
    Pine.requestHash sha256 p = Pine.requestHash sha256 q := by
  have hsorted : Json.sortKeys (requestPayload p) = Json.sortKeys (requestPayload q) := by
    rw [sortKeys_requestPayload, sortKeys_requestPayload, h.body, h.decision,
      h.expected_schema_hash, h.forecast, h.lineage.sorted, h.schema_id]
  rw [Pine.requestHash, Pine.requestHash, sha256Json, sha256Json, Pine.canonicalJson,
    Pine.canonicalJson, ← isFinite_sortKeys (requestPayload p),
    ← Json.canonicalText_sortKeys (requestPayload p), hsorted, isFinite_sortKeys,
    Json.canonicalText_sortKeys]

/-- A request that was hashed holds finite numbers. -/
theorem isFinite_of_requestHash {hash : Text} (h : Pine.requestHash sha256 p = .ok hash) :
    isFinite (requestPayload p) = true ∧
      hash = text "sha256:" ++ sha256 (Json.canonicalText (requestPayload p)) := by
  by_cases hfinite : isFinite (requestPayload p) = true
  · rw [Pine.requestHash, sha256Json_of_finite sha256 hfinite] at h
    exact ⟨hfinite, (Except.ok.inj h).symm⟩
  · rw [Pine.requestHash, sha256Json, canonicalJson, if_neg hfinite] at h
    cases h

/-- Two payloads that differ have one hash. -/
def RequestsCollide (sha256 : Text → Text) (p q : PreregisteredCaptureRequest) : Prop :=
  Json.canonicalText (requestPayload p) ≠ Json.canonicalText (requestPayload q) ∧
    sha256 (Json.canonicalText (requestPayload p)) = sha256 (Json.canonicalText (requestPayload q))

/-- Requests with one hash are the same, or their payloads collide. -/
theorem PreregisteredCaptureRequest.same_or_collide {hash : Text}
    (hkey : p.idempotency_key = q.idempotency_key) (hp : Pine.requestHash sha256 p = .ok hash)
    (hq : Pine.requestHash sha256 q = .ok hash) : p.Same q ∨ RequestsCollide sha256 p q := by
  obtain ⟨hpfinite, hphash⟩ := isFinite_of_requestHash hp
  obtain ⟨hqfinite, hqhash⟩ := isFinite_of_requestHash hq
  by_cases htext : Json.canonicalText (requestPayload p) = Json.canonicalText (requestPayload q)
  · refine Or.inl (same_of_sorted hkey ((Json.canonicalText_eq_iff ?_ ?_).mp htext))
    · exact (proper_iff _).mpr ⟨keyed_requestPayload p, hpfinite⟩
    · exact (proper_iff _).mpr ⟨keyed_requestPayload q, hqfinite⟩
  · exact Or.inr ⟨htext, List.append_cancel_left (hphash.symm.trans hqhash)⟩

end

namespace Registry

variable {l sha256} {request request' : PreregisteredCaptureRequest} {world : CaptureWorld}
  {db db' db1 : Registry} {r : WriteResult}

/-! ## Bound keys -/

/-- What a key is bound to it stays bound to. -/
theorem Bound.evolves {key request_hash : Text} {row : PredictionRow}
    (h : Bound l db key request_hash row r) (hevolves : db.Evolves db') (hkeys : db'.Keys) :
    ∃ row', row.Evolves row' ∧ Bound l db' key request_hash row' r := by
  obtain ⟨found, hfound, hmapped⟩ := Option.bind_eq_some_iff.mp h.bound
  obtain ⟨prediction, hprediction, heq⟩ := Option.map_eq_some_iff.mp hmapped
  obtain ⟨rfl, rfl⟩ := Prod.mk.inj heq
  obtain ⟨hmem, hkey⟩ := find?_key_some hfound
  obtain ⟨hrow, hid⟩ := prediction?_some hprediction
  obtain ⟨row', hrow', hsame⟩ := hevolves.predictions.mem hrow
  refine ⟨row', hsame, ⟨?_, hsame.committed h.committed, ?_⟩⟩
  · have hrequest := find?_key_of_mem hkeys.capture_keys (hevolves.capture_requests.subset hmem)
    have hlookup := hkeys.prediction?_of_mem hrow'
    rw [hkey] at hrequest
    rw [hsame.prediction_id, hid] at hlookup
    rw [capture?, hrequest, Option.bind_some, hlookup]
    rfl
  · rw [← h.result]
    simp only [PredictionRow.result, hsame.prediction_id, hsame.run_id, hsame.schema_id,
      hsame.schema_hash, hsame.immutable_hash, hsame.snapshot_ref]

/-- A prediction is bound to one key. -/
theorem capture?_unique {db : Registry} (hkeys : db.Keys) {key key' hash hash' : Text}
    {row row' : PredictionRow} (h : db.capture? key = some (hash, row))
    (h' : db.capture? key' = some (hash', row')) (hid : row.prediction_id = row'.prediction_id) :
    key = key' := by
  obtain ⟨found, hfound, hmapped⟩ := Option.bind_eq_some_iff.mp h
  obtain ⟨prediction, hprediction, heq⟩ := Option.map_eq_some_iff.mp hmapped
  obtain ⟨-, rfl⟩ := Prod.mk.inj heq
  obtain ⟨found', hfound', hmapped'⟩ := Option.bind_eq_some_iff.mp h'
  obtain ⟨prediction', hprediction', heq'⟩ := Option.map_eq_some_iff.mp hmapped'
  obtain ⟨-, rfl⟩ := Prod.mk.inj heq'
  obtain ⟨hmem, hkey⟩ := find?_key_some hfound
  obtain ⟨hmem', hkey'⟩ := find?_key_some hfound'
  have hsame : found.prediction_id = found'.prediction_id :=
    (prediction?_some hprediction).2.symm.trans (hid.trans (prediction?_some hprediction').2)
  rw [← hkey, ← hkey', List.inj_on_of_nodup_map hkeys.capture_predictions hmem hmem' hsame]

/-- The same request under a bound key is answered with what was bound, and a lost file is
reported. -/
theorem captureResult_of_same {hash : Text} {row : PredictionRow}
    (h : Bound l db request'.idempotency_key hash row r)
    (hhash : requestHash sha256 request' = .ok hash) :
    (captureResult l sha256 request' world).run db =
      (if world.artifacts row = true then .ok { r with created := false }
        else .error (.integrityError
          (text "committed registry entry is missing an artifact: " ++
            row.prediction_id)), db) := by
  have hlookup : captureLookup request'.idempotency_key hash db = .ok (some row) := by
    rw [captureLookup, h.bound]
    exact if_neg fun hne => hne rfl
  have hchecked : resultForRow (world.artifacts row) row = if world.artifacts row = true then .ok ()
      else .error (.integrityError
        (text "committed registry entry is missing an artifact: " ++ row.prediction_id)) := by
    rw [resultForRow, h.committed]
    cases world.artifacts row <;> rfl
  rw [captureResult, hhash, Program.run_bind, Program.run_check]
  dsimp only
  rw [Program.run_bind, Program.run_query, hlookup]
  dsimp only
  rw [Program.run_bind, Program.run_check, hchecked]
  cases world.artifacts row with
  | true => exact Prod.ext (congrArg Except.ok h.result) rfl
  | false => rfl

/-- Another hash under a bound key is a conflict. -/
theorem captureResult_of_other {hash hash' : Text} {row : PredictionRow}
    (h : Bound l db request'.idempotency_key hash row r)
    (hhash : requestHash sha256 request' = .ok hash') (hne : hash ≠ hash') :
    (captureResult l sha256 request' world).run db = (.error (.idempotencyConflictError
      (text "idempotency key is already bound to a different capture request")), db) := by
  have hlookup : captureLookup request'.idempotency_key hash' db = .error
      (.idempotencyConflictError
        (text "idempotency key is already bound to a different capture request")) := by
    rw [captureLookup, h.bound]
    exact if_pos hne
  rw [captureResult, hhash, Program.run_bind, Program.run_check]
  dsimp only
  rw [Program.run_bind, Program.run_query, hlookup]

end Registry

/-! ## Any later capture -/

/-- The world of a repeated capture: no schema loads and the provider fails. -/
def repeatedWorld : CaptureWorld :=
  { Registry.sampleWorld with
    schemas := ⟨fun _ => .error (.schemaNotFoundError []), fun _ _ => []⟩
    snapshot := .error (.snapshotCaptureError []) }

/-- Another request under the key of the sample. -/
def otherRequest : PreregisteredCaptureRequest :=
  { Registry.sampleRequest with decision := text "hold", decision_nonempty := by decide }

end Pine
