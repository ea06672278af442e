import Pine.Ledger.Capture.Freshness
import Pine.Ledger.Console.FrozenRequest
import Pine.Ledger.Registry.Statements
import Pine.Ledger.Writer.Ownership
import Pine.Ledger.Writer.Recovery

/-!
# The outcome of a capture

A capture is expected to return or to raise an error of the ledger. It does, whatever
the state of the registry, unless it reaches the query for overlapping windows with a
family that the registry does not normalize: the validators of a request only ask for
a family that is not blank, the registry for one of at most 256 characters without NUL.
-/

namespace Pine

/-- A program whose first part settles, and whose second part settles after it. -/
theorem settles_run {α β : Type} {p : Registry.Session α} {f : α → Registry.Session β}
    {db : Registry} (hp : Settles (p.run db).1)
    (hf : ∀ a db', p.run db = (.ok a, db') → Settles ((f a).run db').1) :
    Settles ((p >>= f).run db).1 := by
  rw [Program.run_bind]
  rcases hrun : p.run db with ⟨e | a, db'⟩
  · rw [hrun] at hp
    exact settles_error (hp e rfl)
  · exact hf a db' hrun

/-! ## The family of a request -/

/-- The registry normalizes the family. -/
def FamilyFits (family_id : Text) : Prop :=
  (strip family_id).length ≤ 256 ∧ '\x00' ∉ strip family_id

instance (family_id : Text) : Decidable (FamilyFits family_id) :=
  inferInstanceAs (Decidable (_ ∧ _))

/-- The family of a validated request is normalized when it fits. -/
theorem PreregisteredCaptureRequest.normalizeFamilyId_of_fits
    (request : PreregisteredCaptureRequest) (h : FamilyFits request.family_id) :
    normalizeFamilyId (.str request.family_id) = .ok (strip request.family_id) := by
  have hnot : ¬ (strip request.family_id = [] ∨ 256 < (strip request.family_id).length ∨
      '\x00' ∈ strip request.family_id) := by
    rintro (hblank | hlong | hnul)
    · exact request.lineage_family.2 hblank
    · exact absurd hlong (not_lt.mpr h.1)
    · exact h.2 hnul
  rw [normalizeFamilyId]
  exact if_neg hnot

/-- Any other family is refused with an error that is none of the ledger. -/
theorem normalizeFamilyId_of_not_fits {family_id : Text} (h : ¬ FamilyFits family_id) :
    normalizeFamilyId (.str family_id) =
      .error (.valueError (text "family_id must be 1 to 256 non-NUL characters")) := by
  have hraises : strip family_id = [] ∨ 256 < (strip family_id).length ∨
      '\x00' ∈ strip family_id := by
    by_contra hnot
    push Not at hnot
    exact h ⟨hnot.2.1, hnot.2.2⟩
  rw [normalizeFamilyId]
  exact if_pos hraises

/-- The window of a validated request is always normalized. -/
theorem DateWindow.normalizeWindow (w : DateWindow) :
    Pine.normalizeWindow (.date w.start) (.date w.stop) =
      .ok (w.start.isoformat, w.stop.isoformat) :=
  normalizeWindow_ok.mpr ⟨w, rfl, rfl, rfl, rfl⟩

/-! ## What a capture reads -/

/-- The identifiers of a capture are new. -/
structure CaptureWorld.Fresh (world : CaptureWorld) (db : Registry) : Prop where
  prediction : ∀ p ∈ db.predictions, p.prediction_id ≠ world.prediction_id
  allocated : ∀ p ∈ db.predictions, p.run_id ≠ world.run_id
  run : ∀ r ∈ db.runs, r.run_id ≠ world.run_id
  owner : ∀ r ∈ db.runs, r.prediction_id ≠ some world.prediction_id.val
  captured : ∀ r ∈ db.capture_requests, r.prediction_id ≠ world.prediction_id

/-- The files of schemas can be read: they hold JSON numbers, or no schema is registered. -/
structure Schemas.Readable (schemas : Schemas) : Prop where
  load : ∀ schema_id, Settles (schemas.load schema_id)
  finite : ∀ schema_id schema, schemas.load schema_id = .ok schema → isFinite schema.toDict = true

/-- What a capture reads is there: schemas, fresh identifiers, and a provider that raises or
returns a snapshot of JSON numbers. -/
structure CaptureWorld.Works (world : CaptureWorld) (db : Registry) : Prop where
  schemas : world.schemas.Readable
  schemasAtWrite : world.schemasAtWrite.Readable
  raises : ∀ e, world.snapshot = .error e → e.isException = true
  snapshot : ∀ snapshot, world.snapshot = .ok snapshot → isFinite snapshot.toDict = true
  fresh : world.Fresh db

/-- `capture`: the request is hashed, recovery is run under the lock, and then the transaction. -/
def captureOutcome (sha256 : Text → Text) (request : PreregisteredCaptureRequest)
    (world : CaptureWorld) (l : Layout) (site : Site) : Except Error Unit := do
  let _ ← requestHash sha256 request
  let recovered := (recoverUnfinishedTransactionsLocked l).exec site
  recovered.1
  ((Registry.captureTransaction sha256 request world).run recovered.2.registry).1

/-- The capture gets as far as its query for overlapping windows. -/
def ReachesWindow (sha256 : Text → Text) (request : PreregisteredCaptureRequest)
    (world : CaptureWorld) (l : Layout) (site : Site) : Prop :=
  ((recoverUnfinishedTransactionsLocked l).exec site).1 = .ok () ∧
    site.registry.capture? request.idempotency_key = none ∧
    ∃ schema_hash, world.schemas.check sha256 request.schema_id request.forecast = .ok schema_hash ∧
      ∀ expected ∈ request.expected_schema_hash, schema_hash = expected

/-! ## Steps that settle -/

/-- The dump of a forecast holds finite numbers only. -/
theorem StrategyEdgeForecast.isFinite_modelDump (f : StrategyEdgeForecast) :
    isFinite f.modelDump = true := by
  have hsharpe := f.expected_metrics.sharpe.property
  have hwin := f.expected_metrics.win_rate.property
  have hdrawdown := f.expected_metrics.max_drawdown.property
  have hexpectancy := f.expected_metrics.expectancy.property
  simp [StrategyEdgeForecast.modelDump, ExpectedMetrics.modelDump, DateWindow.modelDump, isFinite,
    fieldsFinite, hsharpe, hwin, hdrawdown, hexpectancy]

/-- A document of finite numbers is hashed. -/
theorem sha256Json_of_finite (sha256 : Text → Text) {v : Document} (h : isFinite v = true) :
    sha256Json sha256 v = .ok (text "sha256:" ++ sha256 (Json.canonicalText v)) := by
  rw [sha256Json, canonicalJson, if_pos h]
  rfl

/-- A request is hashed exactly when its lineage holds finite numbers. -/
theorem isFinite_requestPayload (request : PreregisteredCaptureRequest) :
    isFinite (requestPayload request) = isFinite request.lineage.toDict := by
  have hforecast := request.forecast.isFinite_modelDump
  cases hexpected : request.expected_schema_hash <;>
    simp [requestPayload, hexpected, isFinite, fieldsFinite, hforecast]

variable {sha256 : Text → Text} {request : PreregisteredCaptureRequest} {world : CaptureWorld}
  {db : Registry}

theorem Schemas.Readable.check {schemas : Schemas} (h : schemas.Readable) (schema_id : Text)
    (forecast : StrategyEdgeForecast) : Settles (schemas.check sha256 schema_id forecast) := by
  refine settles_bind (h.load schema_id) fun schema hschema => ?_
  refine settles_bind (settles_refuse rfl) fun _ _ => ?_
  rw [sha256Json_of_finite sha256 (h.finite schema_id schema hschema)]
  exact settles_ok _

/-- The checks of a capture settle when the family fits wherever it is asked for. -/
theorem settles_captureChecks (hschemas : world.schemas.Readable)
    (hfits : ∀ schema_hash,
      world.schemas.check sha256 request.schema_id request.forecast = .ok schema_hash →
        (∀ expected ∈ request.expected_schema_hash, schema_hash = expected) →
          FamilyFits request.family_id) :
    Settles (Registry.captureChecks sha256 world.schemas request db) := by
  refine settles_bind (hschemas.check _ _) fun schema_hash hchecked => ?_
  refine settles_bind (settles_refuse rfl) fun _ hsame => settles_bind ?_ fun _ _ => settles_ok _
  have hmatches : ∀ expected ∈ request.expected_schema_hash, schema_hash = expected := by
    intro expected hexpected
    by_contra hne
    exact refuse_ok.mp hsame ⟨expected, hexpected, hne⟩
  have hfamily := request.normalizeFamilyId_of_fits (hfits schema_hash hchecked hmatches)
  have hwindow := request.forecast.out_of_sample_window.normalizeWindow
  have hoverlap := (bind_eq_ok (f := fun family =>
    (Pine.normalizeWindow (.date request.forecast.out_of_sample_window.start)
      (.date request.forecast.out_of_sample_window.stop)) >>= fun window =>
        (pure ((db.overlapping family window.1 window.2).insertionSort touchLe).head? :
          Except Error _))).mpr ⟨_, hfamily, bind_eq_ok.mpr ⟨_, hwindow, rfl⟩⟩
  refine settles_bind (x := Registry.findTouchedWindowOverlap _ _ _ db) ?_ fun overlap _ => ?_
  · rw [show Registry.findTouchedWindowOverlap request.family_id _ _ db = _ from hoverlap]
    exact settles_ok _
  · cases overlap with
    | none => exact settles_ok ()
    | some row => exact settles_error rfl

theorem settles_captureClock (value : DateTime) : Settles (captureClock value) := by
  unfold captureClock clockTime
  split
  · exact settles_ok _
  · exact settles_error rfl

theorem settles_captureSnapshot {provided : Except Error JsonObject}
    (h : ∀ e, provided = .error e → e.isException = true) : Settles (captureSnapshot provided) := by
  cases provided with
  | ok snapshot =>
    by_cases hfields : snapshot.fields ≠ []
    · rw [captureSnapshot, dif_pos hfields]
      exact settles_ok _
    · rw [captureSnapshot, dif_neg hfields]
      exact settles_error rfl
  | error e =>
    have hexception := h e rfl
    cases e <;> simp only [captureSnapshot, hexception, if_true] <;> exact settles_error rfl

/-- The draft of a capture holds the finite snapshot of the provider. -/
theorem captureInputs_settles (hworks : world.Works db) :
    Settles (captureInputs request world) := by
  refine settles_bind (settles_captureClock _) fun decision_at _ => ?_
  refine settles_bind (settles_captureSnapshot hworks.raises) fun snapshot _ => ?_
  exact settles_bind (settles_captureClock _) fun committed_at _ => settles_ok _

/-! ## Rows of fresh identifiers -/

/-- An update whose triggers let every selected row through. -/
theorem updateRows_of_all {α : Type} {selects : α → Bool} {apply : α → α}
    {trigger : α → α → Except Error Unit} {rows : List α}
    (h : ∀ r ∈ rows, selects r = true → trigger r (apply r) = .ok ()) :
    Registry.updateRows selects apply trigger rows =
      .ok (rows.map fun r => if selects r then apply r else r) := by
  induction rows with
  | nil => rfl
  | cons r rows ih =>
    have hrest := ih fun x hx => h x (List.mem_cons_of_mem r hx)
    by_cases hs : selects r = true
    · simp only [Registry.updateRows, hs, if_true, h r List.mem_cons_self hs, hrest, List.map_cons]
      rfl
    · simp only [Registry.updateRows, hs, hrest, List.map_cons]
      rfl

/-- A prediction with fresh identifiers is inserted. -/
theorem insertPrediction_fresh {row : PredictionRow}
    (hprediction : ∀ p ∈ db.predictions, p.prediction_id ≠ row.prediction_id)
    (hallocated : ∀ p ∈ db.predictions, p.run_id ≠ row.run_id) :
    Registry.insertPrediction row db = .ok { db with predictions := db.predictions ++ [row] } := by
  refine bind_eq_ok.mpr ⟨(), Registry.enforce_ok.mpr ?_, rfl⟩
  simp only [List.mem_cons, List.not_mem_nil, or_false, forall_eq_or_imp, forall_eq,
    Option.isSome_eq_false_iff, Option.isNone_iff_eq_none, List.any_eq_false, beq_iff_eq]
  refine ⟨List.find?_eq_none.mpr fun p hp => ?_, hallocated⟩
  rw [beq_iff_eq]
  exact hprediction p hp

/-- A run with a fresh identifier is inserted for a prediction that has none. -/
theorem insertRun_fresh {row : RunRow} {prediction_id : Text}
    (hid : row.prediction_id = some prediction_id) (hrun : ∀ r ∈ db.runs, r.run_id ≠ row.run_id)
    (howner : ∀ r ∈ db.runs, r.prediction_id ≠ some prediction_id)
    (hprediction : (db.prediction? prediction_id).isSome = true) :
    Registry.insertRun row db = .ok { db with runs := db.runs ++ [row] } := by
  refine bind_eq_ok.mpr ⟨(), Registry.enforce_ok.mpr ?_, rfl⟩
  have hthere : (db.prediction? prediction_id).isNone = false := by
    rw [Option.isNone_eq_false_iff]
    exact hprediction
  simp only [List.mem_cons, List.not_mem_nil, or_false, forall_eq_or_imp, forall_eq,
    Option.isSome_eq_false_iff, Option.isNone_iff_eq_none, hid, Option.any_some, hthere, and_true,
    List.any_eq_false, beq_iff_eq]
  refine ⟨List.find?_eq_none.mpr fun r hr => ?_, howner⟩
  rw [beq_iff_eq]
  exact hrun r hr

/-- The last prediction, under an identifier of its own, is committed. -/
theorem commitPrediction_last {before : List PredictionRow} {row : PredictionRow}
    {prediction_id : Text} {committed_at : DateTime} (hdb : db.predictions = before ++ [row])
    (hid : row.prediction_id = prediction_id)
    (hfresh : ∀ p ∈ before, p.prediction_id ≠ prediction_id)
    (hstate : row.transaction_state = .in_progress) (htime : row.committed_at = none) :
    (Registry.commitPrediction prediction_id committed_at).run db = (.ok (),
      { db with predictions := before ++ [(Registry.commitUpdate committed_at).apply row] }) := by
  subst hid
  have hnone : ∀ p ∈ before,
      ¬ (p.prediction_id == row.prediction_id && p.transaction_state == .in_progress) = true := by
    intro p hp
    simp [hfresh p hp]
  have hlast : (row.prediction_id == row.prediction_id &&
      row.transaction_state == .in_progress) = true := by
    simp [hstate]
  have hlet : Registry.predictionTriggers db (Registry.commitUpdate committed_at) row
      ((Registry.commitUpdate committed_at).apply row) = .ok () := by
    refine Registry.enforce_ok.mpr ?_
    simp [Registry.commitUpdate, PredictionUpdate.namesImmutable, htime]
  have hmap : (before ++ [row]).map (fun r =>
      if r.prediction_id == row.prediction_id && r.transaction_state == .in_progress then
        (Registry.commitUpdate committed_at).apply r else r) =
      before ++ [(Registry.commitUpdate committed_at).apply row] := by
    rw [List.map_append, List.map_singleton, if_pos hlast]
    congr 1
    exact (List.map_congr_left fun p hp => if_neg (hnone p hp)).trans (List.map_id before)
  have hcount : ((before ++ [row]).filter fun r =>
      r.prediction_id == row.prediction_id && r.transaction_state == .in_progress).length = 1 := by
    rw [List.filter_append, List.filter_eq_nil_iff.mpr hnone, List.nil_append,
      List.filter_singleton, hlast]
    rfl
  have hupdated : Registry.updatePredictions
      (fun r => r.prediction_id == row.prediction_id && r.transaction_state == .in_progress)
      (Registry.commitUpdate committed_at) db =
      .ok (1, { db with
        predictions := before ++ [(Registry.commitUpdate committed_at).apply row] }) := by
    refine bind_eq_ok.mpr ⟨_, updateRows_of_all ?_, ?_⟩
    · intro r hr hs
      rw [hdb] at hr
      rcases List.mem_append.mp hr with hold | hnew
      · exact absurd hs (hnone r hold)
      · rw [List.mem_singleton.mp hnew]
        exact hlet
    · rw [hdb, hmap, hcount]
      rfl
  refine Program.run_bind_ok.mpr ⟨1, _, ?_, Program.run_check_ok.mpr ⟨refuse_ok.mpr ?_, rfl⟩⟩
  · rw [Registry.executeUpdate, Program.run_statement, hupdated]
  · exact fun hne => hne rfl

/-- The two rows of a prediction with fresh identifiers are staged. -/
theorem stageRows_run {prediction : CommittedPrediction}
    (hfinite : isFinite prediction.lineage.toDict = true)
    (hprediction : ∀ p ∈ db.predictions, p.prediction_id ≠ prediction.prediction_id)
    (hallocated : ∀ p ∈ db.predictions, p.run_id ≠ prediction.run_id)
    (hrun : ∀ r ∈ db.runs, r.run_id ≠ prediction.run_id)
    (howner : ∀ r ∈ db.runs, r.prediction_id ≠ some prediction.prediction_id.val) :
    ∃ db', (Registry.stageRows prediction).run db = (.ok (), db') ∧
      db'.capture_requests = db.capture_requests ∧
      (db'.prediction? prediction.prediction_id).isSome = true := by
  have hlineage : canonicalJson prediction.lineage.toDict =
      .ok (Json.canonicalText prediction.lineage.toDict) := by
    rw [canonicalJson, if_pos hfinite]
  have hthere : ∀ (row : PredictionRow) (runs : List RunRow), row.prediction_id =
      prediction.prediction_id → (Registry.prediction? { db with
        predictions := db.predictions ++ [row], runs } prediction.prediction_id).isSome = true := by
    intro row runs hid
    rw [Registry.prediction?, List.find?_isSome]
    exact ⟨row, List.mem_append_right _ (List.mem_singleton_self _), beq_iff_eq.mpr hid⟩
  refine ⟨_, Program.run_bind_ok.mpr ⟨(), _, Program.run_check_bind_ok.mpr ⟨_, hlineage,
    Program.run_bind_ok.mpr ⟨(), _, Program.run_update_ok.mpr (insertPrediction_fresh hprediction
      hallocated), Program.run_update_ok.mpr (insertRun_fresh rfl hrun howner
        (hthere _ _ rfl))⟩⟩, commitPrediction_last rfl rfl hprediction rfl rfl⟩, rfl, ?_⟩
  exact hthere _ _ rfl

/-! ## The transaction of a capture -/

/-- The draft that a capture prepares. -/
structure Drafts (request : PreregisteredCaptureRequest) (world : CaptureWorld)
    (draft : PredictionDraft) : Prop where
  prediction_id : draft.prediction_id = world.prediction_id
  run_id : draft.run_id = world.run_id
  lineage : draft.lineage = request.lineage
  snapshot : world.snapshot = .ok draft.snapshot

theorem captureInputs_ok {inputs : PredictionDraft × DateTime}
    (h : captureInputs request world = .ok inputs) : Drafts request world inputs.1 := by
  obtain ⟨decision_at, -, h⟩ := bind_eq_ok.mp h
  obtain ⟨snapshot, hsnapshot, h⟩ := bind_eq_ok.mp h
  obtain ⟨committed_at, -, hreturn⟩ := bind_eq_ok.mp h
  cases hreturn
  refine ⟨rfl, rfl, rfl, ?_⟩
  cases hprovided : world.snapshot with
  | ok provided =>
    rw [hprovided] at hsnapshot
    unfold captureSnapshot at hsnapshot
    split at hsnapshot
    · rename_i heq
      split at hsnapshot
      · cases heq
        cases hsnapshot
        rfl
      · cases hsnapshot
    · cases hsnapshot
    · cases hsnapshot
  | error e =>
    rw [hprovided] at hsnapshot
    cases e <;> cases hsnapshot

variable (sha256) in
/-- What a draft of finite numbers is prepared as. -/
theorem prepareCommitted_settles {schemas : Schemas} (hschemas : schemas.Readable)
    {draft : PredictionDraft} (hsnapshot : isFinite draft.snapshot.toDict = true)
    (hlineage : isFinite draft.lineage.toDict = true) (expected : Option Text)
    (committed_at : DateTime) :
    Settles (prepareCommitted sha256 schemas draft expected committed_at) := by
  refine settles_bind (hschemas.check _ _) fun schema_hash _ => ?_
  refine settles_bind (settles_refuse rfl) fun _ _ => ?_
  refine settles_bind ?_ fun _ _ => settles_bind (settles_refuse rfl) fun _ _ => ?_
  · unfold clockTime
    split
    · exact settles_ok _
    · exact settles_error rfl
  · have hforecast := draft.forecast.isFinite_modelDump
    have hpayload : ∀ snapshot_ref, isFinite (immutablePayload draft schema_hash snapshot_ref) =
        true := by
      intro snapshot_ref
      simp [immutablePayload, isFinite, fieldsFinite, hforecast, hsnapshot, hlineage]
    refine settles_bind ?_ fun _ _ => settles_ok _
    rw [sha256Json_of_finite sha256 (hpayload _)]
    exact settles_ok _

variable (sha256) in
/-- What the staging of a capture leaves, if it returns; it settles. -/
theorem stageInTransaction_settles (hworks : world.Works db) {draft : PredictionDraft}
    (hdraft : Drafts request world draft) (hlineage : isFinite request.lineage.toDict = true)
    (expected : Option Text) (committed_at : DateTime) :
    Settles ((Registry.stageInTransaction sha256 world draft expected committed_at).run db).1 ∧
      ∀ u db', (Registry.stageInTransaction sha256 world draft expected committed_at).run db =
        (.ok u, db') → db'.capture_requests = db.capture_requests ∧
          (db'.prediction? world.prediction_id).isSome = true := by
  have hfree : db.prediction? draft.prediction_id = none := by
    rw [hdraft.prediction_id]
    exact List.find?_eq_none.mpr fun p hp => by simpa using hworks.fresh.prediction p hp
  have hselected : (Registry.select (·.prediction? draft.prediction_id.val)).run db =
      (.ok none, db) := Program.run_query_ok.mpr ⟨congrArg Except.ok hfree, rfl⟩
  have hprepared := prepareCommitted_settles sha256 hworks.schemasAtWrite
    (hworks.snapshot _ hdraft.snapshot) (hdraft.lineage ▸ hlineage) expected committed_at
  rw [Registry.stageInTransaction, Program.run_bind, hselected]
  cases hcommitted : prepareCommitted sha256 world.schemasAtWrite draft expected committed_at with
  | error e =>
    rw [hcommitted] at hprepared
    refine ⟨settles_error (hprepared e rfl), fun u db' hrun => ?_⟩
    obtain ⟨_, hnone, -⟩ := Program.run_check_bind_ok.mp hrun
    cases hnone
  | ok prediction =>
    obtain ⟨_, _, -, -, -, heq⟩ := prepareCommitted_ok hcommitted
    have hid : prediction.prediction_id = world.prediction_id := by
      rw [heq, hdraft.prediction_id]
    have hrun : prediction.run_id = world.run_id := by
      rw [heq, hdraft.run_id]
    have hsame : prediction.lineage = request.lineage := by
      rw [heq, hdraft.lineage]
    obtain ⟨db', hstaged, hrequests, hthere⟩ := @stageRows_run db prediction
      (hsame ▸ hlineage) (hid ▸ hworks.fresh.prediction) (hrun ▸ hworks.fresh.allocated)
      (hrun ▸ hworks.fresh.run) (hid ▸ hworks.fresh.owner)
    have hstagedCheck : ((Program.check (.ok prediction : Except Error CommittedPrediction) :
        Registry.Session _) >>= Registry.stageRows).run db = (.ok (), db') :=
      Program.run_check_bind_ok.mpr ⟨prediction, rfl, hstaged⟩
    change Settles (((Program.check (.ok prediction : Except Error CommittedPrediction) :
        Registry.Session _) >>= Registry.stageRows).run db).1 ∧ ∀ u db'',
      ((Program.check (.ok prediction : Except Error CommittedPrediction) :
        Registry.Session _) >>= Registry.stageRows).run db = (.ok u, db'') → _
    rw [hstagedCheck]
    refine ⟨settles_ok (), ?_⟩
    rintro u db'' ⟨⟩
    exact ⟨hrequests, hid ▸ hthere⟩

/-! ## Bound keys -/

/-- The foreign key of capture requests. -/
def Registry.Referential (db : Registry) : Prop :=
  ∀ r ∈ db.capture_requests, ∃ p ∈ db.predictions, p.prediction_id = r.prediction_id

/-- A statement that loses no prediction and adds no capture request. -/
theorem Registry.Referential.of_same {db db' : Registry} (hp : db.predictions ⊆ db'.predictions)
    (hr : db'.capture_requests = db.capture_requests) (h : db.Referential) : db'.Referential := by
  intro r hmem
  obtain ⟨p, hpmem, hid⟩ := h r (hr ▸ hmem)
  exact ⟨p, hp hpmem, hid⟩

/-- The foreign key follows every statement. -/
theorem referential_law : Registry.Law (fun _ _ => True) (fun _ => True)
    (fun db db' => db.Referential → db'.Referential) where
  refl _ := id
  trans _ _ _ h k := k ∘ h
  insertRun row db db' h := by
    obtain ⟨-, rfl⟩ := Registry.enforced_ok h
    exact .of_same (List.Subset.refl _) rfl
  insertPrediction row db db' _ h := by
    obtain ⟨-, rfl⟩ := Registry.enforced_ok h
    exact .of_same (List.subset_append_left _ _) rfl
  insertRunBinding row db db' h := by
    obtain ⟨-, rfl⟩ := Registry.enforced_ok h
    exact .of_same (List.Subset.refl _) rfl
  insertCaptureRequest row db db' h hdb := by
    obtain ⟨hall, rfl⟩ := Registry.enforced_ok h
    simp only [List.forall_mem_cons] at hall
    intro r hr
    rcases List.mem_append.mp hr with hold | hnew
    · exact hdb r hold
    · obtain ⟨p, hp⟩ := Option.isSome_iff_exists.mp
        (Option.isNone_eq_false_iff.mp hall.2.2.1)
      obtain ⟨hmem, hid⟩ := Registry.prediction?_some hp
      exact ⟨p, hmem, by rw [hid, List.mem_singleton.mp hnew]⟩
  insertIntegrityViolation row db db' _ h := by
    obtain ⟨-, rfl⟩ := Registry.enforced_ok h
    exact .of_same (List.Subset.refl _) rfl
  insertExternalRunImport row db db' h := by
    obtain ⟨-, rfl⟩ := Registry.enforced_ok h
    exact .of_same (List.Subset.refl _) rfl
  insertRunResult row db db' h := by
    obtain ⟨-, rfl⟩ := Registry.enforced_ok h
    exact .of_same (List.Subset.refl _) rfl
  insertTouchedWindow row db := by
    unfold Registry.insertTouchedWindow
    split
    · exact id
    · exact .of_same (List.Subset.refl _) rfl
  updateRuns selects u db n db' h := by
    obtain ⟨rfl, -⟩ := Registry.updateRuns_ok h
    exact .of_same (List.Subset.refl _) rfl
  updatePredictions selects u db n db' h hdb := by
    obtain ⟨rfl, -, hall⟩ := Registry.updatePredictions_ok h
    intro r hr
    obtain ⟨p, hp, hid⟩ := hdb r hr
    refine ⟨_, List.mem_map_of_mem hp, ?_⟩
    split
    · have himmutable := Registry.enforce_ok.mp (hall p hp ‹_›)
      simp only [List.forall_mem_cons, PredictionUpdate.namesImmutable, Bool.or_eq_false_iff,
        Option.isSome_eq_false_iff, Option.isNone_iff_eq_none] at himmutable
      rw [PredictionUpdate.apply, himmutable.1.1.1.1.1.1.1.1.1]
      exact hid
    · exact hid

/-- What every statement keeps, a capture keeps. -/
theorem Registry.Law.captureTransaction {R : Registry → Registry → Prop}
    (law : Registry.Law (fun _ _ => True) (fun _ => True) R) (sha256 : Text → Text)
    (request : PreregisteredCaptureRequest) (world : CaptureWorld) :
    Program.Relates R (Registry.captureTransaction sha256 request world) := by
  refine law.bind (law.done _) fun request_hash =>
    law.bind (Program.Relates.query law.refl _) fun existing => ?_
  cases existing with
  | some row => exact law.done _
  | none =>
    refine law.bind (Program.Relates.query law.refl _) fun schema_hash =>
      law.bind (law.done _) fun inputs => law.bind (law.bind (law.select _) fun found => ?_)
        fun _ => law.execute (law.insertCaptureRequest _)
    cases found with
    | some row => exact law.done _
    | none =>
      refine law.bind (law.done _) fun prediction => law.bind ?_ fun _ =>
        law.bind (law.executeUpdate fun _ _ _ => law.updatePredictions _ _ _ _ _)
          fun _ => law.done _
      refine law.bind (law.done _) fun _ => law.bind ?_ fun _ => law.execute (law.insertRun _)
      exact law.execute fun _ _ => law.insertPrediction _ _ _ trivial

/-- Every registry that captures and operations reach keeps the foreign key. -/
theorem referential_of_run {π : Type} {s : Registry.System π}
    {trace : List (Registry.System π × Transaction.Event π Registry Error Unit)}
    (h : Run Transaction.Step ⟨Registry.empty, none⟩ trace s)
    (hadmitted : ∀ x ∈ trace, ∀ process p, x.2 = .begin process p →
      Registry.CaptureOrOperations sha256 p) : s.committed.Referential := by
  have hempty : Registry.empty.Referential := by simp [Registry.Referential, Registry.empty]
  refine (Transaction.invariant ?_ h rfl hadmitted hempty).1
  rintro p db a db' hp hdb hrun
  have hkept : Program.Relates (fun db db' => db.Referential → db'.Referential) p := by
    rcases hp with ⟨request, world, rfl⟩ | ⟨ops, rfl⟩
    · exact referential_law.captureTransaction sha256 request world
    · exact referential_law.of_any sha256 ops
  have hafter := hkept db hdb
  rw [hrun] at hafter
  exact hafter

/-- A key that no prediction can be found under is not bound. -/
theorem Registry.Referential.unbound (h : db.Referential) {key : Text}
    (hnone : db.capture? key = none) : ∀ r ∈ db.capture_requests, r.idempotency_key ≠ key := by
  rintro r hr rfl
  cases hfind : db.capture_requests.find? (·.idempotency_key == r.idempotency_key) with
  | none => exact List.find?_eq_none.mp hfind r hr (beq_self_eq_true _)
  | some found =>
    obtain ⟨p, hp, hid⟩ := h found (List.mem_of_find?_eq_some hfind)
    have hthere : (db.prediction? found.prediction_id).isSome = true := by
      rw [Registry.prediction?, List.find?_isSome]
      exact ⟨p, hp, beq_iff_eq.mpr hid⟩
    obtain ⟨prediction, hprediction⟩ := Option.isSome_iff_exists.mp hthere
    rw [Registry.capture?, hfind, Option.bind_some, hprediction] at hnone
    cases hnone

/-! ## When a capture settles -/

/-- A capture under an unbound key settles when the family fits wherever it is asked for. -/
theorem captureNew_settles (hworks : world.Works db) (hrefs : db.Referential)
    (hlineage : isFinite request.lineage.toDict = true)
    (hunbound : db.capture? request.idempotency_key = none)
    (hfits : ∀ schema_hash,
      world.schemas.check sha256 request.schema_id request.forecast = .ok schema_hash →
        (∀ expected ∈ request.expected_schema_hash, schema_hash = expected) →
          FamilyFits request.family_id) (request_hash : Text) :
    Settles ((Registry.captureNew sha256 request world request_hash).run db).1 := by
  refine settles_run ?_ fun schema_hash db' hchecked => ?_
  · rw [Program.run_query]
    exact settles_captureChecks hworks.schemas hfits
  obtain ⟨-, rfl⟩ := Program.run_query_ok.mp hchecked
  refine settles_run (captureInputs_settles hworks) fun inputs db'' hinputs => ?_
  obtain ⟨hread, rfl⟩ := Program.run_check_ok.mp hinputs
  have hdraft := captureInputs_ok hread
  obtain ⟨hsettles, hstaged⟩ := stageInTransaction_settles sha256 hworks hdraft hlineage
    (some schema_hash) inputs.2
  refine settles_run hsettles fun u staged hrun => ?_
  obtain ⟨hrequests, hthere⟩ := hstaged u staged hrun
  have hinsert : Registry.insertCaptureRequest ⟨request.idempotency_key, request_hash,
      inputs.1.prediction_id, inputs.1.created_at.isoformat⟩ staged = .ok { staged with
        capture_requests := staged.capture_requests ++ [⟨request.idempotency_key, request_hash,
          inputs.1.prediction_id, inputs.1.created_at.isoformat⟩] } := by
    refine bind_eq_ok.mpr ⟨(), Registry.enforce_ok.mpr ?_, rfl⟩
    simp only [List.mem_cons, List.not_mem_nil, or_false, forall_eq_or_imp, forall_eq,
      List.any_eq_false, beq_iff_eq, hrequests, hdraft.prediction_id]
    exact ⟨hrefs.unbound hunbound, hworks.fresh.captured, Option.isNone_eq_false_iff.mpr hthere⟩
  have hregistered := Program.run_update_ok (a := ()).mpr hinsert
  rw [Registry.registerCaptureRequest, Registry.execute, hregistered]
  exact settles_ok ()

/-- What a capture of a hashed request does once recovery is over. -/
theorem captureTransaction_settles (hworks : world.Works db) (hrefs : db.Referential)
    (hlineage : isFinite request.lineage.toDict = true)
    (hfits : db.capture? request.idempotency_key = none → ∀ schema_hash,
      world.schemas.check sha256 request.schema_id request.forecast = .ok schema_hash →
        (∀ expected ∈ request.expected_schema_hash, schema_hash = expected) →
          FamilyFits request.family_id) :
    Settles ((Registry.captureTransaction sha256 request world).run db).1 := by
  have hhash := sha256Json_of_finite sha256
    ((isFinite_requestPayload request).trans hlineage)
  refine settles_run ?_ fun request_hash db' hhashed => ?_
  · change Settles (requestHash sha256 request)
    rw [requestHash, hhash]
    exact settles_ok _
  obtain ⟨-, rfl⟩ := Program.run_check_ok.mp hhashed
  refine settles_run ?_ fun existing db'' hlooked => ?_
  · rw [Program.run_query]
    unfold Registry.captureLookup
    split
    · exact settles_ok _
    · split
      · exact settles_error rfl
      · exact settles_ok _
  obtain ⟨hlookup, rfl⟩ := Program.run_query_ok.mp hlooked
  cases existing with
  | some row =>
    refine settles_bind (settles_refuse rfl) fun _ _ => settles_refuse rfl
  | none =>
    have hunbound : db''.capture? request.idempotency_key = none := by
      unfold Registry.captureLookup at hlookup
      split at hlookup
      · assumption
      · split at hlookup <;> cases hlookup
    exact captureNew_settles hworks hrefs hlineage hunbound (hfits hunbound) request_hash

/-- The transaction of a capture that asks for the windows of a family that does not fit. -/
theorem captureTransaction_of_not_fits (hlineage : isFinite request.lineage.toDict = true)
    (hunbound : db.capture? request.idempotency_key = none) {schema_hash : Text}
    (hchecked : world.schemas.check sha256 request.schema_id request.forecast = .ok schema_hash)
    (hmatches : ∀ expected ∈ request.expected_schema_hash, schema_hash = expected)
    (hfits : ¬ FamilyFits request.family_id) :
    ((Registry.captureTransaction sha256 request world).run db).1 =
      .error (.valueError (text "family_id must be 1 to 256 non-NUL characters")) := by
  have hhash := sha256Json_of_finite sha256
    ((isFinite_requestPayload request).trans hlineage)
  have hlookup : ∀ request_hash, Registry.captureLookup request.idempotency_key request_hash db =
      .ok none := by
    intro request_hash
    rw [Registry.captureLookup, hunbound]
  have hsame : ¬ ∃ expected ∈ request.expected_schema_hash, schema_hash ≠ expected := by
    rintro ⟨expected, hexpected, hne⟩
    exact hne (hmatches expected hexpected)
  have hchecks : Registry.captureChecks sha256 world.schemas request db =
      .error (.valueError (text "family_id must be 1 to 256 non-NUL characters")) := by
    rw [Registry.captureChecks, hchecked]
    change (refuse _ _ >>= fun _ => Registry.refuseOverlap request db >>= fun _ => _) = _
    rw [refuse, if_neg hsame]
    change (Registry.refuseOverlap request db >>= fun _ => _) = _
    rw [Registry.refuseOverlap, Registry.findTouchedWindowOverlap,
      normalizeFamilyId_of_not_fits hfits]
    rfl
  rw [Registry.captureTransaction, requestHash, hhash, Program.run_bind, Program.run_check]
  dsimp only
  rw [Program.run_bind, Program.run_query, hlookup]
  dsimp only
  rw [Registry.captureNew, Program.run_bind, Program.run_query, hchecks]

variable (sha256) in
/-- A request whose lineage holds an infinity or a NaN is not hashed. -/
theorem requestHash_of_not_finite (h : ¬ isFinite request.lineage.toDict = true) :
    ∃ message, requestHash sha256 request = .error (.valueError message) := by
  have hpayload : ¬ isFinite (requestPayload request) = true := by
    rw [isFinite_requestPayload]
    exact h
  exact ⟨_, by rw [requestHash, sha256Json, canonicalJson, if_neg hpayload]; rfl⟩

/-- A family that is too long for the registry. -/
def longFamily : Text := List.replicate 257 'a'

/-- A lineage of that family. -/
def longLineage : JsonObject :=
  ⟨[(text "family_id", .str longFamily)], by simp [Keyed, FieldsKeyed]⟩

/-- A confirmed input with that family. -/
def longInput : CaptureInput where
  schema_id := text "finance/strategy-edge:1"
  schema_hash := text "sha256:" ++ List.replicate 64 '0'
  forecast := Registry.sampleForecast
  decision := text "deploy"
  lineage := longLineage
  body := []
  family_id := longFamily
  schema_length := CaptureInput.default_schema_length
  hash_pattern := by decide +kernel
  decision_nonempty := Registry.sampleRequest.decision_nonempty
  lineage_family := ⟨rfl, by decide +kernel⟩

/-- The hash of the schemas that the reviewed input names. -/
def longHash (_ : Text) : Text := List.replicate 64 '0'

theorem sampleWorld_works : Registry.sampleWorld.Works Registry.empty where
  schemas := ⟨fun _ => settles_ok _, by rintro _ _ ⟨⟩; rfl⟩
  schemasAtWrite := ⟨fun _ => settles_ok _, by rintro _ _ ⟨⟩; rfl⟩
  raises := by rintro e ⟨⟩
  snapshot := by
    rintro _ ⟨⟩
    decide +kernel
  fresh := by
    constructor <;> intro x hx <;> cases hx

end Pine
