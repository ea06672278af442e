import Pine.Ledger.Run.Artifacts

/-!
# Envelopes of preregistered runs

Only the preparation of a run binds the run of a prediction, and it loads the artifacts of the
prediction first. So whatever the vault holds when runs are prepared, the envelopes of all
preregistered runs were made of what was committed.
-/

namespace Pine

open Program (Relates)

namespace Registry

/-! ## Operations that bind no preregistered run -/

/-- Every preregistered binding was there before. -/
def BindsNothing (db db' : Registry) : Prop :=
  ∀ b ∈ db'.run_bindings, b.registration_status = .preregistered → b ∈ db.run_bindings

/-- The operation binds the run of a prediction. -/
def Operation.binds : Operation → Prop
  | bind_preregistered_run _ _ _ _ _ _ _ _ => True
  | _ => False

section

variable {sha256 : Text → Text} {db db' : Registry} {α β : Type}

theorem BindsNothing.refl (db : Registry) : db.BindsNothing db := fun _ hb _ => hb

theorem BindsNothing.trans {a b c : Registry} (h : a.BindsNothing b) (k : b.BindsNothing c) :
    a.BindsNothing c := fun x hx hstatus => h x (k x hx hstatus) hstatus

theorem BindsNothing.of_same (h : db'.run_bindings = db.run_bindings) : db.BindsNothing db' :=
  fun _ hb _ => h ▸ hb

theorem unbound_done (r : Except Error α) : Relates BindsNothing (Program.done r : Session α) :=
  Relates.done BindsNothing.refl r

theorem unbound_bind {p : Session α} {f : α → Session β} (hp : Relates BindsNothing p)
    (hf : ∀ a, Relates BindsNothing (f a)) : Relates BindsNothing (p >>= f) :=
  Relates.bind hp (fun _ a _ _ => hf a) fun _ _ _ => BindsNothing.trans

theorem unbound_select (read : Registry → α) : Relates BindsNothing (select read) :=
  Relates.query BindsNothing.refl _

theorem unbound_execute {f : Registry → Except Error Registry}
    (h : ∀ db db', f db = .ok db' → db'.run_bindings = db.run_bindings) :
    Relates BindsNothing (execute f) :=
  Relates.update BindsNothing.refl fun db db' heq => .of_same (h db db' heq)

theorem unbound_executeUpdate {f : Registry → Except Error (Nat × Registry)}
    (h : ∀ db n db', f db = .ok (n, db') → db'.run_bindings = db.run_bindings) :
    Relates BindsNothing (executeUpdate f) :=
  Relates.statement BindsNothing.refl fun db n db' heq => .of_same (h db n db' heq)

theorem unbound_insertRun (row : RunRow) : Relates BindsNothing (execute (insertRun row)) := by
  refine unbound_execute fun db db' h => ?_
  obtain ⟨rfl, -⟩ := insertRun_ok h
  rfl

theorem unbound_updateRuns {selects : Registry → RunRow → Bool} {u : RunUpdate} :
    Relates BindsNothing (executeUpdate fun db => updateRuns (selects db) u db) := by
  refine unbound_executeUpdate fun db n db' h => ?_
  obtain ⟨rfl, -, -⟩ := updateRuns_ok h
  rfl

theorem unbound_updatePredictions {selects : PredictionRow → Bool} {u : PredictionUpdate} :
    Relates BindsNothing (executeUpdate (updatePredictions selects u)) := by
  refine unbound_executeUpdate fun db n db' h => ?_
  obtain ⟨rfl, -, -⟩ := updatePredictions_ok h
  rfl

theorem unbound_insertTouched (family start stop : Text) (touched_at : DateTime) :
    Relates BindsNothing (insertTouched family start stop touched_at) := by
  refine unbound_execute fun db db' h => ?_
  cases h
  unfold insertTouchedWindow
  split <;> rfl

theorem unbound_executeFinish (run_id : Text) (completed_at : DateTime) (exit_code : Int)
    (note : Option Text) :
    Relates BindsNothing (executeFinish run_id completed_at exit_code note) := by
  refine unbound_bind ?_ fun _ => unbound_updateRuns
  unfold bindInteger
  split <;> exact unbound_done _

theorem unbound_touchIdentityForRun (sha256 : Text → Text) (run_id : Text) :
    Relates BindsNothing (touchIdentityForRun sha256 run_id) := by
  refine unbound_bind (unbound_select _) fun row => ?_
  cases row with
  | none => exact unbound_done _
  | some row => exact unbound_done _

/-- The rows that a binding adds. -/
theorem insertBindingOfRegistered_ok {run_id : Text} {b : Binding} {n : Nat}
    (h : insertBindingOfRegistered run_id b db = .ok (n, db')) : ∀ row ∈ db'.run_bindings,
    row ∈ db.run_bindings ∨ row = ⟨run_id, b.idempotency_key, b.request_hash, b.registration_status,
      b.strategy_id, b.dataset_version, b.envelope_json, b.envelope_hash, b.bound_at.isoformat⟩ := by
  intro row hrow
  unfold insertBindingOfRegistered at h
  split at h
  · split at h
    · obtain ⟨_, hinsert, heq⟩ := bind_eq_ok.mp h
      cases heq
      obtain ⟨rfl, -, -⟩ := insertRunBinding_ok hinsert
      exact (List.mem_append.mp hrow).imp_right List.mem_singleton.mp
    · cases h
      exact Or.inl hrow
  · cases h
    exact Or.inl hrow

/-- A binding of another status. -/
theorem unbound_bindRun (run_id : Text) {b : Binding} (h : b.registration_status ≠ .preregistered) :
    Relates BindsNothing (bindRun run_id b) := by
  refine unbound_bind (Relates.statement BindsNothing.refl fun db n db' hinsert => ?_)
    fun _ => unbound_done _
  intro row hrow hstatus
  rcases insertBindingOfRegistered_ok hinsert row hrow with hbefore | rfl
  · exact hbefore
  · exact absurd hstatus h

theorem unbound_insertNewViolations (prediction_id : Text) (detected_at : DateTime)
    (violations : List (Text × Text)) :
    Relates BindsNothing (insertNewViolations prediction_id detected_at violations) := by
  induction violations with
  | nil => exact unbound_done _
  | cons v rest ih =>
    refine unbound_bind (unbound_executeUpdate fun db n db' h => ?_) fun _ =>
      unbound_bind ih fun _ => unbound_done _
    unfold insertNewViolation at h
    split at h
    · cases h
      rfl
    · obtain ⟨_, hinsert, heq⟩ := map_eq_ok.mp h
      cases heq
      obtain ⟨-, rfl⟩ := enforced_ok hinsert
      rfl

theorem unbound_quarantinePrediction (prediction_id : Text) (violations : List (Text × Text))
    (detected_at : DateTime) :
    Relates BindsNothing (quarantinePrediction prediction_id violations detected_at) := by
  refine unbound_bind (unbound_done _) fun _ => unbound_bind (unbound_done _) fun _ =>
    unbound_bind (unbound_done _) fun _ => unbound_bind (unbound_select _) fun row => ?_
  cases row with
  | none => exact unbound_done _
  | some row =>
    refine unbound_bind (unbound_insertNewViolations _ _ _) fun changed => ?_
    split
    · exact unbound_bind unbound_updatePredictions fun _ => unbound_done _
    · exact unbound_done _

theorem unbound_createExternalRunImport (sha256 : Text → Text) (e : ExternalRun) :
    Relates BindsNothing (createExternalRunImport sha256 e) := by
  refine unbound_bind (unbound_insertRun _) fun _ =>
    unbound_bind (unbound_bindRun _ (fun h => by cases h)) fun _ =>
      unbound_bind (unbound_touchIdentityForRun _ _) fun touch => ?_
  refine unbound_bind unbound_updateRuns fun _ => unbound_bind (unbound_insertTouched _ _ _ _)
    fun _ => unbound_bind (unbound_executeFinish _ _ _ _) fun _ => unbound_execute fun db db' h => ?_
  obtain ⟨-, rfl⟩ := enforced_ok h
  rfl

/-- Every other operation binds no preregistered run. -/
theorem Operation.program_unbound {op : Operation} (hop : ¬ op.binds) :
    Relates BindsNothing (op.program sha256) := by
  cases op with
  | begin_prediction prediction =>
    refine unbound_bind (unbound_done _) fun _ => unbound_bind (unbound_execute fun db db' h => ?_)
      fun _ => unbound_insertRun _
    obtain ⟨rfl, -⟩ := insertPrediction_ok h
    rfl
  | commit_prediction => exact unbound_bind unbound_updatePredictions fun _ => unbound_done _
  | register_capture_request =>
    refine unbound_execute fun db db' h => ?_
    obtain ⟨-, rfl⟩ := enforced_ok h
    rfl
  | create_exploratory_run =>
    exact unbound_bind (unbound_insertRun _) fun _ => unbound_bindRun _ (fun h => by cases h)
  | bind_preregistered_run => exact absurd trivial hop
  | create_external_run_import e => exact unbound_createExternalRunImport sha256 e
  | create_run_result =>
    refine unbound_bind (unbound_executeUpdate fun db n db' h => ?_) fun _ => unbound_done _
    split at h
    · obtain ⟨_, hinsert, heq⟩ := map_eq_ok.mp h
      cases heq
      obtain ⟨-, rfl⟩ := enforced_ok hinsert
      rfl
    · cases h
      rfl
  | start_run =>
    refine unbound_bind (unbound_done _) fun _ =>
      unbound_bind (unbound_touchIdentityForRun _ _) fun touch => ?_
    exact unbound_bind unbound_updateRuns fun _ => unbound_bind (unbound_done _)
      fun _ => unbound_insertTouched _ _ _ _
  | finish_run => exact unbound_bind (unbound_executeFinish _ _ _ _) fun _ => unbound_done _
  | mark_window_touched =>
    exact unbound_bind (unbound_done _) fun _ => unbound_bind (unbound_done _) fun _ =>
      unbound_bind (unbound_done _) fun _ => unbound_insertTouched _ _ _ _
  | update_resolution =>
    exact unbound_bind (unbound_done _) fun _ => unbound_bind (unbound_done _) fun _ =>
      unbound_bind (unbound_done _) fun _ => unbound_bind (unbound_done _) fun _ =>
        unbound_bind unbound_updatePredictions fun _ => unbound_done _
  | record_integrity_violation id =>
    refine unbound_execute fun db db' h => ?_
    obtain ⟨-, rfl⟩ := enforced_ok h
    rfl
  | quarantine_prediction id =>
    exact unbound_bind (unbound_quarantinePrediction _ _ _) fun _ => unbound_done _
  | update_touched_windows =>
    refine unbound_execute fun db db' h => ?_
    rw [updateTouchedWindows_ok h]
  | delete_touched_windows =>
    refine unbound_execute fun db db' h => ?_
    rw [deleteTouchedWindows_ok h]

/-- Operations that bind no preregistered run. -/
theorem BindsNothing.of_commits (h : Commits sha256 (fun op => ¬ op.binds) db db') :
    db.BindsNothing db' :=
  h.keeps (P := fun x => db.BindsNothing x) (fun op hop a b u hrun ha => by
    have hstep := @Operation.program_unbound sha256 op hop a
    rw [hrun] at hstep
    exact ha.trans hstep) (BindsNothing.refl db)

end

/-! ## Preparations -/

/-- The prediction and the run that a request is for. -/
theorem preregisteredRun_prediction {db : Registry} {prediction_id : Text}
    {found : PredictionRow × RunRow} (h : preregisteredRun prediction_id db = .ok found) :
    found.1 ∈ db.predictions ∧ found.1.prediction_id = prediction_id ∧
      found.1.transaction_state = .committed ∧ found.1.registration_status = .preregistered ∧
      found.2.run_id = found.1.run_id := by
  obtain ⟨prediction, hprediction, h⟩ := bind_eq_ok.mp h
  obtain ⟨_, hstatus, h⟩ := bind_eq_ok.mp h
  obtain ⟨run, hrun, h⟩ := bind_eq_ok.mp h
  obtain ⟨_, -, h⟩ := bind_eq_ok.mp h
  obtain ⟨_, -, h⟩ := bind_eq_ok.mp h
  cases h
  obtain ⟨hfound, hcommitted⟩ := Option.filter_eq_some_iff.mp (required_ok.mp hprediction)
  obtain ⟨hmem, hid⟩ := prediction?_some hfound
  exact ⟨hmem, hid, beq_iff_eq.mp hcommitted, not_not.mp (refuse_ok.mp hstatus),
    beq_iff_eq.mp (Option.filter_eq_some_iff.mp (required_ok.mp hrun)).2⟩

end Registry

/-- The call prepared the run of the row: it loaded the artifacts of the row, and the binding seals
an envelope of their forecast and their snapshot. -/
structure Seals (L : RecordLibrary) (sha256 : Text → Text) (db : Registry) (call : LedgerCall)
    (b : RunBindingRow) (row : PredictionRow) (decision lineage : YamlValue) (value : Document)
    (loaded : StrategyEdgeForecast × StrategySnapshot) : Prop where
  stored : row ∈ db.predictions
  committed : row.transaction_state = .committed
  preregistered : row.registration_status = .preregistered
  run_id : b.run_id = row.run_id
  strategy_id : b.strategy_id = loaded.1.strategy_id
  dataset_version : b.dataset_version = loaded.2.dataset_version
  prepared : ∃ (request : PreregisteredRunRequest) (world : PrepareWorld)
      (vault : PredictionRow → Artifacts) (frontmatter : YamlValue) (directory : Text),
    call = .prepare_run (.preregistered request) world ∧ request.prediction_id = row.prediction_id ∧
    Loads L sha256 row (vault row) frontmatter decision lineage value loaded ∧
    sha256Json sha256 (runEnvelope request.toRunRequest row.run_id (some row.prediction_id)
      .preregistered loaded.1.strategy_id directory loaded.2 world.now (some row.immutable_hash)) =
        .ok b.envelope_hash ∧
    canonicalJson (runEnvelope request.toRunRequest row.run_id (some row.prediction_id)
      .preregistered loaded.1.strategy_id directory loaded.2 world.now (some row.immutable_hash)) =
        .ok b.envelope_json

namespace LedgerCall

/-- Runs of predictions are bound by preparations only, which load the artifacts of some vault. -/
def Prepares (L : RecordLibrary) (sha256 : Text → Text) : LedgerCall → Prop
  | operations ops => ∀ op ∈ ops, ¬ op.binds
  | prepare_run _ world => ∃ vault, world.load = loadPreregisteredSnapshot L sha256 vault
  | _ => True

variable {L : RecordLibrary} {V : Libraries} {sha256 : Text → Text} {db db' : Registry}
  {b : RunBindingRow}

/-- A new preparation binds the run of its prediction, and no other. -/
theorem preparePreregisteredNew_seals {request : PreregisteredRunRequest} {world : PrepareWorld}
    {vault : PredictionRow → Artifacts}
    (hload : world.load = loadPreregisteredSnapshot L sha256 vault)
    {working_directory request_hash run_id : Text}
    (h : (Registry.preparePreregisteredNew sha256 world request working_directory request_hash).run
      db = (.ok run_id, db')) (hb : b ∈ db'.run_bindings) :
    b ∈ db.run_bindings ∨ ∃ row decision lineage value loaded,
      Seals L sha256 db (.prepare_run (.preregistered request) world) b row decision lineage value
        loaded := by
  obtain ⟨found, loaded, hash, json, hfound, hrun, hloaded, -, hsealed, hprinted, hbound⟩ :=
    Registry.preparePreregisteredNew_ok h
  obtain ⟨hmem, hid, hcommitted, hstatus, hsame⟩ := Registry.preregisteredRun_prediction hfound
  rw [hload] at hloaded
  obtain ⟨frontmatter, decision, lineage, value, hloads⟩ :=
    loadArtifacts_ok.mp (loadPreregisteredSnapshot_iff.mp hloaded).2
  obtain ⟨eligible, db1, hselect, hchecked⟩ := Program.run_bind_ok.mp hbound
  obtain ⟨-, rfl⟩ := Program.run_query_ok.mp hselect
  obtain ⟨_, db2, heligible, hinserted⟩ := Program.run_bind_ok.mp hchecked
  obtain ⟨-, rfl⟩ := Program.run_check_ok.mp heligible
  obtain ⟨n, db3, hinsert, hcount⟩ := Program.run_bind_ok.mp hinserted
  obtain ⟨-, rfl⟩ := Program.run_check_ok.mp hcount
  refine (Registry.insertBindingOfRegistered_ok (Registry.executeUpdate_ok hinsert) b hb).imp_right ?_
  rintro rfl
  have hrow : run_id = found.1.run_id := hrun.symm.trans hsame
  rw [hrow, ← hid] at hsealed hprinted
  exact ⟨found.1, decision, lineage, value, loaded, {
    stored := hmem
    committed := hcommitted
    preregistered := hstatus
    run_id := hrow
    strategy_id := rfl
    dataset_version := rfl
    prepared := ⟨request, world, vault, frontmatter, working_directory, rfl, hid.symm, hloads, hsealed,
      hprinted⟩ }⟩

/-- A call binds nothing, or it is the preparation of the run. -/
theorem commit_seals {call : LedgerCall} (hcall : call.Prepares L sha256)
    (hb : b ∈ (call.commit V sha256 db).run_bindings) (hstatus : b.registration_status = .preregistered) :
    b ∈ db.run_bindings ∨ ∃ row decision lineage value loaded,
      Seals L sha256 db call b row decision lineage value loaded := by
  rcases hprogram : (call.program V sha256).run db with ⟨e | u, db'⟩
  · rw [commit, hprogram] at hb
    exact Or.inl hb
  · rw [commit, hprogram] at hb
    have hcommits (h : Registry.Commits sha256 (fun op => ¬ op.binds) db db') : b ∈ db.run_bindings :=
      Registry.BindsNothing.of_commits h b hb hstatus
    cases call with
    | operations ops => exact Or.inl (hcommits ⟨ops, hcall, hprogram⟩)
    | capture request world =>
      exact Or.inl (hcommits ((Registry.captureTransaction_commits hprogram).mono fun op hop hbinds => by
        cases op with
        | bind_preregistered_run => exact hop
        | _ => exact hbinds))
    | prepare_run call world =>
      obtain ⟨vault, hload⟩ := hcall
      obtain ⟨run_id, _, hprepare, hreturn⟩ := Program.run_bind_ok.mp hprogram
      obtain ⟨-, rfl⟩ := Program.run_pure_ok.mp hreturn
      obtain ⟨directory, request_hash, -, ⟨_, _, -, -, -, rfl⟩ | hnew⟩ :=
        Registry.prepare_retried_or_new hprepare
      · exact Or.inl hb
      · cases call with
        | preregistered request => exact preparePreregisteredNew_seals hload hnew hb
        | exploratory request =>
          obtain ⟨_, _, _, _, _, hcreated⟩ := Registry.prepareExploratoryNew_ok hnew
          exact Or.inl (hcommits (.one (.create_exploratory_run _ _ _ _ _ _ _ _) not_false hcreated))
    | ingest_external e world =>
      obtain ⟨_, _, hingest, hreturn⟩ := Program.run_bind_ok.mp hprogram
      obtain ⟨-, rfl⟩ := Program.run_pure_ok.mp hreturn
      obtain ⟨_, -, ⟨_, -, -, -, rfl⟩ | ⟨columns, _, -, -, hcreated, -⟩⟩ :=
        Registry.ingestExternalRun_ok hingest
      · exact Or.inl hb
      · exact Or.inl (hcommits (.one (.create_external_run_import columns) not_false hcreated))
    | ingest_result e now =>
      obtain ⟨_, _, hingest, hreturn⟩ := Program.run_bind_ok.mp hprogram
      obtain ⟨-, rfl⟩ := Program.run_pure_ok.mp hreturn
      exact Or.inl (hcommits ((Registry.ingestEvidence_commits hingest).mono fun op hop hbinds => by
        cases op with
        | bind_preregistered_run => exact hop
        | _ => exact hbinds))

/-- What a load found is what a prediction was committed with. -/
structure LoadedCommitted (c : CommittedPrediction) (decision lineage : YamlValue) (value : Document)
    (loaded : StrategyEdgeForecast × StrategySnapshot) : Prop where
  forecast : loaded.1 = c.forecast
  decision : decision = .str c.decision
  snapshot : ∃ s, canonicalJson value = .ok s ∧ canonicalJson c.snapshot.toDict = .ok s
  lineage : ∃ s, lineage.canonicalJson = .ok s ∧ canonicalJson c.lineage.toDict = .ok s

/-- Whatever the vault holds whenever a run is prepared: behind the binding of every preregistered run
is a prediction that an earlier call staged, and a preparation that loaded its artifacts and sealed
their forecast and their snapshot; and these are what was committed, or what it loaded collides. -/
theorem bound_run_committed {trace : List (Registry × LedgerCall)}
    (h : Run (Step V sha256) Registry.empty trace db)
    (hwritten : ∀ x ∈ trace, x.2.Written sha256) (hprepares : ∀ x ∈ trace, x.2.Prepares L sha256)
    (hb : b ∈ db.run_bindings) (hstatus : b.registration_status = .preregistered) :
    ∃ before x after row decision lineage value loaded c, trace = before ++ x :: after ∧
      (∃ y ∈ before, y.2.Stages sha256 c) ∧ row.Records c ∧
      Seals L sha256 x.1 x.2 b row decision lineage value loaded ∧
      (LoadedCommitted c decision lineage value loaded ∨
        PayloadCollides sha256 c (observedPayload c.registration_status.value c.snapshot_ref
          c.schema_hash loaded.1 decision lineage value)) := by
  induction h with
  | nil => cases hb
  | @snoc s t trace call hrun hstep ih =>
    have hinit : ∀ x ∈ trace, x ∈ trace ++ [(s, call)] := fun x hx => List.mem_append_left _ hx
    obtain rfl := hstep
    rcases commit_seals (hprepares _ (List.mem_append_right _ (List.mem_singleton_self _))) hb hstatus with
      hbefore | ⟨row, decision, lineage, value, loaded, hseals⟩
    · obtain ⟨before, x, after, row, decision, lineage, value, loaded, c, rfl, hrest⟩ :=
        ih (fun x hx => hwritten x (hinit x hx)) (fun x hx => hprepares x (hinit x hx)) hbefore
      exact ⟨before, x, after ++ [(s, call)], row, decision, lineage, value, loaded, c, by simp, hrest⟩
    · obtain ⟨c, ⟨y, hy, hstages⟩, hrecords⟩ := run_records hrun row hseals.stored
      obtain ⟨_, _, _, frontmatter, _, -, -, hloads, -⟩ := hseals.prepared
      refine ⟨trace, (s, call), [], row, decision, lineage, value, loaded, c, rfl, ⟨y, hy, hstages⟩,
        hrecords, hseals, (payload_committed (hwritten y (hinit y hy) c hstages) hrecords
          hloads.payload).imp_left ?_⟩
      rintro ⟨hforecast, hdecision, hsnapshot, hlineage⟩
      exact ⟨hforecast, hdecision, hsnapshot, hlineage⟩

theorem readerBound_evaluates :
    readerBound.run_bindings.map (·.registration_status) = [.preregistered] := by
  decide +kernel

theorem bound_run_committed_sample : ∃ b ∈ readerBound.run_bindings, ∃ c decision lineage value loaded,
    b.strategy_id = c.forecast.strategy_id ∧ LoadedCommitted c decision lineage value loaded := by
  have hrun : Run (Step Registry.sampleLibraries id) Registry.empty
      [(Registry.empty, readerCapture), (readerCaptured, readerPrepare)] readerBound :=
    Run.snoc (Run.snoc (Run.nil _) rfl) rfl
  have hwritten : ∀ x ∈ [(Registry.empty, readerCapture), (readerCaptured, readerPrepare)],
      x.2.Written id := by
    simp only [List.forall_mem_cons]
    refine ⟨?_, ?_, by simp⟩
    · rintro c ⟨_, _, -, hprepared⟩
      exact ⟨_, _, _, _, hprepared⟩
    · intro c hstages
      exact hstages.elim
  have hprepares : ∀ x ∈ [(Registry.empty, readerCapture), (readerCaptured, readerPrepare)],
      x.2.Prepares readerLibrary id := by
    simp only [List.forall_mem_cons]
    exact ⟨trivial, ⟨readerArtifacts, rfl⟩, by simp⟩
  obtain ⟨b, hb, hstatus⟩ := List.mem_map.mp
    (readerBound_evaluates ▸ List.mem_singleton_self RegistrationStatus.preregistered)
  obtain ⟨_, _, _, _, decision, lineage, value, loaded, c, -, -, -, hseals, hcommitted⟩ :=
    bound_run_committed hrun hwritten hprepares hb hstatus
  rcases hcommitted with hcommitted | ⟨s, -, hne, hsame⟩
  · exact ⟨b, hb, c, decision, lineage, value, loaded,
      hseals.strategy_id.trans (congrArg _ hcommitted.forecast), hcommitted⟩
  · exact absurd hsame hne

end LedgerCall

end Pine
