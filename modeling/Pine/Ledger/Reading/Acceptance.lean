import Pine.Ledger.Reading.Legible
import Pine.Ledger.Results.Permanence
import Pine.Ledger.Writer.Site

/-!
# The reader and the lifecycle of runs

In every registry that the services reach the reader accepts the run of a committed
preregistered prediction, in whatever state it is, when the snapshot that it verified is
the one in the envelope. Conversely an accepted row obeys the lifecycle law unless it is a
bound run that has not ended and has an exit code or a failure note all the same.
-/

namespace Pine

open Json (Value)

/-- What the reader relies on in the validator of snapshots: a snapshot dumps its own fields, and
its canonical dump reads back as a snapshot with the same dump. -/
structure ResultLibrary.ReadsBack (L : ResultLibrary) : Prop where
  strategy_id : ∀ value snapshot, L.validateSnapshot value = some snapshot →
    snapshot.modelDump.toDict.get? (text "strategy_id") = some (.str snapshot.strategy_id)
  dataset_version : ∀ value snapshot, L.validateSnapshot value = some snapshot →
    snapshot.modelDump.toDict.get? (text "dataset_version") = some (.str snapshot.dataset_version)
  again : ∀ value snapshot, L.validateSnapshot value = some snapshot →
    ∃ read, L.validateSnapshot (Json.sortKeys snapshot.modelDump.toDict) = some read ∧
      Json.sortKeys read.modelDump.toDict = Json.sortKeys snapshot.modelDump.toDict

/-- The envelope of a binding holds a snapshot, up to the order of its keys. -/
def RunBindingRow.HasSnapshot (b : RunBindingRow) (snapshot : StrategySnapshot) : Prop :=
  ∃ envelope value, Json.loads (F := Binary64) b.envelope_json = some envelope ∧
    envelope.get? (text "snapshot") = some value ∧
    Json.sortKeys value = Json.sortKeys snapshot.modelDump.toDict

/-! ## What a sealed binding holds -/

/-- An envelope whose canonical JSON is stored is read back with its keys sorted. -/
theorem loads_stored {envelope : Document} (hkeyed : Keyed envelope) {stored : Text}
    (h : canonicalJson envelope = .ok stored) :
    Json.loads stored = some (Json.sortKeys envelope) := by
  obtain ⟨hfinite, rfl⟩ := canonicalJson_ok h
  exact Json.loads_canonicalText ((proper_iff envelope).mpr ⟨hkeyed, hfinite⟩)

/-- The envelope of a sealed binding holds the validated snapshot that was loaded for it. -/
theorem Sealed.hasSnapshot {L : ResultLibrary} {sha256 : Text → Text} {run_id prediction_id : Text}
    {b : RunBindingRow} (h : Sealed L sha256 run_id prediction_id b) :
    ∃ value snapshot, L.validateSnapshot value = some snapshot ∧ b.HasSnapshot snapshot := by
  obtain ⟨request, directory, hash, snapshot, value, bound_at, hvalid, -, -, -, -, -, -, hjson⟩ := h
  have hkeyed := keyed_runEnvelope request run_id (some prediction_id) .preregistered b.strategy_id
    directory snapshot bound_at (some hash)
  refine ⟨value, snapshot, hvalid, _, _, loads_stored hkeyed hjson, ?_,
    Json.sortKeys_sortKeys snapshot.modelDump.toDict⟩
  rw [get?_sortKeys hkeyed]
  rfl

theorem fieldEquals_of_get? {value : Document} {key : String} {s : Text}
    (h : value.get? (text key) = some (.str s)) : fieldEquals value key (.str s) = true := by
  simp only [fieldEquals, h, Option.getD_some, Json.Value.equals, beq_self_eq_true]

/-- Snapshots with one canonical dump have the same fields. -/
theorem ResultLibrary.ReadsBack.same_fields {L : ResultLibrary} (hback : L.ReadsBack)
    {value value' : Document} {s s' : StrategySnapshot} (h : L.validateSnapshot value = some s)
    (h' : L.validateSnapshot value' = some s')
    (hsame : Json.sortKeys s.modelDump.toDict = Json.sortKeys s'.modelDump.toDict) :
    s.strategy_id = s'.strategy_id ∧ s.dataset_version = s'.dataset_version := by
  have hfield (key : Text) : (s.modelDump.toDict.get? key).map Json.sortKeys =
      (s'.modelDump.toDict.get? key).map Json.sortKeys := by
    rw [← get?_sortKeys s.modelDump.keyed_toDict, ← get?_sortKeys s'.modelDump.keyed_toDict]
    exact congrArg (·.get? key) hsame
  have hstrategy := hfield (text "strategy_id")
  have hversion := hfield (text "dataset_version")
  rw [hback.strategy_id _ _ h, hback.strategy_id _ _ h'] at hstrategy
  rw [hback.dataset_version _ _ h, hback.dataset_version _ _ h'] at hversion
  exact ⟨Value.str.inj (Option.some.inj hstrategy), Value.str.inj (Option.some.inj hversion)⟩

section

variable {L : ResultLibrary} {sha256 : Text → Text} {prediction : PredictionRow} {run : RunRow}
  {binding : RunBindingRow} {value : Document} {snapshot : StrategySnapshot}

/-- The reader accepts a sealed binding whose envelope holds the verified snapshot. -/
theorem verifyBinding_sealed (hback : L.ReadsBack) {prediction_id : Text}
    (hallocated : run.prediction_id = some prediction_id)
    (hstatus : prediction.registration_status = .preregistered)
    (hsealed : Sealed L sha256 run.run_id prediction_id binding)
    (hsnapshot : L.validateSnapshot value = some snapshot) (hholds : binding.HasSnapshot snapshot) :
    ∃ projection, verifyBinding L sha256 prediction (BoundRun.readRow ⟨run, some binding⟩) snapshot =
      .ok projection := by
  obtain ⟨request, directory, hash, bound, raw, bound_at, hbound, htimely, hregistered, hstrategy,
    hversion, hat, hhash, hjson⟩ := hsealed
  generalize henvelope : runEnvelope request run.run_id (some prediction_id) .preregistered
    binding.strategy_id directory bound bound_at (some hash) = envelope at hhash hjson
  have hkeyed : Keyed envelope := henvelope ▸ keyed_runEnvelope _ _ _ _ _ _ _ _ _
  have hloaded := loads_stored hkeyed hjson
  have hget (key : Text) := get?_sortKeys hkeyed key
  have hread : readEnvelope sha256 binding.envelope_json binding.envelope_hash =
      .ok (Json.sortKeys envelope) := by
    refine bind_eq_ok.mpr ⟨_, required_ok.mpr hloaded, bind_eq_ok.mpr ⟨(), ?_, ?_⟩⟩
    · exact refuse_ok.mpr (by rw [← henvelope]; simp [runEnvelope, Json.sortKeys, Json.Value.isObject])
    · refine bind_eq_ok.mpr ⟨binding.envelope_hash, ?_, bind_eq_ok.mpr ⟨(), ?_, rfl⟩⟩
      · rw [sha256Json_congr (Json.sortKeys_sortKeys envelope), hhash]
      · exact refuse_ok.mpr (by simp)
  have hinside : (Json.sortKeys envelope).get? (text "snapshot") =
      some (Json.sortKeys bound.modelDump.toDict) := by
    rw [hget, ← henvelope]
    rfl
  have hsame : Json.sortKeys bound.modelDump.toDict = Json.sortKeys snapshot.modelDump.toDict := by
    obtain ⟨loaded, held, hfound, hheld, hequal⟩ := hholds
    obtain rfl := Option.some.inj (hloaded.symm.trans hfound)
    obtain rfl := Option.some.inj (hinside.symm.trans hheld)
    rw [← hequal, Json.sortKeys_sortKeys]
  obtain ⟨again, hagain, hdump⟩ := hback.again _ _ hbound
  obtain ⟨hstrategies, hversions⟩ := hback.same_fields hbound hsnapshot hsame
  have hfinite : isFinite bound.modelDump.toDict = true := by
    refine @isFinite_get? envelope _ (text "snapshot") (canonicalJson_ok hjson).1 ?_
    rw [← henvelope]
    rfl
  have hcompared : compareSnapshot L (Json.sortKeys envelope) snapshot = .ok () := by
    refine bind_eq_ok.mpr ⟨again, required_ok.mpr ?_, ?_⟩
    · rw [hinside, Option.getD_some, hagain]
    · refine bind_eq_ok.mpr ⟨Json.canonicalText bound.modelDump.toDict, ?_, bind_eq_ok.mpr
        ⟨Json.canonicalText bound.modelDump.toDict, ?_, refuse_ok.mpr (by simp)⟩⟩
      · rw [canonicalJson_congr hdump]
        exact if_pos hfinite
      · rw [← canonicalJson_congr hsame]
        exact if_pos hfinite
  have hprovenance : (bindingProvenance prediction (BoundRun.readRow ⟨run, some binding⟩)
      (Json.sortKeys envelope) .preregistered binding.strategy_id binding.dataset_version
      snapshot).all id = true := by
    have hfield (key : String) (s : Text) (h : envelope.get? (text key) = some (.str s)) :
        fieldEquals (Json.sortKeys envelope) key (.str s) = true :=
      fieldEquals_of_get? (by rw [hget, h]; rfl)
    have hrun := hfield "run_id" run.run_id (henvelope ▸ rfl)
    have hprediction := hfield "prediction_id" prediction_id (henvelope ▸ rfl)
    have hregistration := hfield "registration_status" RegistrationStatus.preregistered.value
      (henvelope ▸ rfl)
    have hnamed := hfield "strategy_id" snapshot.strategy_id (by
      rw [← hstrategies, ← hstrategy, ← henvelope]
      rfl)
    simp only [bindingProvenance, BoundRun.readRow, hallocated, optionalText, Option.map_some,
      Option.getD_some, hrun, hprediction, hregistration, hnamed, hstatus, hstrategy, hversion,
      hstrategies, hversions, beq_self_eq_true, Bool.and_self, List.all_cons, List.all_nil, id]
  obtain ⟨read_at, hread_at⟩ := readTime_of_reads (hat ▸ htimely.reads) "run bound_at"
  refine ⟨⟨binding.idempotency_key, binding.request_hash, .preregistered, binding.strategy_id,
    binding.dataset_version, binding.envelope_hash, read_at⟩, ?_⟩
  have hstored : RegistrationStatus.ofValue binding.registration_status.value =
      some .preregistered := by
    rw [RegistrationStatus.ofValue_value, hregistered]
  simp only [verifyBinding, BoundRun.readRow, Option.map_some, bindingColumn, required, hread,
    hcompared, hstored, Bind.bind, Except.bind]
  simp only [BoundRun.readRow, Option.map_some] at hprovenance
  simp only [hprovenance, refuse, Bool.true_eq_false, if_false, hread_at, Pure.pure, Except.pure]

/-- The lifecycle law is all that the reader checks of the state of a bound run. -/
theorem verifyBoundLifecycle_of_lawful (hlaw : run.Lawful) :
    verifyBoundLifecycle (BoundRun.readRow ⟨run, some binding⟩) run.state = .ok () := by
  unfold RunRow.Lawful at hlaw
  unfold verifyBoundLifecycle
  cases hstate : run.state with
  | registered =>
    rw [hstate] at hlaw
    exact refuse_ok.mpr (by simp [BoundRun.readRow, hlaw])
  | running =>
    rw [hstate] at hlaw
    exact refuse_ok.mpr (by simp [BoundRun.readRow, hlaw])
  | completed =>
    rw [hstate] at hlaw
    refine bind_eq_ok.mpr ⟨(), refuse_ok.mpr ?_, refuse_ok.mpr ?_⟩ <;> simp [BoundRun.readRow, hlaw]
  | failed =>
    rw [hstate] at hlaw
    obtain ⟨hstarted, hcompleted, code, hcode, houtcome⟩ := hlaw
    refine bind_eq_ok.mpr ⟨(), refuse_ok.mpr ?_, refuse_ok.mpr ?_⟩
    · simp [BoundRun.readRow, hstarted, hcompleted, hcode]
    · simpa [BoundRun.readRow, hcode, imp_iff_not_or] using houtcome

/-- The reader accepts an unbound run that is as it was allocated. -/
theorem verifyUnbound_of_lawful (hlaw : run.Lawful) (hstate : run.state = .registered) :
    verifyUnbound (BoundRun.readRow ⟨run, none⟩) run.state = .ok () := by
  unfold RunRow.Lawful at hlaw
  rw [hstate] at hlaw
  refine bind_eq_ok.mpr ⟨(), refuse_ok.mpr ?_, refuse_ok.mpr ?_⟩
  · simp [BoundRun.readRow, ReadRunRow.bindingFields]
  · simp [BoundRun.readRow, hstate, hlaw]

/-- The reader accepts the run of a prediction, bound to the verified snapshot or not bound. -/
theorem verifyRun_accepts (hback : L.ReadsBack)
    (hid : run.run_id = prediction.run_id)
    (hallocated : run.prediction_id = some prediction.prediction_id)
    (hstatus : prediction.registration_status = .preregistered) (hlaw : run.Lawful)
    (htimed : run.Timed) (hsnapshot : L.validateSnapshot value = some snapshot)
    {found : Option RunBindingRow}
    (hbound : ∀ b ∈ found, Sealed L sha256 run.run_id prediction.prediction_id b ∧
      b.HasSnapshot snapshot)
    (hunbound : found = none → run.state = .registered) :
    ∃ projection, verifyRun L sha256 prediction (some (BoundRun.readRow ⟨run, found⟩)) snapshot =
      .ok projection := by
  obtain ⟨started_at, hstarted⟩ := readTime_of_reads htimed.started_at "run started_at"
  obtain ⟨execution, hexecution⟩ := readOptionalTime_of_reads htimed.execution_started_at
    "run execution_started_at"
  obtain ⟨completed, hcompleted⟩ := readOptionalTime_of_reads htimed.completed_at
    "run completed_at"
  have hverified : ∃ binding, verifyBoundOrNot L sha256 prediction (BoundRun.readRow ⟨run, found⟩)
      run.state snapshot = .ok binding := by
    cases found with
    | none =>
      refine ⟨none, ?_⟩
      rw [verifyBoundOrNot, if_pos (by rfl)]
      exact bind_eq_ok.mpr ⟨(), verifyUnbound_of_lawful hlaw (hunbound rfl), rfl⟩
    | some binding =>
      obtain ⟨hsealed, hholds⟩ := hbound binding rfl
      obtain ⟨projection, hprojection⟩ :=
        verifyBinding_sealed hback hallocated hstatus hsealed hsnapshot hholds
      refine ⟨some projection, ?_⟩
      rw [verifyBoundOrNot, if_neg (by simp [BoundRun.readRow])]
      exact bind_eq_ok.mpr ⟨projection, hprojection, bind_eq_ok.mpr
        ⟨(), verifyBoundLifecycle_of_lawful hlaw, rfl⟩⟩
  obtain ⟨binding, hbinding⟩ := hverified
  have hrow : allocatedRow prediction (some (BoundRun.readRow ⟨run, found⟩)) =
      .ok (BoundRun.readRow ⟨run, found⟩) :=
    required_ok.mpr (Option.filter_eq_some_iff.mpr ⟨rfl, by simp [BoundRun.readRow, hid, hallocated]⟩)
  exact ⟨_, bind_eq_ok.mpr ⟨_, hrow, bind_eq_ok.mpr ⟨run.state,
    required_ok.mpr (RunState.ofValue_value run.state), bind_eq_ok.mpr ⟨started_at, hstarted,
      bind_eq_ok.mpr ⟨execution, hexecution, bind_eq_ok.mpr ⟨completed, hcompleted,
        bind_eq_ok.mpr ⟨binding, hbinding, rfl⟩⟩⟩⟩⟩⟩⟩

end

/-! ## Calls of the services -/

/-- A clock reading that converts to UTC, when it is aware. -/
def DateTime.Converts (t : DateTime) : Prop := t.isAware = true → t.astimezoneUtc ≠ none

instance (t : DateTime) : Decidable t.Converts := inferInstanceAs (Decidable (_ → _))

/-- A transaction of the capture service, of the run service or of an ingestor. The run service
reads the artifacts of its vault and records aware times; the clocks show times that convert. -/
def LedgerCall.Served (L : RecordLibrary) (sha256 : Text → Text) : LedgerCall → Prop
  | operations ops =>
    (∃ run_id started_at, ops = [.start_run run_id started_at] ∧ started_at.Converts) ∨
      ∃ run_id completed_at exit_code failure_note,
        ops = [.finish_run run_id completed_at exit_code failure_note] ∧ completed_at.Timely
  | capture _ world => world.decision_at.Converts
  | prepare_run _ world => world.now.Converts ∧
      ∃ vault, world.load = loadPreregisteredSnapshot L sha256 vault
  | ingest_external _ _ | ingest_result _ _ => True

namespace Registry

variable {L : RecordLibrary} {V : Libraries} {sha256 : Text → Text} {db db' : Registry}

theorem Legible.capture {L : ResultLibrary} (h : db.Legible L sha256) {decision_at : DateTime}
    (hconverts : decision_at.Converts)
    (hcommits : Commits sha256 (Operation.ofCapture decision_at) db db') :
    db'.Legible L sha256 := by
  refine hcommits.keeps (fun op hkind a b u hop ha => ?_) h
  cases op with
  | begin_prediction prediction =>
    obtain ⟨rfl, haware⟩ := hkind
    exact ha.beginPrediction ⟨haware, hconverts haware⟩ hop
  | commit_prediction prediction_id committed_at => exact ha.commitPrediction hop
  | register_capture_request =>
    obtain ⟨rfl, -, -⟩ := insertCaptureRequest_ok (Program.run_update_ok.mp hop)
    exact ha.of_same rfl rfl rfl
  | create_exploratory_run | bind_preregistered_run | create_external_run_import
  | create_run_result | start_run | finish_run | mark_window_touched | update_resolution
  | record_integrity_violation | quarantine_prediction | update_touched_windows
  | delete_touched_windows => exact hkind.elim

theorem Legible.result {L : ResultLibrary} (h : db.Legible L sha256)
    (hcommits : Commits sha256 Operation.ofResult db db') : db'.Legible L sha256 := by
  refine hcommits.keeps (fun op hkind a b u hop ha => ?_) h
  cases op with
  | create_run_result run_id hash json source_timestamp ingested_at => exact ha.createRunResult hop
  | begin_prediction | commit_prediction | register_capture_request | create_exploratory_run
  | bind_preregistered_run | create_external_run_import | start_run | finish_run
  | mark_window_touched | update_resolution | record_integrity_violation | quarantine_prediction
  | update_touched_windows | delete_touched_windows => exact hkind.elim

theorem Legible.prepare (h : db.Legible L.toResultLibrary sha256) (hk : db.Keys) {call : RunCall}
    {world : PrepareWorld} (hconverts : world.now.Converts) {vault : PredictionRow → Artifacts}
    (hload : world.load = loadPreregisteredSnapshot L sha256 vault) {run_id : Text}
    (hrun : (call.prepare sha256 world).run db = (.ok run_id, db')) :
    db'.Legible L.toResultLibrary sha256 := by
  obtain ⟨directory, request_hash, -, ⟨_, _, -, -, -, rfl⟩ | hnew⟩ := prepare_retried_or_new hrun
  · exact h
  cases call with
  | exploratory request =>
    obtain ⟨_, _, _, _, _, hcreated⟩ := prepareExploratoryNew_ok hnew
    obtain ⟨_, db1, hinserted, hbound⟩ := Program.run_bind_ok.mp hcreated
    exact h.freshRun hinserted hbound
  | preregistered request =>
    obtain ⟨found, loaded, envelope_hash, envelope_json, hfound, hid, hloaded, haware, hhash, hjson,
      hbind⟩ := preparePreregisteredNew_ok hnew
    obtain ⟨hstored, hallocated⟩ := preregisteredRun_ok hfound
    rw [hload] at hloaded
    obtain ⟨⟨value, hvalid⟩, hstrategy⟩ := loadPreregisteredSnapshot_ok hloaded
    obtain ⟨eligible, _, heligible, hchecked⟩ := Program.run_bind_ok.mp hbind
    obtain ⟨-, rfl⟩ := Program.run_query_ok.mp heligible
    obtain ⟨_, _, hallowed, hbound⟩ := Program.run_bind_ok.mp hchecked
    obtain ⟨-, rfl⟩ := Program.run_check_ok.mp hallowed
    refine h.bindRun hbound fun r hr hsame id hprediction => ?_
    obtain rfl : r = found.2 := by
      have hfirst := hk.run?_of_mem hr
      rw [hsame, ← hid, hk.run?_of_mem hstored] at hfirst
      exact (Option.some.inj hfirst).symm
    obtain rfl := Option.some.inj (hallocated.symm.trans hprediction)
    refine ⟨request.toRunRequest, directory, found.1.immutable_hash, loaded.2, value, world.now,
      hvalid, ⟨haware, hconverts haware⟩, rfl, hstrategy.symm, rfl, rfl, ?_, ?_⟩
    · rw [hsame]
      exact hhash
    · rw [hsame]
      exact hjson

end Registry

namespace LedgerCall

open Registry (Legible)

variable {L : RecordLibrary} {V : Libraries} {sha256 : Text → Text} {db db' : Registry}

/-- A call of a service keeps the registry legible. -/
theorem commit_legible {call : LedgerCall} (hserved : call.Served L sha256)
    (hk : db.Keys) (h : db.Legible L.toResultLibrary sha256) :
    (call.commit V sha256 db).Legible L.toResultLibrary sha256 := by
  unfold commit
  split
  · rename_i u db' hrun
    cases call with
    | operations ops =>
      rcases hserved with ⟨run_id, started_at, rfl, hconverts⟩ |
        ⟨run_id, completed_at, exit_code, failure_note, rfl, htimely⟩
      · obtain ⟨_, db1, hop, hrest⟩ := Program.run_bind_ok.mp hrun
        obtain ⟨-, rfl⟩ := Program.run_pure_ok.mp hrest
        have haware : started_at.isAware = true := by
          obtain ⟨_, _, hchecked, -⟩ := Program.run_bind_ok.mp hop
          obtain ⟨hrefused, -⟩ := Program.run_check_ok.mp hchecked
          exact Bool.eq_true_of_not_eq_false (refuse_ok.mp hrefused)
        exact h.startRun ⟨haware, hconverts haware⟩ hop
      · obtain ⟨_, db1, hop, hrest⟩ := Program.run_bind_ok.mp hrun
        obtain ⟨-, rfl⟩ := Program.run_pure_ok.mp hrest
        exact h.finishRun htimely hop
    | capture request world =>
      exact h.capture hserved (Registry.captureTransaction_commits hrun)
    | prepare_run call world =>
      obtain ⟨hconverts, vault, hload⟩ := hserved
      obtain ⟨_, _, hprepare, hreturn⟩ := Program.run_bind_ok.mp hrun
      obtain ⟨-, rfl⟩ := Program.run_pure_ok.mp hreturn
      exact h.prepare hk hconverts hload hprepare
    | ingest_external e world =>
      obtain ⟨_, _, hingest, hreturn⟩ := Program.run_bind_ok.mp hrun
      obtain ⟨-, rfl⟩ := Program.run_pure_ok.mp hreturn
      obtain ⟨_, -, ⟨_, -, -, -, rfl⟩ | ⟨_, _, -, -, hcreated, -⟩⟩ :=
        Registry.ingestExternalRun_ok hingest
      · exact h
      · exact h.createExternalRunImport hcreated
    | ingest_result e now =>
      obtain ⟨_, _, hingest, hreturn⟩ := Program.run_bind_ok.mp hrun
      obtain ⟨-, rfl⟩ := Program.run_pure_ok.mp hreturn
      exact h.result (Registry.ingestEvidence_commits hingest)
  · exact h

/-- What holds of every registry that the services reach. -/
theorem served_run {trace : List (Registry × LedgerCall)}
    (hrun : Run (Step V sha256) Registry.empty trace db)
    (hserved : ∀ x ∈ trace, x.2.Served L sha256) :
    db.Lawful ∧ (∀ r ∈ db.runs, r.Lawful) ∧ db.Legible L.toResultLibrary sha256 := by
  refine hrun.invariant_of
    (fun db => db.Lawful ∧ (∀ r ∈ db.runs, r.Lawful) ∧ db.Legible L.toResultLibrary sha256)
    (fun _ call => call.Served L sha256) ?_ hserved
    ⟨Registry.lawful_empty, by simp [Registry.empty], Registry.legible_empty⟩
  rintro db call _ hcall ⟨hlawful, hlifecycle, hlegible⟩ rfl
  have hkept := (@commit_commits V sha256 call db).keeps
    (fun op _ a b u hop (ha : a.Lawful ∧ ∀ r ∈ a.runs, r.Lawful) =>
      ⟨op.lawful hop ha.1, ((op.program_keeps sha256).extends hop).lifecycle ha.2⟩)
    ⟨hlawful, hlifecycle⟩
  exact ⟨hkept.1, hkept.2, commit_legible hcall hlawful.keys hlegible⟩

/-- In every registry that the services reach the reader accepts the run of a preregistered
prediction, in each of its states, when the snapshot that it verified is the one in the envelope;
and a row that it accepts, however it came about, obeys the lifecycle law exactly when it is not a
bound run that has not ended and has an exit code or a failure note. -/
theorem verify_run_lifecycle (hback : L.ReadsBack) :
    (∀ (trace : List (Registry × LedgerCall)) (db : Registry),
      Run (Step V sha256) Registry.empty trace db → (∀ x ∈ trace, x.2.Served L sha256) →
      ∀ p ∈ db.predictions, p.registration_status = .preregistered →
      ∀ value snapshot, L.validateSnapshot value = some snapshot →
      (∀ b, db.binding? p.run_id = some b → b.HasSnapshot snapshot) →
      ∃ projection, verifyRun L.toResultLibrary sha256 p
        ((db.getRun p.run_id).map BoundRun.readRow) snapshot = .ok projection) ∧
    ∀ (p : PredictionRow) (row : ReadRunRow) (snapshot : StrategySnapshot)
      (projection : RunProjection),
      verifyRun L.toResultLibrary sha256 p (some row) snapshot = .ok projection →
      (row.Lawful ↔ ¬ row.Leftover) := by
  refine ⟨?_, fun _ _ _ _ => verifyRun_lawful_iff⟩
  intro trace db hrun hserved p hp hstatus value snapshot hsnapshot hholds
  obtain ⟨hlawful, hlifecycle, hlegible⟩ := served_run hrun hserved
  obtain ⟨run, hmem, hid, hallocated⟩ := hlegible.allocated p hp
  have hfound : db.getRun p.run_id = some ⟨run, db.binding? p.run_id⟩ := by
    rw [Registry.getRun, ← hid, hlawful.keys.run?_of_mem hmem, Option.map_some]
  rw [hfound, Option.map_some]
  refine verifyRun_accepts hback hid hallocated hstatus (hlifecycle run hmem)
    (hlegible.timed run hmem (by simp [hallocated])) hsnapshot (fun b hb => ?_) fun hnone => ?_
  · refine ⟨?_, hholds b hb⟩
    obtain ⟨hbound, hsame⟩ := Registry.binding?_some hb
    obtain ⟨other, hother, hrun, hsealed⟩ := hlegible.bindings b hbound
    obtain rfl : other = run := by
      have hfirst := hlawful.keys.run?_of_mem hother
      rw [hrun, hsame, ← hid, hlawful.keys.run?_of_mem hmem] at hfirst
      exact (Option.some.inj hfirst).symm
    exact hsealed _ hallocated
  · -- a run that left its first state was touched, and a touch needs a binding
    by_contra hstate
    have hstarted := (hlifecycle run hmem).started_iff.mp hstate
    obtain ⟨_, _, ⟨binding, hbound, hsame, -⟩, -⟩ := hlawful.started run hmem hstarted
    have hfirst := hlawful.keys.binding?_of_mem hbound
    rw [hsame, hid, hnone] at hfirst
    cases hfirst

end LedgerCall

/-! ## A run that is captured, bound and started -/

/-- What the snapshot of the run dumps to. -/
def readerDump : JsonObject where
  fields := [(text "strategy_id", .str (text "momentum")), (text "dataset_version", .str (text "v1")),
    (text "out_of_sample_window", Registry.sampleFebruary.modelDump)]
  keyed := by decide

/-- The snapshot of the run. -/
def readerSnapshot : StrategySnapshot where
  strategy_id := text "momentum"
  git_commit := List.replicate 40 'a'
  data_as_of_version := Registry.sampleTime
  dataset_version := text "v1"
  in_sample_window := Registry.sampleJanuary
  out_of_sample_window := Registry.sampleFebruary
  metric_definition_version := text "metrics-1"
  modelDump := readerDump

/-- A library that reads this snapshot, and front matter that is written as JSON. -/
def readerLibrary : RecordLibrary where
  toResultLibrary := { Registry.sampleResultLibrary with
    validateSnapshot v := if v.equals readerDump.toDict then some readerSnapshot else none }
  safeLoad s := (Json.loads s).map YamlValue.ofDocument
  validateForecast _ := some Registry.sampleForecast

theorem readerLibrary_validates {value : Document} {snapshot : StrategySnapshot}
    (h : readerLibrary.validateSnapshot value = some snapshot) : snapshot = readerSnapshot := by
  simp only [readerLibrary] at h
  split at h
  · exact (Option.some.inj h).symm
  · cases h

theorem readerLibrary_readsBack : readerLibrary.toResultLibrary.ReadsBack := by
  refine ⟨fun value snapshot h => ?_, fun value snapshot h => ?_, fun value snapshot h => ?_⟩
  · rw [readerLibrary_validates h]
    rfl
  · rw [readerLibrary_validates h]
    rfl
  · rw [readerLibrary_validates h]
    have hsorted : (Json.sortKeys readerDump.toDict).equals readerDump.toDict = true := by
      decide +kernel
    refine ⟨readerSnapshot, ?_, rfl⟩
    simp only [readerLibrary, readerSnapshot, hsorted, if_true]

/-- What the capture reads. -/
def readerWorld : CaptureWorld := { Registry.sampleWorld with snapshot := .ok readerDump }

/-- The prediction that the capture commits. -/
def readerPrepared : Except Error CommittedPrediction := do
  let inputs ← captureInputs Registry.sampleRequest readerWorld
  prepareCommitted id Registry.sampleSchemas inputs.1 none inputs.2

/-- The bytes of an ASCII text. -/
def asciiBytes (s : Text) : Bytes := s.map fun c => c.toNat.toUInt8

/-- The artifacts that it publishes, with front matter that is written as JSON. -/
def readerArtifacts (_ : PredictionRow) : Artifacts :=
  match readerPrepared with
  | .ok prediction =>
    { is_file := true
      record := .ok (asciiBytes (recordBytes (fun d => Json.canonicalText d ++ ['\n']) prediction))
      snapshot := .ok (asciiBytes (Json.canonicalText readerDump.toDict)) }
  | .error e => ⟨false, .error e, .error e⟩

/-- The request to execute the run. -/
def readerRequest : PreregisteredRunRequest where
  idempotency_key := text "run-key"
  command := [text "msm"]
  result_evidence_path := none
  key_length := by decide
  command_nonempty := by decide
  prediction_id := text "pred_1"

/-- What the preparation reads. -/
def readerPrepareWorld : PrepareWorld where
  working_directory := .ok (text "/msm")
  now := Registry.sampleTime
  hex := text "0"
  snapshot_source := none
  load := loadPreregisteredSnapshot readerLibrary id readerArtifacts

/-- Capture the prediction. -/
def readerCapture : LedgerCall := .capture Registry.sampleRequest readerWorld

/-- Bind its run. -/
def readerPrepare : LedgerCall := .prepare_run (.preregistered readerRequest) readerPrepareWorld

/-- Start its run. -/
def readerStart : LedgerCall := .operations [.start_run (text "run_1") Registry.sampleTime]

/-- The registry after the capture. -/
def readerCaptured : Registry := readerCapture.commit Registry.sampleLibraries id Registry.empty

/-- The registry after the binding. -/
def readerBound : Registry := readerPrepare.commit Registry.sampleLibraries id readerCaptured

/-- The registry after the start. -/
def readerStarted : Registry := readerStart.commit Registry.sampleLibraries id readerBound

/-- The row that the reader finds after the binding, with an exit code. -/
def leftoverRow : Option ReadRunRow :=
  ((readerBound.getRun (text "run_1")).map BoundRun.readRow).map
    fun row => { row with exit_code := some 3 }

/-- A registered run with an exit code is accepted, though it has not even started. -/
theorem registered_run_with_exit_code_accepted : ∃ p ∈ readerBound.predictions, ∃ row projection,
    verifyRun readerLibrary.toResultLibrary id p (some row) readerSnapshot = .ok projection ∧
      projection.state = .registered ∧ projection.exit_code = some 3 ∧ ¬ row.Lawful := by
  have hchecked : (readerBound.predictions.any fun p => leftoverRow.any fun row =>
      (match verifyRun readerLibrary.toResultLibrary id p (some row) readerSnapshot with
        | .ok projection => projection.state == .registered && projection.exit_code == some 3
        | .error _ => false) &&
      row.state == RunState.registered.value && row.exit_code == some 3) = true := by
    decide +kernel
  obtain ⟨p, hp, hrow⟩ := List.any_eq_true.mp hchecked
  obtain ⟨row, -, hfacts⟩ := (Option.any_eq_true _ _).mp hrow
  simp only [Bool.and_eq_true, beq_iff_eq] at hfacts
  obtain ⟨⟨haccepted, hstate⟩, hexit⟩ := hfacts
  split at haccepted
  · rename_i projection hprojection
    simp only [Bool.and_eq_true, beq_iff_eq] at haccepted
    refine ⟨p, hp, row, projection, hprojection, haccepted.1, haccepted.2, fun hlaw => ?_⟩
    have hnone := (hlaw .registered hstate).2.2.1
    rw [ReadRunRow.lifecycle, hexit] at hnone
    cases hnone
  · cases haccepted

theorem readerStarted_evaluates :
    (∀ p ∈ readerStarted.predictions, p.registration_status = .preregistered) ∧
      readerStarted.predictions.map (·.run_id) = [text "run_1"] ∧
      readerStarted.runs.map (·.state) = [.running] := by
  decide +kernel

theorem verify_run_lifecycle_sample : ∃ p ∈ readerStarted.predictions,
    readerStarted.runs.map (·.state) = [.running] ∧
      ∃ projection, verifyRun readerLibrary.toResultLibrary id p
        ((readerStarted.getRun p.run_id).map BoundRun.readRow) readerSnapshot = .ok projection := by
  obtain ⟨hstatus, hids, hstates⟩ := readerStarted_evaluates
  have hrun : Run (LedgerCall.Step Registry.sampleLibraries id) Registry.empty
      [(Registry.empty, readerCapture), (readerCaptured, readerPrepare), (readerBound, readerStart)]
      readerStarted :=
    Run.snoc (Run.snoc (Run.snoc (Run.nil _) rfl) rfl) rfl
  have hserved : ∀ x ∈ [(Registry.empty, readerCapture), (readerCaptured, readerPrepare),
      (readerBound, readerStart)], x.2.Served readerLibrary id := by
    simp only [List.forall_mem_cons]
    refine ⟨?_, ⟨?_, readerArtifacts, rfl⟩, .inl ⟨_, _, rfl, ?_⟩, by simp⟩ <;>
      exact fun _ => by decide +kernel
  obtain ⟨p, hp⟩ := List.exists_mem_of_ne_nil readerStarted.predictions fun hnil => by
    rw [hnil] at hids
    cases hids
  obtain ⟨hlawful, -, hlegible⟩ := @LedgerCall.served_run readerLibrary Registry.sampleLibraries id
    _ _ hrun hserved
  refine ⟨p, hp, hstates, ?_⟩
  have hholds (b : RunBindingRow) (hb : readerStarted.binding? p.run_id = some b) :
      b.HasSnapshot readerSnapshot := by
    obtain ⟨hbound, hsame⟩ := Registry.binding?_some hb
    obtain ⟨r, hr, hid, hallocated⟩ := hlegible.allocated p hp
    obtain ⟨other, hother, hrun, hsealed⟩ := hlegible.bindings b hbound
    obtain rfl : other = r := by
      have hfirst := hlawful.keys.run?_of_mem hother
      rw [hrun, hsame, ← hid, hlawful.keys.run?_of_mem hr] at hfirst
      exact (Option.some.inj hfirst).symm
    obtain ⟨value, snapshot, hvalid, hheld⟩ := (hsealed _ hallocated).hasSnapshot
    obtain rfl := readerLibrary_validates hvalid
    exact hheld
  have hsnapshot : readerLibrary.validateSnapshot readerDump.toDict = some readerSnapshot := by
    have hsame : readerDump.toDict.equals readerDump.toDict = true := by decide +kernel
    simp only [readerLibrary, hsame, if_true]
  exact (@LedgerCall.verify_run_lifecycle readerLibrary Registry.sampleLibraries id
    readerLibrary_readsBack).1 _ _ hrun hserved p hp (hstatus p hp) _ _ hsnapshot
    hholds

end Pine
