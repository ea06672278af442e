import Pine.Ledger.Capture.Freshness
import Pine.Ledger.External.Evidence
import Pine.Ledger.Registry.Uniqueness
import Pine.Ledger.Results.Ingest
import Pine.Ledger.Run.Prepare

/-!
# Service calls

The transactions of all ledger services, each a program on the registry that is
committed when it returns and rolled back when it raises. What a call commits is
always a sequence of registry operations, so whatever these keep every call keeps.
-/

namespace Pine

open Registry (Session Operation sequence)

/-- The validation library, as the two ingestors use it. -/
structure Libraries where
  external : EvidenceLibrary
  result : ResultLibrary

/-- A call of a ledger service that runs one transaction. -/
inductive LedgerCall where
  | operations (ops : List Operation)
  | capture (request : PreregisteredCaptureRequest) (world : CaptureWorld)
  | prepare_run (call : RunCall) (world : PrepareWorld)
  | ingest_external (e : ExternalRunEvidence) (world : IngestWorld)
  | ingest_result (e : MSMRunResultEvidence) (now : DateTime)

namespace LedgerCall

variable (V : Libraries) (sha256 : Text → Text)

/-- The statements of a call. -/
def program : LedgerCall → Session Unit
  | operations ops => sequence sha256 ops
  | capture request world => Registry.captureTransaction sha256 request world
  | prepare_run call world => do
    let _ ← call.prepare sha256 world
  | ingest_external e world => do
    let _ ← Registry.ingestExternalRun V.external sha256 world e
  | ingest_result e now => do
    let _ ← Registry.ingestEvidence V.result sha256 now e

/-- The registry after a call: committed, or rolled back. -/
def commit (call : LedgerCall) (db : Registry) : Registry :=
  match (call.program V sha256).run db with
  | (.ok _, db') => db'
  | (.error _, _) => db

/-- One call after the other. -/
def Step (db : Registry) (call : LedgerCall) (db' : Registry) : Prop := db' = call.commit V sha256 db

end LedgerCall

/-! ## What a call commits -/

namespace Registry

variable {V : Libraries} {sha256 : Text → Text} {db db' : Registry}

/-- The state was reached by operations of a kind. -/
def Commits (sha256 : Text → Text) (kind : Operation → Prop) (db db' : Registry) : Prop :=
  ∃ ops, (∀ op ∈ ops, kind op) ∧ (sequence sha256 ops).run db = (.ok (), db')

theorem Commits.nothing (kind : Operation → Prop) (db : Registry) : Commits sha256 kind db db :=
  ⟨[], by simp, rfl⟩

theorem Commits.cons {kind : Operation → Prop} (op : Operation) {db1 : Registry} {u : Unit}
    (hkind : kind op) (h : (op.program sha256).run db = (.ok u, db1))
    (hrest : Commits sha256 kind db1 db') : Commits sha256 kind db db' := by
  obtain ⟨ops, hops, hrun⟩ := hrest
  refine ⟨op :: ops, ?_, Program.run_bind_ok.mpr ⟨u, db1, h, hrun⟩⟩
  rintro other hother
  rcases List.mem_cons.mp hother with rfl | hother
  · exact hkind
  · exact hops other hother

theorem Commits.one {kind : Operation → Prop} (op : Operation) {u : Unit} (hkind : kind op)
    (h : (op.program sha256).run db = (.ok u, db')) : Commits sha256 kind db db' :=
  .cons op hkind h (.nothing kind db')

/-- What every operation of the kind keeps is kept. -/
theorem Commits.keeps {kind : Operation → Prop} {P : Registry → Prop}
    (hkeeps : ∀ op, kind op → ∀ (a b : Registry) (u : Unit),
      (op.program sha256).run a = (.ok u, b) → P a → P b)
    (h : Commits sha256 kind db db') (hdb : P db) : P db' := by
  obtain ⟨ops, hops, hrun⟩ := h
  induction ops generalizing db with
  | nil =>
    cases hrun
    exact hdb
  | cons op ops ih =>
    obtain ⟨u, db1, hop, hrest⟩ := Program.run_bind_ok.mp hrun
    exact ih (hkeeps op (hops op List.mem_cons_self) db db1 u hop hdb)
      (fun op hop => hops op (List.mem_cons_of_mem _ hop)) hrest

theorem Commits.mono {kind kind' : Operation → Prop} (h : Commits sha256 kind db db')
    (hkind : ∀ op, kind op → kind' op) : Commits sha256 kind' db db' := by
  obtain ⟨ops, hops, hrun⟩ := h
  exact ⟨ops, fun op hop => hkind op (hops op hop), hrun⟩

/-- The operations of a capture that decided at a time. -/
def Operation.ofCapture (decision_at : DateTime) : Operation → Prop
  | begin_prediction prediction =>
      prediction.created_at = decision_at ∧ prediction.created_at.isAware = true
  | commit_prediction _ _ | register_capture_request _ _ _ _ => True
  | _ => False

theorem Operation.ofCapture.isNative {decision_at : DateTime} {op : Operation}
    (h : op.ofCapture decision_at) : op.isNative := by
  cases op <;> first | exact h.elim | trivial

/-- The draft of a capture was created when the capture decided. -/
theorem captureInputs_ok {request : PreregisteredCaptureRequest} {world : CaptureWorld}
    {inputs : PredictionDraft × DateTime} (h : captureInputs request world = .ok inputs) :
    inputs.1.created_at = world.decision_at := by
  obtain ⟨decided, hdecided, h⟩ := bind_eq_ok.mp h
  obtain ⟨_, -, h⟩ := bind_eq_ok.mp h
  obtain ⟨_, -, h⟩ := bind_eq_ok.mp h
  cases h
  unfold captureClock clockTime at hdecided
  split at hdecided
  · cases hdecided
    rfl
  · cases hdecided

/-- A capture commits the rows of a prediction that it prepared, or nothing when its key is bound
already. -/
theorem captureTransaction_prepares {kind : Operation → Prop} {request : PreregisteredCaptureRequest}
    {world : CaptureWorld}
    (hbegin : ∀ inputs schema_hash prediction, captureInputs request world = .ok inputs →
      prepareCommitted sha256 world.schemasAtWrite inputs.1 (some schema_hash) inputs.2 =
        .ok prediction → kind (.begin_prediction prediction))
    (hcommit : ∀ id committed_at, kind (.commit_prediction id committed_at))
    (hregister : ∀ key hash id created_at, kind (.register_capture_request key hash id created_at))
    {u : Unit} (h : (captureTransaction sha256 request world).run db = (.ok u, db')) :
    Commits sha256 kind db db' := by
  obtain ⟨request_hash, _, hhash, hlookup⟩ := Program.run_bind_ok.mp h
  obtain ⟨-, rfl⟩ := Program.run_check_ok.mp hhash
  obtain ⟨existing, _, hexisting, hrest⟩ := Program.run_bind_ok.mp hlookup
  obtain ⟨-, rfl⟩ := Program.run_query_ok.mp hexisting
  cases existing with
  | some row =>
    obtain ⟨-, rfl⟩ := Program.run_check_ok.mp hrest
    exact .nothing _ _
  | none =>
    obtain ⟨schema_hash, _, hschema, hinputs⟩ := Program.run_bind_ok.mp hrest
    obtain ⟨-, rfl⟩ := Program.run_query_ok.mp hschema
    obtain ⟨inputs, _, hchecked, hstaged⟩ := Program.run_bind_ok.mp hinputs
    obtain ⟨hdraft, rfl⟩ := Program.run_check_ok.mp hchecked
    obtain ⟨_, db1, hstage, hregistered⟩ := Program.run_bind_ok.mp hstaged
    have hlast : Commits sha256 kind db1 db' :=
      .one (.register_capture_request _ _ _ _) (hregister _ _ _ _) hregistered
    obtain ⟨row, _, hfound, hwrite⟩ := Program.run_bind_ok.mp hstage
    obtain ⟨-, rfl⟩ := Program.run_query_ok.mp hfound
    cases row with
    | some row =>
      obtain ⟨-, rfl⟩ := Program.run_check_ok.mp hwrite
      exact hlast
    | none =>
      obtain ⟨prediction, _, hprepared, hrows⟩ := Program.run_bind_ok.mp hwrite
      obtain ⟨hcommitted, rfl⟩ := Program.run_check_ok.mp hprepared
      obtain ⟨_, db2, hbegun, hmarked⟩ := Program.run_bind_ok.mp hrows
      exact .cons (.begin_prediction _) (hbegin _ _ _ hdraft hcommitted) hbegun
        (.cons (.commit_prediction _ _) (hcommit _ _) hmarked hlast)

/-- A capture commits its rows, or nothing when its key is bound already. -/
theorem captureTransaction_commits {request : PreregisteredCaptureRequest} {world : CaptureWorld}
    {u : Unit} (h : (captureTransaction sha256 request world).run db = (.ok u, db')) :
    Commits sha256 (Operation.ofCapture world.decision_at) db db' := by
  refine captureTransaction_prepares (fun inputs _ prediction hdraft hcommitted => ?_)
    (fun _ _ => trivial) (fun _ _ _ _ => trivial) h
  obtain ⟨_, _, -, -, -, rfl⟩ := prepareCommitted_ok hcommitted
  exact ⟨captureInputs_ok hdraft, inputs.1.created_at_aware⟩

/-- A bound key leads to its run only when it is bound to the request. -/
theorem idempotentRun_ok {idempotency_key request_hash : Text} {run : RunRow}
    (h : idempotentRun idempotency_key request_hash db = .ok (some run)) :
    ∃ binding, db.runByKey? idempotency_key = some (run, binding) ∧
      binding.request_hash = request_hash := by
  unfold idempotentRun at h
  split at h
  · cases h
  · rename_i found binding hfound
    split at h
    · cases h
    · rename_i hsame
      cases h
      exact ⟨binding, hfound, not_not.mp hsame⟩

/-- The run of a preregistered request belongs to its prediction. -/
theorem preregisteredRun_ok {prediction_id : Text} {found : PredictionRow × RunRow}
    (h : preregisteredRun prediction_id db = .ok found) :
    found.2 ∈ db.runs ∧ found.2.prediction_id = some prediction_id := by
  obtain ⟨prediction, -, h⟩ := bind_eq_ok.mp h
  obtain ⟨_, -, h⟩ := bind_eq_ok.mp h
  obtain ⟨run, hrun, h⟩ := bind_eq_ok.mp h
  obtain ⟨_, -, h⟩ := bind_eq_ok.mp h
  obtain ⟨_, -, h⟩ := bind_eq_ok.mp h
  cases h
  exact find?_key_some (Option.filter_eq_some_iff.mp (required_ok.mp hrun)).1

/-- Where a preparation takes its run from. -/
inductive PreparedFrom (sha256 : Text → Text) (call : RunCall) (request_hash : Text)
    (db : Registry) (run_id : Text) (db' : Registry) : Prop
  | retried (run : RunRow) (binding : RunBindingRow)
      (hfound : db.runByKey? call.idempotency_key = some (run, binding))
      (hhash : binding.request_hash = request_hash) (hid : run.run_id = run_id) (hsame : db' = db)
  | allocated (run : RunRow) (prediction_id strategy_id dataset_version json hash : Text)
      (bound_at : DateTime) (hstored : run ∈ db.runs)
      (hallocated : run.prediction_id = some prediction_id) (hid : run.run_id = run_id)
      (hbound : (bindPreregisteredRun run_id call.idempotency_key request_hash strategy_id
        dataset_version json hash bound_at).run db = (.ok (), db'))
  | created (strategy_id dataset_version json hash : Text) (bound_at : DateTime)
      (hcreated : (createExploratoryRun run_id bound_at call.idempotency_key request_hash
        strategy_id dataset_version json hash).run db = (.ok (), db'))

/-- A new preregistered preparation binds the run of its prediction to an envelope that it made of
the loaded snapshot. -/
theorem preparePreregisteredNew_ok {world : PrepareWorld} {request : PreregisteredRunRequest}
    {working_directory request_hash run_id : Text}
    (h : (preparePreregisteredNew sha256 world request working_directory request_hash).run db =
      (.ok run_id, db')) :
    ∃ found loaded envelope_hash envelope_json,
      preregisteredRun request.prediction_id db = .ok found ∧ found.2.run_id = run_id ∧
      world.load found.1 = .ok loaded ∧ world.now.isAware = true ∧
      sha256Json sha256 (runEnvelope request.toRunRequest run_id (some request.prediction_id)
        .preregistered loaded.1.strategy_id working_directory loaded.2 world.now
        (some found.1.immutable_hash)) = .ok envelope_hash ∧
      canonicalJson (runEnvelope request.toRunRequest run_id (some request.prediction_id)
        .preregistered loaded.1.strategy_id working_directory loaded.2 world.now
        (some found.1.immutable_hash)) = .ok envelope_json ∧
      (bindPreregisteredRun run_id request.idempotency_key request_hash loaded.1.strategy_id
        loaded.2.dataset_version envelope_json envelope_hash world.now).run db = (.ok (), db') := by
  obtain ⟨found, _, hfound, hload⟩ := Program.run_bind_ok.mp h
  obtain ⟨hallocated, rfl⟩ := Program.run_query_ok.mp hfound
  obtain ⟨loaded, _, hloaded, hclock⟩ := Program.run_bind_ok.mp hload
  obtain ⟨hread, rfl⟩ := Program.run_check_ok.mp hloaded
  obtain ⟨bound_at, _, hnow, henvelope⟩ := Program.run_bind_ok.mp hclock
  obtain ⟨htime, rfl⟩ := Program.run_check_ok.mp hnow
  obtain ⟨_, haware, hsame⟩ := bind_eq_ok.mp htime
  obtain rfl := Except.ok.inj hsame
  obtain ⟨envelope_hash, _, hsealed, hjson⟩ := Program.run_bind_ok.mp henvelope
  obtain ⟨hhash, rfl⟩ := Program.run_check_ok.mp hsealed
  obtain ⟨envelope_json, _, hprinted, hbind⟩ := Program.run_bind_ok.mp hjson
  obtain ⟨hcanonical, rfl⟩ := Program.run_check_ok.mp hprinted
  obtain ⟨_, _, hbound, hreturn⟩ := Program.run_bind_ok.mp hbind
  obtain ⟨rfl, rfl⟩ := Program.run_pure_ok.mp hreturn
  exact ⟨found, loaded, envelope_hash, envelope_json, hallocated, rfl, hread,
    Bool.eq_true_of_not_eq_false (refuse_ok.mp haware), hhash, hcanonical, hbound⟩

/-- A new exploratory preparation creates its run. -/
theorem prepareExploratoryNew_ok {world : PrepareWorld} {request : ExploratoryRunRequest}
    {working_directory request_hash run_id : Text}
    (h : (prepareExploratoryNew sha256 world request working_directory request_hash).run db =
      (.ok run_id, db')) :
    ∃ strategy_id dataset_version json hash bound_at,
      (createExploratoryRun run_id bound_at request.idempotency_key request_hash strategy_id
        dataset_version json hash).run db = (.ok (), db') := by
  obtain ⟨bound_at, _, hnow, hcapture⟩ := Program.run_bind_ok.mp h
  obtain ⟨-, rfl⟩ := Program.run_check_ok.mp hnow
  obtain ⟨snapshot, _, hsnapshot, henvelope⟩ := Program.run_bind_ok.mp hcapture
  obtain ⟨-, rfl⟩ := Program.run_check_ok.mp hsnapshot
  obtain ⟨envelope_hash, _, hsealed, hjson⟩ := Program.run_bind_ok.mp henvelope
  obtain ⟨-, rfl⟩ := Program.run_check_ok.mp hsealed
  obtain ⟨envelope_json, _, hprinted, hbind⟩ := Program.run_bind_ok.mp hjson
  obtain ⟨-, rfl⟩ := Program.run_check_ok.mp hprinted
  obtain ⟨_, _, hbound, hreturn⟩ := Program.run_bind_ok.mp hbind
  obtain ⟨rfl, rfl⟩ := Program.run_pure_ok.mp hreturn
  exact ⟨_, _, _, _, _, hbound⟩

/-- The part of a preparation for a key that is not bound yet. -/
def prepareNew (sha256 : Text → Text) (world : PrepareWorld) (call : RunCall)
    (working_directory request_hash : Text) : Session Text :=
  match call with
  | .preregistered request =>
    preparePreregisteredNew sha256 world request working_directory request_hash
  | .exploratory request =>
    prepareExploratoryNew sha256 world request working_directory request_hash

/-- A preparation returns the run of its key, or goes on to prepare a new one. -/
theorem prepare_retried_or_new {call : RunCall} {world : PrepareWorld} {run_id : Text}
    (h : (call.prepare sha256 world).run db = (.ok run_id, db')) :
    ∃ directory request_hash, sha256Json sha256 (call.identity directory) = .ok request_hash ∧
      ((∃ run binding, db.runByKey? call.idempotency_key = some (run, binding) ∧
          binding.request_hash = request_hash ∧ run.run_id = run_id ∧ db' = db) ∨
        (prepareNew sha256 world call directory request_hash).run db = (.ok run_id, db')) := by
  cases call with
  | preregistered request | exploratory request =>
    obtain ⟨directory, _, hdirectory, hhashed⟩ := Program.run_bind_ok.mp h
    obtain ⟨-, rfl⟩ := Program.run_check_ok.mp hdirectory
    obtain ⟨request_hash, _, hhash, hlookup⟩ := Program.run_bind_ok.mp hhashed
    obtain ⟨hdigest, rfl⟩ := Program.run_check_ok.mp hhash
    obtain ⟨existing, _, hexisting, hrest⟩ := Program.run_bind_ok.mp hlookup
    obtain ⟨hkey, rfl⟩ := Program.run_query_ok.mp hexisting
    refine ⟨directory, request_hash, hdigest, ?_⟩
    cases existing with
    | some run =>
      obtain ⟨rfl, rfl⟩ := Program.run_pure_ok.mp hrest
      obtain ⟨binding, hfound, hsame⟩ := idempotentRun_ok hkey
      exact .inl ⟨run, binding, hfound, hsame, rfl, rfl⟩
    | none => exact .inr hrest

/-- A preparation returns the run of its key, the run of its prediction, or a new one. -/
theorem prepare_ok {call : RunCall} {world : PrepareWorld} {run_id : Text}
    (h : (call.prepare sha256 world).run db = (.ok run_id, db')) :
    ∃ directory request_hash,
      sha256Json sha256 (call.identity directory) = .ok request_hash ∧
        PreparedFrom sha256 call request_hash db run_id db' := by
  obtain ⟨directory, request_hash, hdigest, ⟨run, binding, hfound, hsame, hid, rfl⟩ | hnew⟩ :=
    prepare_retried_or_new h
  · exact ⟨directory, request_hash, hdigest, .retried run binding hfound hsame hid rfl⟩
  · refine ⟨directory, request_hash, hdigest, ?_⟩
    cases call with
    | preregistered request =>
      obtain ⟨found, _, _, _, hallocated, hid, -, -, -, -, hbound⟩ :=
        preparePreregisteredNew_ok hnew
      obtain ⟨hstored, hprediction⟩ := preregisteredRun_ok hallocated
      exact .allocated found.2 _ _ _ _ _ _ hstored hprediction hid hbound
    | exploratory request =>
      obtain ⟨_, _, _, _, _, hcreated⟩ := prepareExploratoryNew_ok hnew
      exact .created _ _ _ _ _ hcreated

/-- A preparation of a run commits its binding, or nothing when its key is bound already. -/
theorem prepare_commits {call : RunCall} {world : PrepareWorld} {run_id : Text}
    (h : (call.prepare sha256 world).run db = (.ok run_id, db')) :
    Commits sha256 Operation.isNative db db' := by
  obtain ⟨_, _, -, hfrom⟩ := prepare_ok h
  cases hfrom with
  | retried run binding hfound hhash hid hsame => exact hsame ▸ .nothing _ _
  | allocated run _ _ _ _ _ _ _ _ _ hbound =>
    exact .one (.bind_preregistered_run _ _ _ _ _ _ _ _) trivial hbound
  | created _ _ _ _ _ hcreated => exact .one (.create_exploratory_run _ _ _ _ _ _ _ _) trivial hcreated

/-- Every operation. -/
def Operation.isAny : Operation → Prop := fun _ => True

theorem Commits.any {kind : Operation → Prop} (h : Commits sha256 kind db db') :
    Commits sha256 Operation.isAny db db' := by
  obtain ⟨ops, -, hrun⟩ := h
  exact ⟨ops, fun _ _ => trivial, hrun⟩

/-- What any operations keep. -/
theorem Commits.evolves {kind : Operation → Prop} (h : Commits sha256 kind db db') :
    db.Evolves db' ∧ (db.Keys → db'.Keys) ∧ (db.Unique → db'.Unique) := by
  obtain ⟨ops, -, hrun⟩ := h
  refine ⟨(sequence_lawful hrun).1, sequence_keys hrun, ?_⟩
  have hlaw := Law.of_any unique_law sha256 ops db
  rwa [hrun] at hlaw

/-- The operations of an ingestion of a result. -/
def Operation.ofResult : Operation → Prop
  | create_run_result _ _ _ _ _ => True
  | _ => False

theorem Operation.ofResult.isNative {op : Operation} (h : op.ofResult) : op.isNative := by
  cases op <;> first | exact h.elim | trivial

/-- An ingestion of a result stores one row at most. -/
theorem ingestEvidence_commits {L : ResultLibrary} {e : MSMRunResultEvidence} {now : DateTime}
    {r : MSMResultIngestResult} (h : (ingestEvidence L sha256 now e).run db = (.ok r, db')) :
    Commits sha256 Operation.ofResult db db' := by
  obtain ⟨hash, _, hhash, hlookup⟩ := Program.run_bind_ok.mp h
  obtain ⟨-, rfl⟩ := Program.run_check_ok.mp hhash
  obtain ⟨existing, _, hexisting, hread⟩ := Program.run_bind_ok.mp hlookup
  obtain ⟨-, rfl⟩ := Program.run_query_ok.mp hexisting
  obtain ⟨found, _, hfound, hrest⟩ := Program.run_bind_ok.mp hread
  obtain ⟨-, rfl⟩ := Program.run_query_ok.mp hfound
  cases existing with
  | some row =>
    obtain ⟨_, _, hsame, hresult⟩ := Program.run_bind_ok.mp hrest
    obtain ⟨-, rfl⟩ := Program.run_check_ok.mp hsame
    obtain ⟨-, rfl⟩ := Program.run_check_ok.mp hresult
    exact .nothing _ _
  | none =>
    obtain ⟨checked, _, hchecked, hprint⟩ := Program.run_bind_ok.mp hrest
    obtain ⟨-, rfl⟩ := Program.run_check_ok.mp hchecked
    obtain ⟨json, _, hjson, hcreate⟩ := Program.run_bind_ok.mp hprint
    obtain ⟨-, rfl⟩ := Program.run_check_ok.mp hjson
    obtain ⟨_, db1, hcreated, hselect⟩ := Program.run_bind_ok.mp hcreate
    obtain ⟨stored, _, hstored, hverify⟩ := Program.run_bind_ok.mp hselect
    obtain ⟨-, rfl⟩ := Program.run_query_ok.mp hstored
    obtain ⟨row, _, hrow, hresult⟩ := Program.run_bind_ok.mp hverify
    obtain ⟨-, rfl⟩ := Program.run_check_ok.mp hrow
    obtain ⟨-, rfl⟩ := Program.run_check_ok.mp hresult
    exact .one (.create_run_result _ _ _ _ _) trivial hcreated

/-- What an ingestion of an external run returns: the stored result of its source run, or the
result of the import that it made. -/
theorem ingestExternalRun_ok {L : EvidenceLibrary} {e : ExternalRunEvidence} {world : IngestWorld}
    {r : ExternalRunImportResult}
    (h : (ingestExternalRun L sha256 world e).run db = (.ok r, db')) :
    ∃ hash, sha256Json sha256 (e.modelDump L) = .ok hash ∧
      ((∃ row, db.externalRunImport? e.source_system e.source_run_id = some row ∧
          row.imported.evidence_hash = hash ∧ externalResult L sha256 row false = .ok r ∧ db' = db) ∨
        ∃ columns row, db.externalRunImport? e.source_system e.source_run_id = none ∧
          externalRun L sha256 world e hash = .ok columns ∧
          (createExternalRunImport sha256 columns).run db = (.ok (), db') ∧
          db'.externalRunImport? e.source_system e.source_run_id = some row ∧
          externalResult L sha256 row true = .ok r) := by
  obtain ⟨hash, _, hhash, hlookup⟩ := Program.run_bind_ok.mp h
  obtain ⟨hdigest, rfl⟩ := Program.run_check_ok.mp hhash
  obtain ⟨existing, _, hexisting, hrest⟩ := Program.run_bind_ok.mp hlookup
  obtain ⟨hfound, rfl⟩ := Program.run_query_ok.mp hexisting
  refine ⟨hash, hdigest, ?_⟩
  cases existing with
  | some row =>
    obtain ⟨_, _, hsame, hresult⟩ := Program.run_bind_ok.mp hrest
    obtain ⟨hequal, rfl⟩ := Program.run_check_ok.mp hsame
    obtain ⟨hreturned, rfl⟩ := Program.run_check_ok.mp hresult
    exact .inl ⟨row, Except.ok.inj hfound, not_not.mp (refuse_ok.mp hequal), hreturned, rfl⟩
  | none =>
    obtain ⟨columns, _, hcolumns, hcreate⟩ := Program.run_bind_ok.mp hrest
    obtain ⟨hbuilt, rfl⟩ := Program.run_check_ok.mp hcolumns
    obtain ⟨_, db1, hcreated, hselect⟩ := Program.run_bind_ok.mp hcreate
    obtain ⟨stored, _, hstored, hverify⟩ := Program.run_bind_ok.mp hselect
    obtain ⟨hread, rfl⟩ := Program.run_query_ok.mp hstored
    obtain ⟨row, _, hrow, hresult⟩ := Program.run_bind_ok.mp hverify
    obtain ⟨hpresent, rfl⟩ := Program.run_check_ok.mp hrow
    obtain ⟨hreturned, rfl⟩ := Program.run_check_ok.mp hresult
    exact .inr ⟨columns, row, Except.ok.inj hfound, hbuilt, hcreated,
      (Except.ok.inj hread).trans (required_ok.mp hpresent), hreturned⟩

theorem ingestExternalRun_commits {L : EvidenceLibrary} {e : ExternalRunEvidence}
    {world : IngestWorld} {r : ExternalRunImportResult}
    (h : (ingestExternalRun L sha256 world e).run db = (.ok r, db')) :
    Commits sha256 Operation.isAny db db' := by
  obtain ⟨_, -, ⟨_, -, -, -, rfl⟩ | ⟨columns, _, -, -, hcreated, -⟩⟩ := ingestExternalRun_ok h
  · exact .nothing _ _
  · exact .one (.create_external_run_import columns) trivial hcreated

end Registry

namespace LedgerCall

variable {V : Libraries} {sha256 : Text → Text} {db db' : Registry}

/-- A call that returns commits registry operations. -/
theorem program_commits {call : LedgerCall} {u : Unit}
    (h : (call.program V sha256).run db = (.ok u, db')) :
    Registry.Commits sha256 Registry.Operation.isAny db db' := by
  cases call with
  | operations ops => exact ⟨ops, fun _ _ => trivial, h⟩
  | capture request world => exact (Registry.captureTransaction_commits h).any
  | prepare_run call world =>
    obtain ⟨_, _, hprepare, hreturn⟩ := Program.run_bind_ok.mp h
    obtain ⟨-, rfl⟩ := Program.run_pure_ok.mp hreturn
    exact (Registry.prepare_commits hprepare).any
  | ingest_external e world =>
    obtain ⟨_, _, hingest, hreturn⟩ := Program.run_bind_ok.mp h
    obtain ⟨-, rfl⟩ := Program.run_pure_ok.mp hreturn
    exact Registry.ingestExternalRun_commits hingest
  | ingest_result e now =>
    obtain ⟨_, _, hingest, hreturn⟩ := Program.run_bind_ok.mp h
    obtain ⟨-, rfl⟩ := Program.run_pure_ok.mp hreturn
    exact (Registry.ingestEvidence_commits hingest).any

/-- A call commits registry operations or nothing. -/
theorem commit_commits (call : LedgerCall) (db : Registry) :
    Registry.Commits sha256 Registry.Operation.isAny db (call.commit V sha256 db) := by
  unfold commit
  split
  · rename_i u db' h
    exact program_commits h
  · exact .nothing _ _

/-- After any calls the registry has evolved, with distinct keys and unique results. -/
theorem run_evolves {trace : List (Registry × LedgerCall)}
    (h : Run (Step V sha256) db trace db') :
    db.Evolves db' ∧ (db.Keys → db'.Keys) ∧ (db.Unique → db'.Unique) := by
  induction h with
  | nil => exact ⟨Registry.Evolves.refl _, id, id⟩
  | @snoc db1 db2 trace call hrun hstep ih =>
    obtain rfl := hstep
    obtain ⟨hevolves, hkeys, hunique⟩ := (commit_commits call db1).evolves
    exact ⟨ih.1.trans hevolves, hkeys ∘ ih.2.1, hunique ∘ ih.2.2⟩

end LedgerCall

end Pine
