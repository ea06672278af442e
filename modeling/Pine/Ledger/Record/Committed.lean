import Pine.Ledger.Registry.Quarantine
import Pine.Ledger.Services

/-!
# Where committed rows come from

Every prediction of the registry was prepared by the writer and staged by one of the calls that
led to it, and its write-once columns still are those that it was staged with.
-/

namespace Pine

/-- The write-once columns of a row are those that a prediction is staged with. -/
structure PredictionRow.Records (row : PredictionRow) (c : CommittedPrediction) : Prop where
  prediction_id : row.prediction_id = c.prediction_id
  run_id : row.run_id = c.run_id
  schema_id : row.schema_id = c.schema_id
  schema_hash : row.schema_hash = c.schema_hash
  registration_status : row.registration_status = c.registration_status
  snapshot_ref : row.snapshot_ref = c.snapshot_ref
  lineage_json : canonicalJson c.lineage.toDict = .ok row.lineage_json
  immutable_hash : row.immutable_hash = c.immutable_hash
  created_at : row.created_at = c.created_at.isoformat

/-- The writer prepared the prediction. -/
def CommittedPrediction.Prepared (sha256 : Text → Text) (c : CommittedPrediction) : Prop :=
  ∃ schemas draft expected commit_time,
    prepareCommitted sha256 schemas draft expected commit_time = .ok c

/-- The prediction is staged by the call. -/
def LedgerCall.Stages (sha256 : Text → Text) : LedgerCall → CommittedPrediction → Prop
  | operations ops, c => .begin_prediction c ∈ ops
  | capture request world, c => ∃ inputs schema_hash, captureInputs request world = .ok inputs ∧
      prepareCommitted sha256 world.schemasAtWrite inputs.1 (some schema_hash) inputs.2 = .ok c
  | _, _ => False

/-- Only the writer stages predictions: it prepared what plain operations begin. -/
def LedgerCall.Written (sha256 : Text → Text) (call : LedgerCall) : Prop :=
  ∀ c, call.Stages sha256 c → c.Prepared sha256

namespace Registry

/-- What a row records, a row of the later registry under the same id records. -/
def RecordsFrom (began : Text → Prop) (db db' : Registry) : Prop :=
  ∀ p' ∈ db'.predictions, began p'.prediction_id ∨
    ∃ p ∈ db.predictions, p.prediction_id = p'.prediction_id ∧ ∀ c, p.Records c → p'.Records c

variable {began : Text → Prop} {db db' : Registry} {sha256 : Text → Text}

theorem RecordsFrom.of_same (h : db'.predictions = db.predictions) : RecordsFrom began db db' := by
  intro p' hp'
  rw [h] at hp'
  exact Or.inr ⟨p', hp', rfl, fun _ => id⟩

theorem RecordsFrom.trans {a b c : Registry} (h : RecordsFrom began a b)
    (k : RecordsFrom began b c) : RecordsFrom began a c := by
  intro p'' hp''
  rcases k p'' hp'' with hbegan | ⟨p', hp', hid', hsame'⟩
  · exact Or.inl hbegan
  · rcases h p' hp' with hbegan | ⟨p, hp, hid, hsame⟩
    · exact Or.inl (hid' ▸ hbegan)
    · exact Or.inr ⟨p, hp, hid.trans hid', fun c hc => hsame' c (hsame c hc)⟩

/-- No trigger lets an update change a write-once column. -/
theorem predictionTriggers_records {u : PredictionUpdate} {r : PredictionRow}
    (h : predictionTriggers db u r (u.apply r) = .ok ()) :
    r.prediction_id = (u.apply r).prediction_id ∧ ∀ c, r.Records c → (u.apply r).Records c := by
  have hall := enforce_ok.mp h
  simp only [List.forall_mem_cons] at hall
  obtain ⟨himmutable, -⟩ := hall
  simp only [PredictionUpdate.namesImmutable, Bool.or_eq_false_iff, Option.isSome_eq_false_iff,
    Option.isNone_iff_eq_none] at himmutable
  obtain ⟨⟨⟨⟨⟨⟨⟨⟨hid, hrun⟩, hschema⟩, hhash⟩, hstatus⟩, href⟩, hlineage⟩, himmutable⟩, hcreated⟩ :=
    himmutable
  refine ⟨by rw [PredictionUpdate.apply, hid, Option.getD_none], fun c hc => ?_⟩
  simp only [PredictionUpdate.apply, hid, hrun, hschema, hhash, hstatus, href, hlineage, himmutable,
    hcreated, Option.getD_none]
  exact ⟨hc.prediction_id, hc.run_id, hc.schema_id, hc.schema_hash, hc.registration_status,
    hc.snapshot_ref, hc.lineage_json, hc.immutable_hash, hc.created_at⟩

/-- Every statement keeps what rows record. -/
theorem recordsFrom_law (began : Text → Prop) :
    Law (fun id _ => began id) (fun _ => True) (RecordsFrom began) where
  refl _ := .of_same rfl
  trans _ _ _ := .trans
  insertRun row db db' h := by
    obtain ⟨-, rfl⟩ := enforced_ok h
    exact .of_same rfl
  insertPrediction row db db' hbegan h := by
    obtain ⟨rfl, -⟩ := insertPrediction_ok h
    intro p' hp'
    rcases List.mem_append.mp hp' with hp' | hnew
    · exact Or.inr ⟨p', hp', rfl, fun _ => id⟩
    · rw [List.mem_singleton.mp hnew]
      exact Or.inl hbegan
  insertRunBinding row db db' h := by
    obtain ⟨-, rfl⟩ := enforced_ok h
    exact .of_same rfl
  insertCaptureRequest row db db' h := by
    obtain ⟨-, rfl⟩ := enforced_ok h
    exact .of_same rfl
  insertIntegrityViolation row db db' _ h := by
    obtain ⟨-, rfl⟩ := enforced_ok h
    exact .of_same rfl
  insertExternalRunImport row db db' h := by
    obtain ⟨-, rfl⟩ := enforced_ok h
    exact .of_same rfl
  insertRunResult row db db' h := by
    obtain ⟨-, rfl⟩ := enforced_ok h
    exact .of_same rfl
  insertTouchedWindow row db := .of_same (insertTouchedWindow_same row db).1
  updateRuns selects u db n db' h := by
    obtain ⟨rfl, -⟩ := updateRuns_ok h
    exact .of_same rfl
  updatePredictions selects u db n db' h := by
    obtain ⟨rfl, -, hall⟩ := updatePredictions_ok h
    intro p' hp'
    obtain ⟨p, hp, rfl⟩ := List.mem_map.mp hp'
    refine Or.inr ⟨p, hp, ?_⟩
    split
    · rename_i hselects
      exact predictionTriggers_records (hall p hp hselects)
    · exact ⟨rfl, fun _ => id⟩

/-- Every prediction records one that meets a condition. -/
def AllRecord (P : CommittedPrediction → Prop) (db : Registry) : Prop :=
  ∀ row ∈ db.predictions, ∃ c, P c ∧ row.Records c

theorem allRecord_empty (P : CommittedPrediction → Prop) : empty.AllRecord P := by
  intro row hrow
  cases hrow

theorem AllRecord.mono {P Q : CommittedPrediction → Prop} (h : db.AllRecord P)
    (hsub : ∀ c, P c → Q c) : db.AllRecord Q := by
  intro row hrow
  obtain ⟨c, hc, hrecords⟩ := h row hrow
  exact ⟨c, hsub c hc, hrecords⟩

/-- The row that is staged records its prediction. -/
theorem beginPrediction_records {c : CommittedPrediction} {u : Unit}
    (h : (beginPrediction c).run db = (.ok u, db')) : ∃ row,
      db'.predictions = db.predictions ++ [row] ∧ row.Records c ∧ row.transaction_state = .in_progress := by
  obtain ⟨lineage_json, _, hjson, hrest⟩ := Program.run_bind_ok.mp h
  obtain ⟨hlineage, rfl⟩ := Program.run_check_ok.mp hjson
  obtain ⟨_, _, hinsert, hrun⟩ := Program.run_bind_ok.mp hrest
  obtain ⟨rfl, -⟩ := insertPrediction_ok (Program.run_update_ok.mp hinsert)
  obtain ⟨rfl, -⟩ := insertRun_ok (Program.run_update_ok.mp hrun)
  exact ⟨_, rfl, ⟨rfl, rfl, rfl, rfl, rfl, rfl, hlineage, rfl, rfl⟩, rfl⟩

/-- An operation that stages only such predictions keeps that. -/
theorem AllRecord.program {P : CommittedPrediction → Prop} (hdb : db.AllRecord P) {op : Operation}
    (hop : ∀ c, op = .begin_prediction c → P c) {u : Unit}
    (h : (op.program sha256).run db = (.ok u, db')) : db'.AllRecord P := by
  by_cases hbegins : ∃ c, op = .begin_prediction c
  · obtain ⟨c, rfl⟩ := hbegins
    obtain ⟨row, hrows, hrecords, -⟩ := beginPrediction_records h
    intro row' hrow'
    rw [hrows] at hrow'
    rcases List.mem_append.mp hrow' with hrow' | hnew
    · exact hdb row' hrow'
    · rw [List.mem_singleton.mp hnew]
      exact ⟨c, hop c rfl, hrecords⟩
  · have hnone : ∀ id status, op.drafts id status → False := by
      intro id status hdrafts
      cases op with
      | begin_prediction c => exact hbegins ⟨c, rfl⟩
      | _ => exact hdrafts
    have hfrom := (recordsFrom_law fun _ => False).program sha256 hnone (fun _ _ => trivial) db
    rw [h] at hfrom
    intro row' hrow'
    obtain ⟨row, hrow, -, hsame⟩ := (hfrom row' hrow').resolve_left id
    obtain ⟨c, hc, hrecords⟩ := hdb row hrow
    exact ⟨c, hc, hsame c hrecords⟩

end Registry

namespace LedgerCall

variable {V : Libraries} {sha256 : Text → Text} {db db' : Registry}

/-- An operation stages nothing that the call does not. -/
def Staging (sha256 : Text → Text) (call : LedgerCall) (op : Registry.Operation) : Prop :=
  ∀ c, op = .begin_prediction c → call.Stages sha256 c

/-- A call that returns commits operations that stage what it does. -/
theorem program_staging {call : LedgerCall} {u : Unit}
    (h : (call.program V sha256).run db = (.ok u, db')) :
    Registry.Commits sha256 (call.Staging sha256) db db' := by
  cases call with
  | operations ops =>
    refine ⟨ops, fun op hop c heq => ?_, h⟩
    rw [heq] at hop
    exact hop
  | capture request world =>
    refine Registry.captureTransaction_prepares (fun inputs schema_hash c hinputs hprepared => ?_)
      (fun _ _ c heq => by cases heq) (fun _ _ _ _ c heq => by cases heq) h
    intro _ heq
    obtain rfl := Registry.Operation.begin_prediction.inj heq
    exact ⟨inputs, schema_hash, hinputs, hprepared⟩
  | prepare_run call world =>
    obtain ⟨_, _, hprepare, hreturn⟩ := Program.run_bind_ok.mp h
    obtain ⟨-, rfl⟩ := Program.run_pure_ok.mp hreturn
    obtain ⟨_, _, -, hfrom⟩ := Registry.prepare_ok hprepare
    cases hfrom with
    | retried run binding hfound hhash hid hsame => exact hsame ▸ .nothing _ _
    | allocated run _ _ _ _ _ _ _ _ _ hbound =>
      exact .one (.bind_preregistered_run _ _ _ _ _ _ _ _) (fun c heq => by cases heq) hbound
    | created _ _ _ _ _ hcreated =>
      exact .one (.create_exploratory_run _ _ _ _ _ _ _ _) (fun c heq => by cases heq) hcreated
  | ingest_external e world =>
    obtain ⟨_, _, hingest, hreturn⟩ := Program.run_bind_ok.mp h
    obtain ⟨-, rfl⟩ := Program.run_pure_ok.mp hreturn
    obtain ⟨_, -, ⟨_, -, -, -, rfl⟩ | ⟨columns, _, -, -, hcreated, -⟩⟩ :=
      Registry.ingestExternalRun_ok hingest
    · exact .nothing _ _
    · exact .one (.create_external_run_import columns) (fun c heq => by cases heq) hcreated
  | ingest_result e now =>
    obtain ⟨_, _, hingest, hreturn⟩ := Program.run_bind_ok.mp h
    obtain ⟨-, rfl⟩ := Program.run_pure_ok.mp hreturn
    refine (Registry.ingestEvidence_commits hingest).mono fun op hop c heq => ?_
    rw [heq] at hop
    exact hop.elim

/-- Every prediction that calls lead to was staged by one of them, and still records it. -/
theorem run_records {trace : List (Registry × LedgerCall)}
    (h : Run (Step V sha256) Registry.empty trace db) :
    db.AllRecord fun c => ∃ x ∈ trace, x.2.Stages sha256 c := by
  induction h with
  | nil => exact Registry.allRecord_empty _
  | @snoc db1 db2 trace call _ hstep ih =>
    obtain rfl := hstep
    have hbefore := ih.mono fun c (hc : ∃ x ∈ trace, x.2.Stages sha256 c) =>
      show ∃ x ∈ trace ++ [(db1, call)], x.2.Stages sha256 c by
        obtain ⟨x, hx, hstages⟩ := hc
        exact ⟨x, List.mem_append_left _ hx, hstages⟩
    unfold commit
    split
    · rename_i u db' hprogram
      refine (program_staging hprogram).keeps (fun op hop a b u hrun ha => ?_) hbefore
      refine ha.program (fun c hc => ?_) hrun
      exact ⟨(db1, call), List.mem_append_right _ (List.mem_singleton_self _), hop c hc⟩
    · exact hbefore

end LedgerCall

end Pine
