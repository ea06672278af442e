import Pine.Core.Growth
import Pine.Ledger.Registry.TouchIdentity

/-!
# How the registry evolves

No operation removes a row or changes one that is write-once. `Evolves` collects
what every operation keeps, of predictions and runs as well as of the append-only
tables, and holds across any sequence of operations, failed ones included.
-/

namespace Pine

open Program (Relates)

/-- What an operation may do to a prediction row. -/
structure PredictionRow.Evolves (r r' : PredictionRow) : Prop where
  prediction_id : r'.prediction_id = r.prediction_id
  run_id : r'.run_id = r.run_id
  schema_id : r'.schema_id = r.schema_id
  schema_hash : r'.schema_hash = r.schema_hash
  registration_status : r'.registration_status = r.registration_status
  snapshot_ref : r'.snapshot_ref = r.snapshot_ref
  lineage_json : r'.lineage_json = r.lineage_json
  immutable_hash : r'.immutable_hash = r.immutable_hash
  created_at : r'.created_at = r.created_at
  committed_at : ∀ t, r.committed_at = some t → r'.committed_at = some t
  committed : r.transaction_state = .committed → r'.transaction_state = .committed
  quarantined : r.status = .quarantined → r'.status = .quarantined ∧
    r'.outcome_json = r.outcome_json ∧ r'.grade_json = r.grade_json

/-- What an operation may do to a run row. -/
structure RunRow.Evolves (r r' : RunRow) : Prop where
  run_id : r'.run_id = r.run_id
  prediction_id : r'.prediction_id = r.prediction_id
  started_at : r'.started_at = r.started_at
  execution_started_at : ∀ t, r.execution_started_at = some t → r'.execution_started_at = some t
  terminal : r.state.isTerminal = true → r' = r
  running : r.state = .running → r'.state ≠ .registered

theorem PredictionRow.Evolves.refl (r : PredictionRow) : r.Evolves r where
  prediction_id := rfl
  run_id := rfl
  schema_id := rfl
  schema_hash := rfl
  registration_status := rfl
  snapshot_ref := rfl
  lineage_json := rfl
  immutable_hash := rfl
  created_at := rfl
  committed_at _ h := h
  committed h := h
  quarantined h := ⟨h, rfl, rfl⟩

theorem PredictionRow.Evolves.trans {r s t : PredictionRow} (h : r.Evolves s) (k : s.Evolves t) :
    r.Evolves t where
  prediction_id := k.prediction_id.trans h.prediction_id
  run_id := k.run_id.trans h.run_id
  schema_id := k.schema_id.trans h.schema_id
  schema_hash := k.schema_hash.trans h.schema_hash
  registration_status := k.registration_status.trans h.registration_status
  snapshot_ref := k.snapshot_ref.trans h.snapshot_ref
  lineage_json := k.lineage_json.trans h.lineage_json
  immutable_hash := k.immutable_hash.trans h.immutable_hash
  created_at := k.created_at.trans h.created_at
  committed_at t ht := k.committed_at t (h.committed_at t ht)
  committed hr := k.committed (h.committed hr)
  quarantined hr := by
    obtain ⟨hs, ho, hg⟩ := h.quarantined hr
    obtain ⟨ht, ho', hg'⟩ := k.quarantined hs
    exact ⟨ht, ho'.trans ho, hg'.trans hg⟩

theorem RunRow.Evolves.refl (r : RunRow) : r.Evolves r where
  run_id := rfl
  prediction_id := rfl
  started_at := rfl
  execution_started_at _ h := h
  terminal _ := rfl
  running h := by simp [h]

theorem RunRow.Evolves.trans {r s t : RunRow} (h : r.Evolves s) (k : s.Evolves t) :
    r.Evolves t where
  run_id := k.run_id.trans h.run_id
  prediction_id := k.prediction_id.trans h.prediction_id
  started_at := k.started_at.trans h.started_at
  execution_started_at t ht := k.execution_started_at t (h.execution_started_at t ht)
  terminal hr := by
    obtain rfl := h.terminal hr
    exact k.terminal hr
  running hr := by
    have hs := h.running hr
    cases hstate : s.state with
    | registered => exact absurd hstate hs
    | running => exact k.running hstate
    | completed =>
      rw [k.terminal (by rw [hstate]; rfl), hstate]
      decide
    | failed =>
      rw [k.terminal (by rw [hstate]; rfl), hstate]
      decide

/-- The lifecycle law: the columns of a run agree with its state. -/
def RunRow.Lawful (r : RunRow) : Prop :=
  match r.state with
  | .registered => r.execution_started_at = none ∧ r.completed_at = none ∧ r.exit_code = none ∧
      r.failure_note = none
  | .running => r.execution_started_at ≠ none ∧ r.completed_at = none ∧ r.exit_code = none ∧
      r.failure_note = none
  | .completed => r.execution_started_at ≠ none ∧ r.completed_at ≠ none ∧ r.exit_code = some 0 ∧
      r.failure_note = none
  | .failed => r.execution_started_at ≠ none ∧ r.completed_at ≠ none ∧
      ∃ code, r.exit_code = some code ∧ (code ≠ 0 ∨ r.failure_note ≠ none)

/-- A run has left its first state exactly when its execution started. -/
theorem RunRow.Lawful.started_iff {r : RunRow} (h : r.Lawful) :
    r.state ≠ .registered ↔ r.execution_started_at ≠ none := by
  unfold RunRow.Lawful at h
  cases hs : r.state <;> simp_all

/-- A terminal run has an exit code. -/
theorem RunRow.Lawful.exit_code {r : RunRow} (h : r.Lawful) (ht : r.state.isTerminal = true) :
    ∃ code, r.exit_code = some code := by
  unfold RunRow.Lawful at h
  cases hs : r.state with
  | registered | running => simp [hs, RunState.isTerminal] at ht
  | completed =>
    rw [hs] at h
    exact ⟨0, h.2.2.1⟩
  | failed =>
    rw [hs] at h
    obtain ⟨code, hcode, -⟩ := h.2.2
    exact ⟨code, hcode⟩

/-- What any sequence of operations keeps of the registry. -/
structure Registry.Evolves (db db' : Registry) : Prop where
  predictions : Grows PredictionRow.Evolves db.predictions db'.predictions
  runs : Grows RunRow.Evolves db.runs db'.runs
  run_bindings : Grows Eq db.run_bindings db'.run_bindings
  touched_windows : Grows Eq db.touched_windows db'.touched_windows
  integrity_violations : Grows Eq db.integrity_violations db'.integrity_violations
  capture_requests : Grows Eq db.capture_requests db'.capture_requests
  external_run_imports : Grows Eq db.external_run_imports db'.external_run_imports
  run_results : Grows Eq db.run_results db'.run_results

namespace Registry

theorem Evolves.refl (db : Registry) : db.Evolves db where
  predictions := Grows.refl PredictionRow.Evolves.refl _
  runs := Grows.refl RunRow.Evolves.refl _
  run_bindings := Grows.refl (fun _ => rfl) _
  touched_windows := Grows.refl (fun _ => rfl) _
  integrity_violations := Grows.refl (fun _ => rfl) _
  capture_requests := Grows.refl (fun _ => rfl) _
  external_run_imports := Grows.refl (fun _ => rfl) _
  run_results := Grows.refl (fun _ => rfl) _

theorem Evolves.trans {a b c : Registry} (h : a.Evolves b) (k : b.Evolves c) : a.Evolves c where
  predictions := h.predictions.trans k.predictions fun _ _ _ => PredictionRow.Evolves.trans
  runs := h.runs.trans k.runs fun _ _ _ => RunRow.Evolves.trans
  run_bindings := h.run_bindings.trans_eq k.run_bindings
  touched_windows := h.touched_windows.trans_eq k.touched_windows
  integrity_violations := h.integrity_violations.trans_eq k.integrity_violations
  capture_requests := h.capture_requests.trans_eq k.capture_requests
  external_run_imports := h.external_run_imports.trans_eq k.external_run_imports
  run_results := h.run_results.trans_eq k.run_results

/-! ## Keys -/

/-- The keys of the tables are distinct. -/
structure Keys (db : Registry) : Prop where
  predictions : (db.predictions.map PredictionRow.prediction_id).Nodup
  runs : (db.runs.map RunRow.run_id).Nodup
  run_bindings : (db.run_bindings.map RunBindingRow.run_id).Nodup
  binding_keys : (db.run_bindings.map RunBindingRow.idempotency_key).Nodup
  capture_keys : (db.capture_requests.map CaptureRequestRow.idempotency_key).Nodup
  capture_predictions : (db.capture_requests.map CaptureRequestRow.prediction_id).Nodup

/-- Evolution that keeps keys distinct and windows normal, and starts no run but a claimed one. -/
structure Extends (claimed : Text → Prop) (db db' : Registry) : Prop where
  evolves : db.Evolves db'
  keys : db.Keys → db'.Keys
  windows : db.WindowsNormal → db'.WindowsNormal
  lifecycle : (∀ r ∈ db.runs, r.Lawful) → ∀ r ∈ db'.runs, r.Lawful
  started : ∀ r' ∈ db'.runs, r'.execution_started_at ≠ none →
    claimed r'.run_id ∨ ∃ r ∈ db.runs, r.run_id = r'.run_id ∧ r.execution_started_at ≠ none

variable {claimed : Text → Prop}

theorem Extends.refl (db : Registry) : db.Extends claimed db where
  evolves := Evolves.refl db
  keys := id
  windows := id
  lifecycle := id
  started r hr hs := Or.inr ⟨r, hr, rfl, hs⟩

theorem Extends.trans {a b c : Registry} (h : a.Extends claimed b) (k : b.Extends claimed c) :
    a.Extends claimed c where
  evolves := h.evolves.trans k.evolves
  keys := k.keys ∘ h.keys
  windows := k.windows ∘ h.windows
  lifecycle := k.lifecycle ∘ h.lifecycle
  started r hr hs := by
    rcases k.started r hr hs with hclaimed | ⟨r', hr', hid, hs'⟩
    · exact Or.inl hclaimed
    · rw [← hid]
      exact h.started r' hr' hs'

theorem keys_empty : empty.Keys := by
  constructor <;> simp [empty]

theorem prediction?_some {db : Registry} {id : Text} {p : PredictionRow}
    (h : db.prediction? id = some p) : p ∈ db.predictions ∧ p.prediction_id = id :=
  find?_key_some h

theorem run?_some {db : Registry} {id : Text} {run : RunRow} (h : db.run? id = some run) :
    run ∈ db.runs ∧ run.run_id = id :=
  find?_key_some h

theorem binding?_some {db : Registry} {id : Text} {binding : RunBindingRow}
    (h : db.binding? id = some binding) : binding ∈ db.run_bindings ∧ binding.run_id = id :=
  find?_key_some h

theorem Keys.prediction?_of_mem {db : Registry} (hk : db.Keys) {p : PredictionRow}
    (hp : p ∈ db.predictions) : db.prediction? p.prediction_id = some p :=
  find?_key_of_mem hk.predictions hp

theorem Keys.run?_of_mem {db : Registry} (hk : db.Keys) {run : RunRow} (hrun : run ∈ db.runs) :
    db.run? run.run_id = some run :=
  find?_key_of_mem hk.runs hrun

theorem Keys.binding?_of_mem {db : Registry} (hk : db.Keys) {binding : RunBindingRow}
    (hb : binding ∈ db.run_bindings) : db.binding? binding.run_id = some binding :=
  find?_key_of_mem hk.run_bindings hb

/-! ## Single statements -/

/-- A guarded statement that succeeded passed its constraints. -/
theorem enforced_ok {constraints : List (Bool × String)} {db db' : Registry}
    (h : (do enforce constraints; return db : Except Error Registry) = .ok db') :
    (∀ c ∈ constraints, c.1 = false) ∧ db' = db := by
  cases henf : enforce constraints with
  | error e => simp [henf, Bind.bind, Except.bind] at h
  | ok u =>
    simp only [henf, Bind.bind, Except.bind, Pure.pure, Except.pure, Except.ok.injEq] at h
    exact ⟨enforce_ok.mp henf, h.symm⟩

theorem insertRun_ok {row : RunRow} {db db' : Registry} (h : insertRun row db = .ok db') :
    db' = { db with runs := db.runs ++ [row] } ∧ row.run_id ∉ db.runs.map RunRow.run_id := by
  obtain ⟨hall, rfl⟩ := enforced_ok h
  simp only [List.forall_mem_cons] at hall
  exact ⟨rfl, find?_key_none (by simpa [run?] using hall.1)⟩

theorem insertPrediction_ok {row : PredictionRow} {db db' : Registry}
    (h : insertPrediction row db = .ok db') :
    db' = { db with predictions := db.predictions ++ [row] } ∧
      row.prediction_id ∉ db.predictions.map PredictionRow.prediction_id := by
  obtain ⟨hall, rfl⟩ := enforced_ok h
  simp only [List.forall_mem_cons] at hall
  exact ⟨rfl, find?_key_none (by simpa [prediction?] using hall.1)⟩

theorem insertRunBinding_ok {row : RunBindingRow} {db db' : Registry}
    (h : insertRunBinding row db = .ok db') :
    db' = { db with run_bindings := db.run_bindings ++ [row] } ∧
      row.run_id ∉ db.run_bindings.map RunBindingRow.run_id ∧
      row.idempotency_key ∉ db.run_bindings.map RunBindingRow.idempotency_key := by
  obtain ⟨hall, rfl⟩ := enforced_ok h
  simp only [List.forall_mem_cons] at hall
  refine ⟨rfl, find?_key_none (by simpa [binding?] using hall.1), ?_⟩
  simpa using hall.2.1

theorem insertCaptureRequest_ok {row : CaptureRequestRow} {db db' : Registry}
    (h : insertCaptureRequest row db = .ok db') :
    db' = { db with capture_requests := db.capture_requests ++ [row] } ∧
      row.idempotency_key ∉ db.capture_requests.map CaptureRequestRow.idempotency_key ∧
      row.prediction_id ∉ db.capture_requests.map CaptureRequestRow.prediction_id := by
  obtain ⟨hall, rfl⟩ := enforced_ok h
  simp only [List.forall_mem_cons] at hall
  exact ⟨rfl, by simpa using hall.1, by simpa using hall.2.1⟩

theorem insertRun_extends {row : RunRow} {db db' : Registry} (h : insertRun row db = .ok db')
    (hfresh : row.execution_started_at = none) (hlaw : row.Lawful) : db.Extends claimed db' := by
  obtain ⟨rfl, hnew⟩ := insertRun_ok h
  refine ⟨{ Evolves.refl db with runs := Grows.append RunRow.Evolves.refl _ _ },
    fun k => { k with runs := nodup_append_key k.runs hnew }, id, fun hdb r hr => ?_,
    fun r hr hs => ?_⟩
  · rcases List.mem_append.mp hr with hr | hr
    · exact hdb r hr
    · rwa [List.mem_singleton.mp hr]
  · rcases List.mem_append.mp hr with hr | hr
    · exact Or.inr ⟨r, hr, rfl, hs⟩
    · rw [List.mem_singleton.mp hr] at hs
      exact absurd hfresh hs

theorem insertPrediction_extends {row : PredictionRow} {db db' : Registry}
    (h : insertPrediction row db = .ok db') : db.Extends claimed db' := by
  obtain ⟨rfl, hnew⟩ := insertPrediction_ok h
  exact ⟨{ Evolves.refl db with predictions := Grows.append PredictionRow.Evolves.refl _ _ },
    fun k => { k with predictions := nodup_append_key k.predictions hnew }, id, id,
    (Extends.refl db).started⟩

theorem insertRunBinding_extends {row : RunBindingRow} {db db' : Registry}
    (h : insertRunBinding row db = .ok db') : db.Extends claimed db' := by
  obtain ⟨rfl, hrun, hkey⟩ := insertRunBinding_ok h
  exact ⟨{ Evolves.refl db with run_bindings := Grows.append (fun _ => rfl) _ _ },
    fun k => { k with run_bindings := nodup_append_key k.run_bindings hrun
                      binding_keys := nodup_append_key k.binding_keys hkey }, id, id,
    (Extends.refl db).started⟩

theorem insertCaptureRequest_extends {row : CaptureRequestRow} {db db' : Registry}
    (h : insertCaptureRequest row db = .ok db') : db.Extends claimed db' := by
  obtain ⟨rfl, hkey, hprediction⟩ := insertCaptureRequest_ok h
  exact ⟨{ Evolves.refl db with capture_requests := Grows.append (fun _ => rfl) _ _ },
    fun k => { k with capture_keys := nodup_append_key k.capture_keys hkey
                      capture_predictions := nodup_append_key k.capture_predictions hprediction }, id, id,
    (Extends.refl db).started⟩

theorem insertIntegrityViolation_extends {row : IntegrityViolationRow} {db db' : Registry}
    (h : insertIntegrityViolation row db = .ok db') : db.Extends claimed db' := by
  obtain ⟨-, rfl⟩ := enforced_ok h
  exact ⟨{ Evolves.refl db with integrity_violations := Grows.append (fun _ => rfl) _ _ },
    fun k => { k with }, id, id, (Extends.refl db).started⟩

theorem insertExternalRunImport_extends {row : ExternalRunImportRow} {db db' : Registry}
    (h : insertExternalRunImport row db = .ok db') : db.Extends claimed db' := by
  obtain ⟨-, rfl⟩ := enforced_ok h
  exact ⟨{ Evolves.refl db with external_run_imports := Grows.append (fun _ => rfl) _ _ },
    fun k => { k with }, id, id, (Extends.refl db).started⟩

theorem insertRunResult_extends {row : RunResultRow} {db db' : Registry}
    (h : insertRunResult row db = .ok db') : db.Extends claimed db' := by
  obtain ⟨-, rfl⟩ := enforced_ok h
  exact ⟨{ Evolves.refl db with run_results := Grows.append (fun _ => rfl) _ _ },
    fun k => { k with }, id, id, (Extends.refl db).started⟩

theorem insertTouchedWindow_extends {row : TouchedWindowRow} {family : Text} {w : DateWindow}
    (h : row.Records family w) (db : Registry) :
    db.Extends claimed (db.insertTouchedWindow row) := by
  unfold insertTouchedWindow
  split
  · exact Extends.refl db
  · refine ⟨{ Evolves.refl db with touched_windows := Grows.append (fun _ => rfl) _ _ },
      fun k => { k with }, fun hdb r hr => ?_, id, (Extends.refl db).started⟩
    rcases List.mem_append.mp hr with hr | hr
    · exact hdb r hr
    · rw [List.mem_singleton.mp hr]
      exact ⟨w, rfl, h.2⟩

/-- An update of runs that keeps identities and start times extends the registry. -/
theorem updateRuns_extends {selects : RunRow → Bool} {u : RunUpdate} {db db' : Registry} {n : Nat}
    (h : updateRuns selects u db = .ok (n, db'))
    (hevolves : ∀ r ∈ db.runs, selects r = true → lifecycleTransition r (u.apply r) ≠ some false →
      u.namesIdentity = false → r.Evolves (u.apply r) ∧ (r.Lawful → (u.apply r).Lawful) ∧
        (u.execution_started_at = none ∨ claimed r.run_id)) : db.Extends claimed db' := by
  obtain ⟨rfl, -, hall⟩ := updateRuns_ok h
  have hrow : ∀ r ∈ db.runs, r.Evolves (if selects r then u.apply r else r) := by
    intro r hr
    split
    · rename_i hs
      exact (hevolves r hr hs (hall r hr hs).2 (hall r hr hs).1).1
    · exact RunRow.Evolves.refl r
  refine ⟨{ Evolves.refl db with runs := Grows.map hrow }, fun k => { k with runs := ?_ }, id,
    fun hdb r' hr' => ?_, fun r' hr' hstarted => ?_⟩
  · rw [map_key_of_keeps fun r hr => (hrow r hr).run_id]
    exact k.runs
  · obtain ⟨r, hr, rfl⟩ := List.mem_map.mp hr'
    split
    · rename_i hs
      exact (hevolves r hr hs (hall r hr hs).2 (hall r hr hs).1).2.1 (hdb r hr)
    · exact hdb r hr
  · obtain ⟨r, hr, rfl⟩ := List.mem_map.mp hr'
    rw [(hrow r hr).run_id]
    split at hstarted
    · rename_i hs
      rcases (hevolves r hr hs (hall r hr hs).2 (hall r hr hs).1).2.2 with hnone | hclaimed
      · simp only [RunUpdate.apply, hnone, Option.getD_none] at hstarted
        exact Or.inr ⟨r, hr, rfl, hstarted⟩
      · exact Or.inl hclaimed
    · exact Or.inr ⟨r, hr, rfl, hstarted⟩

theorem claim_evolves {r : RunRow} {started_at : DateTime} (hstate : r.state = .registered)
    (h : lifecycleTransition r ((claimUpdate started_at).apply r) ≠ some false) :
    r.Evolves ((claimUpdate started_at).apply r) where
  run_id := rfl
  prediction_id := rfl
  started_at := rfl
  execution_started_at t ht := by
    rcases lifecycleTransition_cases h with ⟨-, -, hnone, -⟩ | ⟨hrunning, -⟩
    · rw [ht] at hnone
      cases hnone
    · rw [hstate] at hrunning
      cases hrunning
  terminal ht := by simp [hstate, RunState.isTerminal] at ht
  running hr := by simp [hstate] at hr

theorem claim_lawful {r : RunRow} {started_at : DateTime} (hstate : r.state = .registered)
    (h : r.Lawful) : ((claimUpdate started_at).apply r).Lawful := by
  simp only [RunRow.Lawful, hstate] at h
  simp [RunRow.Lawful, claimUpdate, RunUpdate.apply, h]

theorem finish_lawful {r : RunRow} {completed_at : DateTime} {exit_code : Int} {note : Option Text}
    (hstate : r.state = .running) (h : r.Lawful) :
    ((finishUpdate completed_at exit_code note).apply r).Lawful := by
  simp only [RunRow.Lawful, hstate] at h
  simp only [RunRow.Lawful, finishUpdate, RunUpdate.apply, Option.getD_some, Option.getD_none,
    terminalState]
  split_ifs with hterminal
  · exact ⟨h.1, by simp, by rw [hterminal.1], hterminal.2⟩
  · exact ⟨h.1, by simp, exit_code, rfl, not_and_or.mp hterminal⟩

theorem finish_evolves {r : RunRow} {completed_at : DateTime} {exit_code : Int}
    {note : Option Text} (hstate : r.state = .running) :
    r.Evolves ((finishUpdate completed_at exit_code note).apply r) where
  run_id := rfl
  prediction_id := rfl
  started_at := rfl
  execution_started_at t ht := ht
  terminal ht := by simp [hstate, RunState.isTerminal] at ht
  running _ := by
    simp only [finishUpdate, RunUpdate.apply, Option.getD_some, terminalState]
    split <;> simp

/-- An update of predictions that its triggers let through extends the registry when every
row it changes evolves. -/
theorem updatePredictions_extends {selects : PredictionRow → Bool} {u : PredictionUpdate}
    {db db' : Registry} {n : Nat} (h : updatePredictions selects u db = .ok (n, db'))
    (hevolves : ∀ r ∈ db.predictions, selects r = true →
      predictionTriggers db u r (u.apply r) = .ok () → r.Evolves (u.apply r)) :
    db.Extends claimed db' := by
  obtain ⟨rfl, -, hall⟩ := updatePredictions_ok h
  have hrow : ∀ r ∈ db.predictions, r.Evolves (if selects r then u.apply r else r) := by
    intro r hr
    split
    · rename_i hs
      exact hevolves r hr hs (hall r hr hs)
    · exact PredictionRow.Evolves.refl r
  refine ⟨{ Evolves.refl db with predictions := Grows.map hrow },
    fun k => { k with predictions := ?_ }, id, id, (Extends.refl db).started⟩
  rw [map_key_of_keeps fun r hr => (hrow r hr).prediction_id]
  exact k.predictions

theorem commit_evolves {db : Registry} {r : PredictionRow} {committed_at : DateTime}
    (h : predictionTriggers db (commitUpdate committed_at) r ((commitUpdate committed_at).apply r) =
      .ok ()) : r.Evolves ((commitUpdate committed_at).apply r) where
  prediction_id := rfl
  run_id := rfl
  schema_id := rfl
  schema_hash := rfl
  registration_status := rfl
  snapshot_ref := rfl
  lineage_json := rfl
  immutable_hash := rfl
  created_at := rfl
  committed_at t ht := by
    have hall := enforce_ok.mp h
    simp [ht, commitUpdate] at hall
  committed _ := rfl
  quarantined hq := ⟨hq, rfl, rfl⟩

/-- A quarantined row takes no resolution but one that quarantines it again. -/
theorem resolution_evolves {db : Registry} {r : PredictionRow} {status : PredictionStatus}
    {outcome grade metadata : Option Text} (hstatus : status ≠ .quarantined)
    (h : predictionTriggers db (resolutionUpdate status outcome grade metadata) r
      ((resolutionUpdate status outcome grade metadata).apply r) = .ok ()) :
    r.Evolves ((resolutionUpdate status outcome grade metadata).apply r) where
  prediction_id := rfl
  run_id := rfl
  schema_id := rfl
  schema_hash := rfl
  registration_status := rfl
  snapshot_ref := rfl
  lineage_json := rfl
  immutable_hash := rfl
  created_at := rfl
  committed_at _ ht := ht
  committed ht := ht
  quarantined hq := by
    have hall := enforce_ok.mp h
    have hterminal := hall (_, "quarantined prediction status is terminal")
      (List.mem_cons_of_mem _ (List.mem_cons_of_mem _ (List.mem_cons_of_mem _
        (List.mem_singleton.mpr rfl))))
    simp [hq, PredictionUpdate.apply, resolutionUpdate, hstatus] at hterminal

theorem quarantine_evolves (r : PredictionRow) : r.Evolves (quarantineUpdate.apply r) where
  prediction_id := rfl
  run_id := rfl
  schema_id := rfl
  schema_hash := rfl
  registration_status := rfl
  snapshot_ref := rfl
  lineage_json := rfl
  immutable_hash := rfl
  created_at := rfl
  committed_at _ ht := ht
  committed ht := ht
  quarantined _ := ⟨rfl, rfl, rfl⟩

/-- An update that returned its row count. -/
theorem executeUpdate_ok {f : Registry → Except Error (Nat × Registry)} {db db' : Registry} {n : Nat}
    (h : (executeUpdate f).run db = (.ok n, db')) : f db = .ok (n, db') := by
  simp only [executeUpdate, Program.run_statement] at h
  split at h
  · rename_i hrows
    cases h
    exact hrows
  · cases h

theorem executeFinish_ok {run_id : Text} {completed_at : DateTime} {exit_code : Int}
    {note : Option Text} {db db' : Registry} {n : Nat}
    (h : (executeFinish run_id completed_at exit_code note).run db = (.ok n, db')) :
    updateRuns (fun r => r.run_id == run_id && r.state == .running)
      (finishUpdate completed_at exit_code note) db = .ok (n, db') := by
  obtain ⟨_, db1, hbound, hupdate⟩ := Program.run_bind_ok.mp h
  unfold bindInteger at hbound
  split at hbound
  · obtain ⟨-, rfl⟩ := Program.run_pure_ok.mp hbound
    exact executeUpdate_ok hupdate
  · cases hbound

/-! ## Operations -/

/-- Whatever happens to the program, the registry it leaves extends the one it found. -/
def Keeps {α : Type} (claimed : Text → Prop) (p : Session α) : Prop := Relates (Extends claimed) p

variable {α β : Type}

/-- A run of such a program extends the registry. -/
theorem Keeps.extends {p : Session α} (hp : Keeps claimed p) {db db' : Registry}
    {r : Except Error α} (h : p.run db = (r, db')) : db.Extends claimed db' := by
  have hs := hp db
  rwa [h] at hs

theorem keeps_done (r : Except Error α) : Keeps claimed (Program.done r) := Relates.done Extends.refl r

theorem keeps_bind {p : Session α} {f : α → Session β} (hp : Keeps claimed p) (hf : ∀ a, Keeps claimed (f a)) :
    Keeps claimed (p >>= f) :=
  Relates.bind hp (fun _ a _ _ => hf a) fun _ _ _ => Extends.trans

/-- After a check, the rest may rely on what it let through. -/
theorem keeps_check {r : Except Error α} {f : α → Session β}
    (hf : ∀ a, r = .ok a → Keeps claimed (f a)) : Keeps claimed (Program.check r >>= f) :=
  Relates.bind (Relates.done Extends.refl r)
    (fun _ a _ h => hf a (Program.run_check_ok.mp h).1) fun _ _ _ => Extends.trans

theorem keeps_select (read : Registry → α) : Keeps claimed (select read) :=
  Relates.query Extends.refl _

theorem keeps_execute {f : Registry → Except Error Registry}
    (h : ∀ db db', f db = .ok db' → db.Extends claimed db') : Keeps claimed (execute f) :=
  Relates.update Extends.refl h

theorem keeps_executeUpdate {f : Registry → Except Error (Nat × Registry)}
    (h : ∀ db n db', f db = .ok (n, db') → db.Extends claimed db') : Keeps claimed (executeUpdate f) :=
  Relates.statement Extends.refl h

theorem beginPrediction_keeps (prediction : CommittedPrediction) :
    Keeps claimed (beginPrediction prediction) := by
  refine keeps_bind (keeps_done _) fun lineage_json => ?_
  refine keeps_bind (keeps_execute fun _ _ => insertPrediction_extends) fun _ => ?_
  exact keeps_execute fun _ _ h => insertRun_extends h rfl ⟨rfl, rfl, rfl, rfl⟩

theorem commitPrediction_keeps (prediction_id : Text) (committed_at : DateTime) :
    Keeps claimed (commitPrediction prediction_id committed_at) := by
  refine keeps_bind (keeps_executeUpdate fun db n db' h => ?_) fun _ => keeps_done _
  exact updatePredictions_extends h fun r _ _ htrig => commit_evolves htrig

theorem insertBindingOfRegistered_extends {run_id : Text} {b : Binding} {db db' : Registry}
    {n : Nat} (h : insertBindingOfRegistered run_id b db = .ok (n, db')) : db.Extends claimed db' := by
  unfold insertBindingOfRegistered at h
  split at h
  · split at h
    · obtain ⟨db'', hinsert, heq⟩ := bind_eq_ok.mp h
      cases heq
      exact insertRunBinding_extends hinsert
    · cases h
      exact Extends.refl db
  · cases h
    exact Extends.refl db

theorem bindRun_keeps (run_id : Text) (b : Binding) : Keeps claimed (bindRun run_id b) :=
  keeps_bind (keeps_executeUpdate fun _ _ _ => insertBindingOfRegistered_extends)
    fun _ => keeps_done _

theorem touchIdentityForRun_keeps (sha256 : Text → Text) (run_id : Text) :
    Keeps claimed (touchIdentityForRun sha256 run_id) := by
  refine keeps_bind (keeps_select _) fun row => ?_
  cases row with
  | none => exact keeps_done _
  | some row => exact keeps_done _

theorem insertTouched_keeps {family start stop : Text} {w : DateWindow}
    (hstart : start = w.start.isoformat) (hstop : stop = w.stop.isoformat) (touched_at : DateTime) :
    Keeps claimed (insertTouched family start stop touched_at) := by
  refine keeps_execute fun db db' h => ?_
  cases h
  exact insertTouchedWindow_extends ⟨rfl, hstart, hstop⟩ _

/-- An update that claims registered runs keeps the registry. -/
theorem claim_extends {selects : RunRow → Bool} {started_at : DateTime} {db db' : Registry}
    {n : Nat} (h : updateRuns selects (claimUpdate started_at) db = .ok (n, db'))
    (hsel : ∀ r, selects r = true → r.state = .registered ∧ claimed r.run_id) :
    db.Extends claimed db' :=
  updateRuns_extends h fun r _ hs htrans _ =>
    ⟨claim_evolves (hsel r hs).1 htrans, claim_lawful (hsel r hs).1, Or.inr (hsel r hs).2⟩

theorem executeFinish_keeps (run_id : Text) (completed_at : DateTime) (exit_code : Int)
    (note : Option Text) : Keeps claimed (executeFinish run_id completed_at exit_code note) := by
  refine keeps_bind ?_ fun _ => keeps_executeUpdate fun db n db' h => ?_
  · unfold bindInteger
    split <;> exact keeps_done _
  · refine updateRuns_extends h fun r _ hs _ _ => ?_
    simp only [Bool.and_eq_true, beq_iff_eq] at hs
    exact ⟨finish_evolves hs.2, finish_lawful hs.2, Or.inl rfl⟩

/-- Deriving an identity reads only, and what it returns is what the row of the run derives. -/
theorem touchIdentityForRun_ok {sha256 : Text → Text} {run_id : Text} {db db' : Registry}
    {touch : Text × Text × Text}
    (h : (touchIdentityForRun sha256 run_id).run db = (.ok touch, db')) :
    db' = db ∧ ∃ row, registeredBinding? run_id db = some row ∧
      touchIdentity sha256 row.1 row.2 = .ok touch := by
  obtain ⟨row, db1, hrow, hrest⟩ := Program.run_bind_ok.mp h
  obtain ⟨hrow, rfl⟩ := Program.run_query_ok.mp hrow
  cases row with
  | none => cases hrest
  | some row =>
    obtain ⟨hcheck, rfl⟩ := Program.run_check_ok.mp hrest
    exact ⟨rfl, row, Except.ok.inj hrow, hcheck⟩

/-- A program that derives an identity first may rely on its window being one of dates. -/
theorem keeps_touchIdentity {sha256 : Text → Text} {run_id : Text}
    {f : Text × Text × Text → Session β}
    (hf : ∀ touch (w : DateWindow), touch.2.1 = w.start.isoformat → touch.2.2 = w.stop.isoformat →
      Keeps claimed (f touch)) : Keeps claimed (touchIdentityForRun sha256 run_id >>= f) := by
  refine Relates.bind (touchIdentityForRun_keeps sha256 run_id) ?_ fun _ _ _ => Extends.trans
  intro db touch db' h
  obtain ⟨-, row, -, hidentity⟩ := touchIdentityForRun_ok h
  obtain ⟨w, -, -, -, -, hstart, hstop⟩ := touchIdentity_ok hidentity
  exact hf touch w hstart hstop

theorem startRun_keeps (sha256 : Text → Text) (run_id : Text) (started_at : DateTime) :
    Keeps (· = run_id) (startRun sha256 run_id started_at) := by
  refine keeps_bind (keeps_done _) fun _ => keeps_touchIdentity fun touch w hstart hstop => ?_
  refine keeps_bind (keeps_executeUpdate fun db n db' h => claim_extends h fun r hs => ?_)
    fun _ => keeps_bind (keeps_done _) fun _ => insertTouched_keeps hstart hstop _
  simp only [Bool.and_eq_true, beq_iff_eq] at hs
  exact ⟨hs.1.2, hs.1.1⟩

theorem createExternalRunImport_keeps (sha256 : Text → Text) (e : ExternalRun) :
    Keeps (· = e.run_id) (createExternalRunImport sha256 e) := by
  refine keeps_bind (keeps_execute fun _ _ h => insertRun_extends h rfl ⟨rfl, rfl, rfl, rfl⟩) fun _ => ?_
  refine keeps_bind (bindRun_keeps _ _) fun _ => keeps_touchIdentity fun touch w hstart hstop => ?_
  refine keeps_bind (keeps_executeUpdate fun db n db' h => claim_extends h fun r hs => ?_)
    fun _ => ?_
  · simp only [Bool.and_eq_true, beq_iff_eq] at hs
    exact ⟨hs.2, hs.1⟩
  refine keeps_bind (insertTouched_keeps hstart hstop _) fun _ => ?_
  refine keeps_bind (executeFinish_keeps _ _ _ _) fun _ => ?_
  exact keeps_execute fun _ _ => insertExternalRunImport_extends

theorem markWindowTouched_keeps (family_id : Text) (window_start window_end : WindowBound)
    (touched_at : DateTime) :
    Keeps claimed (markWindowTouched family_id window_start window_end touched_at) := by
  refine keeps_bind (keeps_done _) fun family => keeps_check fun window hwindow => ?_
  obtain ⟨w, -, -, hstart, hstop⟩ := normalizeWindow_ok.mp hwindow
  exact keeps_bind (keeps_done _) fun _ => insertTouched_keeps hstart hstop _

theorem createRunResult_keeps (run_id evidence_hash evidence_json : Text)
    (source_timestamp ingested_at : DateTime) :
    Keeps claimed (createRunResult run_id evidence_hash evidence_json source_timestamp ingested_at) := by
  refine keeps_bind (keeps_executeUpdate fun db n db' h => ?_) fun _ => keeps_done _
  split at h
  · obtain ⟨db'', hinsert, heq⟩ := map_eq_ok.mp h
    cases heq
    exact insertRunResult_extends hinsert
  · cases h
    exact Extends.refl db

theorem updateResolution_keeps (prediction_id : Text) (status : PredictionStatus)
    (outcome grade metadata : Option JsonObject) :
    Keeps claimed (updateResolution prediction_id status outcome grade metadata) := by
  intro db
  by_cases hstatus : status = .quarantined
  · have hrefused : ∀ e : Error, refuse (status = .quarantined) e = .error e := fun e => if_pos hstatus
    simp only [updateResolution, Program.run_bind, hrefused, Program.run_check]
    exact Extends.refl db
  · refine (show Keeps claimed (updateResolution prediction_id status outcome grade metadata) from
      keeps_bind (keeps_done _) fun _ => keeps_bind (keeps_done _) fun _ =>
        keeps_bind (keeps_done _) fun _ => keeps_bind (keeps_done _) fun _ =>
          keeps_bind (keeps_executeUpdate fun db n db' h => ?_) fun _ => keeps_done _) db
    exact updatePredictions_extends h fun r _ _ htrig => resolution_evolves hstatus htrig

theorem insertNewViolations_keeps (prediction_id : Text) (detected_at : DateTime)
    (violations : List (Text × Text)) :
    Keeps claimed (insertNewViolations prediction_id detected_at violations) := by
  induction violations with
  | nil => exact keeps_done _
  | cons v rest ih =>
    refine keeps_bind (keeps_executeUpdate fun db n db' h => ?_) fun _ =>
      keeps_bind ih fun _ => keeps_done _
    unfold insertNewViolation at h
    split at h
    · cases h
      exact Extends.refl db
    · obtain ⟨db'', hinsert, heq⟩ := map_eq_ok.mp h
      cases heq
      exact insertIntegrityViolation_extends hinsert

theorem quarantinePrediction_keeps (prediction_id : Text) (violations : List (Text × Text))
    (detected_at : DateTime) : Keeps claimed (quarantinePrediction prediction_id violations detected_at) := by
  refine keeps_bind (keeps_done _) fun _ => keeps_bind (keeps_done _) fun _ =>
    keeps_bind (keeps_done _) fun _ => keeps_bind (keeps_select _) fun row => ?_
  cases row with
  | none => exact keeps_done _
  | some row =>
    refine keeps_bind (insertNewViolations_keeps _ _ _) fun changed => ?_
    split
    · refine keeps_bind (keeps_executeUpdate fun db n db' h => ?_) fun _ => keeps_done _
      exact updatePredictions_extends h fun r _ _ _ => quarantine_evolves r
    · exact keeps_done _

/-- The run that an operation may start. -/
def Operation.claims : Operation → Text → Prop
  | start_run run_id _ => (· = run_id)
  | create_external_run_import e => (· = e.run_id)
  | _ => fun _ => False

/-- Every operation, returned or raised, leaves an extension of the registry it found. -/
theorem Operation.program_keeps (sha256 : Text → Text) (op : Operation) :
    Keeps op.claims (op.program sha256) := by
  cases op with
  | begin_prediction prediction => exact beginPrediction_keeps _
  | commit_prediction id committed_at => exact commitPrediction_keeps _ _
  | register_capture_request key hash id created_at =>
    exact keeps_execute fun _ _ => insertCaptureRequest_extends
  | create_exploratory_run =>
    exact keeps_bind (keeps_execute fun _ _ h => insertRun_extends h rfl ⟨rfl, rfl, rfl, rfl⟩) fun _ => bindRun_keeps _ _
  | bind_preregistered_run =>
    exact keeps_bind (keeps_select _) fun _ => keeps_bind (keeps_done _) fun _ => bindRun_keeps _ _
  | create_external_run_import e => exact createExternalRunImport_keeps sha256 e
  | create_run_result => exact createRunResult_keeps _ _ _ _ _
  | start_run run_id started_at => exact startRun_keeps sha256 _ _
  | finish_run => exact keeps_bind (executeFinish_keeps _ _ _ _) fun _ => keeps_done _
  | mark_window_touched => exact markWindowTouched_keeps _ _ _ _
  | update_resolution => exact updateResolution_keeps _ _ _ _ _
  | record_integrity_violation =>
    exact keeps_execute fun _ _ => insertIntegrityViolation_extends
  | quarantine_prediction =>
    exact keeps_bind (quarantinePrediction_keeps _ _ _) fun _ => keeps_done _
  | update_touched_windows =>
    refine keeps_execute fun db db' h => ?_
    rw [updateTouchedWindows_ok h]
    exact Extends.refl db
  | delete_touched_windows =>
    refine keeps_execute fun db db' h => ?_
    rw [deleteTouchedWindows_ok h]
    exact Extends.refl db

end Registry

end Pine
