import Pine.Core.ThreeValued
import Pine.Ledger.Registry.Tables

/-!
# Updates and their triggers

An UPDATE statement names the columns it sets. Its triggers see each matching row
before and after, and one that raises aborts the whole statement.
-/

namespace Pine

/-- The columns of `runs` that an UPDATE sets, with their new values. -/
structure RunUpdate where
  run_id : Option Text := none
  prediction_id : Option (Option Text) := none
  started_at : Option Text := none
  state : Option RunState := none
  execution_started_at : Option (Option Text) := none
  completed_at : Option (Option Text) := none
  exit_code : Option (Option Int) := none
  failure_note : Option (Option Text) := none

def RunUpdate.apply (u : RunUpdate) (r : RunRow) : RunRow where
  run_id := u.run_id.getD r.run_id
  prediction_id := u.prediction_id.getD r.prediction_id
  started_at := u.started_at.getD r.started_at
  state := u.state.getD r.state
  execution_started_at := u.execution_started_at.getD r.execution_started_at
  completed_at := u.completed_at.getD r.completed_at
  exit_code := u.exit_code.getD r.exit_code
  failure_note := u.failure_note.getD r.failure_note

/-- The trigger `runs_identity_write_once_update` watches these columns. -/
def RunUpdate.namesIdentity (u : RunUpdate) : Bool :=
  u.run_id.isSome || u.prediction_id.isSome || u.started_at.isSome

/-- The columns of `predictions` that an UPDATE sets, with their new values. -/
structure PredictionUpdate where
  prediction_id : Option Text := none
  run_id : Option Text := none
  schema_id : Option Text := none
  schema_hash : Option Text := none
  registration_status : Option RegistrationStatus := none
  snapshot_ref : Option Text := none
  lineage_json : Option Text := none
  status : Option PredictionStatus := none
  outcome_json : Option (Option Text) := none
  grade_json : Option (Option Text) := none
  resolution_metadata_json : Option (Option Text) := none
  transaction_state : Option TransactionState := none
  immutable_hash : Option Text := none
  created_at : Option Text := none
  committed_at : Option (Option Text) := none

def PredictionUpdate.apply (u : PredictionUpdate) (r : PredictionRow) : PredictionRow where
  prediction_id := u.prediction_id.getD r.prediction_id
  run_id := u.run_id.getD r.run_id
  schema_id := u.schema_id.getD r.schema_id
  schema_hash := u.schema_hash.getD r.schema_hash
  registration_status := u.registration_status.getD r.registration_status
  snapshot_ref := u.snapshot_ref.getD r.snapshot_ref
  lineage_json := u.lineage_json.getD r.lineage_json
  status := u.status.getD r.status
  outcome_json := u.outcome_json.getD r.outcome_json
  grade_json := u.grade_json.getD r.grade_json
  resolution_metadata_json := u.resolution_metadata_json.getD r.resolution_metadata_json
  transaction_state := u.transaction_state.getD r.transaction_state
  immutable_hash := u.immutable_hash.getD r.immutable_hash
  created_at := u.created_at.getD r.created_at
  committed_at := u.committed_at.getD r.committed_at

/-- The trigger `predictions_write_once` watches these columns. -/
def PredictionUpdate.namesImmutable (u : PredictionUpdate) : Bool :=
  u.prediction_id.isSome || u.run_id.isSome || u.schema_id.isSome || u.schema_hash.isSome ||
    u.registration_status.isSome || u.snapshot_ref.isSome || u.lineage_json.isSome ||
    u.immutable_hash.isSome || u.created_at.isSome

namespace Registry

/-- Apply an update to the rows a condition selects, once no trigger raises on any of them. -/
def updateRows {α : Type} (selects : α → Bool) (apply : α → α)
    (trigger : α → α → Except Error Unit) : List α → Except Error (List α)
  | [] => .ok []
  | r :: rows =>
    if selects r then do
      trigger r (apply r)
      let rest ← updateRows selects apply trigger rows
      return apply r :: rest
    else do
      let rest ← updateRows selects apply trigger rows
      return r :: rest

/-- What a successful update did to every row. -/
theorem updateRows_ok {α : Type} {selects : α → Bool} {apply : α → α}
    {trigger : α → α → Except Error Unit} {rows rows' : List α}
    (h : updateRows selects apply trigger rows = .ok rows') :
    rows' = rows.map (fun r => if selects r then apply r else r) ∧
      ∀ r ∈ rows, selects r = true → trigger r (apply r) = .ok () := by
  induction rows generalizing rows' with
  | nil =>
    cases h
    simp
  | cons r rows ih =>
    simp only [updateRows] at h
    split at h
    · rename_i hsel
      cases htrig : trigger r (apply r) with
      | error e => simp [htrig, Bind.bind, Except.bind] at h
      | ok u =>
        cases hrest : updateRows selects apply trigger rows with
        | error e => simp [htrig, hrest, Bind.bind, Except.bind] at h
        | ok rest =>
          simp only [htrig, hrest, Bind.bind, Except.bind, Pure.pure, Except.pure,
            Except.ok.injEq] at h
          obtain ⟨hmap, hall⟩ := ih hrest
          subst h
          refine ⟨by simp [hsel, hmap], ?_⟩
          intro x hx hs
          rcases List.mem_cons.mp hx with rfl | hx
          · exact htrig
          · exact hall x hx hs
    · rename_i hsel
      cases hrest : updateRows selects apply trigger rows with
      | error e => simp [hrest, Bind.bind, Except.bind] at h
      | ok rest =>
        simp only [hrest, Bind.bind, Except.bind, Pure.pure, Except.pure, Except.ok.injEq] at h
        obtain ⟨hmap, hall⟩ := ih hrest
        subst h
        refine ⟨by simp [hsel, hmap], ?_⟩
        intro x hx hs
        rcases List.mem_cons.mp hx with rfl | hx
        · exact absurd hs hsel
        · exact hall x hx hs

/-- The condition that `runs_lifecycle_transitions` negates. -/
def lifecycleTransition (old new : RunRow) : Truth :=
  .or
    (.all [.known (old.state == .registered), .known (new.state == .running),
      .known old.execution_started_at.isNone, .known new.execution_started_at.isSome,
      .known new.completed_at.isNone, .known new.exit_code.isNone, .known new.failure_note.isNone])
    (.all [.known (old.state == .running), .known new.state.isTerminal,
      .equal new.execution_started_at old.execution_started_at,
      .known new.completed_at.isSome, .known new.exit_code.isSome,
      .or
        (.all [.known (new.state == .completed), .equal new.exit_code (some 0),
          .known new.failure_note.isNone])
        (.all [.known (new.state == .failed),
          .or (Truth.not (.equal new.exit_code (some 0))) (.known new.failure_note.isSome)])])

/-- What an update must look like for the lifecycle trigger to let it through. -/
theorem lifecycleTransition_cases {old new : RunRow} (h : lifecycleTransition old new ≠ some false) :
    (old.state = .registered ∧ new.state = .running ∧ old.execution_started_at = none ∧
      new.execution_started_at ≠ none ∧ new.completed_at = none ∧ new.exit_code = none ∧
      new.failure_note = none) ∨
    (old.state = .running ∧ new.state.isTerminal = true ∧
      Truth.equal new.execution_started_at old.execution_started_at ≠ some false ∧
      new.completed_at ≠ none ∧ new.exit_code ≠ none) := by
  unfold lifecycleTransition at h
  rw [Ne, Truth.or_eq_false, not_and_or, Truth.all_eq_false, Truth.all_eq_false] at h
  simp only [List.mem_cons, List.not_mem_nil, or_false, not_or, eq_comm (a := some false),
    Truth.known_eq_false, Bool.not_eq_false, beq_iff_eq, Option.isNone_iff_eq_none,
    Option.isSome_iff_ne_none] at h
  rcases h with h | ⟨hold, hnew, hequal, hcompleted, hexit, -⟩
  · exact Or.inl h
  · exact Or.inr ⟨hold, hnew, hequal, hcompleted, hexit⟩

/-- The triggers of `runs` that fire before an update of a row. -/
def runTriggers (u : RunUpdate) (old new : RunRow) : Except Error Unit :=
  enforce [
    (u.namesIdentity, "run identity is write-once"),
    ((lifecycleTransition old new).not.holds, "invalid run lifecycle transition")]

/-- `UPDATE runs SET ... WHERE ...`, with the number of rows it changed. -/
def updateRuns (selects : RunRow → Bool) (u : RunUpdate) (db : Registry) :
    Except Error (Nat × Registry) := do
  let runs ← updateRows selects u.apply (runTriggers u) db.runs
  return ((db.runs.filter selects).length, { db with runs })

/-- The triggers of `predictions` that fire before an update of a row. -/
def predictionTriggers (db : Registry) (u : PredictionUpdate) (old new : PredictionRow) :
    Except Error Unit :=
  enforce [
    (u.namesImmutable, "immutable prediction field"),
    (u.committed_at.isSome && old.committed_at.isSome, "committed_at is write-once"),
    (u.status.isSome && new.status == .quarantined && old.status != .quarantined &&
      !db.integrity_violations.any (·.prediction_id == old.prediction_id),
      "quarantine requires integrity violation evidence"),
    (u.status.isSome && old.status == .quarantined && new.status != .quarantined,
      "quarantined prediction status is terminal")]

/-- `UPDATE predictions SET ... WHERE ...`, with the number of rows it changed. -/
def updatePredictions (selects : PredictionRow → Bool) (u : PredictionUpdate) (db : Registry) :
    Except Error (Nat × Registry) := do
  let predictions ← updateRows selects u.apply (predictionTriggers db u) db.predictions
  return ((db.predictions.filter selects).length, { db with predictions })

/-- `UPDATE touched_windows`: the trigger raises on the first row it would change. -/
def updateTouchedWindows (selects : TouchedWindowRow → Bool)
    (apply : TouchedWindowRow → TouchedWindowRow) (db : Registry) : Except Error Registry := do
  let rows ← updateRows selects apply
    (fun _ _ => .error (.sqliteError (text "touched window evidence is write-once")))
    db.touched_windows
  return { db with touched_windows := rows }

/-- `DELETE FROM touched_windows`: the trigger raises on the first row it would remove. -/
def deleteTouchedWindows (selects : TouchedWindowRow → Bool) (db : Registry) :
    Except Error Registry := do
  enforce [(db.touched_windows.any selects, "touched window evidence is permanent")]
  return { db with touched_windows := db.touched_windows.filter fun r => !selects r }

/-- What a successful update of runs did. -/
theorem updateRuns_ok {selects : RunRow → Bool} {u : RunUpdate} {db db' : Registry} {n : Nat}
    (h : updateRuns selects u db = .ok (n, db')) :
    db' = { db with runs := db.runs.map fun r => if selects r then u.apply r else r } ∧
      n = (db.runs.filter selects).length ∧
      ∀ r ∈ db.runs, selects r = true →
        u.namesIdentity = false ∧ lifecycleTransition r (u.apply r) ≠ some false := by
  unfold updateRuns at h
  cases hrows : updateRows selects u.apply (runTriggers u) db.runs with
  | error e => simp [hrows, Bind.bind, Except.bind] at h
  | ok rows =>
    simp only [hrows, Bind.bind, Except.bind, Pure.pure, Except.pure, Except.ok.injEq,
      Prod.mk.injEq] at h
    obtain ⟨hmap, hall⟩ := updateRows_ok hrows
    obtain ⟨rfl, rfl⟩ := h
    refine ⟨by rw [hmap], rfl, ?_⟩
    intro r hr hs
    have htrig := enforce_ok.mp (hall r hr hs)
    simpa [Truth.holds_not] using htrig

/-- What a successful update of predictions did. -/
theorem updatePredictions_ok {selects : PredictionRow → Bool} {u : PredictionUpdate}
    {db db' : Registry} {n : Nat} (h : updatePredictions selects u db = .ok (n, db')) :
    db' = { db with predictions :=
        db.predictions.map fun r => if selects r then u.apply r else r } ∧
      n = (db.predictions.filter selects).length ∧
      ∀ r ∈ db.predictions, selects r = true → predictionTriggers db u r (u.apply r) = .ok () := by
  unfold updatePredictions at h
  cases hrows : updateRows selects u.apply (predictionTriggers db u) db.predictions with
  | error e => simp [hrows, Bind.bind, Except.bind] at h
  | ok rows =>
    simp only [hrows, Bind.bind, Except.bind, Pure.pure, Except.pure, Except.ok.injEq,
      Prod.mk.injEq] at h
    obtain ⟨hmap, hall⟩ := updateRows_ok hrows
    obtain ⟨rfl, rfl⟩ := h
    exact ⟨by rw [hmap], rfl, hall⟩

/-- An update of touched windows that is let through selects no row and changes nothing. -/
theorem updateTouchedWindows_ok {selects : TouchedWindowRow → Bool}
    {apply : TouchedWindowRow → TouchedWindowRow} {db db' : Registry}
    (h : updateTouchedWindows selects apply db = .ok db') : db' = db := by
  unfold updateTouchedWindows at h
  cases hrows : updateRows selects apply
      (fun _ _ => .error (.sqliteError (text "touched window evidence is write-once")))
      db.touched_windows with
  | error e => simp [hrows, Bind.bind, Except.bind] at h
  | ok rows =>
    simp only [hrows, Bind.bind, Except.bind, Pure.pure, Except.pure, Except.ok.injEq] at h
    obtain ⟨hmap, hall⟩ := updateRows_ok hrows
    have hkept : ∀ r ∈ db.touched_windows, (if selects r then apply r else r) = id r := by
      intro r hr
      have hnot : selects r ≠ true := fun hs => nomatch hall r hr hs
      rw [if_neg hnot, id]
    rw [← h, hmap, List.map_congr_left hkept, List.map_id]

/-- A deletion of touched windows that is let through selects no row and changes nothing. -/
theorem deleteTouchedWindows_ok {selects : TouchedWindowRow → Bool} {db db' : Registry}
    (h : deleteTouchedWindows selects db = .ok db') : db' = db := by
  unfold deleteTouchedWindows at h
  cases henf : enforce [(db.touched_windows.any selects, "touched window evidence is permanent")] with
  | error e => simp [henf, Bind.bind, Except.bind] at h
  | ok u =>
    simp only [henf, Bind.bind, Except.bind, Pure.pure, Except.pure, Except.ok.injEq] at h
    have hnone := enforce_ok.mp henf
    simp only [List.mem_singleton, forall_eq, List.any_eq_false] at hnone
    rw [← h, List.filter_eq_self.mpr]
    intro r hr
    simpa using hnone r hr

end Registry

end Pine
