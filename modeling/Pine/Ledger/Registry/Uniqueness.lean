import Pine.Ledger.Registry.Statements

/-!
# Unique results and imports

No statement stores a second result of a run or a second import of a source run, and
only an import adds one.
-/

namespace Pine

open Program (Relates)

/-- The source run that an import names. -/
def ExternalRunImportRow.source (r : ExternalRunImportRow) : Text × Text :=
  (r.source_system, r.source_run_id)

namespace Registry

/-- A run has one result and one import at most, and so has a source run. -/
structure Unique (db : Registry) : Prop where
  results : (db.run_results.map RunResultRow.run_id).Nodup
  imported_runs : (db.external_run_imports.map ExternalRunImportRow.run_id).Nodup
  sources : (db.external_run_imports.map ExternalRunImportRow.source).Nodup

theorem unique_empty : empty.Unique := by
  constructor <;> simp [empty]

theorem Unique.of_same {db db' : Registry} (hr : db'.run_results = db.run_results)
    (hi : db'.external_run_imports = db.external_run_imports) (h : db.Unique) : db'.Unique :=
  ⟨hr ▸ h.results, hi ▸ h.imported_runs, hi ▸ h.sources⟩

theorem insertExternalRunImport_ok {row : ExternalRunImportRow} {db db' : Registry}
    (h : insertExternalRunImport row db = .ok db') :
    db' = { db with external_run_imports := db.external_run_imports ++ [row] } ∧
      db.isLowIntegrityTerminal row.run_id = true ∧
      row.run_id ∉ db.external_run_imports.map ExternalRunImportRow.run_id ∧
      row.source ∉ db.external_run_imports.map ExternalRunImportRow.source := by
  obtain ⟨hall, rfl⟩ := enforced_ok h
  simp only [List.forall_mem_cons] at hall
  obtain ⟨hterminal, hrun, -, hsource, -⟩ := hall
  refine ⟨rfl, by simpa using hterminal, by simpa using hrun, fun hmem => ?_⟩
  obtain ⟨r, hr, hsame⟩ := List.mem_map.mp hmem
  have hdiffers := List.any_eq_false.mp hsource r hr
  simp only [ExternalRunImportRow.source, Prod.mk.injEq] at hsame
  simp [hsame.1, hsame.2] at hdiffers

theorem insertRunResult_ok {row : RunResultRow} {db db' : Registry}
    (h : insertRunResult row db = .ok db') :
    db' = { db with run_results := db.run_results ++ [row] } ∧
      db.isSuccessfulBound row.run_id = true ∧
      row.run_id ∉ db.run_results.map RunResultRow.run_id := by
  obtain ⟨hall, rfl⟩ := enforced_ok h
  simp only [List.forall_mem_cons] at hall
  obtain ⟨hsuccessful, -, hrun, -⟩ := hall
  exact ⟨rfl, by simpa using hsuccessful, by simpa using hrun⟩

theorem insertTouchedWindow_rows (row : TouchedWindowRow) (db : Registry) :
    (db.insertTouchedWindow row).run_results = db.run_results ∧
      (db.insertTouchedWindow row).external_run_imports = db.external_run_imports := by
  unfold insertTouchedWindow
  split <;> exact ⟨rfl, rfl⟩

/-- Uniqueness follows every statement. -/
theorem unique_law : Law (fun _ _ => True) (fun _ => True) (fun db db' => db.Unique → db'.Unique) where
  refl _ := id
  trans _ _ _ h k := k ∘ h
  insertRun row db db' h := by
    obtain ⟨-, rfl⟩ := enforced_ok h
    exact Unique.of_same rfl rfl
  insertPrediction row db db' _ h := by
    obtain ⟨-, rfl⟩ := enforced_ok h
    exact Unique.of_same rfl rfl
  insertRunBinding row db db' h := by
    obtain ⟨-, rfl⟩ := enforced_ok h
    exact Unique.of_same rfl rfl
  insertCaptureRequest row db db' h := by
    obtain ⟨-, rfl⟩ := enforced_ok h
    exact Unique.of_same rfl rfl
  insertIntegrityViolation row db db' _ h := by
    obtain ⟨-, rfl⟩ := enforced_ok h
    exact Unique.of_same rfl rfl
  insertExternalRunImport row db db' h hdb := by
    obtain ⟨rfl, -, hrun, hsource⟩ := insertExternalRunImport_ok h
    exact ⟨hdb.results, nodup_append_key hdb.imported_runs hrun,
      nodup_append_key hdb.sources hsource⟩
  insertRunResult row db db' h hdb := by
    obtain ⟨rfl, -, hrun⟩ := insertRunResult_ok h
    exact ⟨nodup_append_key hdb.results hrun, hdb.imported_runs, hdb.sources⟩
  insertTouchedWindow row db := by
    obtain ⟨hr, hi⟩ := insertTouchedWindow_rows row db
    exact Unique.of_same hr hi
  updateRuns selects u db n db' h := by
    obtain ⟨rfl, -⟩ := updateRuns_ok h
    exact Unique.of_same rfl rfl
  updatePredictions selects u db n db' h := by
    obtain ⟨rfl, -⟩ := updatePredictions_ok h
    exact Unique.of_same rfl rfl

/-! ## Operations that import nothing -/

/-- Every operation but an import. -/
def Operation.isNative : Operation → Prop
  | create_external_run_import _ => False
  | _ => True

/-- The imports stay as they are. -/
def SameImports (db db' : Registry) : Prop := db'.external_run_imports = db.external_run_imports

namespace SameImports

theorem refl (db : Registry) : SameImports db db := rfl

theorem trans (a b c : Registry) (h : SameImports a b) (k : SameImports b c) : SameImports a c :=
  Eq.trans k h

variable {α β : Type}

theorem done (r : Except Error α) : Relates SameImports (Program.done r : Session α) :=
  Relates.done refl r

theorem bind {p : Session α} {f : α → Session β} (hp : Relates SameImports p)
    (hf : ∀ a, Relates SameImports (f a)) : Relates SameImports (p >>= f) :=
  Relates.bind hp (fun _ a _ _ => hf a) trans

theorem select (read : Registry → α) : Relates SameImports (Registry.select read) :=
  Relates.query refl _

/-- A guarded insert into another table. -/
theorem execute {f : Registry → Except Error Registry}
    (h : ∀ db db', f db = .ok db' → SameImports db db') : Relates SameImports (execute f) :=
  Relates.update refl h

theorem executeUpdate {f : Registry → Except Error (Nat × Registry)}
    (h : ∀ db n db', f db = .ok (n, db') → SameImports db db') :
    Relates SameImports (executeUpdate f) :=
  Relates.statement refl h

theorem insertRun (row : RunRow) : Relates SameImports (Registry.execute (Registry.insertRun row)) :=
  execute fun _ _ h => by rw [(enforced_ok h).2]; rfl

theorem updateRuns (selects : Registry → RunRow → Bool) (u : RunUpdate) :
    Relates SameImports (Registry.executeUpdate fun db => Registry.updateRuns (selects db) u db) :=
  executeUpdate fun _ _ _ h => by rw [(updateRuns_ok h).1]; rfl

theorem updatePredictions (selects : PredictionRow → Bool) (u : PredictionUpdate) :
    Relates SameImports (Registry.executeUpdate (Registry.updatePredictions selects u)) :=
  executeUpdate fun _ _ _ h => by rw [(updatePredictions_ok h).1]; rfl

theorem insertTouched (family start stop : Text) (touched_at : DateTime) :
    Relates SameImports (Registry.insertTouched family start stop touched_at) := by
  refine execute fun db db' h => ?_
  cases h
  exact (insertTouchedWindow_rows _ db).2

theorem bindRun (run_id : Text) (b : Binding) : Relates SameImports (Registry.bindRun run_id b) := by
  refine bind (executeUpdate fun db n db' h => ?_) fun _ => done _
  unfold insertBindingOfRegistered at h
  split at h
  · split at h
    · obtain ⟨db'', hinsert, heq⟩ := bind_eq_ok.mp h
      cases heq
      rw [(enforced_ok hinsert).2]
      rfl
    · cases h
      exact refl db
  · cases h
    exact refl db

theorem startRun (sha256 : Text → Text) (run_id : Text) (started_at : DateTime) :
    Relates SameImports (Registry.startRun sha256 run_id started_at) := by
  refine bind (done _) fun _ => bind (bind (select _) fun row => ?_) fun _ =>
    bind (updateRuns _ _) fun _ => bind (done _) fun _ => insertTouched _ _ _ _
  cases row <;> exact done _

theorem finishRun (run_id : Text) (completed_at : DateTime) (exit_code : Int)
    (note : Option Text) : Relates SameImports (Registry.finishRun run_id completed_at exit_code note) := by
  refine bind (bind ?_ fun _ => updateRuns (fun _ => _) _) fun _ => done _
  unfold bindInteger
  split <;> exact done _

theorem insertNewViolations (prediction_id : Text) (detected_at : DateTime)
    (violations : List (Text × Text)) :
    Relates SameImports (Registry.insertNewViolations prediction_id detected_at violations) := by
  induction violations with
  | nil => exact done _
  | cons v rest ih =>
    refine bind (executeUpdate fun db n db' h => ?_) fun _ => bind ih fun _ => done _
    unfold insertNewViolation at h
    split at h
    · cases h
      exact refl db
    · obtain ⟨db'', hinsert, heq⟩ := map_eq_ok.mp h
      cases heq
      rw [(enforced_ok hinsert).2]
      rfl

theorem quarantinePrediction (prediction_id : Text) (violations : List (Text × Text))
    (detected_at : DateTime) :
    Relates SameImports (Registry.quarantinePrediction prediction_id violations detected_at) := by
  refine bind (done _) fun _ => bind (done _) fun _ => bind (done _) fun _ =>
    bind (select _) fun row => ?_
  cases row with
  | none => exact done _
  | some row =>
    refine bind (insertNewViolations _ _ _) fun changed => ?_
    split
    · exact bind (updatePredictions _ _) fun _ => done _
    · exact done _

/-- An operation that is no import adds none. -/
theorem program (sha256 : Text → Text) {op : Operation} (h : op.isNative) :
    Relates SameImports (op.program sha256) := by
  cases op with
  | begin_prediction prediction =>
    refine bind (done _) fun _ => bind (execute fun _ _ h => ?_) fun _ => insertRun _
    rw [(enforced_ok h).2]
    rfl
  | commit_prediction => exact bind (updatePredictions _ _) fun _ => done _
  | register_capture_request => exact execute fun _ _ h => by rw [(enforced_ok h).2]; rfl
  | create_exploratory_run => exact bind (insertRun _) fun _ => bindRun _ _
  | bind_preregistered_run => exact bind (select _) fun _ => bind (done _) fun _ => bindRun _ _
  | create_external_run_import e => exact h.elim
  | create_run_result =>
    refine bind (executeUpdate fun db n db' h => ?_) fun _ => done _
    split at h
    · obtain ⟨db'', hinsert, heq⟩ := map_eq_ok.mp h
      cases heq
      rw [(enforced_ok hinsert).2]
      rfl
    · cases h
      exact refl db
  | start_run => exact startRun sha256 _ _
  | finish_run => exact finishRun _ _ _ _
  | mark_window_touched =>
    exact bind (done _) fun _ => bind (done _) fun _ => bind (done _) fun _ => insertTouched _ _ _ _
  | update_resolution =>
    exact bind (done _) fun _ => bind (done _) fun _ => bind (done _) fun _ =>
      bind (done _) fun _ => bind (updatePredictions _ _) fun _ => done _
  | record_integrity_violation => exact execute fun _ _ h => by rw [(enforced_ok h).2]; rfl
  | quarantine_prediction => exact bind (quarantinePrediction _ _ _) fun _ => done _
  | update_touched_windows => exact execute fun _ _ h => by rw [updateTouchedWindows_ok h]; rfl
  | delete_touched_windows => exact execute fun _ _ h => by rw [deleteTouchedWindows_ok h]; rfl

end SameImports

/-- A sequence without imports adds none. -/
theorem sequence_sameImports (sha256 : Text → Text) {ops : List Operation}
    (h : ∀ op ∈ ops, op.isNative) : Relates SameImports (sequence sha256 ops) := by
  induction ops with
  | nil => exact SameImports.done _
  | cons op ops ih =>
    exact SameImports.bind (SameImports.program sha256 (h op List.mem_cons_self))
      fun _ => ih fun other hother => h other (List.mem_cons_of_mem _ hother)

end Registry

end Pine
