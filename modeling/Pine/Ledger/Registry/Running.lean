import Pine.Ledger.Registry.StartedTouched

/-!
# Running runs

A running run is left alone by every operation but the one that finishes it, and
only starting it made it running. The wrappers rely on both: whoever holds the lock
of a run finds it as they left it.
-/

namespace Pine

open Program (Relates)

namespace Registry

/-- Running runs are kept as they are, but for those named. -/
def Spares (ended : Text → Prop) (db db' : Registry) : Prop :=
  ∀ run ∈ db.runs, run.state = .running → ¬ ended run.run_id → run ∈ db'.runs

theorem Spares.refl {ended : Text → Prop} (db : Registry) : db.Spares ended db :=
  fun _ hrun _ _ => hrun

theorem Spares.trans {ended : Text → Prop} {a b c : Registry} (h : a.Spares ended b)
    (k : b.Spares ended c) : a.Spares ended c :=
  fun run hrun hstate hne => k run (h run hrun hstate hne) hstate hne

/-- A statement that keeps every run spares the running ones. -/
theorem Spares.of_subset {ended : Text → Prop} {db db' : Registry} (h : db.runs ⊆ db'.runs) :
    db.Spares ended db' :=
  fun _ hrun _ _ => h hrun

/-- An update that selects no running run but the named ones. -/
theorem updateRuns_spares {ended : Text → Prop} {selects : RunRow → Bool} {u : RunUpdate}
    {db db' : Registry} {n : Nat} (h : updateRuns selects u db = .ok (n, db'))
    (hsel : ∀ r, selects r = true → r.state = .running → ended r.run_id) :
    db.Spares ended db' := by
  obtain ⟨rfl, -, -⟩ := updateRuns_ok h
  intro run hrun hstate hne
  have hnot : ¬ selects run = true := fun hs => hne (hsel run hs hstate)
  exact List.mem_map.mpr ⟨run, hrun, if_neg hnot⟩

theorem updatePredictions_spares {ended : Text → Prop} {selects : PredictionRow → Bool}
    {u : PredictionUpdate} {db db' : Registry} {n : Nat}
    (h : updatePredictions selects u db = .ok (n, db')) : db.Spares ended db' := by
  obtain ⟨rfl, -, -⟩ := updatePredictions_ok h
  exact Spares.refl db

/-! ## Operations -/

variable {ended : Text → Prop} {α β : Type}

/-- Whatever happens to the program, it spares the running runs. -/
def Sparing (ended : Text → Prop) (p : Session α) : Prop := Relates (Spares ended) p

/-- A run of such a program spares the running runs. -/
theorem Sparing.spares {p : Session α} (hp : Sparing ended p) {db db' : Registry}
    {r : Except Error α} (h : p.run db = (r, db')) : db.Spares ended db' := by
  have hs := hp db
  rwa [h] at hs

theorem sparing_done (r : Except Error α) : Sparing ended (Program.done r) :=
  Relates.done Spares.refl r

theorem sparing_bind {p : Session α} {f : α → Session β} (hp : Sparing ended p)
    (hf : ∀ a, Sparing ended (f a)) : Sparing ended (p >>= f) :=
  Relates.bind hp (fun _ a _ _ => hf a) fun _ _ _ => Spares.trans

theorem sparing_select (read : Registry → α) : Sparing ended (select read) :=
  Relates.query Spares.refl _

theorem sparing_execute {f : Registry → Except Error Registry}
    (h : ∀ db db', f db = .ok db' → db.Spares ended db') : Sparing ended (execute f) :=
  Relates.update Spares.refl h

theorem sparing_executeUpdate {f : Registry → Except Error (Nat × Registry)}
    (h : ∀ db n db', f db = .ok (n, db') → db.Spares ended db') :
    Sparing ended (executeUpdate f) :=
  Relates.statement Spares.refl h

theorem insertRun_sparing (row : RunRow) : Sparing ended (execute (insertRun row)) := by
  refine sparing_execute fun db db' h => ?_
  obtain ⟨rfl, -⟩ := insertRun_ok h
  exact Spares.of_subset (List.subset_append_left _ _)

theorem bindRun_sparing (run_id : Text) (b : Binding) : Sparing ended (bindRun run_id b) := by
  refine sparing_bind (sparing_executeUpdate fun db n db' h => ?_) fun _ => sparing_done _
  unfold insertBindingOfRegistered at h
  split at h
  · split at h
    · obtain ⟨db'', hinsert, heq⟩ := bind_eq_ok.mp h
      cases heq
      obtain ⟨rfl, -⟩ := insertRunBinding_ok hinsert
      exact Spares.of_subset (List.Subset.refl _)
    · cases h
      exact Spares.refl db
  · cases h
    exact Spares.refl db

theorem touchIdentityForRun_sparing (sha256 : Text → Text) (run_id : Text) :
    Sparing ended (touchIdentityForRun sha256 run_id) := by
  refine sparing_bind (sparing_select _) fun row => ?_
  cases row with
  | none => exact sparing_done _
  | some row => exact sparing_done _

theorem insertTouched_sparing (family start stop : Text) (touched_at : DateTime) :
    Sparing ended (insertTouched family start stop touched_at) := by
  refine sparing_execute fun db db' h => ?_
  cases h
  unfold insertTouchedWindow
  split
  · exact Spares.refl db
  · exact Spares.of_subset (List.Subset.refl _)

theorem claim_sparing {selects : Registry → RunRow → Bool} (started_at : DateTime)
    (hsel : ∀ db r, selects db r = true → r.state = .registered) :
    Sparing ended (executeUpdate fun db => updateRuns (selects db) (claimUpdate started_at) db) := by
  refine sparing_executeUpdate fun db n db' h => updateRuns_spares h fun r hs hstate => ?_
  rw [hsel db r hs] at hstate
  cases hstate

theorem executeFinish_sparing (run_id : Text) (completed_at : DateTime) (exit_code : Int)
    (note : Option Text) : Sparing (· = run_id) (executeFinish run_id completed_at exit_code note) := by
  refine sparing_bind ?_ fun _ => sparing_executeUpdate fun db n db' h =>
    updateRuns_spares h fun r hs _ => ?_
  · unfold bindInteger
    split <;> exact sparing_done _
  · simp only [Bool.and_eq_true, beq_iff_eq] at hs
    exact hs.1

theorem startRun_sparing (sha256 : Text → Text) (run_id : Text) (started_at : DateTime) :
    Sparing ended (startRun sha256 run_id started_at) := by
  refine sparing_bind (sparing_done _) fun _ =>
    sparing_bind (touchIdentityForRun_sparing _ _) fun touch => ?_
  refine sparing_bind (claim_sparing started_at fun db r hs => ?_)
    fun _ => sparing_bind (sparing_done _) fun _ => insertTouched_sparing _ _ _ _
  simp only [Bool.and_eq_true, beq_iff_eq] at hs
  exact hs.1.2

/-- The import only touches the run that it inserts, so it spares every run that was there. -/
theorem createExternalRunImport_sparing (sha256 : Text → Text) (e : ExternalRun) :
    Sparing ended (createExternalRunImport sha256 e) := by
  have htail : Sparing (· = e.run_id) (createExternalRunImport sha256 e) := by
    refine sparing_bind (insertRun_sparing _) fun _ => sparing_bind (bindRun_sparing _ _) fun _ =>
      sparing_bind (touchIdentityForRun_sparing _ _) fun touch => ?_
    refine sparing_bind (@claim_sparing _ (fun _ r =>
      r.run_id == e.run_id && r.state == .registered) e.started_at fun db r hs => ?_) fun _ => ?_
    · simp only [Bool.and_eq_true, beq_iff_eq] at hs
      exact hs.2
    refine sparing_bind (insertTouched_sparing _ _ _ _) fun _ =>
      sparing_bind (executeFinish_sparing _ _ _ _) fun _ => sparing_execute fun db db' h => ?_
    obtain ⟨-, rfl⟩ := enforced_ok h
    exact Spares.of_subset (List.Subset.refl _)
  intro db run hrun hstate _
  cases hinsert : insertRun (freshRun e.run_id e.started_at) db with
  | error err =>
    have hfails : (createExternalRunImport sha256 e).run db = (.error err, db) := by
      unfold createExternalRunImport
      rw [Program.run_bind, execute, Program.run_update, hinsert]
    rwa [hfails]
  | ok db1 =>
    obtain ⟨-, hnew⟩ := insertRun_ok hinsert
    refine htail db run hrun hstate fun heq => hnew ?_
    exact List.mem_map.mpr ⟨run, hrun, heq⟩

theorem insertNewViolations_sparing (prediction_id : Text) (detected_at : DateTime)
    (violations : List (Text × Text)) :
    Sparing ended (insertNewViolations prediction_id detected_at violations) := by
  induction violations with
  | nil => exact sparing_done _
  | cons v rest ih =>
    refine sparing_bind (sparing_executeUpdate fun db n db' h => ?_) fun _ =>
      sparing_bind ih fun _ => sparing_done _
    unfold insertNewViolation at h
    split at h
    · cases h
      exact Spares.refl db
    · obtain ⟨db'', hinsert, heq⟩ := map_eq_ok.mp h
      cases heq
      obtain ⟨-, rfl⟩ := enforced_ok hinsert
      exact Spares.of_subset (List.Subset.refl _)

theorem quarantinePrediction_sparing (prediction_id : Text) (violations : List (Text × Text))
    (detected_at : DateTime) :
    Sparing ended (quarantinePrediction prediction_id violations detected_at) := by
  refine sparing_bind (sparing_done _) fun _ => sparing_bind (sparing_done _) fun _ =>
    sparing_bind (sparing_done _) fun _ => sparing_bind (sparing_select _) fun row => ?_
  cases row with
  | none => exact sparing_done _
  | some row =>
    refine sparing_bind (insertNewViolations_sparing _ _ _) fun changed => ?_
    split
    · exact sparing_bind (sparing_executeUpdate fun db n db' => updatePredictions_spares)
        fun _ => sparing_done _
    · exact sparing_done _

/-- The run that an operation may finish. -/
def Operation.ends : Operation → Text → Prop
  | finish_run run_id _ _ _ => (· = run_id)
  | _ => fun _ => False

/-- Every operation, returned or raised, spares the running runs that it does not finish. -/
theorem Operation.program_sparing (sha256 : Text → Text) (op : Operation) :
    Sparing op.ends (op.program sha256) := by
  cases op with
  | begin_prediction prediction =>
    refine sparing_bind (sparing_done _) fun _ => sparing_bind (sparing_execute fun db db' h => ?_)
      fun _ => insertRun_sparing _
    obtain ⟨rfl, -⟩ := insertPrediction_ok h
    exact Spares.of_subset (List.Subset.refl _)
  | commit_prediction =>
    exact sparing_bind (sparing_executeUpdate fun db n db' => updatePredictions_spares)
      fun _ => sparing_done _
  | register_capture_request =>
    refine sparing_execute fun db db' h => ?_
    obtain ⟨rfl, -, -⟩ := insertCaptureRequest_ok h
    exact Spares.of_subset (List.Subset.refl _)
  | create_exploratory_run =>
    exact sparing_bind (insertRun_sparing _) fun _ => bindRun_sparing _ _
  | bind_preregistered_run =>
    exact sparing_bind (sparing_select _) fun _ => sparing_bind (sparing_done _)
      fun _ => bindRun_sparing _ _
  | create_external_run_import e => exact createExternalRunImport_sparing sha256 e
  | create_run_result =>
    refine sparing_bind (sparing_executeUpdate fun db n db' h => ?_) fun _ => sparing_done _
    split at h
    · obtain ⟨db'', hinsert, heq⟩ := map_eq_ok.mp h
      cases heq
      obtain ⟨-, rfl⟩ := enforced_ok hinsert
      exact Spares.of_subset (List.Subset.refl _)
    · cases h
      exact Spares.refl db
  | start_run => exact startRun_sparing sha256 _ _
  | finish_run =>
    exact sparing_bind (executeFinish_sparing _ _ _ _) fun _ => sparing_done _
  | mark_window_touched =>
    exact sparing_bind (sparing_done _) fun _ => sparing_bind (sparing_done _) fun _ =>
      sparing_bind (sparing_done _) fun _ => insertTouched_sparing _ _ _ _
  | update_resolution =>
    exact sparing_bind (sparing_done _) fun _ => sparing_bind (sparing_done _) fun _ =>
      sparing_bind (sparing_done _) fun _ => sparing_bind (sparing_done _) fun _ =>
        sparing_bind (sparing_executeUpdate fun db n db' => updatePredictions_spares)
          fun _ => sparing_done _
  | record_integrity_violation =>
    refine sparing_execute fun db db' h => ?_
    obtain ⟨-, rfl⟩ := enforced_ok h
    exact Spares.of_subset (List.Subset.refl _)
  | quarantine_prediction =>
    exact sparing_bind (quarantinePrediction_sparing _ _ _) fun _ => sparing_done _
  | update_touched_windows =>
    refine sparing_execute fun db db' h => ?_
    rw [updateTouchedWindows_ok h]
    exact Spares.refl db
  | delete_touched_windows =>
    refine sparing_execute fun db db' h => ?_
    rw [deleteTouchedWindows_ok h]
    exact Spares.refl db

/-! ## Starting a run -/

/-- A run that was started was registered before, and is running now. -/
theorem startRun_ok {sha256 : Text → Text} {run_id : Text} {started_at : DateTime}
    {db db' : Registry} {u : Unit} (h : (startRun sha256 run_id started_at).run db = (.ok u, db')) :
    (∃ run ∈ db.runs, run.run_id = run_id ∧ run.state = .registered) ∧
      ∃ run ∈ db'.runs, run.run_id = run_id ∧ run.state = .running := by
  obtain ⟨_, db1, haware, hidentified⟩ := Program.run_bind_ok.mp h
  obtain ⟨touch, db2, hidentity, hupdated⟩ := Program.run_bind_ok.mp hidentified
  obtain ⟨n, db3, hupdate, hcounted⟩ := Program.run_bind_ok.mp hupdated
  obtain ⟨_, db4, hcount, hinsert⟩ := Program.run_bind_ok.mp hcounted
  obtain ⟨-, rfl⟩ := Program.run_check_ok.mp haware
  obtain ⟨rfl, -⟩ := touchIdentityForRun_ok hidentity
  obtain ⟨hone, rfl⟩ := Program.run_check_ok.mp hcount
  obtain ⟨rfl, rfl, -⟩ := updateRuns_ok (executeUpdate_ok hupdate)
  have hlength := not_not.mp (refuse_ok.mp hone)
  obtain ⟨run, hrun⟩ := List.exists_mem_of_length_pos (by rw [hlength]; exact Nat.one_pos)
  obtain ⟨hmem, hsel⟩ := List.mem_filter.mp hrun
  have hcond := hsel
  simp only [Bool.and_eq_true, beq_iff_eq] at hcond
  refine ⟨⟨run, hmem, hcond.1⟩, (claimUpdate started_at).apply run, ?_, hcond.1.1, rfl⟩
  rw [insertTouched_ok hinsert]
  have hclaimed : (claimUpdate started_at).apply run ∈ db2.runs.map fun r =>
      if r.run_id == run_id && r.state == .registered && (db2.binding? r.run_id).isSome
      then (claimUpdate started_at).apply r else r :=
    List.mem_map.mpr ⟨run, hmem, by rw [if_pos hsel]⟩
  unfold insertTouchedWindow
  split <;> exact hclaimed

end Registry

end Pine
