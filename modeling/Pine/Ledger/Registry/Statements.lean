import Pine.Ledger.Registry.Evolution

/-!
# Laws of the statements

A relation between registries that every single statement keeps is kept by every
operation, returned or raised, and by every sequence of operations. The rows that
an operation drafts or records are named, so that a law may speak of them.
-/

namespace Pine

open Program (Relates)

namespace Registry

/-- A preorder that every statement keeps, when it inserts no prediction but a drafted one and no
violation but a recorded one. -/
structure Law (drafted : Text → PredictionStatus → Prop) (recorded : Text → Prop)
    (R : Registry → Registry → Prop) : Prop where
  refl : ∀ db, R db db
  trans : ∀ a b c, R a b → R b c → R a c
  insertRun : ∀ row db db', insertRun row db = .ok db' → R db db'
  insertPrediction : ∀ row db db', drafted row.prediction_id row.status →
    insertPrediction row db = .ok db' → R db db'
  insertRunBinding : ∀ row db db', insertRunBinding row db = .ok db' → R db db'
  insertCaptureRequest : ∀ row db db', insertCaptureRequest row db = .ok db' → R db db'
  insertIntegrityViolation : ∀ row db db', recorded row.prediction_id →
    insertIntegrityViolation row db = .ok db' → R db db'
  insertExternalRunImport : ∀ row db db', insertExternalRunImport row db = .ok db' → R db db'
  insertRunResult : ∀ row db db', insertRunResult row db = .ok db' → R db db'
  insertTouchedWindow : ∀ row db, R db (db.insertTouchedWindow row)
  updateRuns : ∀ selects u db n db', updateRuns selects u db = .ok (n, db') → R db db'
  updatePredictions : ∀ selects u db n db', updatePredictions selects u db = .ok (n, db') → R db db'

/-- The predictions that an operation inserts, by id and status. -/
def Operation.drafts : Operation → Text → PredictionStatus → Prop
  | begin_prediction prediction => fun id status =>
      id = prediction.prediction_id ∧ status = prediction.status
  | _ => fun _ _ => False

/-- The predictions that an operation records violations of. -/
def Operation.records : Operation → Text → Prop
  | record_integrity_violation id _ _ _ => (· = id)
  | quarantine_prediction id _ _ => (· = id)
  | _ => fun _ => False

namespace Law

variable {drafted : Text → PredictionStatus → Prop} {recorded : Text → Prop}
  {R : Registry → Registry → Prop} {α β : Type}

theorem done (law : Law drafted recorded R) (r : Except Error α) :
    Relates R (Program.done r : Session α) :=
  Relates.done law.refl r

theorem bind (law : Law drafted recorded R) {p : Session α} {f : α → Session β}
    (hp : Relates R p) (hf : ∀ a, Relates R (f a)) : Relates R (p >>= f) :=
  Relates.bind hp (fun _ a _ _ => hf a) law.trans

theorem select (law : Law drafted recorded R) (read : Registry → α) :
    Relates R (Registry.select read) :=
  Relates.query law.refl _

theorem execute (law : Law drafted recorded R) {f : Registry → Except Error Registry}
    (h : ∀ db db', f db = .ok db' → R db db') : Relates R (Registry.execute f) :=
  Relates.update law.refl h

theorem executeUpdate (law : Law drafted recorded R)
    {f : Registry → Except Error (Nat × Registry)}
    (h : ∀ db n db', f db = .ok (n, db') → R db db') : Relates R (Registry.executeUpdate f) :=
  Relates.statement law.refl h

theorem bindRun (law : Law drafted recorded R) (run_id : Text) (b : Binding) :
    Relates R (Registry.bindRun run_id b) := by
  refine law.bind (law.executeUpdate fun db n db' h => ?_) fun _ => law.done _
  unfold insertBindingOfRegistered at h
  split at h
  · split at h
    · obtain ⟨db'', hinsert, heq⟩ := bind_eq_ok.mp h
      cases heq
      exact law.insertRunBinding _ _ _ hinsert
    · cases h
      exact law.refl db
  · cases h
    exact law.refl db

theorem touchIdentityForRun (law : Law drafted recorded R) (sha256 : Text → Text) (run_id : Text) :
    Relates R (Registry.touchIdentityForRun sha256 run_id) := by
  refine law.bind (law.select _) fun row => ?_
  cases row with
  | none => exact law.done _
  | some row => exact law.done _

theorem insertTouched (law : Law drafted recorded R) (family start stop : Text)
    (touched_at : DateTime) : Relates R (Registry.insertTouched family start stop touched_at) := by
  refine law.execute fun db db' h => ?_
  cases h
  exact law.insertTouchedWindow _ _

theorem executeFinish (law : Law drafted recorded R) (run_id : Text) (completed_at : DateTime)
    (exit_code : Int) (note : Option Text) :
    Relates R (Registry.executeFinish run_id completed_at exit_code note) := by
  refine law.bind ?_ fun _ => law.executeUpdate fun _ _ _ => law.updateRuns _ _ _ _ _
  unfold bindInteger
  split <;> exact law.done _

theorem startRun (law : Law drafted recorded R) (sha256 : Text → Text) (run_id : Text)
    (started_at : DateTime) : Relates R (Registry.startRun sha256 run_id started_at) := by
  refine law.bind (law.done _) fun _ => law.bind (law.touchIdentityForRun _ _) fun touch => ?_
  refine law.bind (law.executeUpdate fun _ _ _ => law.updateRuns _ _ _ _ _) fun _ => ?_
  exact law.bind (law.done _) fun _ => law.insertTouched _ _ _ _

theorem createExternalRunImport (law : Law drafted recorded R) (sha256 : Text → Text)
    (e : ExternalRun) : Relates R (Registry.createExternalRunImport sha256 e) := by
  refine law.bind (law.execute (law.insertRun _)) fun _ => law.bind (law.bindRun _ _) fun _ => ?_
  refine law.bind (law.touchIdentityForRun _ _) fun touch => ?_
  refine law.bind (law.executeUpdate fun _ _ _ => law.updateRuns _ _ _ _ _) fun _ => ?_
  refine law.bind (law.insertTouched _ _ _ _) fun _ => law.bind (law.executeFinish _ _ _ _) fun _ => ?_
  exact law.execute (law.insertExternalRunImport _)

theorem insertNewViolations (law : Law drafted recorded R) {prediction_id : Text}
    (hrecorded : recorded prediction_id) (detected_at : DateTime) (violations : List (Text × Text)) :
    Relates R (Registry.insertNewViolations prediction_id detected_at violations) := by
  induction violations with
  | nil => exact law.done _
  | cons v rest ih =>
    refine law.bind (law.executeUpdate fun db n db' h => ?_) fun _ =>
      law.bind ih fun _ => law.done _
    unfold insertNewViolation at h
    split at h
    · cases h
      exact law.refl db
    · obtain ⟨db'', hinsert, heq⟩ := map_eq_ok.mp h
      cases heq
      exact law.insertIntegrityViolation _ _ _ hrecorded hinsert

theorem quarantinePrediction (law : Law drafted recorded R) {prediction_id : Text}
    (hrecorded : recorded prediction_id) (violations : List (Text × Text)) (detected_at : DateTime) :
    Relates R (Registry.quarantinePrediction prediction_id violations detected_at) := by
  refine law.bind (law.done _) fun _ => law.bind (law.done _) fun _ =>
    law.bind (law.done _) fun _ => law.bind (law.select _) fun row => ?_
  cases row with
  | none => exact law.done _
  | some row =>
    refine law.bind (law.insertNewViolations hrecorded _ _) fun changed => ?_
    split
    · exact law.bind (law.executeUpdate fun _ _ _ => law.updatePredictions _ _ _ _ _)
        fun _ => law.done _
    · exact law.done _

/-- What every statement keeps, every operation keeps. -/
theorem program (law : Law drafted recorded R) (sha256 : Text → Text) {op : Operation}
    (hdrafts : ∀ id status, op.drafts id status → drafted id status)
    (hrecords : ∀ id, op.records id → recorded id) : Relates R (op.program sha256) := by
  cases op with
  | begin_prediction prediction =>
    refine law.bind (law.done _) fun _ => law.bind ?_ fun _ => law.execute (law.insertRun _)
    exact law.execute fun _ _ => law.insertPrediction _ _ _ (hdrafts _ _ ⟨rfl, rfl⟩)
  | commit_prediction =>
    exact law.bind (law.executeUpdate fun _ _ _ => law.updatePredictions _ _ _ _ _)
      fun _ => law.done _
  | register_capture_request => exact law.execute (law.insertCaptureRequest _)
  | create_exploratory_run => exact law.bind (law.execute (law.insertRun _)) fun _ => law.bindRun _ _
  | bind_preregistered_run =>
    exact law.bind (law.select _) fun _ => law.bind (law.done _) fun _ => law.bindRun _ _
  | create_external_run_import e => exact law.createExternalRunImport sha256 e
  | create_run_result =>
    refine law.bind (law.executeUpdate fun db n db' h => ?_) fun _ => law.done _
    split at h
    · obtain ⟨db'', hinsert, heq⟩ := map_eq_ok.mp h
      cases heq
      exact law.insertRunResult _ _ _ hinsert
    · cases h
      exact law.refl db
  | start_run => exact law.startRun sha256 _ _
  | finish_run => exact law.bind (law.executeFinish _ _ _ _) fun _ => law.done _
  | mark_window_touched =>
    exact law.bind (law.done _) fun _ => law.bind (law.done _) fun _ =>
      law.bind (law.done _) fun _ => law.insertTouched _ _ _ _
  | update_resolution =>
    exact law.bind (law.done _) fun _ => law.bind (law.done _) fun _ =>
      law.bind (law.done _) fun _ => law.bind (law.done _) fun _ =>
        law.bind (law.executeUpdate fun _ _ _ => law.updatePredictions _ _ _ _ _)
          fun _ => law.done _
  | record_integrity_violation id =>
    exact law.execute fun _ _ => law.insertIntegrityViolation _ _ _ (hrecords id rfl)
  | quarantine_prediction id =>
    exact law.bind (law.quarantinePrediction (hrecords id rfl) _ _) fun _ => law.done _
  | update_touched_windows =>
    refine law.execute fun db db' h => ?_
    rw [updateTouchedWindows_ok h]
    exact law.refl db
  | delete_touched_windows =>
    refine law.execute fun db db' h => ?_
    rw [deleteTouchedWindows_ok h]
    exact law.refl db

/-- What every statement keeps, every sequence of operations keeps. -/
theorem sequence (law : Law drafted recorded R) (sha256 : Text → Text) {ops : List Operation}
    (hdrafts : ∀ op ∈ ops, ∀ id status, op.drafts id status → drafted id status)
    (hrecords : ∀ op ∈ ops, ∀ id, op.records id → recorded id) :
    Relates R (Registry.sequence sha256 ops) := by
  induction ops with
  | nil => exact law.done _
  | cons op ops ih =>
    refine law.bind (law.program sha256 (hdrafts op List.mem_cons_self)
      (hrecords op List.mem_cons_self)) fun _ => ih ?_ ?_
    · exact fun op hop => hdrafts op (List.mem_cons_of_mem _ hop)
    · exact fun op hop => hrecords op (List.mem_cons_of_mem _ hop)

end Law

/-- A relation that speaks of no inserted prediction or violation is a law of every operation. -/
theorem Law.of_any {R : Registry → Registry → Prop}
    (law : Law (fun _ _ => True) (fun _ => True) R) (sha256 : Text → Text) (ops : List Operation) :
    Relates R (Registry.sequence sha256 ops) :=
  law.sequence sha256 (fun _ _ _ _ _ => trivial) fun _ _ _ _ => trivial

end Registry

end Pine
