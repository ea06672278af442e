import Pine.Ledger.Registry.Evolution

/-!
# Started runs have touched their window

A run whose execution started has its out-of-sample window recorded under its
normalized family, in every committed state of every interleaving of transactions.
The two operations that start a run derive the identity before they claim the run
and record it in the same transaction; every other operation only extends the
registry, and what a recorded identity rests on is write-once.
-/

namespace Pine

namespace Registry

/-- The family and window that a bound run counts under. -/
def RunIdentity (db : Registry) (run : RunRow) (family : Text) (w : DateWindow) : Prop :=
  ∃ binding ∈ db.run_bindings, binding.run_id = run.run_id ∧ binding.HasWindow w ∧
    ∃ family_id, binding.HasFamily (run.prediction_id.bind db.prediction?) family_id ∧
      normalizeFamilyId (.str family_id) = .ok family

/-- The window of a run is recorded under its family. -/
def RunTouched (db : Registry) (run : RunRow) : Prop :=
  ∃ family w, db.RunIdentity run family w ∧ ∃ r ∈ db.touched_windows, r.Records family w

/-- Keys are distinct, windows normal, and the windows of started runs recorded. -/
structure Lawful (db : Registry) : Prop where
  keys : db.Keys
  windows : db.WindowsNormal
  started : ∀ run ∈ db.runs, run.execution_started_at ≠ none → db.RunTouched run

theorem lawful_empty : empty.Lawful where
  keys := keys_empty
  windows := by simp [WindowsNormal, empty]
  started := by simp [empty]

/-! ## Identities are permanent -/

/-- A committed prediction is found again in every later registry, with the same lineage. -/
theorem prediction?_evolves {db db' : Registry} (h : db.Evolves db') (hk : db'.Keys) {id : Text}
    {p : PredictionRow} (hp : db.prediction? id = some p) :
    ∃ p', db'.prediction? id = some p' ∧ p.Evolves p' := by
  obtain ⟨hmem, rfl⟩ := prediction?_some hp
  obtain ⟨p', hp', hevolves⟩ := h.predictions.mem hmem
  refine ⟨p', ?_, hevolves⟩
  rw [← hevolves.prediction_id]
  exact hk.prediction?_of_mem hp'

theorem RunIdentity.evolves {db db' : Registry} {run run' : RunRow} {family : Text}
    {w : DateWindow} (hid : db.RunIdentity run family w) (h : db.Evolves db') (hk : db'.Keys)
    (hrun : run'.run_id = run.run_id) (hprediction : run'.prediction_id = run.prediction_id) :
    db'.RunIdentity run' family w := by
  obtain ⟨binding, hmem, hbinding, hwindow, family_id, hfamily, hnormal⟩ := hid
  refine ⟨binding, h.run_bindings.subset hmem, hbinding.trans hrun.symm, hwindow, family_id, ?_,
    hnormal⟩
  unfold RunBindingRow.HasFamily at hfamily ⊢
  split
  · rename_i hpre
    rw [if_pos hpre] at hfamily
    obtain ⟨p, hp, hcommitted, lineage, hloads, hget⟩ := hfamily
    obtain ⟨id, hid, hfound⟩ := Option.bind_eq_some_iff.mp hp
    obtain ⟨p', hp', hevolves⟩ := prediction?_evolves h hk hfound
    refine ⟨p', by rw [hprediction, hid, Option.bind_some, hp'], hevolves.committed hcommitted,
      lineage, ?_, hget⟩
    rw [hevolves.lineage_json, hloads]
  · rename_i hpre
    rwa [if_neg hpre] at hfamily

theorem RunTouched.evolves {db db' : Registry} {run run' : RunRow} (ht : db.RunTouched run)
    (h : db.Evolves db') (hk : db'.Keys) (hrun : run'.run_id = run.run_id)
    (hprediction : run'.prediction_id = run.prediction_id) : db'.RunTouched run' := by
  obtain ⟨family, w, hid, r, hr, hrecords⟩ := ht
  exact ⟨family, w, hid.evolves h hk hrun hprediction, r, h.touched_windows.subset hr, hrecords⟩

/-- Under distinct keys, a run of the later registry is the successor of the run with its id. -/
theorem run_evolves {db db' : Registry} (h : db.Evolves db') (hk : db'.Keys) {run run' : RunRow}
    (hrun : run ∈ db.runs) (hrun' : run' ∈ db'.runs) (hid : run'.run_id = run.run_id) :
    run.Evolves run' := by
  obtain ⟨next, hnext, hevolves⟩ := h.runs.mem hrun
  have hfound := hk.run?_of_mem hnext
  rw [hevolves.run_id, ← hid, hk.run?_of_mem hrun'] at hfound
  obtain rfl := Option.some.inj hfound
  exact hevolves

/-! ## The two operations that start a run -/

/-- The inserted window is recorded, newly or already. -/
theorem insertTouchedWindow_records (db : Registry) (row : TouchedWindowRow) :
    ∃ r ∈ (db.insertTouchedWindow row).touched_windows, r.family_id = row.family_id ∧
      r.window_start = row.window_start ∧ r.window_end = row.window_end := by
  unfold insertTouchedWindow
  split
  · rename_i h
    obtain ⟨r, hr, hsame⟩ := List.any_eq_true.mp h
    simp only [Bool.and_eq_true, beq_iff_eq] at hsame
    exact ⟨r, hr, hsame.1.1, hsame.1.2, hsame.2⟩
  · exact ⟨row, by simp, rfl, rfl, rfl⟩

theorem insertTouched_ok {family start stop : Text} {touched_at : DateTime} {db db' : Registry}
    {u : Unit} (h : (insertTouched family start stop touched_at).run db = (.ok u, db')) :
    db' = db.insertTouchedWindow ⟨family, start, stop, touched_at.isoformat⟩ :=
  (Except.ok.inj (Program.run_update_ok.mp h)).symm

/-- The row of a registered run gives its identity. -/
theorem runIdentity_of_touch {sha256 : Text → Text} {run_id : Text} {db db' : Registry}
    {touch : Text × Text × Text}
    (h : (touchIdentityForRun sha256 run_id).run db = (.ok touch, db')) :
    ∃ run ∈ db.runs, run.run_id = run_id ∧ ∃ w : DateWindow, db.RunIdentity run touch.1 w ∧
      touch.2.1 = w.start.isoformat ∧ touch.2.2 = w.stop.isoformat := by
  obtain ⟨-, row, hrow, hidentity⟩ := touchIdentityForRun_ok h
  obtain ⟨w, family_id, hwindow, hfamily, hnormal, hstart, hstop⟩ := touchIdentity_ok hidentity
  unfold registeredBinding? at hrow
  split at hrow
  · rename_i run binding hrun hbinding
    split at hrow
    · cases hrow
      obtain ⟨hmem, hid⟩ := run?_some hrun
      obtain ⟨hbmem, hbid⟩ := binding?_some hbinding
      exact ⟨run, hmem, hid, w, ⟨binding, hbmem, hbid.trans hid.symm, hwindow, family_id, hfamily,
        hnormal⟩, hstart, hstop⟩
    · cases hrow
  · cases hrow

/-- Once its derived identity is recorded, the run is touched in every later registry. -/
theorem runTouched_of_touch {sha256 : Text → Text} {run_id : Text} {db db1 db2 db3 : Registry}
    {touch : Text × Text × Text} {touched_at : DateTime} {u : Unit}
    (hidentity : (touchIdentityForRun sha256 run_id).run db = (.ok touch, db1))
    (hinsert : (insertTouched touch.1 touch.2.1 touch.2.2 touched_at).run db2 = (.ok u, db3))
    {db' : Registry} (hbefore : db.Evolves db') (hafter : db3.Evolves db') (hk : db'.Keys) :
    ∀ run ∈ db'.runs, run.run_id = run_id → db'.RunTouched run := by
  intro run' hrun' hid'
  obtain ⟨run, hrun, hid, w, hrunid, hstart, hstop⟩ := runIdentity_of_touch hidentity
  have hevolves := run_evolves hbefore hk hrun hrun' (hid'.trans hid.symm)
  obtain ⟨r, hr, hfamily, hrstart, hrstop⟩ := insertTouchedWindow_records db2
    ⟨touch.1, touch.2.1, touch.2.2, touched_at.isoformat⟩
  rw [← insertTouched_ok hinsert] at hr
  exact ⟨touch.1, w, hrunid.evolves hbefore hk hevolves.run_id hevolves.prediction_id, r,
    hafter.touched_windows.subset hr, hfamily, hrstart.trans hstart, hrstop.trans hstop⟩

theorem startRun_touched {sha256 : Text → Text} {run_id : Text} {started_at : DateTime}
    {db db' : Registry} {u : Unit} (h : (startRun sha256 run_id started_at).run db = (.ok u, db'))
    (hk : db.Keys) : ∀ run ∈ db'.runs, run.run_id = run_id → db'.RunTouched run := by
  have hkeeps := (startRun_keeps sha256 run_id started_at).extends h
  obtain ⟨_, db1, haware, hrest⟩ := Program.run_bind_ok.mp h
  obtain ⟨-, rfl⟩ := Program.run_check_ok.mp haware
  obtain ⟨touch, db2, hidentity, hrest⟩ := Program.run_bind_ok.mp hrest
  obtain ⟨_, db3, -, hrest⟩ := Program.run_bind_ok.mp hrest
  obtain ⟨_, db4, -, hinsert⟩ := Program.run_bind_ok.mp hrest
  exact runTouched_of_touch hidentity hinsert hkeeps.evolves (Evolves.refl _) (hkeeps.keys hk)

theorem createExternalRunImport_touched {sha256 : Text → Text} {e : ExternalRun}
    {db db' : Registry} {u : Unit} (h : (createExternalRunImport sha256 e).run db = (.ok u, db'))
    (hk : db.Keys) : ∀ run ∈ db'.runs, run.run_id = e.run_id → db'.RunTouched run := by
  have hkeeps := (createExternalRunImport_keeps sha256 e).extends h
  obtain ⟨_, db1, -, hbind⟩ := Program.run_bind_ok.mp h
  obtain ⟨_, db2, -, htail⟩ := Program.run_bind_ok.mp hbind
  obtain ⟨touch, db3, hidentity, hupdate⟩ := Program.run_bind_ok.mp htail
  obtain ⟨rfl, row, -, htouch⟩ := touchIdentityForRun_ok hidentity
  obtain ⟨w, -, -, -, -, hstart, hstop⟩ := touchIdentity_ok htouch
  obtain ⟨_, db4, hclaim, htouched⟩ := Program.run_bind_ok.mp hupdate
  have hclaimed : db3.Extends (· = e.run_id) db4 := by
    refine (keeps_executeUpdate fun _ n _ hu => claim_extends hu fun r hr => ?_).extends hclaim
    simp only [Bool.and_eq_true, beq_iff_eq] at hr
    exact ⟨hr.2, hr.1⟩
  obtain ⟨_, db5, hinsert, hrest⟩ := Program.run_bind_ok.mp htouched
  have hinserted : db4.Extends (· = e.run_id) db5 :=
    (insertTouched_keeps hstart hstop _).extends hinsert
  have hafter : db5.Extends (· = e.run_id) db' :=
    (keeps_bind (executeFinish_keeps _ _ _ _) fun _ =>
      keeps_execute fun _ _ => insertExternalRunImport_extends).extends hrest
  exact runTouched_of_touch hidentity hinsert
    ((hclaimed.trans hinserted).trans hafter).evolves hafter.evolves (hkeeps.keys hk)

/-- A run that an operation may start is touched once the operation returns. -/
theorem Operation.claimed_touched {sha256 : Text → Text} {op : Operation} {db db' : Registry}
    {u : Unit} (h : (op.program sha256).run db = (.ok u, db')) (hk : db.Keys) :
    ∀ run ∈ db'.runs, op.claims run.run_id → db'.RunTouched run := by
  cases op with
  | start_run run_id started_at => exact startRun_touched h hk
  | create_external_run_import e => exact createExternalRunImport_touched h hk
  | begin_prediction | commit_prediction | register_capture_request | create_exploratory_run
  | bind_preregistered_run | create_run_result | finish_run | mark_window_touched
  | update_resolution | record_integrity_violation | quarantine_prediction
  | update_touched_windows | delete_touched_windows => exact fun _ _ h => h.elim

/-! ## Transactions -/

/-- An operation that returns keeps the registry lawful. -/
theorem Operation.lawful {sha256 : Text → Text} {op : Operation} {db db' : Registry} {u : Unit}
    (h : (op.program sha256).run db = (.ok u, db')) (hdb : db.Lawful) : db'.Lawful := by
  have hext := (op.program_keeps sha256).extends h
  have hk := hext.keys hdb.keys
  refine ⟨hk, hext.windows hdb.windows, fun run' hrun' hstarted => ?_⟩
  rcases hext.started run' hrun' hstarted with hclaimed | ⟨run, hrun, hid, hwas⟩
  · exact op.claimed_touched h hdb.keys run' hrun' hclaimed
  · have hevolves := run_evolves hext.evolves hk hrun hrun' hid.symm
    exact (hdb.started run hrun hwas).evolves hext.evolves hk hevolves.run_id
      hevolves.prediction_id

/-- A transaction that returns evolves a lawful registry into a lawful one. -/
theorem sequence_lawful {sha256 : Text → Text} {ops : List Operation} {db db' : Registry}
    {u : Unit} (h : (sequence sha256 ops).run db = (.ok u, db')) :
    db.Evolves db' ∧ (db.Lawful → db'.Lawful) := by
  induction ops generalizing db with
  | nil =>
    cases h
    exact ⟨Evolves.refl _, id⟩
  | cons op ops ih =>
    obtain ⟨_, db1, hop, hrest⟩ := Program.run_bind_ok.mp h
    obtain ⟨hevolves, hlawful⟩ := ih hrest
    exact ⟨((op.program_keeps sha256).extends hop).evolves.trans hevolves,
      fun hdb => hlawful (op.lawful hop hdb)⟩

/-- A transaction that returns keeps keys distinct. -/
theorem sequence_keys {sha256 : Text → Text} {ops : List Operation} {db db' : Registry} {u : Unit}
    (h : (sequence sha256 ops).run db = (.ok u, db')) (hdb : db.Keys) : db'.Keys := by
  induction ops generalizing db with
  | nil =>
    cases h
    exact hdb
  | cons op ops ih =>
    obtain ⟨_, db1, hop, hrest⟩ := Program.run_bind_ok.mp h
    exact ih hrest (((op.program_keeps sha256).extends hop).keys hdb)

variable {π : Type}

/-- Transactions of registry operations, interleaved statement by statement. -/
abbrev System (π : Type) := Transaction.State π Registry Error Unit

/-- Every transaction that a run begins is a sequence of operations. -/
def Admitted (sha256 : Text → Text) (trace : List (System π × Transaction.Event π Registry Error Unit)) :
    Prop :=
  ∀ x ∈ trace, ∀ process p, x.2 = .begin process p → ∃ ops, p = sequence sha256 ops

/-- In every reachable state each started run has its window recorded under its family; no recorded
window was removed or altered on the way; and a transaction that raises can only be rolled back,
to the registry that was committed when it began. -/
theorem started_implies_touched (sha256 : Text → Text) {t : System π}
    {trace : List (System π × Transaction.Event π Registry Error Unit)}
    (h : Run Transaction.Step ⟨empty, none⟩ trace t) (hops : Admitted sha256 trace) :
    (∀ run ∈ t.committed.runs, run.execution_started_at ≠ none → t.committed.RunTouched run) ∧
      (∀ x ∈ trace, Grows Eq x.1.committed.touched_windows t.committed.touched_windows) ∧
      ∀ w, t.writer = some w → ∃ b, (b, .begin w.process w.begun) ∈ trace ∧
        (∀ u, Transaction.Step t .abort u → u.committed = b.committed) ∧
        ∀ error, w.rest = .done (.error error) → ∀ e u, Transaction.Step t e u → e = .abort := by
  have hlawful : ∀ {s : System π} {before}, Run Transaction.Step ⟨empty, none⟩ before s →
      Admitted sha256 before → s.committed.Lawful ∧ Transaction.Serial s ∧
        ∀ w, s.writer = some w → ∃ ops, w.begun = sequence sha256 ops := by
    intro s before hrun hadm
    refine Transaction.invariant ?_ hrun rfl hadm lawful_empty
    rintro _ db u db' ⟨ops, rfl⟩ hdb hp
    exact (sequence_lawful hp).2 hdb
  refine ⟨(hlawful h hops).1.started, fun x hx => ?_, fun w hw => ?_⟩
  · obtain ⟨before, after, hbefore, hafter, rfl⟩ := h.split_of_mem hx
    obtain ⟨-, hserial, hwriter⟩ := hlawful hbefore fun y hy => hops y (List.mem_append_left _ hy)
    refine (Transaction.relates Evolves.refl (fun _ _ _ => Evolves.trans) ?_ hafter hserial hwriter
      fun y hy => hops y (List.mem_append_right _ hy)).touched_windows
    rintro p db u db' ⟨ops, rfl⟩ hp
    exact (sequence_lawful hp).1
  · obtain ⟨b, hb, hcommitted⟩ := Transaction.began h rfl hw
    refine ⟨b, hb, fun u hu => ?_, fun error hraised e u hu => hu.raised hw hraised⟩
    rw [hu.committed_eq (by simp), hcommitted]

/-! ## A started exploratory run -/

/-- The canonical envelope of an exploratory run of January 2024. -/
def sampleEnvelope : Text :=
  Json.canonicalText (F := Binary64) (.obj [
    (text "registration_status", .str (text "exploratory")),
    (text "snapshot", .obj [(text "out_of_sample_window", .obj [
      (text "end", .str (text "2024-02-01")), (text "start", .str (text "2024-01-01"))])]),
    (text "strategy_id", .str (text "momentum"))])

/-- The SHA-256 digest of the sample envelope. -/
def sampleDigest : Text :=
  text "e11dde75a31239264aef" ++ text "1e53e61fb0ca1d82ec2d" ++ text "00a1800040788a57272d" ++
    text "e8b2"

/-- A digest that agrees with SHA-256 on the sample envelope. -/
def sampleSha256 (s : Text) : Text := if s = sampleEnvelope then sampleDigest else s

/-- Noon on 1 March 2024, UTC. -/
def sampleTime : DateTime where
  date := ⟨2024, 3, 1, by decide⟩
  hour := 12
  minute := 0
  second := 0
  microsecond := 0
  offset := some ⟨0, by decide⟩
  valid := by decide

/-- Create the exploratory run and start it. -/
def sampleOperations : List Operation :=
  [.create_exploratory_run (text "run_1") sampleTime (text "key") (text "hash") (text "momentum")
    (text "v1") sampleEnvelope (text "sha256:" ++ sampleDigest),
   .start_run (text "run_1") sampleTime]

/-- The registry after the sample operations. -/
def sampleRegistry : Registry := ((sequence sampleSha256 sampleOperations).run empty).2

/-- The run after the sample operations. -/
def sampleRun : RunRow :=
  ⟨text "run_1", none, sampleTime.isoformat, .running, some sampleTime.isoformat, none, none, none⟩

theorem sample_evaluates :
    ((sequence sampleSha256 sampleOperations).run empty).1.isOk = true ∧
      sampleRun ∈ sampleRegistry.runs := by
  decide +kernel

theorem started_implies_touched_sample :
    ∃ (t : System Unit) (run : RunRow), run ∈ t.committed.runs ∧
      run.execution_started_at = some (text "2024-03-01T12:00:00+00:00") ∧
      t.committed.RunTouched run := by
  obtain ⟨hok, hstored⟩ := sample_evaluates
  obtain ⟨_, hreturns⟩ : ∃ u, (sequence sampleSha256 sampleOperations).run empty =
      (.ok u, sampleRegistry) := Program.run_of_isOk hok
  obtain ⟨trace, hrun, hbegin⟩ := Transaction.whole () hreturns
  have hadmitted : Admitted sampleSha256 trace := by
    intro x hx process p hp
    exact ⟨sampleOperations, hbegin x hx process p hp⟩
  have htouched := (started_implies_touched sampleSha256 hrun hadmitted).1 sampleRun hstored
  have hstarted : sampleRun.execution_started_at = some (text "2024-03-01T12:00:00+00:00") := by
    decide +kernel
  exact ⟨⟨sampleRegistry, none⟩, sampleRun, hstored, hstarted, htouched (by rw [hstarted]; simp)⟩

end Registry

end Pine
