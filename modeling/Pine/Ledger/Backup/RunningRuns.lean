import Pine.Ledger.Backup.Create
import Pine.Ledger.External.Imports
import Pine.Ledger.Run.Retry

/-!
# Running runs in a backup

A run becomes running in the transaction that starts it and stops being so in the one
that finishes it, and no other step changes which runs are running. So a published
backup has a running run exactly when one was started between the check and the copy of
its call and not finished before the copy: the check alone does not exclude it, since
starting a run waits for no lock that the call holds.
-/

namespace Pine

namespace Registry

variable {sha256 : Text → Text} {db db' : Registry} {run_id id : Text}

/-- A run that is running after a commit was claimed by it, or was running before. -/
theorem Sound.running_before (claimed : Text → Prop) (hs : db.Sound sha256)
    (hs' : db'.Sound sha256) (hevolves : db.Evolves db')
    (hstarted : ∀ r' ∈ db'.runs, r'.execution_started_at ≠ none →
      claimed r'.run_id ∨ ∃ r ∈ db.runs, r.run_id = r'.run_id ∧ r.execution_started_at ≠ none)
    (h : db'.Running run_id) : claimed run_id ∨ db.Running run_id := by
  obtain ⟨run', hrun', rfl, hstate⟩ := h
  have hstarted' : run'.execution_started_at ≠ none :=
    (hs'.lifecycle run' hrun').started_iff.mp (by rw [hstate]; decide)
  rcases hstarted run' hrun' hstarted' with hclaim | ⟨run, hrun, hid, hwas⟩
  · exact Or.inl hclaim
  · refine Or.inr ⟨run, hrun, hid, ?_⟩
    have hnext := run_evolves hevolves hs'.lawful.keys hrun hrun' hid.symm
    have hnot : run.state ≠ .registered := (hs.lifecycle run hrun).started_iff.mpr hwas
    cases hbefore : run.state with
    | registered => exact absurd hbefore hnot
    | running => rfl
    | completed | failed =>
      rw [hnext.terminal (by rw [hbefore]; rfl), hbefore] at hstate
      cases hstate

/-- Starting a run adds it to the running ones. -/
theorem running_startRun {started_at : DateTime} {u : Unit} (hs : db.Sound sha256)
    (hverified : db.Verified sha256 run_id)
    (h : (startRun sha256 run_id started_at).run db = (.ok u, db')) :
    db'.Running id ↔ run_id = id ∨ db.Running id := by
  have hext := (startRun_keeps sha256 run_id started_at).extends h
  have hspares : db.Spares (fun _ => False) db' := (startRun_sparing sha256 _ started_at).spares h
  refine ⟨fun hrunning => ?_, ?_⟩
  · exact (hs.running_before (· = run_id) (hs.startRun hverified h) hext.evolves hext.started
      hrunning).imp Eq.symm fun hbefore => hbefore
  · rintro (rfl | hrunning)
    · exact (startRun_ok h).2
    · exact hrunning.spared hspares not_false

/-- Finishing a run takes it out of the running ones. -/
theorem running_finishRun {completed_at : DateTime} {exit_code : Int} {note : Option Text}
    {u : Unit} (hs : db.Sound sha256)
    (h : (finishRun run_id completed_at exit_code note).run db = (.ok u, db')) :
    db'.Running id ↔ run_id ≠ id ∧ db.Running id := by
  have hspares := (Operation.program_sparing sha256
    (.finish_run run_id completed_at exit_code note)).spares h
  have hext := finishRun_extends sha256 h
  refine ⟨fun hrunning => ⟨?_, ?_⟩, fun ⟨hne, hrunning⟩ => hrunning.spared hspares hne.symm⟩
  · rintro rfl
    obtain ⟨n, db1, hupdate, hcheck⟩ := Program.run_bind_ok.mp h
    obtain ⟨-, rfl⟩ := Program.run_check_ok.mp hcheck
    obtain ⟨rfl, -, -⟩ := updateRuns_ok (executeFinish_ok hupdate)
    obtain ⟨run', hrun', hid, hstate⟩ := hrunning
    obtain ⟨run, -, rfl⟩ := List.mem_map.mp hrun'
    split at hstate
    · have hterminal : terminalState exit_code note = .running := hstate
      unfold terminalState at hterminal
      split at hterminal <;> cases hterminal
    · rename_i hnot
      rw [if_neg hnot] at hid
      simp [hid, hstate] at hnot
  · exact (hs.running_before (fun _ => False) (hs.finishRun h) hext.evolves hext.started
      hrunning).resolve_left not_false

end Registry

/-- A transaction of another service changes nothing about what is running. -/
theorem ServiceTransaction.running {sha256 : Text → Text} {t : ServiceTransaction}
    {db db' : Registry} {u : Unit} {id : Text} (hadmitted : t.admitted = true)
    (h : (t.program sha256).run db = (.ok u, db')) (hs : db.Sound sha256) :
    db'.Running id ↔ db.Running id := by
  obtain ⟨hs', hevolves, hspares⟩ := t.committed hadmitted h hs
  refine ⟨fun hrunning => ?_, fun hrunning => hrunning.spared hspares not_false⟩
  cases t with
  | operations ops =>
    obtain ⟨hext, -⟩ := Registry.sequence_foreign (List.all_eq_true.mp hadmitted) h
    exact (hs.running_before (fun _ => False) hs' hevolves hext.started hrunning).resolve_left
      not_false
  | ingest e =>
    obtain ⟨himport, -⟩ := Registry.ingestExternal_ok h
    have hext := (Registry.createExternalRunImport_keeps sha256 e).extends himport
    refine (hs.running_before (· = e.run_id) hs' hevolves hext.started hrunning).resolve_left ?_
    -- the imported run is terminal by the end of its transaction
    rintro rfl
    obtain ⟨run, _, hrun, -, -, hterminal, -⟩ :=
      Registry.isLowIntegrityTerminal_some (Registry.createExternalRunImport_ok himport).2.2
    obtain ⟨running, hmem, hid, hstate⟩ := hrunning
    have hfound := hs'.lawful.keys.run?_of_mem hmem
    rw [hid, hrun] at hfound
    obtain rfl := Option.some.inj hfound
    rw [hstate] at hterminal
    cases hterminal

/-! ## Which steps start and finish runs -/

namespace Wrappers

variable {π : Type} {sha256 : Text → Text} {s t : Wrappers π} {a : Action π} {run_id : Text}

/-- The step commits the transaction that starts the run. -/
def Starts (sha256 : Text → Text) (s : Wrappers π) (a : Action π) (run_id : Text) : Prop :=
  ∃ p prepared started_at, a = .move p (.start started_at) ∧ s.phase p = .verified prepared ∧
    prepared.run_id = run_id ∧
    ((Registry.startRun sha256 run_id started_at).run s.registry).1.isOk = true

/-- The step commits the transaction that finishes the run. -/
def Finishes (s : Wrappers π) (a : Action π) (run_id : Text) : Prop :=
  ∃ p ending completed_at, a = .move p (.finish completed_at) ∧ s.phase p = .ending run_id ending ∧
    ((Registry.finishRun run_id completed_at ending.exitCode ending.failureNote).run
      s.registry).1.isOk = true

theorem not_starts_move {p : π} {m : Move} (h : ∀ started_at, m ≠ .start started_at) :
    ¬ s.Starts sha256 (.move p m) run_id := by
  rintro ⟨_, _, started_at, heq, -⟩
  cases heq
  exact h started_at rfl

theorem not_finishes_move {p : π} {m : Move} (h : ∀ completed_at, m ≠ .finish completed_at) :
    ¬ s.Finishes (.move p m) run_id := by
  rintro ⟨_, _, completed_at, heq, -⟩
  cases heq
  exact h completed_at rfl

variable [DecidableEq π]

/-- Only starting and finishing a run change the registry. -/
theorem advance_registry {p : π} {m : Move} (h : s.advance sha256 p m (s.phase p) = some t)
    (hstart : ∀ started_at, m ≠ .start started_at)
    (hfinish : ∀ completed_at, m ≠ .finish completed_at) : t.registry = s.registry := by
  generalize s.phase p = phase at h
  unfold Wrappers.advance at h
  split at h
  · cases h
    rfl
  · cases h
    rfl
  · cases h
    unfold Wrappers.acquire
    split <;> rfl
  · cases h
    rfl
  · exact absurd rfl (hstart _)
  · cases h
    unfold Wrappers.invoke
    split <;> rfl
  · split at h
    · cases h
    · cases h
      rfl
  · exact absurd rfl (hfinish _)
  · cases h
    rfl
  · cases h
    rfl
  · cases h
    rfl
  · obtain ⟨next, -, rfl⟩ := Option.map_eq_some_iff.mp h
    rfl
  · cases h
    rfl
  · cases h

/-- A run is running when the step started it, or it was before and the step did not finish it. -/
theorem Safe.running_start (hs : Safe sha256 s) {p : π} {started_at : DateTime}
    (h : s.advance sha256 p (.start started_at) (s.phase p) = some t) :
    t.registry.Running run_id ↔
      s.Starts sha256 (.move p (.start started_at)) run_id ∨ s.registry.Running run_id := by
  generalize hphase : s.phase p = phase at h
  cases phase with
  | verified prepared =>
    have hverified : s.registry.Verified sha256 prepared.run_id := by
      have hsound := hs.phases p
      rwa [hphase] at hsound
    obtain rfl := Option.some.inj h
    have hstarts : s.Starts sha256 (.move p (.start started_at)) run_id ↔ prepared.run_id = run_id ∧
        ((Registry.startRun sha256 run_id started_at).run s.registry).1.isOk = true := by
      constructor
      · rintro ⟨q, other, at', heq, hother, hid, hok⟩
        cases heq
        rw [hphase] at hother
        cases hother
        exact ⟨hid, hok⟩
      · exact fun ⟨hid, hok⟩ => ⟨p, prepared, started_at, rfl, hphase, hid, hok⟩
    rw [hstarts]
    unfold Wrappers.start
    split
    · rename_i u db hrun
      change db.Running run_id ↔ _
      rw [Registry.running_startRun hs.registry hverified hrun]
      refine or_congr_left ⟨?_, And.left⟩
      rintro rfl
      exact ⟨rfl, by rw [hrun]; rfl⟩
    · rename_i e _ hrun
      refine ⟨Or.inr, fun h => h.resolve_left ?_⟩
      rintro ⟨rfl, hok⟩
      rw [hrun] at hok
      cases hok
  | _ => cases h

theorem Safe.running_finish (hs : Safe sha256 s) {p : π} {completed_at : DateTime}
    (h : s.advance sha256 p (.finish completed_at) (s.phase p) = some t) :
    t.registry.Running run_id ↔
      s.registry.Running run_id ∧ ¬ s.Finishes (.move p (.finish completed_at)) run_id := by
  generalize hphase : s.phase p = phase at h
  cases phase with
  | ending id ending =>
    obtain rfl := Option.some.inj h
    have hfinishes : s.Finishes (.move p (.finish completed_at)) run_id ↔ id = run_id ∧
        ((Registry.finishRun id completed_at ending.exitCode ending.failureNote).run
          s.registry).1.isOk = true := by
      constructor
      · rintro ⟨q, other, at', heq, hother, hok⟩
        cases heq
        rw [hphase] at hother
        cases hother
        exact ⟨rfl, hok⟩
      · rintro ⟨rfl, hok⟩
        exact ⟨p, ending, completed_at, rfl, hphase, hok⟩
    rw [hfinishes]
    unfold Wrappers.finish
    split
    · rename_i u db hrun
      change db.Running run_id ↔ _
      rw [Registry.running_finishRun hs.registry hrun, and_comm]
      refine and_congr_right fun _ => not_congr ⟨fun hid => ⟨hid, ?_⟩, And.left⟩
      rw [hrun]
      rfl
    · rename_i e _ hrun
      refine ⟨fun h => ⟨h, ?_⟩, And.left⟩
      rintro ⟨-, hok⟩
      rw [hrun] at hok
      cases hok
  | _ => cases h

/-- What runs after a step: what it started, and what ran before and it did not finish. -/
theorem Safe.running_step (hs : Safe sha256 s) (h : Step sha256 s a t) :
    t.registry.Running run_id ↔
      s.Starts sha256 a run_id ∨ s.registry.Running run_id ∧ ¬ s.Finishes a run_id := by
  cases a with
  | service transaction =>
    obtain ⟨hadmitted, db, hrun, rfl⟩ := serve_ok h
    have hstarts : ¬ s.Starts sha256 (.service transaction) run_id := by
      rintro ⟨_, _, _, heq, -⟩
      cases heq
    have hfinishes : ¬ s.Finishes (.service transaction) run_id := by
      rintro ⟨_, _, _, heq, -⟩
      cases heq
    change db.Running run_id ↔ _
    rw [transaction.running hadmitted hrun hs.registry]
    exact ⟨fun h => Or.inr ⟨h, hfinishes⟩, fun h => (h.resolve_left hstarts).1⟩
  | move p m =>
    by_cases hstart : ∃ started_at, m = .start started_at
    · obtain ⟨started_at, rfl⟩ := hstart
      rw [hs.running_start h]
      exact or_congr_right ⟨fun h => ⟨h, not_finishes_move nofun⟩, And.left⟩
    by_cases hfinish : ∃ completed_at, m = .finish completed_at
    · obtain ⟨completed_at, rfl⟩ := hfinish
      rw [hs.running_finish h]
      exact ⟨Or.inr, fun h => h.resolve_left (not_starts_move nofun)⟩
    rw [advance_registry h (fun at' heq => hstart ⟨at', heq⟩) fun at' heq => hfinish ⟨at', heq⟩]
    exact ⟨fun h => Or.inr ⟨h, not_finishes_move fun at' heq => hfinish ⟨at', heq⟩⟩,
      fun h => (h.resolve_left (not_starts_move fun at' heq => hstart ⟨at', heq⟩)).1⟩

end Wrappers

/-! ## What a copy contains -/

namespace Backups

variable {π β : Type} {sha256 : Text → Text} {s t : Backups π β}
  {trace : List (Backups π β × Action π β)} {b c : β} {run_id : Text}

/-- The step starts the run. -/
def Starts (sha256 : Text → Text) (run_id : Text) (x : Backups π β × Action π β) : Prop :=
  ∃ a, x.2 = .other a ∧ x.1.wrappers.Starts sha256 a run_id

/-- The step finishes the run. -/
def Finishes (run_id : Text) (x : Backups π β × Action π β) : Prop :=
  ∃ a, x.2 = .other a ∧ x.1.wrappers.Finishes a run_id

/-- The steps of a trace that were taken between the check and the copy of the call. -/
def sinceCheck (b : β) (trace : List (Backups π β × Action π β)) :
    List (Backups π β × Action π β) :=
  trace.filter fun x => (x.1.phase b).isChecked

/-- The run was started between the check and the copy of the call, and not finished since. -/
def LeftRunning (sha256 : Text → Text) (b : β) (trace : List (Backups π β × Action π β))
    (run_id : Text) : Prop :=
  Since (Starts sha256 run_id) (Finishes run_id) (sinceCheck b trace)

/-- What a phase of a call knows of the running runs: those that were left running since its
check. -/
def Knows (sha256 : Text → Text) (db : Registry) (trace : List (Backups π β × Action π β))
    (b : β) : BackupPhase → Prop
  | .idle | .called | .locked => ∀ id, ¬ LeftRunning sha256 b trace id
  | .checked => ∀ id, db.Running id ↔ LeftRunning sha256 b trace id
  | .copied registry | .unlocked registry | .published registry =>
    ∀ id, registry.Running id ↔ LeftRunning sha256 b trace id
  | .failed _ | .dead => True

/-- A step outside the interval between check and copy leaves no run running in it. -/
theorem leftRunning_skip {a : Action π β} (h : (s.phase b).isChecked = false) :
    LeftRunning sha256 b (trace ++ [(s, a)]) run_id ↔ LeftRunning sha256 b trace run_id := by
  simp [LeftRunning, sinceCheck, h]

theorem leftRunning_snoc {a : Action π β} (h : (s.phase b).isChecked = true) :
    LeftRunning sha256 b (trace ++ [(s, a)]) run_id ↔ Starts sha256 run_id (s, a) ∨
      LeftRunning sha256 b trace run_id ∧ ¬ Finishes run_id (s, a) := by
  rw [LeftRunning, show sinceCheck b (trace ++ [(s, a)]) = sinceCheck b trace ++ [(s, a)] by
    simp [sinceCheck, h], since_snoc, LeftRunning]

/-- A step of a backup neither starts nor finishes a run. -/
theorem leftRunning_backup {m : Move} :
    LeftRunning sha256 b (trace ++ [(s, .backup c m)]) run_id ↔
      LeftRunning sha256 b trace run_id := by
  cases h : (s.phase b).isChecked with
  | false => exact leftRunning_skip h
  | true =>
    have hstarts : ¬ Starts sha256 run_id (s, .backup c m) := by
      rintro ⟨_, heq, -⟩
      cases heq
    have hfinishes : ¬ Finishes run_id (s, .backup c m) := by
      rintro ⟨_, heq, -⟩
      cases heq
    rw [leftRunning_snoc h]
    exact ⟨fun h => (h.resolve_left hstarts).1, fun h => Or.inr ⟨h, hfinishes⟩⟩

theorem knows_backup {db : Registry} {m : Move} {phase : BackupPhase} :
    Knows sha256 db (trace ++ [(s, .backup c m)]) b phase ↔ Knows sha256 db trace b phase := by
  cases phase <;> simp only [Knows, leftRunning_backup]

/-- The question for running runs finds none exactly when there is none. -/
theorem runningRuns_eq_zero {db : Registry} : db.runningRuns = 0 ↔ ∀ id, ¬ db.Running id := by
  rw [Registry.runningRuns, List.countP_eq_zero]
  constructor
  · rintro h id ⟨run, hrun, -, hstate⟩
    exact h run hrun (by rw [hstate]; rfl)
  · intro h run hrun hstate
    exact h run.run_id ⟨run, hrun, rfl, eq_of_beq hstate⟩

variable [DecidableEq π]

/-- A step of a run process or of another service is seen by every call between its check and its
copy. -/
theorem knows_other {phase : BackupPhase} (hs : s.wrappers.Safe sha256)
    (h : Knows sha256 s.wrappers.registry trace b (s.phase b)) {a : Wrappers.Action π}
    {w : Wrappers π} (hstep : Wrappers.Step sha256 s.wrappers a w) (hphase : s.phase b = phase) :
    Knows sha256 w.registry (trace ++ [(s, .other a)]) b phase := by
  rw [hphase] at h
  cases phase with
  | idle | called | locked =>
    exact fun id => mt (leftRunning_skip (by rw [hphase]; rfl)).mp (h id)
  | checked =>
    intro id
    have hstarts : Starts sha256 id (s, .other a) ↔ s.wrappers.Starts sha256 a id := by
      simp [Starts]
    have hfinishes : Finishes id (s, .other a) ↔ s.wrappers.Finishes a id := by simp [Finishes]
    rw [leftRunning_snoc (by rw [hphase]; rfl), hstarts, hfinishes]
    exact (hs.running_step hstep).trans (or_congr_right (and_congr_left fun _ => h id))
  | copied registry | unlocked registry | published registry =>
    exact fun id => (h id).trans (leftRunning_skip (by rw [hphase]; rfl)).symm
  | failed e | dead => trivial

/-- An error leaves nothing to know. -/
theorem raised_failed {phase next : BackupPhase} {e : Error} (h : phase.raised e = some next) :
    next = .failed e := by
  cases phase <;> cases h <;> rfl

theorem killed_dead {phase next : BackupPhase} (h : phase.killed = some next) : next = .dead := by
  cases phase <;> cases h <;> rfl

variable [DecidableEq β]

omit [DecidableEq π] in
/-- A step of a call leaves the run processes and the other calls alone, and leads to a phase that
knows the running runs. -/
theorem knows_advance {m : Move} (h : Knows sha256 s.wrappers.registry trace b (s.phase b))
    (hstep : s.advance b m (s.phase b) = some t) :
    t.wrappers = s.wrappers ∧ (∀ c, c ≠ b → t.phase c = s.phase c) ∧
      Knows sha256 s.wrappers.registry trace b (t.phase b) := by
  have hentered : ∀ (u : Backups π β) (next : BackupPhase), (u.enter b next).phase b = next :=
    fun u next => Function.update_self _ _ _
  have hothers : ∀ (u : Backups π β) (next : BackupPhase) (c : β), c ≠ b →
      (u.enter b next).phase c = u.phase c := fun u next c hc => Function.update_of_ne hc _ _
  generalize s.phase b = phase at h hstep
  unfold advance at hstep
  split at hstep
  · cases hstep
    exact ⟨rfl, hothers s _, by rw [hentered]; exact h⟩
  · split at hstep
    · cases hstep
      exact ⟨rfl, hothers (s.lock b) _, by rw [hentered]; exact h⟩
    · cases hstep
  · cases hstep
    unfold check
    split
    · rename_i hzero
      refine ⟨rfl, hothers s _, ?_⟩
      rw [hentered]
      exact fun id => iff_of_false (runningRuns_eq_zero.mp hzero id) (h id)
    · exact ⟨rfl, hothers (s.unlock b) _, by rw [hentered]; trivial⟩
  · cases hstep
    exact ⟨rfl, hothers s _, by rw [hentered]; exact h⟩
  · cases hstep
    exact ⟨rfl, hothers (s.unlock b) _, by rw [hentered]; exact h⟩
  · cases hstep
    exact ⟨rfl, hothers s _, by rw [hentered]; exact h⟩
  · obtain ⟨next, hnext, rfl⟩ := Option.map_eq_some_iff.mp hstep
    refine ⟨rfl, hothers (s.unlock b) _, ?_⟩
    rw [hentered, raised_failed hnext]
    trivial
  · obtain ⟨next, hnext, rfl⟩ := Option.map_eq_some_iff.mp hstep
    refine ⟨rfl, hothers (s.unlock b) _, ?_⟩
    rw [hentered, killed_dead hnext]
    trivial
  · cases hstep

omit [DecidableEq β] in
/-- A step of a run process or of another service moves no call. -/
theorem serve_ok {a : Wrappers.Action π} (h : s.serve sha256 a = some t) :
    ∃ w, Wrappers.Step sha256 s.wrappers a w ∧ t = { s with wrappers := w } := by
  unfold serve at h
  split at h
  · cases h
  · obtain ⟨w, hw, rfl⟩ := Option.map_eq_some_iff.mp h
    exact ⟨w, hw, rfl⟩

/-- In every reachable state the run processes are safe, and every call knows the running runs. -/
theorem knows_of_run (h : Run (Step sha256) initial trace s) :
    s.wrappers.Safe sha256 ∧ ∀ b, Knows sha256 s.wrappers.registry trace b (s.phase b) := by
  induction h with
  | nil => exact ⟨Wrappers.safe_initial, fun b id hleft => not_since_nil hleft⟩
  | @snoc t u trace a hrun hstep ih =>
    obtain ⟨hsafe, hknows⟩ := ih
    cases a with
    | other a =>
      obtain ⟨w, hw, rfl⟩ := serve_ok hstep
      exact ⟨hsafe.step hw, fun b => knows_other hsafe (hknows b) hw rfl⟩
    | backup b m =>
      obtain ⟨hwrappers, hothers, hnext⟩ := knows_advance (hknows b) hstep
      rw [hwrappers]
      refine ⟨hsafe, fun c => knows_backup.mpr ?_⟩
      by_cases hc : c = b
      · rw [hc]
        exact hnext
      · rw [hothers c hc]
        exact hknows c

/-- A published backup has no running run exactly when no run was started between the check and the
copy of its call and was not finished before the copy. -/
theorem published_quiet_iff (h : Run (Step sha256) initial trace s) {registry : Registry}
    (hb : s.phase b = .published registry) :
    (∀ run ∈ registry.runs, run.state ≠ .running) ↔
      ∀ run_id, ¬ LeftRunning sha256 b trace run_id := by
  have hknows := (knows_of_run h).2 b
  rw [hb] at hknows
  constructor
  · intro hquiet run_id hleft
    obtain ⟨run, hrun, -, hstate⟩ := (hknows run_id).mpr hleft
    exact hquiet run hrun hstate
  · intro hnone run hrun hstate
    exact hnone run.run_id ((hknows run.run_id).mp ⟨run, hrun, rfl, hstate⟩)

/-! ## A run started behind the check -/

/-- The run is created, and verified by the process that is to execute it. -/
def sampleVerified : List (Action Bool Unit) :=
  (Wrappers.sampleExecution.take 5).map .other

/-- The backup checks, the run starts, and the backup copies and publishes. -/
def sampleOverlap : List (Action Bool Unit) :=
  sampleVerified ++ [.backup () .call, .backup () .acquire, .backup () .check,
    .other (.move true (.start Registry.sampleTime)), .backup () .copy, .backup () .release,
    .backup () .publish]

theorem sample_overlaps :
    (follow (step Wrappers.sampleSha256) initial sampleOverlap).any (fun s =>
      match s.phase () with
      | .published registry => registry.runningRuns == 1
      | _ => false) = true := by
  decide +kernel

/-- A backup is published with a run in progress. -/
theorem published_backup_captures_running_run :
    ∃ (trace : List (Backups Bool Unit × Action Bool Unit)) (s : Backups Bool Unit)
      (registry : Registry), Run (Step Wrappers.sampleSha256) initial trace s ∧
        s.phase () = .published registry ∧ ∃ run ∈ registry.runs, run.state = .running := by
  obtain ⟨s, hfollow, hstate⟩ := (Option.any_eq_true _ _).mp sample_overlaps
  obtain ⟨trace, hrun, -⟩ := Run.of_follow hfollow
  cases hphase : s.phase () with
  | published registry =>
    rw [hphase] at hstate
    have hcount : 0 < registry.runningRuns := by rw [eq_of_beq hstate]; exact Nat.one_pos
    obtain ⟨run, hmem, hrunning⟩ := List.countP_pos_iff.mp hcount
    exact ⟨trace, s, registry, hrun, hphase, run, hmem, eq_of_beq hrunning⟩
  | _ =>
    rw [hphase] at hstate
    cases hstate

/-- The run is executed to its end while the backup stands behind its check. -/
def sampleFinished : List (Action Bool Unit) :=
  sampleVerified ++ [.backup () .call, .backup () .acquire, .backup () .check] ++
    ((Wrappers.sampleExecution.drop 5).take 4).map .other ++
    [.backup () .copy, .backup () .release, .backup () .publish]

theorem sample_finishes :
    (follow (step Wrappers.sampleSha256) initial sampleFinished).any (fun s =>
      match s.phase () with
      | .published registry => registry.runs == [Wrappers.sampleCompleted]
      | _ => false) = true := by
  decide +kernel

theorem published_quiet_iff_sample :
    ∃ (trace : List (Backups Bool Unit × Action Bool Unit)) (s : Backups Bool Unit)
      (registry : Registry), Run (Step Wrappers.sampleSha256) initial trace s ∧
        s.phase () = .published registry ∧ registry.runs = [Wrappers.sampleCompleted] ∧
        ∀ run_id, ¬ LeftRunning Wrappers.sampleSha256 () trace run_id := by
  obtain ⟨s, hfollow, hstate⟩ := (Option.any_eq_true _ _).mp sample_finishes
  obtain ⟨trace, hrun, -⟩ := Run.of_follow hfollow
  cases hphase : s.phase () with
  | published registry =>
    rw [hphase] at hstate
    have hruns := eq_of_beq hstate
    refine ⟨trace, s, registry, hrun, hphase, hruns, (published_quiet_iff hrun hphase).mp ?_⟩
    rw [hruns]
    decide
  | _ =>
    rw [hphase] at hstate
    cases hstate

end Backups

end Pine
