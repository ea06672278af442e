import Pine.Ledger.Writer.Staging

/-!
# Consistency after recovery

The write as a whole, and its runs: whatever raised or died before, a write or a
recovery that returns leaves a committed prediction with both of its files, or no file
of the write at all.
-/

namespace Pine

open Procedure Writing

namespace PlannedWrite

variable {j : PlannedWrite} {m : Option Bool} {s t : Site}

/-! ## The transaction around it -/

/-- The row is committed, and only the manifest and temporary files are left to remove. -/
structure Landed (j : PlannedWrite) (m : Option Bool) (s : Site) : Prop extends
    j.Recoverable m s where
  landed : j.Committed s
  temp_gone : s.disk.get? j.paths.manifest_temp = none

theorem kept_landed : Kept j.environment (j.Landed m) := kept fun _ h => ⟨m, h.toRecoverable⟩

/-- Some site that a death may leave. -/
def AnyRecoverable (j : PlannedWrite) (s : Site) : Prop := ∃ m, j.Recoverable m s

/-- Some settled site. -/
def AnySettled (j : PlannedWrite) (s : Site) : Prop := ∃ m, j.Settled m s

/-- Whoever remembers an unfinished staged write can still roll it back, or has committed it. -/
structure Recallable (j : PlannedWrite) (s : Site) : Prop where
  recoverable : j.AnyRecoverable s
  unfinished : s.staged = some false → j.Rollbackable (some false) s ∨ j.Landed (some false) s

theorem kept_recallable : Kept j.environment (j.Recallable) := kept fun _ h => h.recoverable

/-- What the body of a write leaves for its `else` clause. -/
def Finished (j : PlannedWrite) (finished : Bool) (s : Site) : Prop :=
  if finished then j.Settled (some true) s else j.Landed (some false) s

theorem Recoverable.recallable_of_memory (h : j.Recoverable m s) (hm : m ≠ some false) :
    j.Recallable s :=
  ⟨⟨m, h⟩, fun hstaged => absurd (h.memory.symm.trans hstaged) hm⟩

theorem Landed.recallable (h : j.Landed (some false) s) : j.Recallable s :=
  ⟨⟨_, h.toRecoverable⟩, fun _ => Or.inr h⟩

theorem Rollbackable.recallable (h : j.Rollbackable (some false) s) : j.Recallable s :=
  ⟨⟨_, h.recoverable⟩, fun _ => Or.inl h⟩

theorem Finished.recallable {finished : Bool} (h : j.Finished finished s) : j.Recallable s := by
  cases finished with
  | true => exact Recoverable.recallable_of_memory (Settled.toRecoverable h) (by simp)
  | false => exact Landed.recallable h

theorem kept_finished (finished : Bool) : Kept j.environment (j.Finished finished) :=
  kept fun _ h => h.recallable.recoverable

/-- What the disk and the registry say does not depend on the memory of the process. -/
theorem Ground.remember (h : j.Ground m s) (n : Option Bool) :
    j.Ground n { s with staged := n } where
  keys := h.keys
  tx_keys := h.tx_keys
  manifest := h.manifest
  unrelated := h.unrelated
  memory := rfl

theorem Recoverable.remember (h : j.Recoverable m s) (n : Option Bool) :
    j.Recoverable n { s with staged := n } :=
  ⟨h.toGround.remember n, h.committed, fun hu =>
    (h.uncommitted hu).imp id fun habsent => habsent.of_disk rfl⟩

theorem Ready.remember (h : j.Ready m s) (n : Option Bool) : j.Ready n { s with staged := n } :=
  { h with toGround := h.toGround.remember n }

theorem Opened.remember (h : j.Opened m s) (n : Option Bool) : j.Opened n { s with staged := n } :=
  ⟨⟨h.toRecoverable.remember n, h.manifest_gone, h.manifest_temp_gone⟩, h.tx⟩

/-- Ending the transaction without a commit. -/
theorem Ground.closed (h : j.Ground m s) : j.Ground m { s with tx := none } where
  keys := h.keys
  tx_keys _ hdb := by cases hdb
  manifest := h.manifest
  unrelated := h.unrelated
  memory := h.memory

theorem Recoverable.closed (h : j.Recoverable m s) : j.Recoverable m { s with tx := none } :=
  ⟨h.toGround.closed, h.committed, fun hu =>
    (h.uncommitted hu).imp id fun habsent => habsent.of_disk rfl⟩

theorem Recallable.closed (h : j.Recallable s) : j.Recallable { s with tx := none } := by
  obtain ⟨⟨m, hs⟩, hunfinished⟩ := h
  refine ⟨⟨m, hs.closed⟩, fun hstaged => ?_⟩
  rcases hunfinished hstaged with hr | hl
  · exact Or.inl ⟨hr.toGround.closed, hr.uncommitted,
      hr.there.imp id fun habsent => habsent.of_disk rfl, hr.record_owned, hr.snapshot_owned⟩
  · exact Or.inr ⟨hl.toRecoverable.closed, hl.landed, hl.temp_gone⟩

theorem Settled.closed (h : j.Settled m s) : j.Settled m { s with tx := none } :=
  ⟨h.toRecoverable.closed, h.manifest_gone, h.manifest_temp_gone⟩

/-- A commit publishes the transaction that has the row, with both files in place. -/
theorem Ready.commit (h : j.Ready m s) {db : Registry} (htx : s.tx = some db) :
    j.Landed m { s with registry := db, tx := none } := by
  have hkeys := h.tx_keys db htx
  have hcommitted : j.Committed { s with registry := db, tx := none } := by
    obtain ⟨db', p, hdb, hp, hid, hstate⟩ := h.transacted
    obtain rfl := Option.some.inj (htx.symm.trans hdb)
    have hfound : db.prediction? j.paths.prediction_id = some p := hid ▸ hkeys.prediction?_of_mem hp
    simp [Committed, Site.isCommitted, hfound, hstate]
  refine ⟨⟨⟨hkeys, by simp, h.manifest, h.unrelated, h.memory⟩, fun _ => h.published,
    fun hu => absurd hcommitted hu⟩, hcommitted, h.temp_gone⟩

/-- A commit of a transaction that wrote nothing. -/
theorem Opened.commit (h : j.Opened m s) {db : Registry} (htx : s.tx = some db) :
    j.Settled m { s with registry := db, tx := none } := by
  obtain rfl := Option.some.inj (h.tx.symm.trans htx)
  exact h.toSettled.closed

theorem succeeds_writeSteps' (hunreadable : j.SnapshotUnreadable) :
    Succeeds j.environment j.Recallable (j.Settled none) j.Finished
      (writeSteps j.safeDump j.paths j.prepared) := by
  have hnone : ∀ s, j.Recoverable none s → j.Recallable s :=
    fun s hs => hs.recallable_of_memory (by simp)
  refine Succeeds.bind (R := fun _ => j.Opened none) (succeeds_act
    (kept fun _ h => ⟨_, h.toRecoverable⟩) (fun s h => hnone s h.toRecoverable) ?_) fun _ => ?_
  · intro s t hs _ heffect
    split at heffect
    · cases heffect
      exact ⟨⟨⟨hs.toGround.transact hs.keys, hs.committed, fun hu =>
        (hs.uncommitted hu).imp id fun habsent => habsent.of_disk rfl⟩, hs.manifest_gone,
        hs.manifest_temp_gone⟩, rfl⟩
    · cases heffect
  refine Succeeds.bind ((succeeds_stageWrite' hunreadable).mono (fun _ _ h => h) hnone)
    fun finished => ?_
  refine Succeeds.bind (R := fun _ s => if finished then j.Opened (some true) s else
    j.Ready (some false) s) ?_ fun _ => ?_
  · cases finished with
    | true =>
      refine succeeds_act kept_opened (fun s h => hnone s h.toRecoverable) fun s t hs _ heffect => ?_
      cases heffect
      exact Opened.remember hs (some true)
    | false =>
      refine succeeds_act (kept_rollbackable fun _ h => Ready.rollbackable h)
        (fun s h => hnone s (Ready.rollbackable h).recoverable) fun s t hs _ heffect => ?_
      cases heffect
      exact Ready.remember hs (some false)
  refine Succeeds.bind (R := fun _ => j.Finished finished) ?_ fun _ =>
    succeeds_done (fun a ha _ h => by cases ha; exact h) fun _ h => h.recallable
  refine Succeeds.bind (R := fun _ => j.Finished finished) ?_ fun _ =>
    (triple_fsync (kept_finished finished)).mono (fun _ _ h => h) fun _ h => h.recallable
  cases finished with
  | true =>
    refine succeeds_act kept_opened
      (fun s h => Recoverable.recallable_of_memory
      (Settled.toRecoverable (Opened.toSettled h)) (by simp)) fun s t hs _ heffect => ?_
    split at heffect
    · cases heffect
      exact Opened.commit hs ‹_›
    · cases heffect
  | false =>
    refine succeeds_act (kept_rollbackable fun _ h => Ready.rollbackable h)
      (fun s h => (Ready.rollbackable h).recallable) fun s t hs _ heffect => ?_
    split at heffect
    · cases heffect
      exact Ready.commit hs ‹_›
    · cases heffect

/-! ## Its handlers -/

theorem succeeds_settleStaged :
    Succeeds j.environment j.AnyRecoverable
      (fun s => j.Rollbackable (some false) s ∨ j.Landed (some false) s)
      (fun _ => j.AnyRecoverable) (settleStaged j.paths) := by
  have hrecoverable : ∀ s, j.Rollbackable (some false) s ∨ j.Landed (some false) s →
      j.AnyRecoverable s := by
    rintro s (h | h)
    · exact ⟨_, h.recoverable⟩
    · exact ⟨_, h.toRecoverable⟩
  refine Succeeds.bind (R := fun answer s => (j.Rollbackable (some false) s ∨ j.Landed (some false) s) ∧
    ∀ committed, answer = some committed → (committed = true ↔ j.Committed s)) ?_ fun answer => ?_
  · refine Succeeds.handle (R := fun committed s => (j.Rollbackable (some false) s ∨
      j.Landed (some false) s) ∧ (committed = true ↔ j.Committed s))
      (F := fun s => j.Rollbackable (some false) s ∨ j.Landed (some false) s) ?_ (fun committed => ?_)
      fun e => ?_
    · refine fun s hs => safe_ask hs alone (fun t ht _ => hrecoverable t ht) (fun _ _ h => h) ?_
      intro t committed ht _ hread
      cases hread
      exact ⟨ht, Iff.rfl⟩
    · refine succeeds_return fun s hs => ⟨hs.1, fun c hc => ?_⟩
      cases hc
      exact hs.2
    · cases hexception : e.isException with
      | true =>
        simp only [hexception, if_true]
        exact succeeds_return fun s hs => ⟨hs, nofun⟩
      | false =>
        simp only [hexception, Bool.false_eq_true, if_false]
        exact succeeds_done nofun hrecoverable
  · split
    · refine ((succeeds_finalize (m := some false)).mono (fun _ s h => ⟨_, h.toRecoverable⟩) fun s h => ⟨_, h⟩).pre ?_
      rintro s ⟨hs | hs, hanswer⟩
      · exact absurd ((hanswer true rfl).mp rfl) hs.uncommitted
      · exact ⟨⟨hs.toRecoverable, hs.landed⟩, hs.temp_gone⟩
    · refine ((succeeds_rollback (m := some false)).mono (fun _ s h => ⟨_, h⟩) fun s h => ⟨_, h⟩).pre ?_
      rintro s ⟨hs | hs, hanswer⟩
      · exact hs
      · exact absurd ((hanswer false rfl).mpr hs.landed) (by simp)
    · exact succeeds_return fun s hs => hrecoverable s hs.1

theorem triple_exceptWrite' (e : Error) :
    Succeeds j.environment j.AnyRecoverable j.Recallable (fun _ => j.AnySettled)
      (exceptWrite j.paths e) := by
  refine Succeeds.bind (R := fun _ => j.Recallable) (succeeds_act kept_recallable
    (fun _ h => h.recoverable) ?_) fun _ => ?_
  · intro s t hs _ heffect
    cases heffect
    exact hs.closed
  · refine succeeds_ask (F := fun staged s => s.staged = staged) kept_recallable
      (fun _ h => h.recoverable) (fun _ _ _ _ h => Except.ok.inj h) fun staged => ?_
    split
    · refine Succeeds.bind (succeeds_settleStaged.pre (R := fun s => j.Recallable s ∧
        s.staged = some false) fun s hs => hs.1.unfinished hs.2) fun _ => ?_
      exact succeeds_done nofun fun _ h => h
    · exact succeeds_done nofun fun _ h => h.1.recoverable

theorem succeeds_guarded {body : Writing Bool} {P : Site → Prop}
    (hbody : Succeeds j.environment j.Recallable P j.Finished body) :
    Succeeds j.environment j.AnyRecoverable P (fun _ => j.AnySettled) (guarded j.paths body) := by
  have hrecoverable : Kept j.environment j.AnyRecoverable := kept fun _ h => h
  have hsettled : Kept j.environment j.AnySettled := kept fun _ ⟨m, h⟩ => ⟨m, h.toRecoverable⟩
  refine Succeeds.handle (R := fun _ => j.AnySettled) (F := j.AnyRecoverable) (Succeeds.handle hbody
    (fun finished => ?_) fun e => ?_) (fun a => ?_) fun e => ?_
  · cases finished with
    | true => exact succeeds_return fun s hs => ⟨_, hs⟩
    | false =>
      refine ((succeeds_finalize (m := some false)).mono (fun _ s h => ⟨_, h⟩) fun s h => ⟨_, h⟩).pre ?_
      exact fun s hs => ⟨⟨Landed.toRecoverable hs, Landed.landed hs⟩, Landed.temp_gone hs⟩
  · exact triple_exceptWrite' e
  · refine Succeeds.bind (R := fun _ => j.AnySettled) (succeeds_act hsettled
      (fun _ ⟨m, h⟩ => ⟨m, h.toRecoverable⟩) ?_) fun _ =>
      succeeds_done (fun _ _ _ h => h) fun _ ⟨m, h⟩ => ⟨m, h.toRecoverable⟩
    rintro s t ⟨m, hs⟩ - heffect
    cases heffect
    exact ⟨m, hs.closed⟩
  · refine Succeeds.bind (R := fun _ => j.AnyRecoverable) (succeeds_act hrecoverable
      (fun _ h => h) ?_) fun _ => succeeds_done nofun fun _ h => h
    rintro s t ⟨m, hs⟩ - heffect
    cases heffect
    exact ⟨m, hs.closed⟩

/-- A whole write that returns leaves a settled site; wherever it raises or dies, the site is
recoverable. -/
theorem succeeds_write (hresolves : j.paths.Resolves) (hunreadable : j.SnapshotUnreadable) :
    Succeeds j.environment j.AnyRecoverable j.AnyRecoverable (fun _ => j.AnySettled) j.program := by
  rintro s ⟨m, hs⟩
  refine (Succeeds.bind ((succeeds_recover hresolves (m := m)).mono (fun _ _ h => h)
    fun _ h => ⟨m, h⟩) fun _ => ?_) s hs
  refine Succeeds.bind (R := fun _ => j.Settled none) (succeeds_act
    (kept fun _ h => ⟨m, h.toRecoverable⟩) (fun _ h => ⟨m, h.toRecoverable⟩) ?_) fun _ =>
    succeeds_guarded (succeeds_writeSteps' hunreadable)
  intro s t hs _ heffect
  cases heffect
  exact ⟨hs.toRecoverable.remember none, hs.manifest_gone, hs.manifest_temp_gone⟩

/-! ## Runs -/

/-- What a machine executes: the write, and recoveries. -/
def Executes (j : PlannedWrite) (p : Writing Unit) : Prop :=
  p = j.program ∨ p = recoverUnfinishedTransactionsLocked j.paths.layout

theorem specification (hresolves : j.paths.Resolves) (hunreadable : j.SnapshotUnreadable) :
    Machine.Specification j.environment Site.die j.AnyRecoverable j.AnySettled j.Executes where
  safe := by
    rintro p (rfl | rfl)
    · exact succeeds_write hresolves hunreadable
    · rintro s ⟨m, hs⟩
      exact (succeeds_recover hresolves (m := m)).mono (fun _ _ h => ⟨m, h⟩) (fun _ h => ⟨m, h⟩) s hs
  stable := alone
  stable_done := alone
  idle _ h := h.imp fun _ h => h.toRecoverable
  crash _ h := h
  dead s h := by
    obtain ⟨m, hs⟩ := h
    refine ⟨none, ⟨hs.keys, by simp [Site.die], hs.manifest, hs.unrelated, rfl⟩, hs.committed, ?_⟩
    exact fun hu => (hs.uncommitted hu).imp id fun habsent => habsent.of_disk rfl

/-- A vault in which the write has not begun: the prediction is unknown, its paths are free, and no
manifest that is there names one of them. -/
structure Untouched (j : PlannedWrite) (s : Site) : Prop where
  keys : s.registry.Keys
  idle : s.tx = none
  fresh : s.registry.prediction? j.paths.prediction_id = none
  free : ∀ p, j.Ours p → s.disk.get? p = none
  unrelated : ∀ p f, j.paths.layout.isManifest p = true → s.disk.get? p = some f →
    ∀ isCommitted paths, j.paths.layout.recoveryPaths isCommitted f.content = .ok paths →
      ∀ q ∈ paths ++ [p], ¬ j.Ours q

theorem Untouched.recoverable (h : j.Untouched s) : j.AnyRecoverable s := by
  have hu : ¬ j.Committed s := by simp [Committed, Site.isCommitted, h.fresh]
  refine ⟨s.staged, ⟨h.keys, by simp [h.idle], fun f hf => ?_, fun p f hp _ => h.unrelated p f hp,
    rfl⟩, fun hc => absurd hc hu, fun _ => Or.inr ?_⟩
  · rw [h.free _ (Or.inr (Or.inr (Or.inr (Or.inr rfl))))] at hf
    cases hf
  · exact ⟨h.free _ (Or.inl rfl), h.free _ (Or.inr (Or.inl rfl)),
      h.free _ (Or.inr (Or.inr (Or.inl rfl))), h.free _ (Or.inr (Or.inr (Or.inr (Or.inl rfl))))⟩

/-- The prediction is committed and both of its files stand with their contents, or it is not and
none of the files of the write is there, its manifest included. -/
def Consistent (j : PlannedWrite) (s : Site) : Prop :=
  (j.Committed s ∧ j.Published s) ∨ (¬ j.Committed s ∧ j.Absent s ∧
    s.disk.get? j.paths.manifest_path = none ∧ s.disk.get? j.paths.manifest_temp = none)

theorem Settled.consistent (h : j.Settled m s) : j.Consistent s := by
  by_cases hc : j.Committed s
  · exact Or.inl ⟨hc, h.committed hc⟩
  · refine Or.inr ⟨hc, ?_, h.manifest_gone, h.manifest_temp_gone⟩
    rcases h.uncommitted hc with hthere | habsent
    · rw [h.manifest_gone] at hthere
      cases hthere
    · exact habsent

/-- No fault comes while a rollback removes its artifacts, after it removed its manifest. -/
def Unhurt (x : WriterMachine × Machine.Happening Point Site Error) : Prop :=
  x.1.point? = some .removingArtifact → x.2 = .step .exec

/-- A step of a machine that nobody else disturbs. -/
abbrev CrashStep : WriterMachine → Machine.Happening Point Site Error → WriterMachine → Prop :=
  Machine.Step Site.die fun _ _ => False

/-- Wherever the write, its rollback and earlier recoveries raise or die, but for a rollback that has
removed its manifest and not yet its artifacts, a recovery that returns leaves the site consistent. -/
theorem recovered_consistent (hresolves : j.paths.Resolves) (hunreadable : j.SnapshotUnreadable)
    (hs : j.Untouched s) {trace : List (WriterMachine × Machine.Happening Point Site Error)}
    {n n' : WriterMachine} (h : Run CrashStep ⟨s, none⟩ trace n)
    (hprograms : ∀ x ∈ trace, ∀ p, x.2 = .start p → j.Executes p) (hunhurt : ∀ x ∈ trace, Unhurt x)
    (hfinish : CrashStep n (.finish (.ok ())) n') : j.Consistent n'.state := by
  have hadmits : ∀ x ∈ trace, Machine.Admits j.environment j.Executes x.1 x.2 := by
    rintro ⟨m, happening⟩ hx
    cases happening with
    | start p => exact hprograms _ hx p rfl
    | step event =>
      refine fun point hpoint => ⟨trivial, ?_⟩
      rintro e rfl rfl
      cases hunhurt _ hx hpoint
    | die =>
      rintro point hpoint rfl
      cases hunhurt _ hx hpoint
    | finish _ | other => trivial
  obtain ⟨m, hsettled⟩ := (Machine.sound_of_run (specification hresolves hunreadable) h hadmits
    hs.recoverable).finish alone hfinish
  exact hsettled.consistent

/-! ## A crash inside a rollback -/

/-- The write of the sample draft. -/
def sample : PlannedWrite where
  paths := sampleStaged
  safeDump := Json.print Json.compactStyle 0
  prepared := samplePrepared
  own prediction h := by
    obtain ⟨schema_hash, immutable_hash, -, -, -, rfl⟩ := prepareCommitted_ok h
    rfl

/-- The snapshot is not named like a manifest. -/
theorem sample_unreadable : sample.SnapshotUnreadable := by
  intro hlisted
  have hnot : sampleStaged.layout.isManifest sampleStaged.snapshot_path = false := by decide +kernel
  rw [show sample.paths = sampleStaged from rfl, hnot] at hlisted
  cases hlisted

theorem sample_untouched : sample.Untouched sampleSite where
  keys := Registry.keys_empty
  idle := rfl
  fresh := rfl
  free _ _ := rfl
  unrelated := by simp [sampleSite, Disk.get?]

/-- An error follows the publication of the snapshot, and the process dies once the rollback has
removed the manifest; then a recovery runs. -/
def sampleFault : List (Machine.Happening Point Site Error) :=
  .start sampleWrite :: List.replicate 17 (.step .exec) ++
    .step (.raise (.osError (text "Input/output error"))) :: List.replicate 5 (.step .exec) ++
    [.die, .start (recoverUnfinishedTransactionsLocked sampleLayout), .step .exec, .step .exec]

/-- The machine once that recovery has returned. -/
def sampleOrphaned : WriterMachine := machineAfter ⟨sampleSite, none⟩ sampleFault

theorem sample_fault_evaluates :
    (follow (Machine.next? Site.die) ⟨sampleSite, none⟩ sampleFault).isSome = true ∧
      sampleOrphaned.returned = true ∧
      sampleOrphaned.state.isCommitted sampleStaged.prediction_id = false ∧
      (sampleOrphaned.state.disk.get? sampleStaged.snapshot_path).isSome = true := by
  decide +kernel

/-- The snapshot of an uncommitted prediction is left behind, and no manifest names it. -/
theorem rollback_crash_leaves_orphan :
    sample.paths.Resolves ∧ sample.SnapshotUnreadable ∧ sample.Untouched sampleSite ∧
      ∃ (trace : List (WriterMachine × Machine.Happening Point Site Error)) (n n' : WriterMachine),
        Run CrashStep ⟨sampleSite, none⟩ trace n ∧
        (∀ x ∈ trace, ∀ p, x.2 = .start p → sample.Executes p) ∧
        CrashStep n (.finish (.ok ())) n' ∧ ¬ sample.Consistent n'.state := by
  obtain ⟨hfollow, hreturned, huncommitted, horphan⟩ := sample_fault_evaluates
  obtain ⟨trace, hrun, hevents⟩ := @Machine.run_of_follow _ _ _ _ (fun _ _ => False) _ _ hfollow
  refine ⟨sample_resolves, sample_unreadable, sample_untouched, trace, sampleOrphaned, _, hrun, ?_,
    Machine.Step.of_returned hreturned, ?_⟩
  · intro x hx p hp
    have hlabel : x.2 ∈ sampleFault := hevents ▸ List.mem_map_of_mem hx
    rw [hp] at hlabel
    simp only [sampleFault, List.mem_append, List.mem_cons, List.mem_replicate, List.not_mem_nil,
      or_false, reduceCtorEq, and_false, false_or, Machine.Happening.start.injEq] at hlabel
    rcases hlabel with rfl | rfl
    · exact Or.inl rfl
    · exact Or.inr rfl
  · rintro (⟨hcommitted, -⟩ | ⟨-, habsent, -⟩)
    · exact absurd (huncommitted.symm.trans hcommitted) (by simp)
    · rw [show sampleOrphaned.state.disk.get? sampleStaged.snapshot_path = none from
        habsent.snapshot_path] at horphan
      cases horphan

/-- The write of the sample draft, step by step. -/
def sampleSteps : List (Machine.Happening Point Site Error) :=
  .start sampleWrite :: List.replicate 34 (.step .exec)

/-- The machine once that write has returned. -/
def sampleWritten : WriterMachine := machineAfter ⟨sampleSite, none⟩ sampleSteps

theorem sample_steps_evaluate :
    (follow (Machine.next? Site.die) ⟨sampleSite, none⟩ sampleSteps).isSome = true ∧
      sampleWritten.returned = true := by
  decide +kernel

theorem recovered_consistent_sample : sample.Consistent sampleWritten.state := by
  obtain ⟨hfollow, hreturned⟩ := sample_steps_evaluate
  obtain ⟨trace, hrun, hevents⟩ := @Machine.run_of_follow _ _ _ _ (fun _ _ => False) _ _ hfollow
  change sample.Consistent (⟨sampleWritten.state, none⟩ : WriterMachine).state
  refine recovered_consistent sample_resolves sample_unreadable sample_untouched hrun ?_ ?_
    (Machine.Step.of_returned hreturned)
  · intro x hx p hp
    have hlabel : x.2 ∈ sampleSteps := hevents ▸ List.mem_map_of_mem hx
    rw [hp] at hlabel
    simp only [sampleSteps, List.mem_cons, List.mem_replicate, reduceCtorEq, and_false, or_false,
      Machine.Happening.start.injEq] at hlabel
    exact Or.inl hlabel
  · intro x hx hpoint
    have hlabel : x.2 ∈ sampleSteps := hevents ▸ List.mem_map_of_mem hx
    rcases List.mem_cons.mp hlabel with hstart | hexec
    · obtain ⟨-, u, -, -, hstep, -⟩ := hrun.step_of_mem hx
      rw [hstart] at hstep
      rw [Machine.point?, hstep.start_idle] at hpoint
      cases hpoint
    · exact (List.mem_replicate.mp hexec).2

end PlannedWrite

end Pine
