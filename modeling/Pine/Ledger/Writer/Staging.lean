import Pine.Ledger.Writer.Crash

/-!
# Staging and committing

What each step of a staged write leaves on the disk. The manifest stands before
anything else does, both files stand at their final paths before the row is committed,
and until then whatever was published is known to the rollback.
-/

namespace Pine

open Procedure Writing

namespace PlannedWrite

variable {j : PlannedWrite} {m : Option Bool} {s t : Site}

/-! ## Phases -/

/-- Nothing of the write is there yet. -/
structure Vacant (j : PlannedWrite) (m : Option Bool) (s : Site) : Prop extends j.Ground m s where
  uncommitted : ¬ j.Committed s
  absent : j.Absent s

/-- Staging has its manifest in place. -/
structure Manifested (j : PlannedWrite) (m : Option Bool) (s : Site) : Prop extends j.Ground m s where
  uncommitted : ¬ j.Committed s
  there : (s.disk.get? j.paths.manifest_path).isSome = true
  temp_gone : s.disk.get? j.paths.manifest_temp = none

/-- Nothing is published yet. -/
structure Unpublished (j : PlannedWrite) (m : Option Bool) (s : Site) : Prop extends
    j.Manifested m s where
  record_free : s.disk.get? j.paths.record_path = none
  snapshot_free : s.disk.get? j.paths.snapshot_path = none

/-- The snapshot is published, or was just linked. -/
structure SnapshotOut (j : PlannedWrite) (m : Option Bool) (record snapshot : Text) (s : Site) : Prop
    extends j.Manifested m s where
  distinct : j.paths.record_temp ≠ j.paths.snapshot_temp
  record_free : s.disk.get? j.paths.record_path = none
  record : s.Has j.paths.record_temp record
  snapshot : s.Has j.paths.snapshot_path snapshot
  snapshot_owned : s.snapshot_published = true ∨
    s.disk.sameFile j.paths.snapshot_temp j.paths.snapshot_path = true

/-- Both files are published, or the record was just linked. -/
structure RecordOut (j : PlannedWrite) (m : Option Bool) (record snapshot : Text) (s : Site) : Prop
    extends j.Manifested m s where
  record : s.Has j.paths.record_path record
  snapshot : s.Has j.paths.snapshot_path snapshot
  snapshot_owned : s.snapshot_published = true
  record_owned : s.record_published = true ∨
    s.disk.sameFile j.paths.record_temp j.paths.record_path = true

theorem Vacant.rollbackable (h : j.Vacant m s) : j.Rollbackable m s where
  toGround := h.toGround
  uncommitted := h.uncommitted
  there := Or.inr h.absent
  record_owned hsome := by
    rw [h.absent.record_path] at hsome
    cases hsome
  snapshot_owned hsome := by
    rw [h.absent.snapshot_path] at hsome
    cases hsome

theorem Unpublished.rollbackable (h : j.Unpublished m s) : j.Rollbackable m s where
  toGround := h.toGround
  uncommitted := h.uncommitted
  there := Or.inl h.there
  record_owned hsome := by
    rw [h.record_free] at hsome
    cases hsome
  snapshot_owned hsome := by
    rw [h.snapshot_free] at hsome
    cases hsome

theorem SnapshotOut.rollbackable {record snapshot : Text} (h : j.SnapshotOut m record snapshot s) :
    j.Rollbackable m s where
  toGround := h.toGround
  uncommitted := h.uncommitted
  there := Or.inl h.there
  record_owned hsome := by
    rw [h.record_free] at hsome
    cases hsome
  snapshot_owned _ := h.snapshot_owned

theorem RecordOut.rollbackable {record snapshot : Text} (h : j.RecordOut m record snapshot s) :
    j.Rollbackable m s where
  toGround := h.toGround
  uncommitted := h.uncommitted
  there := Or.inl h.there
  record_owned _ := h.record_owned
  snapshot_owned _ := Or.inl h.snapshot_owned

theorem kept_rollbackable {P : Site → Prop} (h : ∀ s, P s → j.Rollbackable m s) :
    Kept j.environment P := kept fun s hs => ⟨m, (h s hs).recoverable⟩

/-! ## Files under temporary names -/

/-- A file under a temporary name is put beside the manifest. -/
theorem Manifested.put (h : j.Manifested m s) {p : Path} {f : File Text} {next : Nat}
    (hp : p.name.getLast? = some 'p') (hmanifest_temp : p ≠ j.paths.manifest_temp) :
    j.Manifested m { s with disk := { s.disk.put p f with next } } where
  toGround := h.toGround.put
    (fun heq => absurd heq (StagedPaths.ne_of_last hp j.paths.manifest_path_last (by decide)))
    fun hlisted => absurd hlisted (StagedPaths.not_isManifest_of_last hp)
  uncommitted := h.uncommitted
  there := by
    rw [Disk.get?_next, Disk.get?_put]
    split
    · rfl
    · exact h.there
  temp_gone := free_put h.temp_gone hmanifest_temp.symm

theorem Unpublished.put (h : j.Unpublished m s) {p : Path} {f : File Text} {next : Nat}
    (hp : p.name.getLast? = some 'p') (hmanifest_temp : p ≠ j.paths.manifest_temp) :
    j.Unpublished m { s with disk := { s.disk.put p f with next } } where
  toManifested := h.toManifested.put hp hmanifest_temp
  record_free := free_put h.record_free
    (StagedPaths.ne_of_last j.paths.record_path_last hp (by decide))
  snapshot_free := free_put h.snapshot_free
    (StagedPaths.ne_of_last j.paths.snapshot_path_last hp (by decide))

theorem snapshot_temp_ne (j : PlannedWrite) : j.paths.snapshot_temp ≠ j.paths.manifest_temp :=
  fun heq => j.paths.manifest_temp_name_ne (congrArg Path.name heq).symm

theorem record_temp_ne (j : PlannedWrite) : j.paths.record_temp ≠ j.paths.manifest_temp :=
  fun heq => j.paths.manifest_temp_name_ne (congrArg Path.name heq).symm

/-- Writing a temporary file keeps what stands at other paths. -/
theorem succeeds_writeTemp {E P : Site → Prop} {p : Path} {content : Text}
    (hkept : Kept j.environment P) (hE : ∀ s, P s → E s)
    (hput : ∀ s f next, P s → P { s with disk := { s.disk.put p f with next } }) :
    Succeeds j.environment E (fun s => P s) (fun _ s => P s ∧ s.Has p content)
      (writeNewFile p content) := by
  refine Succeeds.bind (R := fun _ => P) (succeeds_act hkept hE ?_) fun _ =>
    succeeds_act hkept hE ?_
  · intro s t hs _ heffect
    obtain ⟨disk, hcreate, rfl⟩ := diskEffect_ok heffect
    obtain ⟨-, rfl⟩ := Disk.create_some hcreate
    exact hput s _ _ hs
  · intro s t hs _ heffect
    obtain ⟨disk, hfill, rfl⟩ := diskEffect_ok heffect
    obtain ⟨f, -, rfl⟩ := Disk.fill_some hfill
    exact ⟨hput s { f with content } s.disk.next hs, { f with content }, by simp, rfl⟩

/-- The manifest is written under its temporary name, and moved in place once it is whole. -/
theorem succeeds_atomicManifestWrite :
    Succeeds j.environment (j.Rollbackable m) (j.Vacant m) (fun _ => j.Unpublished m)
      (atomicManifestWrite j.paths) := by
  have hvacant : Kept j.environment (j.Vacant m) := kept_rollbackable fun _ h => h.rollbackable
  have hunpublished : Kept j.environment (j.Unpublished m) :=
    kept_rollbackable fun _ h => h.rollbackable
  refine Succeeds.bind (@succeeds_writeTemp j _ _ _ j.paths.manifestText hvacant
    (fun _ h => h.rollbackable) ?_) fun _ => ?_
  · intro s f next hs
    have hlast := j.paths.manifest_temp_last
    refine ⟨hs.toGround.put (fun heq => absurd heq (StagedPaths.ne_of_last hlast
      j.paths.manifest_path_last (by decide))) fun hlisted =>
        absurd hlisted (StagedPaths.not_isManifest_of_last hlast), hs.uncommitted, ?_⟩
    exact hs.absent.put ⟨(record_temp_ne j).symm, (snapshot_temp_ne j).symm⟩
      j.paths.manifest_temp_not_final
  refine Succeeds.bind (R := fun _ => j.Unpublished m) (succeeds_act (hvacant.and alone)
    (fun _ h => h.1.rollbackable) ?_) fun _ =>
    (triple_fsync hunpublished).mono (fun _ _ h => h) fun _ h => h.rollbackable
  rintro s t ⟨hs, f, hf, hcontent⟩ - heffect
  obtain ⟨disk, hrename, rfl⟩ := diskEffect_ok heffect
  obtain ⟨g, hg, rfl⟩ := Disk.rename_some hrename
  obtain rfl := Option.some.inj (hf.symm.trans hg)
  have hfinal := j.paths.manifest_path_not_final
  refine ⟨⟨(hs.toGround.unlink j.paths.manifest_temp).put (fun _ => hcontent) (fun _ => Or.inl rfl),
    hs.uncommitted, by simp, ?_⟩, ?_, ?_⟩
  · have hne : j.paths.manifest_temp ≠ j.paths.manifest_path :=
      StagedPaths.ne_of_last j.paths.manifest_temp_last j.paths.manifest_path_last (by decide)
    simp [hne]
  · exact free_put (free_unlink j.paths.manifest_temp hs.absent.record_path)
      fun heq => hfinal (Or.inl heq.symm)
  · exact free_put (free_unlink j.paths.manifest_temp hs.absent.snapshot_path)
      fun heq => hfinal (Or.inr heq.symm)

/-! ## Statements of the transaction -/

/-- The open transaction has committed the prediction of the write. -/
def Transacted (j : PlannedWrite) (s : Site) : Prop :=
  ∃ db p, s.tx = some db ∧ p ∈ db.predictions ∧ p.prediction_id = j.paths.prediction_id ∧
    p.transaction_state = .committed

/-- A change of the open transaction that keeps its keys distinct. -/
theorem Ground.transact (h : j.Ground m s) {db : Registry} (hkeys : db.Keys) :
    j.Ground m { s with tx := some db } where
  keys := h.keys
  tx_keys db' hdb := by
    cases hdb
    exact hkeys
  manifest := h.manifest
  unrelated := h.unrelated
  memory := h.memory

theorem sql_ok {session : Registry.Session Unit}
    (h : (match s.tx with
      | some db => match session.run db with
        | (.ok _, db) => (.ok { s with tx := some db } : Except Error Site)
        | (.error e, _) => .error e
      | none => .error (.sqliteError (text "no transaction is active"))) = .ok t) :
    ∃ db db', s.tx = some db ∧ session.run db = (.ok (), db') ∧ t = { s with tx := some db' } := by
  cases htx : s.tx with
  | none => simp [htx] at h
  | some db =>
    rcases hrun : session.run db with ⟨_ | u, db'⟩
    · simp [htx, hrun] at h
    · simp only [htx, hrun, Except.ok.injEq] at h
      exact ⟨db, db', rfl, hrun, h.symm⟩

/-- The statement that commits a prediction leaves its row committed. -/
theorem commitPrediction_ok {id : Text} {at' : DateTime} {db db' : Registry} {u : Unit}
    (h : (Registry.commitPrediction id at').run db = (.ok u, db')) :
    ∃ p ∈ db'.predictions, p.prediction_id = id ∧ p.transaction_state = .committed := by
  obtain ⟨n, db1, hupdate, hcheck⟩ := Program.run_bind_ok.mp h
  obtain ⟨hrefuse, rfl⟩ := Program.run_check_ok.mp hcheck
  obtain ⟨rfl, rfl, -⟩ := Registry.updatePredictions_ok (Registry.executeUpdate_ok hupdate)
  have hcount := not_not.mp (refuse_ok.mp hrefuse)
  obtain ⟨p, hp⟩ := List.exists_mem_of_length_pos (hcount ▸ Nat.one_pos)
  obtain ⟨hp, hselected⟩ := List.mem_filter.mp hp
  refine ⟨_, List.mem_map.mpr ⟨p, hp, rfl⟩, ?_⟩
  rw [if_pos hselected]
  simp only [Bool.and_eq_true, beq_iff_eq] at hselected
  exact ⟨hselected.1, rfl⟩

/-! ## Publishing -/

/-- Linking a temporary file to the final path of the snapshot. -/
theorem Manifested.link (h : j.Manifested m s) {p : Path} {f : File Text} (hp : j.paths.IsFinal p)
    (hlisted : j.paths.layout.isManifest p = true → j.Unreadable f.content) :
    j.Manifested m { s with disk := s.disk.put p f } where
  toGround := @Ground.put _ _ _ h.toGround _ _ s.disk.next
    (fun heq => absurd hp (heq ▸ j.paths.manifest_path_not_final)) fun hm => Or.inr (hlisted hm)
  uncommitted := h.uncommitted
  there := by
    rw [Disk.get?_put]
    split
    · rfl
    · exact h.there
  temp_gone := by
    have hne : j.paths.manifest_temp ≠ p := by
      rintro rfl
      exact j.paths.manifest_temp_not_final hp
    rw [Disk.get?_put, if_neg hne, h.temp_gone]

theorem sameFile_put {source target : Path} {f : File Text} (hf : s.disk.get? source = some f) :
    (s.disk.put target f).sameFile source target = true := by
  unfold Disk.sameFile
  by_cases h : source = target
  · simp [h]
  · simp [h, hf]

theorem Manifested.unlink (h : j.Manifested m s) {p : Path} (hp : j.paths.manifest_path ≠ p) :
    j.Manifested m (s.unlink p) where
  toGround := h.toGround.unlink p
  uncommitted := h.uncommitted
  there := by simpa [Site.unlink, hp] using h.there
  temp_gone := free_unlink p h.temp_gone

theorem succeeds_unlinkExisting {E P Q : Site → Prop} {p : Path} (hkept : Kept j.environment P)
    (hE : ∀ s, P s → E s) (h : ∀ s, P s → Q (s.unlink p)) :
    Succeeds j.environment E P (fun _ => Q) (unlinkExisting p) := by
  refine succeeds_act hkept hE fun s t hs _ heffect => ?_
  split at heffect
  · cases heffect
    exact h s hs
  · cases heffect

/-- The snapshot stands at its final path once the rollback knows of it. -/
theorem succeeds_publishSnapshot {prediction : CommittedPrediction} {record snapshot : Text}
    (hunreadable : j.SnapshotUnreadable) (hprepared : j.prepared = .ok prediction)
    (hbytes : snapshotBytes prediction = .ok snapshot)
    (hdistinct : j.paths.record_temp ≠ j.paths.snapshot_temp) :
    Succeeds j.environment (j.Rollbackable m)
      (fun s => (j.Unpublished m s ∧ s.Has j.paths.snapshot_temp snapshot) ∧
        s.Has j.paths.record_temp record)
      (fun _ s => j.SnapshotOut m record snapshot s ∧ s.snapshot_published = true)
      (publishSnapshot j.paths) := by
  have hwritten : Kept j.environment fun s =>
      (j.Unpublished m s ∧ s.Has j.paths.snapshot_temp snapshot) ∧
        s.Has j.paths.record_temp record := kept_rollbackable fun _ h => h.1.1.rollbackable
  have hout : Kept j.environment (j.SnapshotOut m record snapshot) :=
    kept_rollbackable fun _ h => h.rollbackable
  refine Succeeds.bind (R := fun _ => j.SnapshotOut m record snapshot) (succeeds_act hwritten
    (fun _ h => h.1.1.rollbackable) ?_) fun _ => ?_
  · rintro s t ⟨⟨hs, f, hf, hcontent⟩, hrecord⟩ - heffect
    obtain ⟨disk, hlink, rfl⟩ := diskEffect_ok heffect
    obtain ⟨hfree, g, hg, rfl⟩ := Disk.link_some hlink
    obtain rfl := Option.some.inj (hf.symm.trans hg)
    have htemp : j.paths.record_temp ≠ j.paths.snapshot_path :=
      StagedPaths.ne_of_last j.paths.tempName_last j.paths.snapshot_path_last (by decide)
    exact ⟨hs.toManifested.link (Or.inr rfl) fun hlisted => hcontent ▸ hunreadable hlisted _ _ hprepared
      hbytes, hdistinct, @free_put s _ _ _ s.disk.next hs.record_free
        j.paths.record_path_ne_snapshot_path, @has_put s _ _ _ s.disk.next _ hrecord htemp,
      ⟨f, by simp, hcontent⟩, Or.inr (sameFile_put hf)⟩
  refine Succeeds.bind (R := fun _ s => j.SnapshotOut m record snapshot s ∧ s.snapshot_published = true)
    (succeeds_act hout (fun _ h => h.rollbackable) ?_) fun _ => ?_
  · intro s t hs _ heffect
    cases heffect
    exact ⟨{ hs with snapshot_owned := Or.inl rfl }, rfl⟩
  have hknown := hout.and (alone (P := fun s => s.snapshot_published = true))
  refine Succeeds.bind (R := fun _ s => j.SnapshotOut m record snapshot s ∧
    s.snapshot_published = true) (succeeds_unlinkExisting hknown (fun _ h => h.1.rollbackable) ?_)
    fun _ => (triple_fsync hknown).mono (fun _ _ h => h) fun _ h => h.1.rollbackable
  rintro s ⟨hs, hflag⟩
  refine ⟨⟨hs.toManifested.unlink ?_, hs.distinct, free_unlink _ hs.record_free,
    has_unlink hs.record hs.distinct, has_unlink hs.snapshot ?_, Or.inl hflag⟩, hflag⟩
  · exact StagedPaths.ne_of_last j.paths.manifest_path_last j.paths.tempName_last (by decide)
  · exact StagedPaths.ne_of_last j.paths.snapshot_path_last j.paths.tempName_last (by decide)

/-- The record stands at its final path once the rollback knows of it. -/
theorem succeeds_publishRecord {record snapshot : Text} :
    Succeeds j.environment (j.Rollbackable m)
      (fun s => j.SnapshotOut m record snapshot s ∧ s.snapshot_published = true)
      (fun _ s => j.RecordOut m record snapshot s ∧ s.record_published = true)
      (publishRecord j.paths) := by
  have hwritten : Kept j.environment fun s => j.SnapshotOut m record snapshot s ∧
      s.snapshot_published = true := kept_rollbackable fun _ h => h.1.rollbackable
  have hout : Kept j.environment (j.RecordOut m record snapshot) :=
    kept_rollbackable fun _ h => h.rollbackable
  refine Succeeds.bind (R := fun _ => j.RecordOut m record snapshot) (succeeds_act hwritten
    (fun _ h => h.1.rollbackable) ?_) fun _ => ?_
  · rintro s t ⟨hs, hflag⟩ - heffect
    obtain ⟨disk, hlink, rfl⟩ := diskEffect_ok heffect
    obtain ⟨hfree, g, hg, rfl⟩ := Disk.link_some hlink
    obtain ⟨f, hf, hcontent⟩ := hs.record
    obtain rfl := Option.some.inj (hf.symm.trans hg)
    exact ⟨hs.toManifested.link (Or.inl rfl) fun hlisted =>
      absurd rfl (j.paths.isManifest_ne_record hlisted), ⟨f, by simp, hcontent⟩,
      @has_put s _ _ _ s.disk.next _ hs.snapshot j.paths.record_path_ne_snapshot_path.symm, hflag,
      Or.inr (sameFile_put hf)⟩
  refine Succeeds.bind (R := fun _ s => j.RecordOut m record snapshot s ∧ s.record_published = true)
    (succeeds_act hout (fun _ h => h.rollbackable) ?_) fun _ => ?_
  · intro s t hs _ heffect
    cases heffect
    exact ⟨{ hs with record_owned := Or.inl rfl }, rfl⟩
  have hknown := hout.and (alone (P := fun s => s.record_published = true))
  refine Succeeds.bind (R := fun _ s => j.RecordOut m record snapshot s ∧
    s.record_published = true) (succeeds_unlinkExisting hknown (fun _ h => h.1.rollbackable) ?_)
    fun _ => (triple_fsync hknown).mono (fun _ _ h => h) fun _ h => h.1.rollbackable
  rintro s ⟨hs, hflag⟩
  refine ⟨⟨hs.toManifested.unlink ?_, has_unlink hs.record ?_, has_unlink hs.snapshot ?_,
    hs.snapshot_owned, Or.inl hflag⟩, hflag⟩
  · exact StagedPaths.ne_of_last j.paths.manifest_path_last j.paths.tempName_last (by decide)
  · exact StagedPaths.ne_of_last j.paths.record_path_last j.paths.tempName_last (by decide)
  · exact StagedPaths.ne_of_last j.paths.snapshot_path_last j.paths.tempName_last (by decide)

/-! ## The whole of staging -/

/-- All is staged: both files stand at their final paths, and the open transaction has the row. -/
structure Ready (j : PlannedWrite) (m : Option Bool) (s : Site) : Prop extends j.Manifested m s where
  record_owned : s.record_published = true
  snapshot_owned : s.snapshot_published = true
  published : j.Published s
  transacted : j.Transacted s

theorem Ready.rollbackable (h : j.Ready m s) : j.Rollbackable m s where
  toGround := h.toGround
  uncommitted := h.uncommitted
  there := Or.inl h.there
  record_owned _ := Or.inl h.record_owned
  snapshot_owned _ := Or.inl h.snapshot_owned

/-- A record is only written under a temporary name that is not the one of the snapshot. -/
theorem succeeds_writeRecordTemp {record snapshot : Text} :
    Succeeds j.environment (j.Rollbackable m)
      (fun s => j.Unpublished m s ∧ s.Has j.paths.snapshot_temp snapshot)
      (fun _ s => ((j.Unpublished m s ∧ s.Has j.paths.snapshot_temp snapshot) ∧
        s.Has j.paths.record_temp record) ∧ j.paths.record_temp ≠ j.paths.snapshot_temp)
      (writeNewFile j.paths.record_temp record) := by
  have hwritten : Kept j.environment fun s =>
      j.Unpublished m s ∧ s.Has j.paths.snapshot_temp snapshot :=
    kept_rollbackable fun _ h => h.1.rollbackable
  by_cases hdistinct : j.paths.record_temp = j.paths.snapshot_temp
  · refine Succeeds.bind (R := fun _ _ => False) (succeeds_act hwritten
      (fun _ h => h.1.rollbackable) ?_) fun _ _ hs => hs.elim
    rintro s t ⟨-, f, hf, -⟩ - heffect
    obtain ⟨disk, hcreate, rfl⟩ := diskEffect_ok heffect
    obtain ⟨hfree, -⟩ := Disk.create_some hcreate
    rw [hdistinct, hf] at hfree
    cases hfree
  · refine (@succeeds_writeTemp j _ _ _ record hwritten (fun _ h => h.1.rollbackable) ?_).mono
      (fun _ _ h => ⟨h, hdistinct⟩) fun _ h => h
    rintro s f next ⟨hs, hsnapshot⟩
    exact ⟨hs.put j.paths.tempName_last (record_temp_ne j), has_put hsnapshot (Ne.symm hdistinct)⟩

theorem succeeds_stageSteps (hunreadable : j.SnapshotUnreadable) {prediction : CommittedPrediction}
    (hprepared : j.prepared = .ok prediction) :
    Succeeds j.environment (j.Rollbackable m) (j.Vacant m) (fun _ => j.Ready m)
      (stageSteps j.safeDump j.paths prediction) := by
  refine Succeeds.bind succeeds_atomicManifestWrite fun _ => ?_
  refine Succeeds.bind (R := fun snapshot s => j.Unpublished m s ∧
    snapshotBytes prediction = .ok snapshot) (succeeds_done (fun _ ha _ hs => ⟨hs, ha⟩)
      fun _ h => h.rollbackable) fun snapshot => ?_
  intro s₀ ⟨hs₀, hbytes⟩
  refine (Succeeds.bind (P := j.Unpublished m) (R := fun _ s => j.Unpublished m s ∧
    s.Has j.paths.snapshot_temp snapshot) (succeeds_writeTemp
      (kept_rollbackable fun _ h => h.rollbackable) (fun _ h => h.rollbackable) fun s f next hs =>
      hs.put j.paths.tempName_last (snapshot_temp_ne j)) fun _ => ?_) s₀ hs₀
  refine Succeeds.bind (@succeeds_writeRecordTemp j _ (recordBytes j.safeDump prediction) _)
    fun _ => ?_
  intro s₁ ⟨hs₁, hdistinct⟩
  have hwritten : Kept j.environment fun s =>
      (j.Unpublished m s ∧ s.Has j.paths.snapshot_temp snapshot) ∧
        s.Has j.paths.record_temp (recordBytes j.safeDump prediction) :=
    kept_rollbackable fun _ h => h.1.1.rollbackable
  refine (Succeeds.bind (R := fun _ s => (j.Unpublished m s ∧ s.Has j.paths.snapshot_temp snapshot) ∧
    s.Has j.paths.record_temp (recordBytes j.safeDump prediction)) (succeeds_act hwritten
      (fun _ h => h.1.1.rollbackable) ?_) fun _ => ?_) s₁ hs₁
  · rintro s t ⟨⟨hs, hsnapshot⟩, hrecord⟩ - heffect
    obtain ⟨db, db', htx, hrun, rfl⟩ := sql_ok heffect
    have hkeys := ((@Registry.beginPrediction_keeps (fun _ => False) prediction).extends
      hrun).keys (hs.tx_keys db htx)
    exact ⟨⟨{ hs with toGround := hs.toGround.transact hkeys }, hsnapshot⟩, hrecord⟩
  refine Succeeds.bind (succeeds_publishSnapshot hunreadable hprepared hbytes hdistinct) fun _ => ?_
  refine Succeeds.bind succeeds_publishRecord fun _ => ?_
  refine succeeds_act (kept_rollbackable fun _ h => h.1.rollbackable)
    (fun _ h => h.1.rollbackable) ?_
  rintro s t ⟨hs, hflag⟩ - heffect
  obtain ⟨db, db', htx, hrun, rfl⟩ := sql_ok heffect
  have hkeys := ((@Registry.commitPrediction_keeps (fun _ => False) _ _).extends
    hrun).keys (hs.tx_keys db htx)
  obtain ⟨p, hp, hid, hstate⟩ := commitPrediction_ok hrun
  exact { hs.toManifested with
    toGround := hs.toGround.transact hkeys
    record_owned := hflag
    snapshot_owned := hs.snapshot_owned
    published := ⟨prediction, snapshot, hprepared, hbytes, hs.record, hs.snapshot⟩
    transacted := ⟨db', p, rfl, hp, hid.trans (j.own prediction hprepared), hstate⟩ }

/-- Nothing of the write is there, and its transaction has just begun. -/
structure Opened (j : PlannedWrite) (m : Option Bool) (s : Site) : Prop extends j.Settled m s where
  tx : s.tx = some s.registry

theorem kept_opened : Kept j.environment (j.Opened m) := kept fun _ h => ⟨m, h.toRecoverable⟩

/-- A prediction that the registry does not know is uncommitted, so nothing of it is there. -/
theorem Opened.vacant (h : j.Opened m s)
    (hnone : s.registry.prediction? j.paths.prediction_id = none) : j.Vacant m s := by
  have hu : ¬ j.Committed s := by simp [Committed, Site.isCommitted, hnone]
  refine ⟨h.toGround, hu, ?_⟩
  rcases h.uncommitted hu with hthere | habsent
  · rw [h.manifest_gone] at hthere
    cases hthere
  · exact habsent

theorem Vacant.recoverable (h : j.Vacant m s) : j.Recoverable m s := h.rollbackable.recoverable

/-- Staging succeeds with everything staged, or rolls back before it raises. -/
theorem succeeds_stageCommitted' (hunreadable : j.SnapshotUnreadable) {prediction : CommittedPrediction}
    (hprepared : j.prepared = .ok prediction) :
    Succeeds j.environment (j.Recoverable m) (j.Vacant m) (fun _ => j.Ready m)
      (stageCommitted j.safeDump j.paths prediction) := by
  have hvacant : Kept j.environment (j.Vacant m) := kept fun _ h => ⟨m, h.recoverable⟩
  refine succeeds_look hvacant (fun _ h => h.recoverable) fun taken =>
    Succeeds.bind (R := fun _ => j.Vacant m) (succeeds_done (fun _ _ _ h => h)
      fun _ h => h.recoverable) fun _ => ?_
  refine Succeeds.bind (R := fun _ => j.Vacant m) (succeeds_act hvacant
    (fun _ h => h.recoverable) ?_) fun _ => ?_
  · intro s t hs _ heffect
    cases heffect
    exact ⟨⟨hs.keys, hs.tx_keys, hs.manifest, hs.unrelated, hs.memory⟩, hs.uncommitted,
      hs.absent.of_disk rfl⟩
  · refine Succeeds.handle (succeeds_stageSteps hunreadable hprepared) (fun _ => ?_) fun e => ?_
    · exact succeeds_done (fun _ _ _ h => h) fun _ h => h.rollbackable.recoverable
    · exact Succeeds.bind succeeds_rollback fun _ => succeeds_done nofun fun _ h => h

/-- A staged write has everything staged, unless the registry already had the prediction. -/
theorem succeeds_stageWrite' (hunreadable : j.SnapshotUnreadable) :
    Succeeds j.environment (j.Recoverable m) (j.Opened m)
      (fun finished s => if finished then j.Opened m s else j.Ready m s)
      (stageWrite j.safeDump j.paths j.prepared) := by
  refine succeeds_ask (F := fun existing s =>
    existing = none → s.registry.prediction? j.paths.prediction_id = none) kept_opened
    (fun _ h => h.toRecoverable) ?_ fun existing => ?_
  · intro s existing hs _ hread hnone
    rw [hs.tx] at hread
    rw [← hnone]
    exact Except.ok.inj hread
  cases existing with
  | some row =>
    have hopened := (kept_opened (j := j) (m := m)).and (alone (P := fun s => some row = none →
      s.registry.prediction? j.paths.prediction_id = none))
    refine Succeeds.bind (R := fun _ => j.Opened m) (succeeds_look hopened
      (fun _ h => h.1.toRecoverable) fun _ => succeeds_done (fun _ _ _ h => h.1)
        fun _ h => h.1.toRecoverable) fun _ => ?_
    exact succeeds_return fun s hs => hs
  | none =>
    have hprepared : Succeeds j.environment (j.Recoverable m) (j.Vacant m)
        (fun finished s => if finished then j.Opened m s else j.Ready m s) (do
          let prediction ← check j.prepared
          stageCommitted j.safeDump j.paths prediction
          return false) := by
      cases hp : j.prepared with
      | error e => exact succeeds_raise fun _ h => h.recoverable
      | ok prediction =>
        change Succeeds j.environment _ _ _
          (stageCommitted j.safeDump j.paths prediction >>= fun _ => pure false)
        refine Succeeds.bind (succeeds_stageCommitted' hunreadable hp) fun _ => ?_
        exact succeeds_return fun s hs => hs
    exact hprepared.pre fun s hs => hs.1.vacant (hs.2 rfl)

end PlannedWrite

end Pine
