import Pine.Ledger.Writer.Ownership

/-!
# Crash consistency of a write

Wherever a write, a rollback or an earlier recovery raises or dies, a later recovery
that returns leaves either a committed prediction with both of its files or nothing of
the write at all. While a prediction is uncommitted, whatever stands at its paths is
named by a whole manifest. The one place that breaks this is a rollback between the
removal of the manifest and that of the last artifact.
-/

namespace Pine

open Procedure Writing

/-- A write that was prepared or refused, with its paths and the dump of its front matter. -/
structure PlannedWrite where
  paths : StagedPaths
  safeDump : Document → Text
  prepared : Except Error CommittedPrediction
  own : ∀ prediction, prepared = .ok prediction → prediction.prediction_id.val = paths.prediction_id

/-- The steps of the write. -/
def PlannedWrite.program (j : PlannedWrite) : Writing Unit := write j.safeDump j.paths j.prepared

/-- A file with this content stands at the path. -/
def Site.Has (s : Site) (p : Path) (content : Text) : Prop :=
  ∃ f, s.disk.get? p = some f ∧ f.content = content

namespace PlannedWrite

variable (j : PlannedWrite)

/-- Both files stand at their final paths, with the contents of the prepared prediction. -/
def Published (s : Site) : Prop :=
  ∃ prediction snapshot, j.prepared = .ok prediction ∧ snapshotBytes prediction = .ok snapshot ∧
    s.Has j.paths.record_path (recordBytes j.safeDump prediction) ∧ s.Has j.paths.snapshot_path snapshot

/-- None of the files of the write exists. -/
structure Absent (s : Site) : Prop where
  record_temp : s.disk.get? j.paths.record_temp = none
  snapshot_temp : s.disk.get? j.paths.snapshot_temp = none
  record_path : s.disk.get? j.paths.record_path = none
  snapshot_path : s.disk.get? j.paths.snapshot_path = none

/-- The prediction of the write is committed. -/
def Committed (s : Site) : Prop := s.isCommitted j.paths.prediction_id = true

/-- A path of the write. -/
def Ours (p : Path) : Prop :=
  p = j.paths.record_temp ∨ p = j.paths.snapshot_temp ∨ p = j.paths.record_path ∨
    p = j.paths.snapshot_path ∨ p = j.paths.manifest_path

/-- The text is no manifest that recovery can read. -/
def Unreadable (content : Text) : Prop :=
  ∀ isCommitted paths, j.paths.layout.recoveryPaths isCommitted content ≠ .ok paths

/-- The snapshot of the write, when it is named like a manifest, does not read as one. -/
def SnapshotUnreadable : Prop :=
  j.paths.layout.isManifest j.paths.snapshot_path = true → ∀ prediction snapshot,
    j.prepared = .ok prediction → snapshotBytes prediction = .ok snapshot → j.Unreadable snapshot

/-- Keys are distinct, the manifest of the write is whole, and every other manifest that can be read
names other paths; the process remembers `m` of its staged write. -/
structure Ground (m : Option Bool) (s : Site) : Prop where
  keys : s.registry.Keys
  tx_keys : ∀ db, s.tx = some db → db.Keys
  manifest : ∀ f, s.disk.get? j.paths.manifest_path = some f → f.content = j.paths.manifestText
  unrelated : ∀ p f, j.paths.layout.isManifest p = true → p ≠ j.paths.manifest_path →
    s.disk.get? p = some f → ∀ isCommitted paths,
      j.paths.layout.recoveryPaths isCommitted f.content = .ok paths → ∀ q ∈ paths ++ [p], ¬ j.Ours q
  memory : s.staged = m

/-- What a death may leave: a committed prediction has both files, and an uncommitted one a manifest
or no file at all. -/
structure Recoverable (m : Option Bool) (s : Site) : Prop extends j.Ground m s where
  committed : j.Committed s → j.Published s
  uncommitted : ¬ j.Committed s →
    (s.disk.get? j.paths.manifest_path).isSome = true ∨ j.Absent s

/-- A recoverable site without a manifest. -/
structure Settled (m : Option Bool) (s : Site) : Prop extends j.Recoverable m s where
  manifest_gone : s.disk.get? j.paths.manifest_path = none
  manifest_temp_gone : s.disk.get? j.paths.manifest_temp = none

/-- Nobody else touches the vault; the process may die and errors may be raised everywhere but where
a rollback removes artifacts. -/
def environment : Environment Point Site where
  other _ _ := False
  clear _ _ := True
  raises point := point ≠ .removingArtifact
  dies point := point ≠ .removingArtifact
  crash s := ∃ m, j.Recoverable m s

variable {j} {m : Option Bool} {s t : Site} {P : Site → Prop}

theorem alone : j.environment.Stable P := fun _ _ h => h.elim

theorem kept (h : ∀ s, P s → ∃ m, j.Recoverable m s) : Kept j.environment P := ⟨alone, h⟩

theorem kept_recoverable : Kept j.environment (j.Recoverable m) := kept fun _ h => ⟨m, h⟩

/-! ## The disk -/

theorem has_put {p q : Path} {f : File Text} {next : Nat} {content : Text} (h : s.Has p content)
    (hne : p ≠ q) : ({ s with disk := { s.disk.put q f with next } } : Site).Has p content := by
  obtain ⟨g, hg, hcontent⟩ := h
  exact ⟨g, by rw [Disk.get?_next, Disk.get?_put, if_neg hne, hg], hcontent⟩

theorem has_unlink {p q : Path} {content : Text} (h : s.Has p content) (hne : p ≠ q) :
    (s.unlink q).Has p content := by
  obtain ⟨g, hg, hcontent⟩ := h
  exact ⟨g, by rw [Site.unlink, Disk.get?_unlink, if_neg hne, hg], hcontent⟩

theorem free_put {p q : Path} {f : File Text} {next : Nat} (h : s.disk.get? p = none) (hne : p ≠ q) :
    ({ s with disk := { s.disk.put q f with next } } : Site).disk.get? p = none := by
  rw [Disk.get?_next, Disk.get?_put, if_neg hne, h]

theorem Absent.unlink (h : j.Absent s) (p : Path) : j.Absent (s.unlink p) where
  record_temp := free_unlink p h.record_temp
  snapshot_temp := free_unlink p h.snapshot_temp
  record_path := free_unlink p h.record_path
  snapshot_path := free_unlink p h.snapshot_path

/-- What is absent depends on the disk alone. -/
theorem Absent.of_disk (h : j.Absent s) (hdisk : t.disk = s.disk) : j.Absent t where
  record_temp := hdisk ▸ h.record_temp
  snapshot_temp := hdisk ▸ h.snapshot_temp
  record_path := hdisk ▸ h.record_path
  snapshot_path := hdisk ▸ h.snapshot_path

theorem Absent.put (h : j.Absent s) {p : Path} {f : File Text} {next : Nat}
    (htemp : p ≠ j.paths.record_temp ∧ p ≠ j.paths.snapshot_temp) (hfinal : ¬ j.paths.IsFinal p) :
    j.Absent { s with disk := { s.disk.put p f with next } } where
  record_temp := free_put h.record_temp htemp.1.symm
  snapshot_temp := free_put h.snapshot_temp htemp.2.symm
  record_path := free_put h.record_path fun heq => hfinal (Or.inl heq.symm)
  snapshot_path := free_put h.snapshot_path fun heq => hfinal (Or.inr heq.symm)

theorem Published.unlink (h : j.Published s) {p : Path} (hp : ¬ j.paths.IsFinal p) :
    j.Published (s.unlink p) := by
  obtain ⟨prediction, snapshot, hprepared, hbytes, hrecord, hsnapshot⟩ := h
  exact ⟨prediction, snapshot, hprepared, hbytes,
    has_unlink hrecord fun heq => hp (Or.inl heq.symm),
    has_unlink hsnapshot fun heq => hp (Or.inr heq.symm)⟩

theorem Ground.unlink (h : j.Ground m s) (p : Path) : j.Ground m (s.unlink p) where
  keys := h.keys
  tx_keys := h.tx_keys
  manifest f hf := by
    simp only [Site.unlink, Disk.get?_unlink] at hf
    split at hf
    · cases hf
    · exact h.manifest f hf
  unrelated q f hq hne hf := by
    simp only [Site.unlink, Disk.get?_unlink] at hf
    split at hf
    · cases hf
    · exact h.unrelated q f hq hne hf
  memory := h.memory

theorem Ground.put (h : j.Ground m s) {p : Path} {f : File Text} {next : Nat}
    (hmanifest : p = j.paths.manifest_path → f.content = j.paths.manifestText)
    (hlisted : j.paths.layout.isManifest p = true → p = j.paths.manifest_path ∨ j.Unreadable f.content) :
    j.Ground m { s with disk := { s.disk.put p f with next } } where
  keys := h.keys
  tx_keys := h.tx_keys
  manifest g hg := by
    rw [Disk.get?_next, Disk.get?_put] at hg
    split at hg
    · rename_i heq
      cases hg
      exact hmanifest heq.symm
    · exact h.manifest g hg
  unrelated q g hq hne hg isCommitted paths hread := by
    rw [Disk.get?_next, Disk.get?_put] at hg
    split at hg
    · rename_i heq
      subst heq
      cases hg
      rcases hlisted hq with heq | hunreadable
      · exact absurd heq hne
      · exact absurd hread (hunreadable _ _)
    · exact h.unrelated q g hq hne hg isCommitted paths hread
  memory := h.memory

/-- Removing a path that is neither the manifest nor, once committed, a final one. -/
theorem Recoverable.unlink (h : j.Recoverable m s) {p : Path} (hmanifest : j.paths.manifest_path ≠ p)
    (hfinal : j.Committed s → ¬ j.paths.IsFinal p) : j.Recoverable m (s.unlink p) where
  toGround := h.toGround.unlink p
  committed hc := (h.committed hc).unlink (hfinal hc)
  uncommitted hu := by
    rcases h.uncommitted hu with hthere | habsent
    · left
      simpa [Site.unlink, hmanifest] using hthere
    · exact Or.inr (habsent.unlink p)

/-! ## Recovery -/

/-- Recovering another manifest leaves the write alone. -/
theorem succeeds_recoverOther {G : Site → Prop} (hG : ∀ s p, G s → G (s.unlink p)) {p : Path}
    (hlisted : j.paths.layout.isManifest p = true) (hne : p ≠ j.paths.manifest_path) :
    Succeeds j.environment (j.Recoverable m) (fun s => j.Recoverable m s ∧ G s)
      (fun _ s => j.Recoverable m s ∧ G s) (recoverManifest j.paths.layout p) := by
  have hbody : Triple j.environment (fun s => j.Recoverable m s ∧ G s)
      (fun s => j.Recoverable m s ∧ G s) (do
        let content ← ask .recovering fun s => required ((s.disk.get? p).map File.content)
          (.osError (text "No such file: " ++ p.str))
        let paths ← ask .recovering fun s => j.paths.layout.recoveryPaths s.isCommitted content
        removePaths .recovering (paths ++ [p])) := by
    have hkept : Kept j.environment fun s => j.Recoverable m s ∧ G s := kept fun _ h => ⟨m, h.1⟩
    refine succeeds_ask (F := fun content s => ∃ f, s.disk.get? p = some f ∧ f.content = content)
      hkept (fun _ h => h) ?_ fun content => ?_
    · intro s content _ _ hread
      exact Option.map_eq_some_iff.mp (required_ok.mp hread)
    refine succeeds_ask (F := fun paths _ => ∀ q ∈ paths ++ [p], ¬ j.Ours q)
      (hkept.and alone) (fun _ h => h.1) ?_ fun paths => ?_
    · rintro s paths ⟨⟨hs, -⟩, f, hf, rfl⟩ - hread
      exact hs.unrelated p f hlisted hne hf _ paths hread
    have hothers : Triple j.environment
        (fun s => (j.Recoverable m s ∧ G s) ∧ ∀ q ∈ paths ++ [p], ¬ j.Ours q)
        (fun s => (j.Recoverable m s ∧ G s) ∧ ∀ q ∈ paths ++ [p], ¬ j.Ours q)
        (removePaths .recovering (paths ++ [p])) := by
      refine triple_removePaths (kept fun _ h => ⟨m, h.1.1⟩) fun q hq s hs _ => ?_
      have hours := hs.2 q hq
      refine ⟨⟨hs.1.1.unlink (fun heq => ?_) fun _ hfinal => ?_, hG s q hs.1.2⟩, hs.2⟩
      · exact hours (Or.inr (Or.inr (Or.inr (Or.inr heq.symm))))
      · rcases hfinal with heq | heq
        · exact hours (Or.inr (Or.inr (Or.inl heq)))
        · exact hours (Or.inr (Or.inr (Or.inr (Or.inl heq))))
    exact (hothers.mono (fun _ _ h => h.1) fun _ h => h.1).pre fun s h => ⟨h.1.1, h.2⟩
  refine Succeeds.handle hbody (fun _ => ?_) fun e => succeeds_done nofun fun _ h => h.1
  exact succeeds_done (fun _ _ _ h => h) fun _ h => h.1

/-- Recovering the manifest of the write: its files go before the manifest does, but for those of a
committed prediction. -/
theorem succeeds_recoverOwn (hresolves : j.paths.Resolves) {G : Site → Prop}
    (hG : ∀ s p, G s → G (s.unlink p)) :
    Succeeds j.environment (j.Recoverable m) (fun s => j.Recoverable m s ∧ G s)
      (fun _ s => (j.Recoverable m s ∧ G s) ∧ s.disk.get? j.paths.manifest_path = none)
      (recoverManifest j.paths.layout j.paths.manifest_path) := by
  have hkept : Kept j.environment fun s => j.Recoverable m s ∧ G s := kept fun _ h => ⟨m, h.1⟩
  refine Succeeds.handle (F := j.Recoverable m)
    (R := fun _ s => (j.Recoverable m s ∧ G s) ∧ s.disk.get? j.paths.manifest_path = none) ?_
    (fun _ => succeeds_done (fun _ _ _ h => h) fun _ h => h.1.1)
    fun e => succeeds_done nofun fun _ h => h
  refine succeeds_ask (F := fun content _ => content = j.paths.manifestText)
    hkept (fun _ h => h.1) ?_ fun content => ?_
  · intro s content hs _ hread
    obtain ⟨f, hf, rfl⟩ := Option.map_eq_some_iff.mp (required_ok.mp hread)
    exact hs.1.manifest f hf
  refine succeeds_ask (F := fun paths s =>
      paths = j.paths.managedPaths (s.isCommitted j.paths.prediction_id))
    (hkept.and alone) (fun _ h => h.1.1) ?_ fun paths => ?_
  · rintro s paths ⟨-, rfl⟩ - hread
    rw [j.paths.recoveryPaths_manifestText hresolves] at hread
    exact (Except.ok.inj hread).symm
  rw [removePaths_append]
  refine (Succeeds.bind (R := fun _ s => ((j.Recoverable m s ∧ G s) ∧
      paths = j.paths.managedPaths (s.isCommitted j.paths.prediction_id)) ∧
      ∀ p ∈ paths, s.disk.get? p = none) ((succeeds_removePaths (kept fun _ h => ⟨m, h.1.1⟩)
    (fun _ => alone) fun p hp s hs _ => ?_).mono (fun _ _ h => h) fun _ h => h.1.1)
    fun _ => ?_).pre fun s hs => ⟨hs.1.1, hs.2⟩
  · obtain ⟨⟨hs, hg⟩, hpaths⟩ := hs
    refine ⟨⟨hs.unlink ?_ fun hc => not_final_managedPaths (hpaths ▸ hp) hc, hG s p hg⟩, hpaths⟩
    rintro rfl
    exact manifest_path_not_managed (hpaths ▸ hp)
  · refine Succeeds.bind (R := fun _ s => (j.Recoverable m s ∧ G s) ∧
      s.disk.get? j.paths.manifest_path = none) (succeeds_act (kept fun _ h => ⟨m, h.1.1.1⟩)
      (fun _ h => h.1.1.1) ?_) fun _ => succeeds_done (fun _ _ _ h => h) fun _ h => h.1.1
    rintro s t ⟨⟨⟨hs, hg⟩, hpaths⟩, hgone⟩ - heffect
    cases heffect
    refine ⟨⟨⟨hs.toGround.unlink _, fun hc => (hs.committed hc).unlink j.paths.manifest_path_not_final,
      fun hu => Or.inr ?_⟩, hG s _ hg⟩, by simp [Site.unlink]⟩
    -- an uncommitted prediction has lost all of its files by now
    have hfalse : s.isCommitted j.paths.prediction_id = false := (Bool.not_eq_true _).mp hu
    rw [hpaths, hfalse] at hgone
    exact Absent.unlink ⟨hgone _ (by simp [StagedPaths.managedPaths]),
      hgone _ (by simp [StagedPaths.managedPaths]), hgone _ (by simp [StagedPaths.managedPaths]),
      hgone _ (by simp [StagedPaths.managedPaths])⟩ _

/-- The manifest of the write, if it is there, is still to be recovered. -/
def Listed (j : PlannedWrite) (paths : List Path) (s : Site) : Prop :=
  s.disk.get? j.paths.manifest_temp = none ∧
    ((s.disk.get? j.paths.manifest_path).isSome = true → j.paths.manifest_path ∈ paths)

theorem Listed.unlink {paths : List Path} (s : Site) (p : Path) (h : j.Listed paths s) :
    j.Listed paths (s.unlink p) := by
  refine ⟨free_unlink p h.1, fun hsome => h.2 ?_⟩
  simp only [Site.unlink, Disk.get?_unlink] at hsome
  split at hsome
  · cases hsome
  · exact hsome

theorem succeeds_recoverManifests (hresolves : j.paths.Resolves) {paths : List Path}
    (h : ∀ p ∈ paths, j.paths.layout.isManifest p = true) :
    Succeeds j.environment (j.Recoverable m) (fun s => j.Recoverable m s ∧ j.Listed paths s)
      (fun _ => j.Settled m) (recoverManifests j.paths.layout paths) := by
  induction paths with
  | nil =>
    refine succeeds_done (fun _ _ s hs => ⟨hs.1, ?_, hs.2.1⟩) fun _ hs => hs.1
    cases hthere : s.disk.get? j.paths.manifest_path with
    | none => rfl
    | some f => exact absurd (hs.2.2 (by rw [hthere]; rfl)) (by simp)
  | cons p rest ih =>
    refine Succeeds.bind (R := fun _ s => j.Recoverable m s ∧ j.Listed rest s) ?_ fun _ =>
      ih fun q hq => h q (List.mem_cons_of_mem _ hq)
    by_cases hp : p = j.paths.manifest_path
    · subst hp
      refine (succeeds_recoverOwn hresolves Listed.unlink).mono (fun _ s hs => ?_) fun _ hs => hs
      exact ⟨hs.1.1, hs.1.2.1, fun hsome => by rw [hs.2] at hsome; cases hsome⟩
    · refine (succeeds_recoverOther (G := j.Listed rest) Listed.unlink (h p List.mem_cons_self) hp).pre
        fun s hs => ⟨hs.1, hs.2.1, fun hsome => ?_⟩
      exact (List.mem_cons.mp (hs.2.2 hsome)).resolve_left fun heq => hp heq.symm

/-- A recovery that returns leaves a settled site; wherever it raises or dies, the site stays
recoverable. -/
theorem succeeds_recover (hresolves : j.paths.Resolves) :
    Succeeds j.environment (j.Recoverable m) (j.Recoverable m) (fun _ => j.Settled m)
      (recoverUnfinishedTransactionsLocked j.paths.layout) := by
  refine succeeds_ask (F := fun unfinished s =>
      (∀ p ∈ unfinished, j.paths.layout.isManifestTemp p = true) ∧
        ((s.disk.get? j.paths.manifest_temp).isSome = true → j.paths.manifest_temp ∈ unfinished))
    kept_recoverable (fun _ h => h) ?_ fun unfinished => ?_
  · rintro s paths - - hread
    cases hread
    refine ⟨fun p hp => (List.mem_filter.mp hp).2, fun hsome => List.mem_filter.mpr ⟨?_, ?_⟩⟩
    · exact Disk.mem_paths.mpr hsome
    · exact j.paths.isManifestTemp_manifest_temp
  refine Succeeds.bind (R := fun _ s => j.Recoverable m s ∧
    s.disk.get? j.paths.manifest_temp = none) ?_ fun _ => ?_
  · refine (succeeds_removePaths (P := fun s => j.Recoverable m s ∧
      (∀ p ∈ unfinished, j.paths.layout.isManifestTemp p = true) ∧
        ((s.disk.get? j.paths.manifest_temp).isSome = true → j.paths.manifest_temp ∈ unfinished))
      (kept fun _ h => ⟨m, h.1⟩) (fun _ => alone) ?_).mono ?_ fun _ h => h.1
    · rintro p hp s ⟨hs, htemps, hlisted⟩ -
      have hlast := StagedPaths.isManifestTemp_last (htemps p hp)
      refine ⟨hs.unlink (StagedPaths.ne_of_last j.paths.manifest_path_last hlast (by decide))
        fun _ => j.paths.not_final_of_last hlast, htemps, fun hsome => hlisted ?_⟩
      simp only [Site.unlink, Disk.get?_unlink] at hsome
      split at hsome
      · cases hsome
      · exact hsome
    · rintro _ s ⟨⟨hs, -, hlisted⟩, hgone⟩
      refine ⟨hs, ?_⟩
      cases hthere : s.disk.get? j.paths.manifest_temp with
      | none => rfl
      | some f =>
        have hnone := hgone _ (hlisted (by rw [hthere]; rfl))
        rw [hthere] at hnone
        cases hnone
  · refine succeeds_ask (F := fun manifests s =>
        (∀ p ∈ manifests, j.paths.layout.isManifest p = true) ∧
          ((s.disk.get? j.paths.manifest_path).isSome = true → j.paths.manifest_path ∈ manifests))
      (kept fun _ h => ⟨m, h.1⟩) (fun _ h => h.1) ?_ fun manifests => ?_
    · rintro s paths - - hread
      cases hread
      refine ⟨fun p hp => ?_, fun hsome => ?_⟩
      · exact (List.mem_filter.mp ((List.perm_insertionSort _ _).mem_iff.mp hp)).2
      · exact (List.perm_insertionSort _ _).mem_iff.mpr (List.mem_filter.mpr
          ⟨Disk.mem_paths.mpr hsome, j.paths.isManifest_manifest_path⟩)
    · intro s hs
      exact succeeds_recoverManifests hresolves hs.2.1 s ⟨hs.1.1, hs.1.2, hs.2.2⟩

/-! ## Rollback -/

/-- A site that a rollback cleans up: what stands at a final path is known to be published. -/
structure Rollbackable (j : PlannedWrite) (m : Option Bool) (s : Site) : Prop extends j.Ground m s where
  uncommitted : ¬ j.Committed s
  there : (s.disk.get? j.paths.manifest_path).isSome = true ∨ j.Absent s
  record_owned : (s.disk.get? j.paths.record_path).isSome = true →
    s.record_published = true ∨ s.disk.sameFile j.paths.record_temp j.paths.record_path = true
  snapshot_owned : (s.disk.get? j.paths.snapshot_path).isSome = true →
    s.snapshot_published = true ∨ s.disk.sameFile j.paths.snapshot_temp j.paths.snapshot_path = true

theorem Rollbackable.recoverable (h : j.Rollbackable m s) : j.Recoverable m s where
  toGround := h.toGround
  committed hc := absurd hc h.uncommitted
  uncommitted _ := h.there

/-- The answers that a rollback got: what stands at a final path is to be removed. -/
def Answered (j : PlannedWrite) (record_owned snapshot_owned : Bool) (s : Site) : Prop :=
  ((s.disk.get? j.paths.record_path).isSome = true → record_owned = true) ∧
    ((s.disk.get? j.paths.snapshot_path).isSome = true → snapshot_owned = true)

theorem isSome_of_unlink {p q : Path} (h : ((s.unlink q).disk.get? p).isSome = true) :
    (s.disk.get? p).isSome = true := by
  simp only [Site.unlink, Disk.get?_unlink] at h
  split at h
  · cases h
  · exact h

theorem Answered.unlink {a b : Bool} (h : j.Answered a b s) (p : Path) :
    j.Answered a b (s.unlink p) :=
  ⟨fun hsome => h.1 (isSome_of_unlink hsome), fun hsome => h.2 (isSome_of_unlink hsome)⟩

/-- What is left of the write once a rollback has removed its manifest. -/
structure Unmanifested (j : PlannedWrite) (m : Option Bool) (record_owned snapshot_owned : Bool)
    (s : Site) : Prop extends j.Ground m s where
  uncommitted : ¬ j.Committed s
  record_temp : s.disk.get? j.paths.record_temp = none
  snapshot_temp : s.disk.get? j.paths.snapshot_temp = none
  answered : j.Answered record_owned snapshot_owned s

theorem Unmanifested.unlink {a b : Bool} (h : j.Unmanifested m a b s) (p : Path) :
    j.Unmanifested m a b (s.unlink p) where
  toGround := h.toGround.unlink p
  uncommitted := h.uncommitted
  record_temp := free_unlink p h.record_temp
  snapshot_temp := free_unlink p h.snapshot_temp
  answered := h.answered.unlink p

/-- Once the owned artifacts are gone too, no file of the write is left. -/
theorem Unmanifested.absent {a b : Bool} (h : j.Unmanifested m a b s)
    (hgone : ∀ p ∈ ownedArtifacts j.paths a b, s.disk.get? p = none) : j.Absent s := by
  refine ⟨h.record_temp, h.snapshot_temp, ?_, ?_⟩
  · cases hthere : s.disk.get? j.paths.record_path with
    | none => rfl
    | some f =>
      have howned := h.answered.1 (by rw [hthere]; rfl)
      rw [hgone _ (by simp [ownedArtifacts, howned])] at hthere
      cases hthere
  · cases hthere : s.disk.get? j.paths.snapshot_path with
    | none => rfl
    | some f =>
      have howned := h.answered.2 (by rw [hthere]; rfl)
      rw [hgone _ (by simp [ownedArtifacts, howned])] at hthere
      cases hthere

/-- A rollback removes the temporary files and the manifest first. -/
theorem succeeds_removeManifested (a b : Bool) :
    Succeeds j.environment (j.Recoverable m) (fun s => j.Rollbackable m s ∧ j.Answered a b s)
      (fun _ => j.Unmanifested m a b)
      (removePaths .removing [j.paths.record_temp, j.paths.snapshot_temp, j.paths.manifest_path]) := by
  rw [show [j.paths.record_temp, j.paths.snapshot_temp, j.paths.manifest_path] =
    [j.paths.record_temp, j.paths.snapshot_temp] ++ [j.paths.manifest_path] from rfl,
    removePaths_append]
  refine (Succeeds.bind ((succeeds_removePaths (P := fun s => (j.Recoverable m s ∧ ¬ j.Committed s) ∧
    j.Answered a b s) (kept fun _ h => ⟨m, h.1.1⟩) (fun _ => alone) ?_).mono (fun _ _ h => h)
    fun _ h => h.1.1) fun _ => ?_).pre fun s hs => ⟨⟨hs.1.recoverable, hs.1.uncommitted⟩, hs.2⟩
  · rintro p hp s ⟨⟨hs, hu⟩, hanswered⟩ -
    refine ⟨⟨hs.unlink ?_ fun hc => absurd hc hu, hu⟩, hanswered.unlink p⟩
    simp only [List.mem_cons, List.not_mem_nil, or_false] at hp
    rcases hp with rfl | rfl
    · exact StagedPaths.ne_of_last j.paths.manifest_path_last j.paths.tempName_last (by decide)
    · exact StagedPaths.ne_of_last j.paths.manifest_path_last j.paths.tempName_last (by decide)
  · refine Succeeds.bind (R := fun _ => j.Unmanifested m a b) (succeeds_act
      (kept fun _ h => ⟨m, h.1.1.1⟩) (fun _ h => h.1.1.1) ?_) fun _ => succeeds_return fun _ h => h
    rintro s t ⟨⟨⟨hs, hu⟩, hanswered⟩, hgone⟩ - heffect
    cases heffect
    exact ⟨hs.toGround.unlink _, hu, free_unlink _ (hgone _ (by simp)),
      free_unlink _ (hgone _ (by simp)), hanswered.unlink _⟩

/-- A rollback without a fault between the manifest and the last artifact leaves no file. -/
theorem succeeds_rollback :
    Succeeds j.environment (j.Recoverable m) (j.Rollbackable m) (fun _ => j.Recoverable m)
      (rollback j.paths) := by
  have hkept : Kept j.environment (j.Rollbackable m) := kept fun _ h => ⟨m, h.recoverable⟩
  refine succeeds_ask (F := fun a s =>
    (s.disk.get? j.paths.record_path).isSome = true → a = true) hkept (fun _ h => h.recoverable) ?_
    fun record_owned => ?_
  · intro s a hs _ hread hsome
    cases hread
    exact (Bool.or_eq_true _ _).mpr (hs.record_owned hsome)
  refine succeeds_ask (F := fun b s =>
    (s.disk.get? j.paths.snapshot_path).isSome = true → b = true) (hkept.and alone)
    (fun _ h => h.1.recoverable) ?_ fun snapshot_owned => ?_
  · rintro s b ⟨hs, -⟩ - hread hsome
    cases hread
    exact (Bool.or_eq_true _ _).mpr (hs.snapshot_owned hsome)
  refine Succeeds.bind ((succeeds_removeManifested record_owned snapshot_owned).pre
    fun s hs => ⟨hs.1.1, hs.1.2, hs.2⟩) fun _ => ?_
  refine Succeeds.bind (R := fun _ => j.Recoverable m) ?_ fun _ =>
    Triple.seq (triple_fsync kept_recoverable) fun _ => triple_fsync kept_recoverable
  refine (succeeds_removeQuiet (P := j.Unmanifested m record_owned snapshot_owned)
    (show ¬ j.environment.dies .removingArtifact from fun h => h rfl)
    (show ¬ j.environment.raises .removingArtifact from fun h => h rfl) (fun _ => alone)
    fun s p hs => hs.unlink p).mono ?_ fun _ h => h
  rintro _ s ⟨hs, hgone⟩
  exact ⟨hs.toGround, fun hc => absurd hc hs.uncommitted, fun _ => Or.inr (hs.absent hgone)⟩

/-! ## Finalize -/

/-- Finalizing keeps the committed files and removes the manifest. -/
theorem succeeds_finalize :
    Succeeds j.environment (j.Recoverable m)
      (fun s => (j.Recoverable m s ∧ j.Committed s) ∧ s.disk.get? j.paths.manifest_temp = none)
      (fun _ => j.Settled m) (finalize j.paths) := by
  have hkept : Kept j.environment fun s => (j.Recoverable m s ∧ j.Committed s) ∧
      s.disk.get? j.paths.manifest_temp = none := kept fun _ h => ⟨m, h.1.1⟩
  refine Succeeds.bind ((succeeds_removePaths hkept (fun _ => alone) ?_).mono (fun _ _ h => h)
    fun _ h => h.1.1) fun _ => ?_
  · rintro p hp s ⟨⟨hs, hc⟩, htemp⟩ -
    have hfinal : ¬ j.paths.IsFinal p := by
      simp only [List.mem_cons, List.not_mem_nil, or_false] at hp
      rcases hp with rfl | rfl | rfl
      · exact j.paths.record_temp_not_final
      · exact j.paths.snapshot_temp_not_final
      · exact j.paths.manifest_path_not_final
    exact ⟨⟨⟨hs.toGround.unlink p, fun hc => (hs.committed hc).unlink hfinal,
      fun hu => absurd hc hu⟩, hc⟩, free_unlink p htemp⟩
  · have hsettled : Kept j.environment (j.Settled m) := kept fun _ h => ⟨m, h.toRecoverable⟩
    refine ((Triple.seq (triple_fsync hsettled) fun _ => triple_fsync hsettled).mono
      (fun _ _ h => h) fun _ h => h.toRecoverable).pre ?_
    rintro s ⟨⟨⟨hs, hc⟩, htemp⟩, hgone⟩
    exact ⟨hs, hgone _ (by simp), htemp⟩

end PlannedWrite

end Pine
