import Pine.Ledger.Writer.Consistency

/-!
# Recovery of a quiescent vault

When no write is in progress, a recovery should find nothing to do. It looks for names
of manifests in the directory of the snapshots, so it does nothing exactly when no file
there bears such a name. After a successful write only its own snapshot can bear one,
and it does when the identifier of the prediction begins like a manifest.
-/

namespace Pine

open Procedure Writing

/-- Recovery looks for files of this name. -/
def Layout.Listed (l : Layout) (p : Path) : Prop := l.isManifest p = true ∨ l.isManifestTemp p = true

/-- No file bears the name of a manifest, but for the given paths. -/
def Cleared (l : Layout) (pending : List Path) (s : Site) : Prop :=
  ∀ p, l.Listed p → p ∉ pending → s.disk.get? p = none

/-- No file bears the name of a manifest. -/
abbrev Quiescent (l : Layout) : Site → Prop := Cleared l []

/-- A recovery returns and leaves everything as it was. -/
def RecoveryIdle (l : Layout) (s : Site) : Prop :=
  (recoverUnfinishedTransactionsLocked l).exec s = (.ok (), s)

variable {l : Layout} {w : StagedPaths} {s t : Site} {P Q R : Site → Prop} {α β : Type}

/-- What holds of every path of a site holds of what is left when one is removed. -/
theorem Cleared.unlink {pending : List Path} (h : Cleared l pending s) (p : Path) :
    Cleared l pending (s.unlink p) :=
  fun q hq hpending => free_unlink p (h q hq hpending)

/-- A file under a path that recovery does not look for, or that is set aside. -/
theorem Cleared.put {pending : List Path} (h : Cleared l pending s) {p : Path} {f : File Text}
    {next : Nat} (hp : l.Listed p → p ∈ pending) :
    Cleared l pending { s with disk := { s.disk.put p f with next } } := by
  intro q hq hpending
  have hne : q ≠ p := by
    rintro rfl
    exact hpending (hp hq)
  exact PlannedWrite.free_put (h q hq hpending) hne

/-- Paths that are free need not be set aside. -/
theorem Cleared.drop {pending rest : List Path} (h : Cleared l (pending ++ rest) s)
    (hfree : ∀ p ∈ pending, s.disk.get? p = none) : Cleared l rest s := by
  intro p hp hrest
  by_cases hpending : p ∈ pending
  · exact hfree p hpending
  · exact h p hp fun hmem => (List.mem_append.mp hmem).elim hpending hrest

/-! ## Undisturbed writers -/

theorem kept_undisturbed (P : Site → Prop) : Kept (undisturbed Point Site) P :=
  ⟨fun _ _ h => h.elim, fun _ _ => trivial⟩

/-- From `P` a procedure that returns leads to `Q`. -/
abbrev Returns (P : Site → Prop) (Q : α → Site → Prop) (p : Writing α) : Prop :=
  Succeeds (undisturbed Point Site) (fun _ => True) P Q p

/-- What a returned execution leaves. -/
theorem Returns.of_exec {Q : α → Site → Prop} {p : Writing α} (h : Returns P Q p) (hs : P s) {a : α}
    (hexec : p.exec s = (.ok a, t)) : Q a t := by
  have hdone := (h s hs).exec
  rw [hexec] at hdone
  exact hdone

/-- Of what is not asked about nothing is promised. -/
theorem returns_anything (p : Writing α) : Returns P (fun _ _ => True) p := by
  intro s hs
  clear hs
  induction p generalizing s with
  | done r => exact safe_done (fun _ _ => trivial) fun _ _ => trivial
  | step point effect rest raised ihrest ihraised =>
    refine safe_step.mpr fun t _ => ⟨nofun, fun _ => ⟨nofun, ?_⟩⟩
    split
    · exact ihrest _ _
    · exact ihraised _ _

/-- A step that changes the site. -/
theorem returns_act {point : Point} {effect : Site → Except Error Site} {Q : Unit → Site → Prop}
    (h : ∀ s t, P s → effect s = .ok t → Q () t) : Returns P Q (act point effect) :=
  succeeds_act (kept_undisturbed P) (fun _ _ => trivial) fun s t hs _ => h s t hs

/-- A step that reads the site. -/
theorem returns_ask {point : Point} {read : Site → Except Error α} {f : α → Writing β}
    {Q : β → Site → Prop} {F : α → Site → Prop} (hread : ∀ s a, P s → read s = .ok a → F a s)
    (hf : ∀ a, Returns (fun s => P s ∧ F a s) Q (f a)) : Returns P Q (ask point read >>= f) :=
  succeeds_ask (kept_undisturbed P) (fun _ _ => trivial) (fun s a hs _ => hread s a hs) hf

/-- A step that reads what is not asked about. -/
theorem returns_look {point : Point} {read : Site → Except Error α} {f : α → Writing β}
    {Q : β → Site → Prop} (hf : ∀ a, Returns P Q (f a)) : Returns P Q (ask point read >>= f) :=
  succeeds_look (kept_undisturbed P) (fun _ _ => trivial) hf

theorem Returns.seq {Q : β → Site → Prop} {p : Writing α} {f : α → Writing β}
    (hp : Returns P (fun _ => R) p) (hf : ∀ a, Returns R Q (f a)) : Returns P Q (p >>= f) :=
  Succeeds.bind hp hf

/-- A step that keeps the disk. -/
theorem returns_aside {point : Point} {effect : Site → Except Error Site}
    (hP : ∀ s t, s.disk = t.disk → P s → P t) (h : ∀ s t, effect s = .ok t → s.disk = t.disk) :
    Returns P (fun _ => P) (act point effect) :=
  returns_act fun s t hs heffect => hP s t (h s t heffect) hs

/-! ## Recovery -/

/-- Recovering a manifest removes it. -/
theorem returns_recoverManifest (p : Path) (rest : List Path) :
    Returns (Cleared l (p :: rest)) (fun _ => Cleared l rest) (recoverManifest l p) := by
  refine Succeeds.handle (R := fun _ => Cleared l rest) (F := fun _ => True) ?_
    (fun _ => succeeds_return fun _ h => h) fun e => succeeds_raise fun _ _ => trivial
  refine returns_look fun content => returns_look fun paths => ?_
  have hremoved : Succeeds (undisturbed Point Site) (Cleared l (p :: rest)) (Cleared l (p :: rest))
      (fun _ s => Cleared l (p :: rest) s ∧ ∀ q ∈ paths ++ [p], s.disk.get? q = none)
      (removePaths .recovering (paths ++ [p])) :=
    succeeds_removePaths (kept_undisturbed _) (fun _ _ _ h => h.elim) fun q _ s hs _ => hs.unlink q
  refine hremoved.mono (fun _ s hs => ?_) fun _ _ => trivial
  refine @Cleared.drop _ _ [p] _ hs.1 fun q hq => hs.2 q ?_
  exact List.mem_append_right _ hq

theorem returns_recoverManifests (paths : List Path) :
    Returns (Cleared l paths) (fun _ => Quiescent l) (recoverManifests l paths) := by
  induction paths with
  | nil => exact succeeds_return fun _ h => h
  | cons p rest ih => exact (returns_recoverManifest p rest).seq fun _ => ih

/-- A recovery that returns leaves no file with the name of a manifest. -/
theorem returns_recover :
    Returns (fun _ => True) (fun _ => Quiescent l) (recoverUnfinishedTransactionsLocked l) := by
  refine returns_ask (F := fun paths s => ∀ p, l.isManifestTemp p = true → p ∉ paths →
    s.disk.get? p = none) ?_ fun unfinished => ?_
  · rintro s paths - hread p hp hnot
    cases hread
    by_contra hsome
    exact hnot (List.mem_filter.mpr
      ⟨Disk.mem_paths.mpr (Option.isSome_iff_ne_none.mpr hsome), hp⟩)
  refine Returns.seq (R := fun s => ∀ p, l.isManifestTemp p = true → s.disk.get? p = none) ?_
    fun _ => ?_
  · have hremoved : Succeeds (undisturbed Point Site) (fun _ => True)
        (fun s => True ∧ ∀ p, l.isManifestTemp p = true → p ∉ unfinished → s.disk.get? p = none)
        (fun _ s => (True ∧ ∀ p, l.isManifestTemp p = true → p ∉ unfinished →
          s.disk.get? p = none) ∧ ∀ p ∈ unfinished, s.disk.get? p = none)
        (removePaths .recovering unfinished) :=
      (succeeds_removePaths (kept_undisturbed _) (fun _ _ _ h => h.elim) fun q _ s hs _ =>
        ⟨trivial, fun p hp hnot => free_unlink q (hs.2 p hp hnot)⟩).mono (fun _ _ h => h)
          fun _ _ => trivial
    refine hremoved.mono (fun _ s hs p hp => ?_) fun _ _ => trivial
    by_cases hmem : p ∈ unfinished
    · exact hs.2 p hmem
    · exact hs.1.2 p hp hmem
  refine returns_ask (F := fun paths s => ∀ p, l.isManifest p = true → p ∉ paths →
    s.disk.get? p = none) ?_ fun manifests => ?_
  · rintro s paths - hread p hp hnot
    cases hread
    by_contra hsome
    exact hnot ((List.perm_insertionSort _ _).mem_iff.mpr (List.mem_filter.mpr
      ⟨Disk.mem_paths.mpr (Option.isSome_iff_ne_none.mpr hsome), hp⟩))
  · refine (returns_recoverManifests manifests).pre fun s hs p hp hnot => ?_
    rcases hp with hp | hp
    · exact hs.2 p hp hnot
    · exact hs.1 p hp

/-- Where no file bears the name of a manifest, a recovery finds nothing to do. -/
theorem Quiescent.recoveryIdle (h : Quiescent l s) : RecoveryIdle l s := by
  have hnone : ∀ f : Path → Bool, (∀ p, f p = true → l.Listed p) → s.disk.paths.filter f = [] := by
    intro f hf
    refine List.filter_eq_nil_iff.mpr fun p hp hfp => ?_
    have hfree := h p (hf p hfp) List.not_mem_nil
    rw [Disk.mem_paths, hfree] at hp
    cases hp
  have hbegin : (ask Point.recovering fun s : Site =>
      (.ok (s.disk.paths.filter l.isManifestTemp) : Except Error _)).exec s = (.ok [], s) := by
    simp only [ask, Procedure.exec, hnone _ fun p => Or.inr]
  have hlist : (ask Point.recovering fun s : Site =>
      (.ok ((s.disk.paths.filter l.isManifest).insertionSort fun p q => p.nameLe q = true) :
        Except Error _)).exec s = (.ok [], s) := by
    simp only [ask, Procedure.exec, hnone _ fun p => Or.inl, List.insertionSort_nil]
  rw [RecoveryIdle, recoverUnfinishedTransactionsLocked, exec_bind_ok hbegin]
  exact exec_bind_ok hlist

/-- A recovery does nothing exactly when no file bears the name of a manifest. -/
theorem recoveryIdle_iff : RecoveryIdle l s ↔ Quiescent l s :=
  ⟨fun h => returns_recover.of_exec trivial h, Quiescent.recoveryIdle⟩

/-! ## Names -/

namespace StagedPaths

theorem record_path_not_listed : ¬ l.Listed w.record_path := by
  rintro (h | h)
  · exact ne_of_last w.record_path_last (isManifest_last h) (by decide) rfl
  · exact ne_of_last w.record_path_last (isManifestTemp_last h) (by decide) rfl

/-- A temporary file of an artifact bears no name of a manifest. -/
theorem temp_not_listed {p : Path} (hp : p.name = w.tempName) : ¬ l.Listed p := by
  have hlast : p.name.getLast? = some 'p' := hp ▸ w.tempName_last
  rintro (h | h)
  · exact not_isManifest_of_last hlast h
  · simp only [Layout.isManifestTemp, Bool.and_eq_true, List.isSuffixOf_iff_suffix] at h
    obtain ⟨start, hstart⟩ := h.2
    have htemp : w.tempName = (['.'] ++ (w.prediction_id ++ (['.'] ++ w.nonce))) ++ text ".tmp" := by
      simp [tempName]
    have hreverse := congrArg (fun name => name.reverse[3]?) (hstart.trans (hp.trans htemp))
    simp only [@List.reverse_append _ _ (text ".tmp"),
      @List.reverse_append _ _ (text ".manifest-tmp")] at hreverse
    have hne : some '-' = some '.' := hreverse
    cases hne

/-- The snapshot bears the name of a manifest when its identifier begins like one. -/
theorem snapshot_path_listed : w.layout.Listed w.snapshot_path ↔ text ".txn-" <+: w.prediction_id := by
  have hstart : (text ".txn-").length = 5 := rfl
  have hstop : (text ".json").length = 5 := rfl
  constructor
  · rintro (h | h)
    · simp only [Layout.isManifest, Bool.and_eq_true, decide_eq_true_eq, List.isPrefixOf_iff_prefix]
        at h
      obtain ⟨⟨⟨-, hlength⟩, hprefix⟩, -⟩ := h
      simp only [snapshot_path, Layout.snapshotPath, List.length_append] at hlength hprefix
      exact List.prefix_of_prefix_length_le hprefix (List.prefix_append _ _) (by omega)
    · exact absurd rfl (ne_of_last w.snapshot_path_last (isManifestTemp_last h) (by decide))
  · intro h
    left
    have hlength := h.length_le
    simp only [Layout.isManifest, Bool.and_eq_true, beq_iff_eq, decide_eq_true_eq,
      List.isPrefixOf_iff_prefix, List.isSuffixOf_iff_suffix, snapshot_path, Layout.snapshotPath,
      List.length_append]
    exact ⟨⟨⟨trivial, by omega⟩, h.trans (List.prefix_append _ _)⟩, List.suffix_append _ _⟩

end StagedPaths

/-! ## Writes -/

/-- Only the manifest and the snapshot of the write may bear the name of a manifest. -/
abbrev Lone (w : StagedPaths) : Site → Prop :=
  Cleared w.layout [w.manifest_path, w.snapshot_path]

/-- The snapshot of the write is there, too. -/
def Holding (w : StagedPaths) (s : Site) : Prop :=
  Lone w s ∧ (s.disk.get? w.snapshot_path).isSome = true

/-- What a write that returned leaves: its snapshot, and no other file with the name of a manifest. -/
def LeftBy (w : StagedPaths) (s : Site) : Prop :=
  Cleared w.layout [w.snapshot_path] s ∧ (s.disk.get? w.snapshot_path).isSome = true

/-- Fewer paths are set aside in fewer files. -/
theorem Cleared.mono {pending rest : List Path} (h : Cleared l pending s) (hsub : pending ⊆ rest) :
    Cleared l rest s :=
  fun p hp hrest => h p hp fun hmem => hrest (hsub hmem)

theorem Cleared.of_disk {pending : List Path} (hdisk : s.disk = t.disk) (h : Cleared l pending s) :
    Cleared l pending t :=
  fun p hp hpending => hdisk ▸ h p hp hpending

theorem Holding.of_disk (hdisk : s.disk = t.disk) (h : Holding w s) : Holding w t :=
  ⟨h.1.of_disk hdisk, hdisk ▸ h.2⟩

theorem LeftBy.of_disk (hdisk : s.disk = t.disk) (h : LeftBy w s) : LeftBy w t :=
  ⟨h.1.of_disk hdisk, hdisk ▸ h.2⟩

theorem Holding.put (h : Holding w s) {p : Path} {f : File Text} {next : Nat}
    (hp : ¬ w.layout.Listed p) : Holding w { s with disk := { s.disk.put p f with next } } := by
  refine ⟨h.1.put fun hlisted => absurd hlisted hp, ?_⟩
  rw [Disk.get?_next, Disk.get?_put]
  split
  · rfl
  · exact h.2

theorem Holding.unlink (h : Holding w s) {p : Path} (hp : w.snapshot_path ≠ p) :
    Holding w (s.unlink p) :=
  ⟨h.1.unlink p, by simpa [Site.unlink, hp] using h.2⟩

theorem snapshot_path_ne_temp {p : Path} (hp : p.name = w.tempName) : w.snapshot_path ≠ p :=
  StagedPaths.ne_of_last w.snapshot_path_last (hp ▸ w.tempName_last) (by decide)

/-- One disk operation. -/
theorem returns_onDisk {point : Point} {operation : Disk Path Text → Option (Disk Path Text)}
    {e : Error} (h : ∀ s disk, P s → operation s.disk = some disk → Q { s with disk }) :
    Returns P (fun _ => Q) (onDisk point operation e) := by
  refine returns_act fun s t hs heffect => ?_
  obtain ⟨disk, hdisk, rfl⟩ := diskEffect_ok heffect
  exact h s disk hs hdisk

theorem returns_writeNewFile {pending : List Path} {p : Path} {content : Text}
    (hp : l.Listed p → p ∈ pending) :
    Returns (Cleared l pending) (fun _ => Cleared l pending) (writeNewFile p content) := by
  refine Returns.seq (R := Cleared l pending) (returns_onDisk fun s disk hs hdisk => ?_) fun _ =>
    returns_onDisk fun s disk hs hdisk => ?_
  · obtain ⟨-, rfl⟩ := Disk.create_some hdisk
    exact hs.put hp
  · obtain ⟨f, -, rfl⟩ := Disk.fill_some hdisk
    exact hs.put hp

/-- The manifest is in place, and its temporary file is gone. -/
theorem returns_atomicManifestWrite :
    Returns (Quiescent w.layout) (fun _ => Lone w) (atomicManifestWrite w) := by
  refine Returns.seq (R := Cleared w.layout [w.manifest_temp]) ?_ fun _ => ?_
  · exact (returns_writeNewFile fun _ => List.mem_singleton_self _).pre fun s hs =>
      hs.mono (List.nil_subset _)
  refine Returns.seq (R := Lone w) (returns_onDisk fun s disk hs hdisk => ?_) fun _ =>
    returns_aside (fun _ _ hdisk => Cleared.of_disk hdisk) fun s t heffect => by cases heffect; rfl
  obtain ⟨f, -, rfl⟩ := Disk.rename_some hdisk
  intro p hp hpending
  simp only [List.mem_cons, List.not_mem_nil, or_false, not_or] at hpending
  rw [Disk.get?_put, if_neg hpending.1, Disk.get?_unlink]
  split
  · rfl
  · rename_i hne
    exact hs p hp fun hmem => hne (List.mem_singleton.mp hmem)

/-- Statements leave the disk alone. -/
theorem returns_sql {point : Point} {session : Registry.Session Unit}
    (hP : ∀ s t, s.disk = t.disk → P s → P t) : Returns P (fun _ => P) (sql point session) := by
  refine returns_aside hP fun s t heffect => ?_
  cases htx : s.tx with
  | none => simp only [htx] at heffect; cases heffect
  | some db =>
    simp only [htx] at heffect
    split at heffect
    · cases heffect
      rfl
    · cases heffect

theorem returns_publishSnapshot : Returns (Lone w) (fun _ => Holding w) (publishSnapshot w) := by
  have hdisk : ∀ s t : Site, s.disk = t.disk → Holding w s → Holding w t :=
    fun _ _ => Holding.of_disk
  refine Returns.seq (R := Holding w) (returns_onDisk fun s disk hs hlink => ?_) fun _ => ?_
  · obtain ⟨-, f, -, rfl⟩ := Disk.link_some hlink
    exact ⟨hs.put fun _ => List.mem_cons_of_mem _ (List.mem_singleton_self _), by simp⟩
  refine Returns.seq (R := Holding w)
    (returns_aside hdisk fun s t heffect => by cases heffect; rfl) fun _ => ?_
  refine Returns.seq (R := Holding w) (returns_act fun s t hs heffect => ?_) fun _ =>
    returns_aside hdisk fun s t heffect => by cases heffect; rfl
  split at heffect
  · cases heffect
    exact hs.unlink (snapshot_path_ne_temp rfl)
  · cases heffect

theorem returns_publishRecord : Returns (Holding w) (fun _ => Holding w) (publishRecord w) := by
  have hdisk : ∀ s t : Site, s.disk = t.disk → Holding w s → Holding w t :=
    fun _ _ => Holding.of_disk
  refine Returns.seq (R := Holding w) (returns_onDisk fun s disk hs hlink => ?_) fun _ => ?_
  · obtain ⟨-, f, -, rfl⟩ := Disk.link_some hlink
    exact hs.put w.record_path_not_listed
  refine Returns.seq (R := Holding w)
    (returns_aside hdisk fun s t heffect => by cases heffect; rfl) fun _ => ?_
  refine Returns.seq (R := Holding w) (returns_act fun s t hs heffect => ?_) fun _ =>
    returns_aside hdisk fun s t heffect => by cases heffect; rfl
  split at heffect
  · cases heffect
    exact hs.unlink (snapshot_path_ne_temp rfl)
  · cases heffect

/-- Staging from a quiescent vault. -/
theorem returns_stageSteps (safeDump : Document → Text) (prediction : CommittedPrediction) :
    Returns (Quiescent w.layout) (fun _ => Holding w) (stageSteps safeDump w prediction) := by
  have hlone : ∀ s t : Site, s.disk = t.disk → Lone w s → Lone w t := fun _ _ => Cleared.of_disk
  refine returns_atomicManifestWrite.seq fun _ => ?_
  refine Returns.seq (R := Lone w) (succeeds_done (fun _ _ _ hs => hs) fun _ _ => trivial)
    fun snapshot => ?_
  refine (returns_writeNewFile fun h => absurd h (w.temp_not_listed rfl)).seq fun _ => ?_
  refine (returns_writeNewFile fun h => absurd h (w.temp_not_listed rfl)).seq fun _ => ?_
  refine (returns_sql hlone).seq fun _ => returns_publishSnapshot.seq fun _ => ?_
  exact returns_publishRecord.seq fun _ => returns_sql fun _ _ => Holding.of_disk

theorem returns_stageCommitted (safeDump : Document → Text) (prediction : CommittedPrediction) :
    Returns (Quiescent w.layout) (fun _ => Holding w) (stageCommitted safeDump w prediction) := by
  refine returns_look fun taken => ?_
  refine Returns.seq (R := Quiescent w.layout) (succeeds_done (fun _ _ _ hs => hs)
    fun _ _ => trivial) fun _ => ?_
  refine Returns.seq (R := Quiescent w.layout) (returns_aside (fun _ _ => Cleared.of_disk)
    fun s t heffect => by cases heffect; rfl) fun _ => ?_
  refine Succeeds.handle (R := fun _ => Holding w) (F := fun _ => True)
    (returns_stageSteps safeDump prediction) (fun _ => succeeds_return fun _ hs => hs) fun e => ?_
  exact (returns_anything _).seq fun _ => succeeds_raise fun _ _ => trivial

/-- A staged write holds its files; a finished one was registered before, with its files there. -/
def StagedBy (w : StagedPaths) (finished : Bool) (s : Site) : Prop :=
  if finished then LeftBy w s else Holding w s

theorem StagedBy.of_disk {finished : Bool} (hdisk : s.disk = t.disk) (h : StagedBy w finished s) :
    StagedBy w finished t := by
  cases finished with
  | true => exact LeftBy.of_disk hdisk h
  | false => exact Holding.of_disk hdisk h

theorem returns_stageWrite (safeDump : Document → Text)
    (prediction : Except Error CommittedPrediction) :
    Returns (Quiescent w.layout) (StagedBy w) (stageWrite safeDump w prediction) := by
  refine returns_ask (F := fun existing _ => ∀ row ∈ existing, row.prediction_id = w.prediction_id)
    ?_ fun existing => ?_
  · intro s existing _ hread row hrow
    cases htx : s.tx with
    | none => simp only [htx] at hread; cases hread
    | some db =>
      simp only [htx] at hread
      cases hread
      exact (Registry.prediction?_some hrow).2
  cases existing with
  | some row =>
    refine Returns.seq (R := LeftBy w) ?_ fun _ => succeeds_return fun _ hs => hs
    refine returns_ask (F := fun artifacts s => artifacts = true → row.prediction_id = w.prediction_id →
      (s.disk.get? w.snapshot_path).isSome = true) ?_ fun artifacts => ?_
    · rintro s artifacts - hread hboth hid
      cases hread
      have hsnapshot := (Bool.and_eq_true _ _ ▸ hboth).2
      rwa [hid] at hsnapshot
    · refine succeeds_done (fun _ hresult s hs => ?_) fun _ _ => trivial
      obtain ⟨⟨hquiet, hid⟩, hfile⟩ := hs
      have hartifacts : artifacts = true := by
        obtain ⟨-, -, hthere⟩ := bind_eq_ok.mp hresult
        simpa using refuse_ok.mp hthere
      exact ⟨hquiet.mono (List.nil_subset _), hfile hartifacts (hid row rfl)⟩
  | none =>
    refine Returns.seq (R := Quiescent w.layout)
      (succeeds_done (fun _ _ _ hs => hs.1) fun _ _ => trivial) fun prediction => ?_
    exact (returns_stageCommitted safeDump prediction).seq fun _ => succeeds_return fun _ hs => hs

theorem returns_finalize : Returns (Holding w) (fun _ => LeftBy w) (finalize w) := by
  have hremoved : Succeeds (undisturbed Point Site) (Holding w) (Holding w)
      (fun _ s => Holding w s ∧ ∀ p ∈ [w.record_temp, w.snapshot_temp, w.manifest_path],
        s.disk.get? p = none)
      (removePaths .finalizing [w.record_temp, w.snapshot_temp, w.manifest_path]) := by
    refine succeeds_removePaths (kept_undisturbed _) (fun _ _ _ h => h.elim) fun p hp s hs _ => ?_
    simp only [List.mem_cons, List.not_mem_nil, or_false] at hp
    rcases hp with rfl | rfl | rfl
    · exact hs.unlink (snapshot_path_ne_temp rfl)
    · exact hs.unlink (snapshot_path_ne_temp rfl)
    · exact hs.unlink w.manifest_path_ne_snapshot_path.symm
  refine Returns.seq (R := LeftBy w) (hremoved.mono (fun _ s hs => ?_) fun _ _ => trivial) fun _ => ?_
  · refine ⟨@Cleared.drop _ _ [w.manifest_path] _ hs.1.1 fun p hp => ?_, hs.1.2⟩
    obtain rfl := List.mem_singleton.mp hp
    exact hs.2 _ (by simp)
  · have hfsync : Returns (LeftBy w) (fun _ => LeftBy w) (fsync .finalizing) :=
      returns_aside (fun _ _ => LeftBy.of_disk) fun s t heffect => by cases heffect; rfl
    exact hfsync.seq fun _ => hfsync

theorem returns_writeSteps (safeDump : Document → Text)
    (prediction : Except Error CommittedPrediction) :
    Returns (Quiescent w.layout) (StagedBy w) (writeSteps safeDump w prediction) := by
  refine Returns.seq (R := Quiescent w.layout) (returns_aside (fun _ _ => Cleared.of_disk)
    fun s t heffect => ?_) fun _ => ?_
  · split at heffect
    · cases heffect
      rfl
    · cases heffect
  refine Succeeds.bind (returns_stageWrite safeDump prediction) fun finished => ?_
  have hdisk : ∀ s t : Site, s.disk = t.disk → StagedBy w finished s → StagedBy w finished t :=
    fun _ _ => StagedBy.of_disk
  refine Returns.seq (R := StagedBy w finished)
    (returns_aside hdisk fun s t heffect => by cases heffect; rfl) fun _ => ?_
  refine Returns.seq (R := StagedBy w finished) ?_ fun _ => succeeds_return fun _ hs => hs
  refine Returns.seq (R := StagedBy w finished) (returns_aside hdisk fun s t heffect => ?_) fun _ =>
    returns_aside hdisk fun s t heffect => by cases heffect; rfl
  split at heffect
  · cases heffect
    rfl
  · cases heffect

/-- The handler of a write never returns. -/
theorem returns_exceptWrite (e : Error) : Returns P (fun _ => Q) (exceptWrite w e) := by
  refine (returns_anything _).seq fun _ => returns_look fun staged => ?_
  have hraise : Returns (fun _ => True) (fun (_ : Unit) => Q) (raise e) :=
    succeeds_raise fun _ _ => trivial
  split
  · exact (returns_anything _).seq fun _ => hraise
  · exact hraise

/-- A write that returns leaves its snapshot, and no other file with the name of a manifest. -/
theorem returns_write (safeDump : Document → Text) (prediction : Except Error CommittedPrediction) :
    Returns (fun _ => True) (fun _ => LeftBy w) (write safeDump w prediction) := by
  refine returns_recover.seq fun _ => ?_
  refine Returns.seq (R := Quiescent w.layout) (returns_aside (fun _ _ => Cleared.of_disk)
    fun s t heffect => by cases heffect; rfl) fun _ => ?_
  refine Succeeds.handle (R := fun _ => LeftBy w) (F := fun _ => True) ?_ (fun _ => ?_) fun e => ?_
  · refine Succeeds.handle (F := fun _ => True) (returns_writeSteps safeDump prediction)
      (fun finished => ?_) fun e => returns_exceptWrite e
    cases finished with
    | true => exact succeeds_return fun _ hs => hs
    | false => exact returns_finalize
  · refine Returns.seq (R := LeftBy w) (returns_aside (fun _ _ => LeftBy.of_disk)
      fun s t heffect => by cases heffect; rfl) fun _ => ?_
    exact succeeds_done (fun _ _ _ hs => hs) fun _ _ => trivial
  · exact (returns_anything _).seq fun _ => succeeds_raise fun _ _ => trivial

namespace PlannedWrite

variable {j : PlannedWrite}

/-- The write returns. -/
def Writes (s : Site) (j : PlannedWrite) (t : Site) : Prop := j.program.exec s = (.ok (), t)

theorem listed_congr {l' : Layout} (h : l.vault_root = l'.vault_root) {p : Path} :
    l.Listed p ↔ l'.Listed p := by
  simp only [Layout.Listed, Layout.isManifest, Layout.isManifestTemp, Layout.snapshots_dir, h]

theorem quiescent_congr {l' : Layout} (h : l.vault_root = l'.vault_root) :
    Quiescent l s ↔ Quiescent l' s := by
  simp only [Quiescent, Cleared, listed_congr h]

/-- A write that returned leaves a quiescent vault unless its snapshot bears the name of a manifest. -/
theorem Writes.quiescent_iff (h : Writes s j t) :
    Quiescent j.paths.layout t ↔ ¬ text ".txn-" <+: j.paths.prediction_id := by
  obtain ⟨hothers, hsnapshot⟩ := (returns_write j.safeDump j.prepared).of_exec trivial h
  rw [← j.paths.snapshot_path_listed]
  constructor
  · intro hquiet hlisted
    rw [hquiet _ hlisted List.not_mem_nil] at hsnapshot
    cases hsnapshot
  · intro hnot p hp _
    refine hothers p hp fun hmem => hnot ?_
    rwa [← List.mem_singleton.mp hmem]

/-- Between successful writes into a quiescent vault, and after them, a recovery does nothing exactly
when no identifier begins like the name of a manifest. -/
theorem recovery_idle_iff (hs : RecoveryIdle l s) {trace : List (Site × PlannedWrite)}
    (h : Run Writes s trace t)
    (hvault : ∀ x ∈ trace, x.2.paths.layout.vault_root = l.vault_root) :
    ((∀ x ∈ trace, RecoveryIdle l x.1) ∧ RecoveryIdle l t) ↔
      ∀ x ∈ trace, ¬ text ".txn-" <+: x.2.paths.prediction_id := by
  induction h with
  | nil => simp [hs]
  | @snoc u v trace j hrun hlast ih =>
    have hbefore := ih fun x hx => hvault x (List.mem_append_left _ hx)
    have hj : j.paths.layout.vault_root = l.vault_root := hvault (u, j) (by simp)
    have hafter : RecoveryIdle l v ↔ ¬ text ".txn-" <+: j.paths.prediction_id := by
      rw [recoveryIdle_iff, ← quiescent_congr hj, hlast.quiescent_iff]
    simp only [List.mem_append, List.mem_singleton, or_imp, forall_and, forall_eq]
    rw [← hbefore, hafter]

/-! ## An identifier that begins like a manifest -/

open Registry (sampleDraft sampleSchemas sampleTime)

/-- The sample draft under an identifier that begins like the name of a manifest. -/
def reservedDraft : PredictionDraft :=
  { sampleDraft with prediction_id := ⟨text ".txn-1", by decide +kernel⟩ }

/-- The write of that draft. -/
def reserved : PlannedWrite where
  paths := ⟨sampleLayout, reservedDraft.prediction_id, text "0"⟩
  safeDump := Json.print Json.compactStyle 0
  prepared := prepareCommitted id sampleSchemas reservedDraft none sampleTime
  own prediction h := by
    obtain ⟨schema_hash, immutable_hash, -, -, -, rfl⟩ := prepareCommitted_ok h
    rfl

theorem writes_of_isOk (h : (j.program.exec s).1.isOk = true) : Writes s j (j.program.exec s).2 := by
  refine Prod.ext ?_ rfl
  cases hresult : (j.program.exec s).1 with
  | ok u => rfl
  | error e =>
    rw [hresult] at h
    cases h

theorem sample_recovery_idle : RecoveryIdle sampleLayout sampleSite :=
  recoveryIdle_iff.mpr fun _ _ _ => rfl

theorem reserved_evaluates :
    (reserved.program.exec sampleSite).1.isOk = true ∧
      ((recoverUnfinishedTransactionsLocked sampleLayout).exec
        (reserved.program.exec sampleSite).2).1.isOk = false := by
  decide +kernel

/-- Once the prediction is committed, every recovery of the vault raises. -/
theorem reserved_identifier_wedges :
    RecoveryIdle sampleLayout sampleSite ∧
      validateIdentifier reserved.paths.prediction_id = .ok reserved.paths.prediction_id ∧
      ∃ t, Run Writes sampleSite [(sampleSite, reserved)] t ∧ ¬ RecoveryIdle sampleLayout t ∧
        ((recoverUnfinishedTransactionsLocked sampleLayout).exec t).1.isOk = false := by
  obtain ⟨hwrites, hraises⟩ := reserved_evaluates
  refine ⟨sample_recovery_idle, reservedDraft.prediction_id.2, _,
    Run.single (writes_of_isOk hwrites), fun hidle => ?_, hraises⟩
  rw [RecoveryIdle] at hidle
  rw [hidle] at hraises
  cases hraises

theorem sample_write_evaluates : (sample.program.exec sampleSite).1.isOk = true := by
  decide +kernel

/-- After the write of the sample draft, a recovery does nothing. -/
theorem recovery_idle_iff_sample : RecoveryIdle sampleLayout (sample.program.exec sampleSite).2 := by
  have hrun := Run.single (writes_of_isOk sample_write_evaluates)
  have hplain : ¬ text ".txn-" <+: sample.paths.prediction_id := by decide +kernel
  refine ((recovery_idle_iff sample_recovery_idle hrun ?_).mpr ?_).2
  · intro x hx
    rw [List.mem_singleton.mp hx]
    rfl
  · intro x hx
    rw [List.mem_singleton.mp hx]
    exact hplain

end PlannedWrite

end Pine
