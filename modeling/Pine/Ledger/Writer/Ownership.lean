import Pine.Ledger.Capture.Freshness
import Pine.Ledger.Writer.Rules

/-!
# Files of another program

Another program may create a file at a final path of a write at any time. A rollback
only removes what the write published, but a recovery trusts the manifest, which
names the final paths before anything is published there. Wherever a recovery finds
no such file beside the manifest of an uncommitted write, nothing is lost.
-/

namespace Pine

open Procedure Writing

/-- What a recovery finds when it loses no file of another program: no such file beside the manifest
of an uncommitted write, and none that it would read or remove through a snapshot that is named like
a manifest. -/
structure ClearOfForeign (w : StagedPaths) (s : Site) : Prop where
  manifest : (s.disk.get? w.manifest_path).isSome = true → s.isCommitted w.prediction_id = false →
    s.foreign = []
  snapshot : w.layout.isManifest w.snapshot_path = true → ∀ f, s.disk.get? w.snapshot_path = some f →
    ∀ paths, w.layout.recoveryPaths s.isCommitted f.content = .ok paths →
      (∀ x ∈ s.foreign, x.1 ≠ w.snapshot_path) ∧ w.record_path ∉ paths ∧ w.snapshot_path ∉ paths

/-! ## What every step keeps -/

/-- Each file that another program created is still there, under no other name; the manifest of the
write is whole, and no other manifest names a final path. -/
structure Intact (w : StagedPaths) (s : Site) : Prop where
  kept : ∀ x ∈ s.foreign, w.IsFinal x.1 ∧ s.disk.get? x.1 = some x.2
  fresh : ∀ q g, s.disk.get? q = some g → g.inode < s.disk.next
  single : ∀ x ∈ s.foreign, ∀ q g, s.disk.get? q = some g → g.inode = x.2.inode → q = x.1
  manifest : ∀ f, s.disk.get? w.manifest_path = some f → f.content = w.manifestText
  unrelated : ∀ m f, w.layout.isManifest m = true → m ≠ w.manifest_path → m ≠ w.snapshot_path →
    s.disk.get? m = some f → ∀ isCommitted paths,
      w.layout.recoveryPaths isCommitted f.content = .ok paths → ∀ p ∈ paths, ¬ w.IsFinal p

/-- The process may die and errors may be raised everywhere, while another program creates files. -/
def foreignEnvironment (w : StagedPaths) : Environment Point Site where
  other := CreatesForeign w
  clear point s := point = .recovering → ClearOfForeign w s
  raises _ := True
  dies _ := True
  crash := Intact w

/-- A file stands at the path, and no other program created it. -/
def Site.Owns (s : Site) (p : Path) : Prop :=
  (s.disk.get? p).isSome = true ∧ ∀ x ∈ s.foreign, x.1 ≠ p

/-- All is intact, and the process remembers `m` of its staged write. -/
structure Resting (w : StagedPaths) (m : Option Bool) (s : Site) : Prop extends Intact w s where
  memory : s.staged = m

/-- What was published is the write's own. -/
structure Held (w : StagedPaths) (m : Option Bool) (s : Site) : Prop extends Resting w m s where
  record : s.record_published = true → s.Owns w.record_path
  snapshot : s.snapshot_published = true → s.Owns w.snapshot_path

variable {w : StagedPaths} {m : Option Bool} {s t : Site}

theorem Intact.of_disk (h : Intact w s) (hdisk : t.disk = s.disk) (hforeign : t.foreign = s.foreign) :
    Intact w t where
  kept := by simpa only [hdisk, hforeign] using h.kept
  fresh := by simpa only [hdisk] using h.fresh
  single := by simpa only [hdisk, hforeign] using h.single
  manifest := by simpa only [hdisk] using h.manifest
  unrelated := by simpa only [hdisk] using h.unrelated

/-- Removing a path where no other program created a file. -/
theorem Intact.unlink (h : Intact w s) {p : Path} (hp : ∀ x ∈ s.foreign, x.1 ≠ p) :
    Intact w (s.unlink p) where
  kept x hx := by
    obtain ⟨hfinal, hfile⟩ := h.kept x hx
    exact ⟨hfinal, by rw [Site.unlink, Disk.get?_unlink, if_neg (hp x hx), hfile]⟩
  fresh q g hq := by
    simp only [Site.unlink, Disk.get?_unlink] at hq
    split at hq
    · cases hq
    · exact h.fresh q g hq
  single x hx q g hq hinode := by
    simp only [Site.unlink, Disk.get?_unlink] at hq
    split at hq
    · cases hq
    · exact h.single x hx q g hq hinode
  manifest f hf := by
    simp only [Site.unlink, Disk.get?_unlink] at hf
    split at hf
    · cases hf
    · exact h.manifest f hf
  unrelated m f hm hmanifest hsnapshot hf := by
    simp only [Site.unlink, Disk.get?_unlink] at hf
    split at hf
    · cases hf
    · exact h.unrelated m f hm hmanifest hsnapshot hf

/-- Linking a file of the writer under a path where no other program created one. -/
theorem Intact.put (h : Intact w s) {p : Path} {f : File Text} {next : Nat}
    (hp : ∀ x ∈ s.foreign, x.1 ≠ p) (hinode : ∀ x ∈ s.foreign, f.inode ≠ x.2.inode)
    (hnext : s.disk.next ≤ next) (hlt : f.inode < next)
    (hmanifest : p = w.manifest_path → f.content = w.manifestText)
    (hother : w.layout.isManifest p = true → p = w.manifest_path ∨ p = w.snapshot_path) :
    Intact w { s with disk := { s.disk.put p f with next } } where
  kept x hx := by
    obtain ⟨hfinal, hfile⟩ := h.kept x hx
    exact ⟨hfinal, by rw [Disk.get?_next, Disk.get?_put, if_neg (hp x hx), hfile]⟩
  fresh q g hq := by
    rw [Disk.get?_next, Disk.get?_put] at hq
    split at hq
    · cases hq
      exact hlt
    · exact (h.fresh q g hq).trans_le hnext
  single x hx q g hq heq := by
    rw [Disk.get?_next, Disk.get?_put] at hq
    split at hq
    · cases hq
      exact absurd heq (hinode x hx)
    · exact h.single x hx q g hq heq
  manifest g hg := by
    rw [Disk.get?_next, Disk.get?_put] at hg
    split at hg
    · rename_i heq
      cases hg
      exact hmanifest heq.symm
    · exact h.manifest g hg
  unrelated m g hm hmp hsp hg := by
    rw [Disk.get?_next, Disk.get?_put] at hg
    split at hg
    · rename_i heq
      subst heq
      rcases hother hm with h | h
      · exact absurd h hmp
      · exact absurd h hsp
    · exact h.unrelated m g hm hmp hsp hg

/-- Another program keeps what it did not create. -/
theorem Intact.stable (w : StagedPaths) : (foreignEnvironment w).Stable (Intact w) := by
  rintro s _ ⟨p, content, disk, hfinal, hcreate⟩ h
  obtain ⟨hfree, rfl⟩ := Disk.create_some hcreate
  have hnew : ∀ x ∈ s.foreign, x.1 ≠ p := by
    rintro x hx rfl
    rw [(h.kept x hx).2] at hfree
    cases hfree
  have hput : Intact w { s with disk := { s.disk.put p ⟨s.disk.next, content⟩ with
      next := s.disk.next + 1 } } := by
    refine h.put hnew ?_ (Nat.le_succ _) (Nat.lt_succ_self _) ?_ ?_
    · intro x hx heq
      have hlt := h.fresh x.1 x.2 (h.kept x hx).2
      simp only at heq
      omega
    · rintro rfl
      exact absurd hfinal w.manifest_path_not_final
    · intro hm
      rcases hfinal with rfl | rfl
      · exact absurd rfl (w.isManifest_ne_record hm)
      · exact Or.inr rfl
  refine ⟨fun x hx => ?_, hput.fresh, fun x hx q g hq heq => ?_, hput.manifest, hput.unrelated⟩
  · rcases List.mem_append.mp hx with hx | hx
    · exact hput.kept x hx
    · obtain rfl := List.mem_singleton.mp hx
      exact ⟨hfinal, by simp⟩
  · rcases List.mem_append.mp hx with hx | hx
    · exact hput.single x hx q g hq heq
    · obtain rfl := List.mem_singleton.mp hx
      rw [Disk.get?_next, Disk.get?_put] at hq
      split at hq
      · assumption
      · have hlt := h.fresh q g hq
        simp only at heq
        omega

/-- Another program leaves what stands at a path that is not its own. -/
theorem owns_stable (w : StagedPaths) (p : Path) :
    (foreignEnvironment w).Stable fun s => s.Owns p := by
  rintro s _ ⟨q, content, disk, hfinal, hcreate⟩ ⟨hsome, hnot⟩
  obtain ⟨hfree, rfl⟩ := Disk.create_some hcreate
  have hne : q ≠ p := by
    rintro rfl
    rw [hfree] at hsome
    cases hsome
  refine ⟨?_, fun x hx => ?_⟩
  · simpa [hne.symm] using hsome
  · rcases List.mem_append.mp hx with hx | hx
    · exact hnot x hx
    · obtain rfl := List.mem_singleton.mp hx
      exact hne

/-- Another program leaves a file at a path as it is. -/
theorem file_stable (w : StagedPaths) (p : Path) (P : File Text → Prop) :
    (foreignEnvironment w).Stable fun s => ∃ f, s.disk.get? p = some f ∧ P f := by
  rintro s _ ⟨q, content, disk, hfinal, hcreate⟩ ⟨f, hf, hP⟩
  obtain ⟨hfree, rfl⟩ := Disk.create_some hcreate
  have hne : p ≠ q := by
    rintro rfl
    rw [hfree] at hf
    cases hf
  exact ⟨f, by simpa [hne] using hf, hP⟩

/-- Another program leaves the registry and the memory of the writer alone. -/
theorem memory_stable (w : StagedPaths) {α : Type} (read : Site → α)
    (hread : ∀ s disk foreign, read { s with disk, foreign } = read s) (P : α → Prop) :
    (foreignEnvironment w).Stable fun s => P (read s) := by
  rintro s _ ⟨p, content, disk, hfinal, hcreate⟩ h
  rw [hread]
  exact h

theorem Resting.stable (w : StagedPaths) (m : Option Bool) :
    (foreignEnvironment w).Stable (Resting w m) :=
  fun s t h hs => ⟨Intact.stable w s t h hs.toIntact,
    memory_stable w Site.staged (fun _ _ _ => rfl) (· = m) s t h hs.memory⟩

theorem Held.stable (w : StagedPaths) (m : Option Bool) :
    (foreignEnvironment w).Stable (Held w m) := by
  intro s t h hs
  refine ⟨Resting.stable w m s t h hs.toResting, fun hflag => ?_, fun hflag => ?_⟩
  · have hbefore : s.record_published = true := by
      obtain ⟨p, content, disk, hfinal, hcreate⟩ := h
      exact hflag
    exact owns_stable w _ s t h (hs.record hbefore)
  · have hbefore : s.snapshot_published = true := by
      obtain ⟨p, content, disk, hfinal, hcreate⟩ := h
      exact hflag
    exact owns_stable w _ s t h (hs.snapshot hbefore)

/-! ## Steps -/

theorem kept_intact (w : StagedPaths) : Kept (foreignEnvironment w) (Intact w) := ⟨Intact.stable w, fun _ h => h⟩

theorem kept_resting (w : StagedPaths) (m : Option Bool) : Kept (foreignEnvironment w) (Resting w m) :=
  ⟨Resting.stable w m, fun _ h => h.toIntact⟩

theorem kept_held (w : StagedPaths) (m : Option Bool) : Kept (foreignEnvironment w) (Held w m) :=
  ⟨Held.stable w m, fun _ h => h.toIntact⟩

variable {E P Q R : Site → Prop} {α β : Type}

/-! ## Paths that are not final -/

theorem Intact.foreign_ne (h : Intact w s) {p : Path} (hp : ¬ w.IsFinal p) : ∀ x ∈ s.foreign, x.1 ≠ p := by
  rintro x hx rfl
  exact hp (h.kept x hx).1

theorem owns_unlink {p q : Path} (h : s.Owns p) (hne : p ≠ q) : (s.unlink q).Owns p :=
  ⟨by simpa [Site.unlink, hne] using h.1, h.2⟩

theorem owns_put {p q : Path} {f : File Text} {next : Nat} (h : s.Owns p) :
    ({ s with disk := { s.disk.put q f with next } } : Site).Owns p := by
  refine ⟨?_, h.2⟩
  rw [Disk.get?_next, Disk.get?_put]
  split
  · rfl
  · exact h.1

/-- Removing a path that is not final keeps all that is held. -/
theorem Held.unlink (h : Held w m s) {p : Path} (hp : ¬ w.IsFinal p) : Held w m (s.unlink p) where
  toIntact := h.toIntact.unlink (h.foreign_ne hp)
  memory := h.memory
  record hflag := owns_unlink (h.record hflag) fun heq => hp (Or.inl heq.symm)
  snapshot hflag := owns_unlink (h.snapshot hflag) fun heq => hp (Or.inr heq.symm)

/-- A file of the writer, linked under a path where no other program created one. -/
theorem Held.put (h : Held w m s) {p : Path} {f : File Text} {next : Nat}
    (hp : ∀ x ∈ s.foreign, x.1 ≠ p) (hinode : ∀ x ∈ s.foreign, f.inode ≠ x.2.inode)
    (hnext : s.disk.next ≤ next) (hlt : f.inode < next)
    (hmanifest : p = w.manifest_path → f.content = w.manifestText)
    (hother : w.layout.isManifest p = true → p = w.manifest_path ∨ p = w.snapshot_path) :
    Held w m { s with disk := { s.disk.put p f with next } } where
  toIntact := h.toIntact.put hp hinode hnext hlt hmanifest hother
  memory := h.memory
  record hflag := owns_put (h.record hflag)
  snapshot hflag := owns_put (h.snapshot hflag)

/-- The file under a path that is not final belongs to no other program. -/
theorem Intact.inode_ne (h : Intact w s) {p : Path} {f : File Text} (hp : ¬ w.IsFinal p)
    (hf : s.disk.get? p = some f) : ∀ x ∈ s.foreign, f.inode ≠ x.2.inode := by
  intro x hx heq
  obtain rfl := h.single x hx p f hf heq
  exact hp (h.kept x hx).1

/-! ## Finalize and rollback -/

theorem triple_finalize : Triple (foreignEnvironment w) (Held w m) (Held w m) (finalize w) := by
  refine Triple.seq (triple_removePaths (kept_held w m) fun p hp s hs _ => hs.unlink ?_) fun _ =>
    Triple.seq (triple_fsync (kept_held w m)) fun _ => triple_fsync (kept_held w m)
  simp only [List.mem_cons, List.not_mem_nil, or_false] at hp
  rcases hp with rfl | rfl | rfl
  · exact w.record_temp_not_final
  · exact w.snapshot_temp_not_final
  · exact w.manifest_path_not_final

/-- A final path that shares its file with a temporary one is the write's own. -/
theorem Intact.owns_of_sameFile (h : Intact w s) {temporary published : Path}
    (htemp : ¬ w.IsFinal temporary) (hsame : s.disk.sameFile temporary published = true) :
    s.Owns published := by
  unfold Disk.sameFile at hsame
  split at hsame
  · rename_i f g hf hg
    refine ⟨by rw [hg]; rfl, ?_⟩
    rintro x hx rfl
    rw [(h.kept x hx).2] at hg
    cases hg
    exact h.inode_ne htemp hf x hx (by simpa using hsame)
  · cases hsame

/-- Removing artifacts that are the write's own. -/
theorem triple_removeOwned {point : Point} {paths : List Path} (hnodup : paths.Nodup) :
    Triple (foreignEnvironment w) (fun s => Resting w m s ∧ ∀ p ∈ paths, s.Owns p) (Resting w m) (removePaths point paths) := by
  induction paths with
  | nil => exact succeeds_done (fun _ _ _ h => h.1) fun _ h => h.1
  | cons p rest ih =>
    obtain ⟨hp, hrest⟩ := List.nodup_cons.mp hnodup
    have hkept : Kept (foreignEnvironment w) fun s => Resting w m s ∧ ∀ q ∈ p :: rest, s.Owns q :=
      (kept_resting w m).and fun s t hst howns q hq => owns_stable w q s t hst (howns q hq)
    refine Succeeds.bind (R := fun _ s => Resting w m s ∧ ∀ q ∈ rest, s.Owns q)
      (succeeds_act hkept (fun _ h => h.1) ?_) fun _ => ih hrest
    rintro s t ⟨hs, howns⟩ - heffect
    cases heffect
    refine ⟨⟨hs.toIntact.unlink (howns p List.mem_cons_self).2, hs.memory⟩, fun q hq => ?_⟩
    exact owns_unlink (howns q (List.mem_cons_of_mem _ hq)) (ne_of_mem_of_not_mem hq hp)

theorem ownedArtifacts_nodup (w : StagedPaths) (a b : Bool) : (ownedArtifacts w a b).Nodup := by
  cases a <;> cases b <;> simp [ownedArtifacts, w.record_path_ne_snapshot_path]

/-- A rollback removes nothing but what the write published. -/
theorem triple_rollback : Triple (foreignEnvironment w) (Held w m) (Resting w m) (rollback w) := by
  refine succeeds_ask (F := fun a s => a = true → s.Owns w.record_path) (kept_held w m)
    (fun _ h => h.toResting) ?_ fun record_owned => ?_
  · intro s a hs _ ha
    obtain rfl := Except.ok.inj ha
    intro howned
    rcases (Bool.or_eq_true _ _).mp howned with hflag | hsame
    · exact hs.record hflag
    · exact hs.owns_of_sameFile w.record_temp_not_final hsame
  have hrecord := (kept_held w m).and fun s t h (hs : record_owned = true → s.Owns w.record_path) ha =>
    owns_stable w _ s t h (hs ha)
  refine succeeds_ask (F := fun b s => b = true → s.Owns w.snapshot_path) hrecord
    (fun _ h => h.1.toResting) ?_ fun snapshot_owned => ?_
  · rintro s b ⟨hs, -⟩ - hb
    obtain rfl := Except.ok.inj hb
    intro howned
    rcases (Bool.or_eq_true _ _).mp howned with hflag | hsame
    · exact hs.snapshot hflag
    · exact hs.owns_of_sameFile w.snapshot_temp_not_final hsame
  have hboth := hrecord.and fun s t h (hs : snapshot_owned = true → s.Owns w.snapshot_path) hb =>
    owns_stable w _ s t h (hs hb)
  refine Succeeds.bind ((triple_removePaths hboth fun p hp s ⟨⟨hs, ha⟩, hb⟩ _ => ?_).mono
    (fun _ _ h => h) fun _ h => h.1.1.toResting) fun _ => ?_
  · have hfinal : ¬ w.IsFinal p := by
      simp only [List.mem_cons, List.not_mem_nil, or_false] at hp
      rcases hp with rfl | rfl | rfl
      · exact w.record_temp_not_final
      · exact w.snapshot_temp_not_final
      · exact w.manifest_path_not_final
    exact ⟨⟨hs.unlink hfinal, fun h => owns_unlink (ha h) fun heq => hfinal (Or.inl heq.symm)⟩,
      fun h => owns_unlink (hb h) fun heq => hfinal (Or.inr heq.symm)⟩
  refine Succeeds.bind (R := fun _ => Resting w m) (fun s ⟨⟨hs, ha⟩, hb⟩ => ?_) fun _ => Triple.seq
    (triple_fsync (kept_resting w m)) fun _ => triple_fsync (kept_resting w m)
  refine triple_removeOwned (ownedArtifacts_nodup w _ _) s ⟨hs.toResting, fun p hp => ?_⟩
  rcases List.mem_append.mp hp with hp | hp
  · split at hp
    · rename_i howned
      rw [List.mem_singleton.mp hp]
      exact ha howned
    · cases hp
  · split at hp
    · rename_i howned
      rw [List.mem_singleton.mp hp]
      exact hb howned
    · cases hp

/-! ## Staging -/

/-- Steps that change only the registry and the open transaction. -/
theorem Held.of_database (h : Held w m s) (hdisk : t.disk = s.disk) (hforeign : t.foreign = s.foreign)
    (hrecord : t.record_published = s.record_published)
    (hsnapshot : t.snapshot_published = s.snapshot_published) (hmemory : t.staged = s.staged) :
    Held w m t where
  toIntact := h.toIntact.of_disk hdisk hforeign
  memory := hmemory.trans h.memory
  record hflag := by
    have howns := h.record (hrecord ▸ hflag)
    simpa only [Site.Owns, hdisk, hforeign] using howns
  snapshot hflag := by
    have howns := h.snapshot (hsnapshot ▸ hflag)
    simpa only [Site.Owns, hdisk, hforeign] using howns

theorem triple_sql {point : Point} (session : Registry.Session Unit) :
    Triple (foreignEnvironment w) (Held w m) (Held w m) (sql point session) := by
  refine triple_act (kept_held w m) fun s t hs _ heffect => ?_
  split at heffect
  · split at heffect
    · cases heffect
      exact hs.of_database rfl rfl rfl rfl rfl
    · cases heffect
  · cases heffect

/-- A new file under a temporary name has the whole content once it is written. -/
theorem succeeds_writeNewFile {p : Path} {content : Text} (hp : p.name.getLast? = some 'p') :
    Succeeds (foreignEnvironment w) (Held w m) (Held w m) (fun _ s => Held w m s ∧ ∃ f, s.disk.get? p = some f ∧ f.content = content)
      (writeNewFile p content) := by
  have hfinal := w.not_final_of_last hp
  have hlisted : w.layout.isManifest p = true → p = w.manifest_path ∨ p = w.snapshot_path :=
    fun hm => absurd hm (StagedPaths.not_isManifest_of_last hp)
  have hmanifest : p ≠ w.manifest_path :=
    StagedPaths.ne_of_last hp w.manifest_path_last (by decide)
  refine Succeeds.bind (R := fun _ => Held w m) (succeeds_act (kept_held w m) (fun _ h => h) ?_) fun _ =>
    succeeds_act (kept_held w m) (fun _ h => h) ?_
  · intro s t hs _ heffect
    obtain ⟨disk, hcreate, rfl⟩ := diskEffect_ok heffect
    obtain ⟨hfree, rfl⟩ := Disk.create_some hcreate
    refine hs.put (hs.foreign_ne hfinal) (fun x hx heq => ?_) (Nat.le_succ _) (Nat.lt_succ_self _)
      (fun h => absurd h hmanifest) hlisted
    have hlt := hs.fresh x.1 x.2 (hs.kept x hx).2
    simp only at heq
    omega
  · intro s t hs _ heffect
    obtain ⟨disk, hfill, rfl⟩ := diskEffect_ok heffect
    obtain ⟨f, hf, rfl⟩ := Disk.fill_some hfill
    refine ⟨?_, { f with content }, by simp, rfl⟩
    exact hs.put (hs.foreign_ne hfinal) (show ∀ x ∈ s.foreign, f.inode ≠ x.2.inode from
      hs.inode_ne hfinal hf) (le_refl _) (hs.fresh p f hf)
      (fun h => absurd h hmanifest) hlisted

theorem triple_atomicManifestWrite : Triple (foreignEnvironment w) (Held w m) (Held w m) (atomicManifestWrite w) := by
  refine Succeeds.bind (succeeds_writeNewFile w.manifest_temp_last) fun _ => ?_
  have hkept := (kept_held w m).and
    (file_stable w w.manifest_temp fun f => f.content = w.manifestText)
  refine Succeeds.bind (R := fun _ => Held w m) (succeeds_act hkept (fun _ h => h.1) ?_) fun _ =>
    (triple_fsync (kept_held w m))
  rintro s t ⟨hs, f, hf, hcontent⟩ - heffect
  obtain ⟨disk, hrename, rfl⟩ := diskEffect_ok heffect
  obtain ⟨g, hg, rfl⟩ := Disk.rename_some hrename
  obtain rfl := Option.some.inj (hf.symm.trans hg)
  have htemp := w.manifest_temp_not_final
  exact (hs.unlink htemp).put (hs.foreign_ne w.manifest_path_not_final) (hs.inode_ne htemp hf)
    (le_refl _) (hs.fresh _ f hf) (fun _ => hcontent) fun _ => Or.inl rfl

/-- What is published at a free path is the write's own. -/
theorem succeeds_publishNoReplace {source target : Path} (hsource : ¬ w.IsFinal source)
    (htarget : w.IsFinal target) : Succeeds (foreignEnvironment w) (Held w m) (Held w m) (fun _ s => Held w m s ∧ s.Owns target)
      (publishNoReplace source target) := by
  refine succeeds_act (kept_held w m) (fun _ h => h) fun s t hs _ heffect => ?_
  obtain ⟨disk, hlink, rfl⟩ := diskEffect_ok heffect
  obtain ⟨hfree, f, hf, rfl⟩ := Disk.link_some hlink
  have hnone : ∀ x ∈ s.foreign, x.1 ≠ target := by
    rintro x hx rfl
    rw [(hs.kept x hx).2] at hfree
    cases hfree
  refine ⟨hs.put hnone (hs.inode_ne hsource hf) (le_refl _) (hs.fresh _ f hf) ?_ ?_, by simp, hnone⟩
  · rintro rfl
    exact absurd htarget w.manifest_path_not_final
  · intro hm
    rcases htarget with rfl | rfl
    · exact absurd rfl (w.isManifest_ne_record hm)
    · exact Or.inr rfl

theorem triple_unlinkExisting {p : Path} (hp : ¬ w.IsFinal p) :
    Triple (foreignEnvironment w) (Held w m) (Held w m) (unlinkExisting p) := by
  refine triple_act (kept_held w m) fun s t hs _ heffect => ?_
  split at heffect
  · cases heffect
    exact hs.unlink hp
  · cases heffect

theorem triple_publishSnapshot : Triple (foreignEnvironment w) (Held w m) (Held w m) (publishSnapshot w) := by
  refine Succeeds.bind (succeeds_publishNoReplace w.snapshot_temp_not_final (Or.inr rfl)) fun _ => ?_
  refine Succeeds.bind (R := fun _ => Held w m) (succeeds_act
    ((kept_held w m).and (owns_stable w w.snapshot_path)) (fun _ h => h.1) ?_) fun _ =>
    (Triple.seq (triple_unlinkExisting w.snapshot_temp_not_final) fun _ =>
      triple_fsync (kept_held w m))
  rintro s t ⟨hs, howns⟩ - heffect
  cases heffect
  exact ⟨⟨hs.toIntact.of_disk rfl rfl, hs.memory⟩, hs.record, fun _ => howns⟩

theorem triple_publishRecord : Triple (foreignEnvironment w) (Held w m) (Held w m) (publishRecord w) := by
  refine Succeeds.bind (succeeds_publishNoReplace w.record_temp_not_final (Or.inl rfl)) fun _ => ?_
  refine Succeeds.bind (R := fun _ => Held w m) (succeeds_act
    ((kept_held w m).and (owns_stable w w.record_path)) (fun _ h => h.1) ?_) fun _ =>
    (Triple.seq (triple_unlinkExisting w.record_temp_not_final) fun _ =>
      triple_fsync (kept_held w m))
  rintro s t ⟨hs, howns⟩ - heffect
  cases heffect
  exact ⟨⟨hs.toIntact.of_disk rfl rfl, hs.memory⟩, fun _ => howns, hs.snapshot⟩

theorem triple_writeTemp {p : Path} {content : Text} (hp : p.name.getLast? = some 'p') :
    Triple (foreignEnvironment w) (Held w m) (Held w m) (writeNewFile p content) :=
  (succeeds_writeNewFile hp).mono (fun _ _ h => h.1) fun _ h => h

theorem triple_stageSteps (safeDump : Document → Text) (prediction : CommittedPrediction) :
    Triple (foreignEnvironment w) (Held w m) (Held w m) (stageSteps safeDump w prediction) := by
  refine Triple.seq triple_atomicManifestWrite fun _ => Triple.seq (triple_done _) fun snapshot => ?_
  refine Triple.seq (triple_writeTemp w.tempName_last) fun _ =>
    Triple.seq (triple_writeTemp w.tempName_last) fun _ => Triple.seq (triple_sql _) fun _ => ?_
  exact Triple.seq triple_publishSnapshot fun _ => Triple.seq triple_publishRecord fun _ =>
    triple_sql _

/-- Staging holds what it published, and rolls back before it raises. -/
theorem succeeds_stageCommitted (safeDump : Document → Text) (prediction : CommittedPrediction) :
    Succeeds (foreignEnvironment w) (Resting w m) (Resting w m) (fun _ => Held w m)
      (stageCommitted safeDump w prediction) := by
  refine succeeds_look (kept_resting w m) (fun _ h => h) fun taken =>
    Succeeds.bind (triple_done _) fun _ => ?_
  refine Succeeds.bind (R := fun _ => Held w m) (succeeds_act (kept_resting w m) (fun _ h => h) ?_)
    fun _ => ?_
  · intro s t hs _ heffect
    cases heffect
    exact ⟨⟨hs.toIntact.of_disk rfl rfl, hs.memory⟩, nofun, nofun⟩
  · refine Succeeds.handle (triple_stageSteps safeDump prediction) (fun _ => ?_) fun e => ?_
    · exact succeeds_done (fun _ _ _ h => h) fun _ h => h.toResting
    · exact Succeeds.bind triple_rollback fun _ => succeeds_done nofun fun _ h => h

theorem triple_resultOfRow (l : Layout) (row : PredictionRow) :
    Triple (foreignEnvironment w) (Resting w m) (Resting w m) (resultOfRow l row) :=
  succeeds_look (kept_resting w m) (fun _ h => h) fun _ => triple_done _

/-- A staged write that is not finished holds what it published. -/
theorem succeeds_stageWrite (safeDump : Document → Text) (prediction : Except Error CommittedPrediction) :
    Succeeds (foreignEnvironment w) (Resting w m) (Resting w m)
      (fun finished s => Resting w m s ∧ (finished = false → Held w m s))
      (stageWrite safeDump w prediction) := by
  refine succeeds_look (kept_resting w m) (fun _ h => h) fun existing => ?_
  cases existing with
  | some row =>
    exact Succeeds.bind (triple_resultOfRow _ row) fun _ =>
      succeeds_done (fun a ha s hs => ⟨hs, by cases ha; exact nofun⟩) fun _ h => h
  | none =>
    refine Succeeds.bind (triple_done _) fun prediction =>
      Succeeds.bind (succeeds_stageCommitted safeDump prediction) fun _ => ?_
    exact succeeds_done (fun a _ s hs => ⟨hs.toResting, fun _ => hs⟩) fun _ h => h.toResting

/-! ## The transaction around it -/

/-- Whoever remembers an unfinished staged write holds what it published. -/
structure Recallable (w : StagedPaths) (s : Site) : Prop where
  intact : Intact w s
  held : s.staged = some false → Held w (some false) s

theorem kept_recallable (w : StagedPaths) : Kept (foreignEnvironment w) (Recallable w) where
  stable s t h hs := by
    refine ⟨Intact.stable w s t h hs.intact, fun hmemory => ?_⟩
    have hbefore : s.staged = some false := by
      obtain ⟨p, content, disk, hfinal, hcreate⟩ := h
      exact hmemory
    exact Held.stable w _ s t h (hs.held hbefore)
  crash _ h := h.intact

theorem Resting.recallable (h : Resting w none s) : Recallable w s :=
  ⟨h.toIntact, fun hmemory => nomatch h.memory.symm.trans hmemory⟩

theorem Held.recallable (h : Held w m s) : Recallable w s :=
  ⟨h.toIntact, fun hmemory => by
    obtain rfl := h.memory.symm.trans hmemory
    exact h⟩

/-- What the body of a write leaves for its `else` clause. -/
structure Staged (w : StagedPaths) (finished : Bool) (s : Site) : Prop extends
    Resting w (some finished) s where
  held : finished = false → Held w (some finished) s

theorem kept_staged (w : StagedPaths) (finished : Bool) : Kept (foreignEnvironment w) (Staged w finished) :=
  ⟨fun s t h hs => ⟨Resting.stable w _ s t h hs.toResting, fun hf => Held.stable w _ s t h (hs.held hf)⟩,
    fun _ h => h.toIntact⟩

theorem Staged.recallable {finished : Bool} (h : Staged w finished s) : Recallable w s :=
  ⟨h.toIntact, fun hmemory => by
    obtain rfl := Option.some.inj (h.memory.symm.trans hmemory)
    exact h.held rfl⟩

theorem succeeds_writeSteps (safeDump : Document → Text) (prediction : Except Error CommittedPrediction) :
    Succeeds (foreignEnvironment w) (Recallable w) (Resting w none) (Staged w) (writeSteps safeDump w prediction) := by
  refine Succeeds.bind (R := fun _ => Resting w none) (succeeds_act (kept_resting w none)
    (fun _ h => h.recallable) ?_) fun _ => ?_
  · intro s t hs _ heffect
    split at heffect
    · cases heffect
      exact ⟨hs.toIntact.of_disk rfl rfl, hs.memory⟩
    · cases heffect
  refine Succeeds.bind ((succeeds_stageWrite safeDump prediction).mono (fun _ _ h => h)
    fun _ h => h.recallable) fun finished => ?_
  refine Succeeds.bind (R := fun _ => Staged w finished) (succeeds_act ((kept_resting w none).and
    fun s t h (hs : finished = false → Held w none s) hf => Held.stable w _ s t h (hs hf))
    (fun _ h => h.1.recallable) ?_) fun _ => ?_
  · rintro s t ⟨hs, hheld⟩ - heffect
    cases heffect
    refine ⟨⟨hs.toIntact.of_disk rfl rfl, rfl⟩, fun hf => ?_⟩
    have h := hheld hf
    exact ⟨⟨hs.toIntact.of_disk rfl rfl, rfl⟩, h.record, h.snapshot⟩
  refine Succeeds.bind (R := fun _ => Staged w finished) ?_ fun _ =>
    succeeds_done (fun a ha _ h => by cases ha; exact h) fun _ h => h.recallable
  refine Succeeds.bind (R := fun _ => Staged w finished) (succeeds_act (kept_staged w finished)
    (fun _ h => h.recallable) ?_) fun _ => ?_
  · intro s t hs _ heffect
    split at heffect
    · cases heffect
      exact ⟨⟨hs.toIntact.of_disk rfl rfl, hs.memory⟩, fun hf =>
        (hs.held hf).of_database rfl rfl rfl rfl rfl⟩
    · cases heffect
  · exact (triple_fsync (kept_staged w finished)).mono (fun _ _ h => h) fun _ h => h.recallable

theorem triple_settleStaged : Triple (foreignEnvironment w) (Held w m) (Intact w) (settleStaged w) := by
  refine Succeeds.bind (R := fun _ => Held w m) ?_ fun committed => ?_
  · refine Succeeds.handle (R := fun _ => Held w m) (F := Held w m) ?_ (fun _ =>
      succeeds_done (fun _ _ _ h => h) fun _ h => h.toIntact) fun e => ?_
    · exact fun s hs => safe_ask hs (kept_held w m).stable
        (fun _ ht _ => ht.toIntact) (fun _ _ h => h) fun _ _ h _ _ => h
    · cases hexception : e.isException with
      | true =>
        simp only [hexception, if_true]
        exact succeeds_done (fun _ _ _ h => h) fun _ h => h.toIntact
      | false =>
        simp only [hexception, Bool.false_eq_true, if_false]
        exact succeeds_done nofun fun _ h => h.toIntact
  · split
    · exact triple_finalize.mono (fun _ _ h => h.toIntact) fun _ h => h.toIntact
    · exact triple_rollback.mono (fun _ _ h => h.toIntact) fun _ h => h.toIntact
    · exact succeeds_done (fun _ _ _ h => h.toIntact) fun _ h => h.toIntact

theorem triple_exceptWrite (e : Error) : Triple (foreignEnvironment w) (Recallable w) (Intact w) (exceptWrite w e) := by
  have hkept := kept_recallable w
  refine Succeeds.bind (R := fun _ => Recallable w) (succeeds_act hkept (fun _ h => h.intact) ?_)
    fun _ => ?_
  · intro s t hs _ heffect
    cases heffect
    exact ⟨hs.intact.of_disk rfl rfl, fun hmemory => (hs.held hmemory).of_database rfl rfl rfl rfl rfl⟩
  · refine succeeds_ask (F := fun staged s => s.staged = staged) hkept (fun _ h => h.intact)
      (fun _ _ _ _ h => Except.ok.inj h) fun staged => ?_
    split
    · refine Succeeds.bind (triple_settleStaged.pre (R := fun s => Recallable w s ∧ s.staged = some false)
        fun s hs => hs.1.held hs.2) fun _ => succeeds_done nofun fun _ h => h
    · exact succeeds_done nofun fun _ h => h.1.intact

theorem triple_guarded {body : Writing Bool} (hbody : Succeeds (foreignEnvironment w) (Recallable w) P (Staged w) body) :
    Triple (foreignEnvironment w) P (Intact w) (guarded w body) := by
  refine Succeeds.handle (R := fun _ => Intact w) (F := Intact w) (Succeeds.handle hbody
    (fun finished => ?_) fun e => ?_) (fun a => ?_) fun e => ?_
  · cases finished with
    | true => exact succeeds_done (fun _ _ _ h => h.toIntact) fun _ h => h.toIntact
    | false =>
      exact (triple_finalize.mono (fun _ _ h => h.toIntact) fun _ h => h.toIntact).pre
        fun s hs => hs.held rfl
  · exact triple_exceptWrite e
  · exact Triple.seq (triple_act (kept_intact w) fun s t hs _ heffect => by
      cases heffect; exact hs.of_disk rfl rfl) fun _ => triple_done _
  · exact Triple.seq (triple_act (kept_intact w) fun s t hs _ heffect => by
      cases heffect; exact hs.of_disk rfl rfl) fun _ => triple_done _

/-! ## Recovery -/

/-- Removing what a manifest names, and the manifest last. -/
theorem succeeds_removeManifest {paths : List Path} {p : Path} (hP : Kept (foreignEnvironment w) P)
    (hpaths : ∀ q ∈ paths, ∀ s, P s → ClearOfForeign w s → P (s.unlink q))
    (hlast : ∀ s, P s → Intact w (s.unlink p)) :
    Triple (foreignEnvironment w) P (Intact w) (removePaths .recovering (paths ++ [p])) := by
  induction paths with
  | nil =>
    refine Succeeds.bind (R := fun _ => Intact w) (succeeds_act hP hP.crash ?_) fun _ => triple_done _
    intro s t hs _ heffect
    cases heffect
    exact hlast s hs
  | cons q rest ih =>
    refine Succeeds.bind (R := fun _ => P) (succeeds_act hP hP.crash ?_) fun _ =>
      ih fun q' hq' => hpaths q' (List.mem_cons_of_mem _ hq')
    intro s t hs hclear heffect
    cases heffect
    exact hpaths q List.mem_cons_self s hs (hclear rfl)

theorem not_final_managedPaths {q : Path} {committed : Bool} (hq : q ∈ w.managedPaths committed)
    (hcommitted : committed = true) : ¬ w.IsFinal q := by
  subst hcommitted
  simp only [StagedPaths.managedPaths, if_true, List.append_nil, List.mem_cons, List.not_mem_nil,
    or_false] at hq
  rcases hq with rfl | rfl
  · exact w.record_temp_not_final
  · exact w.snapshot_temp_not_final

theorem manifest_path_not_managed {committed : Bool} : w.manifest_path ∉ w.managedPaths committed := by
  intro h
  rcases List.mem_append.mp h with h | h
  · simp only [List.mem_cons, List.not_mem_nil, or_false] at h
    rcases h with h | h
    · exact StagedPaths.ne_of_last w.manifest_path_last w.tempName_last (by decide) h
    · exact StagedPaths.ne_of_last w.manifest_path_last w.tempName_last (by decide) h
  · split at h
    · cases h
    · simp only [List.mem_cons, List.not_mem_nil, or_false] at h
      exact w.manifest_path_not_final h

/-- Recovering the manifest of the write itself: a clear state has no file of another program while
the prediction is uncommitted. -/
theorem triple_recoverOwn (hresolves : w.Resolves) :
    Triple (foreignEnvironment w) (fun s => Intact w s ∧ ∃ f, s.disk.get? w.manifest_path = some f ∧ f.content = w.manifestText)
      (Intact w) (do
        let paths ← ask .recovering fun s => w.layout.recoveryPaths s.isCommitted w.manifestText
        removePaths .recovering (paths ++ [w.manifest_path])) := by
  have hfile := (kept_intact w).and (file_stable w w.manifest_path fun f => f.content = w.manifestText)
  refine succeeds_ask (F := fun paths s => paths = w.managedPaths (s.isCommitted w.prediction_id))
    hfile (fun _ h => h.1) ?_ fun paths => ?_
  · intro s paths _ _ hread
    rw [w.recoveryPaths_manifestText hresolves] at hread
    exact (Except.ok.inj hread).symm
  have hpaths : (foreignEnvironment w).Stable fun s =>
      paths = w.managedPaths (s.isCommitted w.prediction_id) :=
    memory_stable w (fun s => s.isCommitted w.prediction_id) (fun _ _ _ => rfl)
      (fun b => paths = w.managedPaths b)
  refine succeeds_removeManifest (hfile.and hpaths) ?_ ?_
  · rintro q hq s ⟨⟨hs, f, hf, hcontent⟩, hmanaged⟩ hclear
    have hne : w.manifest_path ≠ q := by
      rintro rfl
      exact manifest_path_not_managed (hmanaged ▸ hq)
    refine ⟨⟨hs.unlink ?_, f, by simpa [Site.unlink, hne] using hf, hcontent⟩, hmanaged⟩
    cases hcommitted : s.isCommitted w.prediction_id with
    | true => exact hs.foreign_ne (not_final_managedPaths (hmanaged ▸ hq) hcommitted)
    | false =>
      rw [hclear.manifest (by rw [hf]; rfl) hcommitted]
      simp
  · rintro s ⟨⟨hs, -⟩, -⟩
    exact hs.unlink (hs.foreign_ne w.manifest_path_not_final)

/-- Recovering a snapshot that is named like a manifest. -/
theorem triple_recoverSnapshot (hlisted : w.layout.isManifest w.snapshot_path = true) (content : Text) :
    Triple (foreignEnvironment w) (fun s => Intact w s ∧ ∃ f, s.disk.get? w.snapshot_path = some f ∧ f.content = content)
      (Intact w) (do
        let paths ← ask .recovering fun s => w.layout.recoveryPaths s.isCommitted content
        removePaths .recovering (paths ++ [w.snapshot_path])) := by
  have hfile := (kept_intact w).and (file_stable w w.snapshot_path fun f => f.content = content)
  refine succeeds_ask (F := fun paths s => s.Owns w.snapshot_path ∧ ∀ q ∈ paths, ¬ w.IsFinal q)
    hfile (fun _ h => h.1) ?_ fun paths => ?_
  · rintro s paths ⟨-, f, hf, rfl⟩ hclear hread
    obtain ⟨hnone, hrecord, hsnapshot⟩ := (hclear rfl).snapshot hlisted f hf paths hread
    refine ⟨⟨by rw [hf]; rfl, hnone⟩, ?_⟩
    rintro q hq (rfl | rfl)
    · exact hrecord hq
    · exact hsnapshot hq
  refine (succeeds_removeManifest (P := fun s => (Intact w s ∧ s.Owns w.snapshot_path) ∧
    ∀ q ∈ paths, ¬ w.IsFinal q) ?_ ?_ ?_).pre ?_
  · exact ((kept_intact w).and (owns_stable w _)).and fun _ _ _ h => h
  · rintro q hq s ⟨⟨hs, howns⟩, hfinal⟩ -
    refine ⟨⟨hs.unlink (hs.foreign_ne (hfinal q hq)), owns_unlink howns ?_⟩, hfinal⟩
    rintro rfl
    exact hfinal _ hq (Or.inr rfl)
  · rintro s ⟨⟨hs, howns⟩, -⟩
    exact hs.unlink howns.2
  · rintro s ⟨⟨hs, -⟩, howns, hfinal⟩
    exact ⟨⟨hs, howns⟩, hfinal⟩

/-- Recovering any other manifest: it names no final path. -/
theorem triple_recoverOther {p : Path} (hlisted : w.layout.isManifest p = true)
    (hmanifest : p ≠ w.manifest_path) (hsnapshot : p ≠ w.snapshot_path) (content : Text) :
    Triple (foreignEnvironment w) (fun s => Intact w s ∧ ∃ f, s.disk.get? p = some f ∧ f.content = content)
      (Intact w) (do
        let paths ← ask .recovering fun s => w.layout.recoveryPaths s.isCommitted content
        removePaths .recovering (paths ++ [p])) := by
  have hfile := (kept_intact w).and (file_stable w p fun f => f.content = content)
  refine succeeds_ask (F := fun paths _ => ∀ q ∈ paths, ¬ w.IsFinal q)
    hfile (fun _ h => h.1) ?_ fun paths => ?_
  · rintro s paths ⟨hs, f, hf, rfl⟩ - hread
    exact hs.unrelated p f hlisted hmanifest hsnapshot hf _ paths hread
  refine (succeeds_removeManifest (P := fun s => Intact w s ∧ ∀ q ∈ paths, ¬ w.IsFinal q) ?_ ?_ ?_).pre ?_
  · exact (kept_intact w).and fun _ _ _ h => h
  · exact fun q hq s hs _ => ⟨hs.1.unlink (hs.1.foreign_ne (hs.2 q hq)), hs.2⟩
  · rintro s ⟨hs, -⟩
    refine hs.unlink (hs.foreign_ne ?_)
    rintro (rfl | rfl)
    · exact w.isManifest_ne_record hlisted rfl
    · exact hsnapshot rfl
  · exact fun s hs => ⟨hs.1.1, hs.2⟩

theorem triple_recoverManifest (hresolves : w.Resolves) {p : Path} (hp : w.layout.isManifest p = true) :
    Triple (foreignEnvironment w) (Intact w) (Intact w) (recoverManifest w.layout p) := by
  refine Succeeds.handle (R := fun _ => Intact w) (F := Intact w) ?_ (fun _ => triple_done _)
    fun e => succeeds_done nofun fun _ h => h
  refine succeeds_ask (F := fun content s => ∃ f, s.disk.get? p = some f ∧ f.content = content)
    (kept_intact w) (fun _ h => h) ?_ fun content => ?_
  · intro s content _ _ hread
    exact Option.map_eq_some_iff.mp (required_ok.mp hread)
  by_cases hmanifest : p = w.manifest_path
  · subst hmanifest
    by_cases hcontent : content = w.manifestText
    · subst hcontent
      exact triple_recoverOwn hresolves
    · rintro s ⟨hs, f, hf, rfl⟩
      exact absurd (hs.manifest f hf) hcontent
  · by_cases hsnapshot : p = w.snapshot_path
    · subst hsnapshot
      exact triple_recoverSnapshot hp content
    · exact triple_recoverOther hp hmanifest hsnapshot content

theorem triple_recoverManifests (hresolves : w.Resolves) {paths : List Path}
    (h : ∀ p ∈ paths, w.layout.isManifest p = true) :
    Triple (foreignEnvironment w) (Intact w) (Intact w) (recoverManifests w.layout paths) := by
  induction paths with
  | nil => exact triple_done _
  | cons p rest ih =>
    exact Triple.seq (triple_recoverManifest hresolves (h p List.mem_cons_self)) fun _ =>
      ih fun q hq => h q (List.mem_cons_of_mem _ hq)

/-- A recovery keeps every file of another program. -/
theorem triple_recover (hresolves : w.Resolves) :
    Triple (foreignEnvironment w) (Intact w) (Intact w) (recoverUnfinishedTransactionsLocked w.layout) := by
  refine succeeds_ask (F := fun paths _ => ∀ p ∈ paths, w.layout.isManifestTemp p = true)
    (kept_intact w) (fun _ h => h) ?_ fun unfinished => ?_
  · rintro s paths - - hread p hp
    cases hread
    exact (List.mem_filter.mp hp).2
  have hpure : Kept (foreignEnvironment w) fun s => Intact w s ∧ ∀ p ∈ unfinished, w.layout.isManifestTemp p = true :=
    (kept_intact w).and fun _ _ _ h => h
  refine Succeeds.bind ((triple_removePaths hpure fun p hp s hs _ => ?_).mono (fun _ _ h => h.1)
    fun _ h => h.1) fun _ => ?_
  · exact ⟨hs.1.unlink (hs.1.foreign_ne (w.isManifestTemp_not_final (hs.2 p hp))), hs.2⟩
  refine succeeds_ask (F := fun paths _ => ∀ p ∈ paths, w.layout.isManifest p = true)
    (kept_intact w) (fun _ h => h) ?_ fun manifests s hs => ?_
  · rintro s paths - - hread p hp
    cases hread
    exact (List.mem_filter.mp ((List.perm_insertionSort _ _).mem_iff.mp hp)).2
  · exact triple_recoverManifests hresolves hs.2 s hs.1

/-- A whole write keeps every file of another program. -/
theorem triple_write (hresolves : w.Resolves) (safeDump : Document → Text)
    (prediction : Except Error CommittedPrediction) :
    Triple (foreignEnvironment w) (Intact w) (Intact w) (write safeDump w prediction) := by
  refine Triple.seq (triple_recover hresolves) fun _ => ?_
  refine Succeeds.bind (R := fun _ => Resting w none) (succeeds_act (kept_intact w) (fun _ h => h) ?_)
    fun _ => triple_guarded (succeeds_writeSteps safeDump prediction)
  intro s t hs _ heffect
  cases heffect
  exact ⟨hs.of_disk rfl rfl, rfl⟩

/-! ## Runs -/

/-- What a machine of the writer executes: whole writes and recoveries. -/
def WritesOrRecovers (w : StagedPaths) (p : Writing Unit) : Prop :=
  (∃ safeDump prediction, p = write safeDump w prediction) ∨
    p = recoverUnfinishedTransactionsLocked w.layout

/-- A vault in which the write has not begun: its nonce is new, and no manifest that is there names
its final paths. -/
structure Unstaged (w : StagedPaths) (s : Site) : Prop where
  foreign : s.foreign = []
  fresh : ∀ q g, s.disk.get? q = some g → g.inode < s.disk.next
  manifest : s.disk.get? w.manifest_path = none
  unrelated : ∀ m f, w.layout.isManifest m = true → m ≠ w.manifest_path → m ≠ w.snapshot_path →
    s.disk.get? m = some f → ∀ isCommitted paths,
      w.layout.recoveryPaths isCommitted f.content = .ok paths → ∀ p ∈ paths, ¬ w.IsFinal p

theorem Unstaged.intact (h : Unstaged w s) : Intact w s where
  kept := by simp [h.foreign]
  fresh := h.fresh
  single := by simp [h.foreign]
  manifest f hf := by simp [h.manifest] at hf
  unrelated := h.unrelated

/-- A machine of the writer. -/
abbrev WriterMachine := Machine Point Site Error

/-- A step of such a machine, while another program creates files. -/
abbrev WriterStep (w : StagedPaths) :
    WriterMachine → Machine.Happening Point Site Error → WriterMachine → Prop :=
  Machine.Step Site.die (CreatesForeign w)

theorem writer_specification (hresolves : w.Resolves) :
    Machine.Specification (foreignEnvironment w) Site.die (Intact w) (Intact w) (WritesOrRecovers w) where
  safe := by
    rintro p (⟨safeDump, prediction, rfl⟩ | rfl)
    · exact triple_write hresolves safeDump prediction
    · exact triple_recover hresolves
  stable := Intact.stable w
  stable_done := Intact.stable w
  idle _ h := h
  crash _ h := h
  dead _ h := h.of_disk rfl rfl

open Registry (sampleDraft sampleSchemas sampleTime)

/-- The path that a text spells, in a vault without links. -/
def samplePath (raw : Text) : Path where
  dir := ((raw.reverse.dropWhile (· ≠ '/')).drop 1).reverse
  name := (raw.reverse.takeWhile (· ≠ '/')).reverse

/-- A vault with its records below `predictions`. -/
def sampleLayout : Layout where
  vault_root := text "/v"
  records_dir := text "/v/predictions"
  records_inside := by decide
  resolve raw := .ok (samplePath raw)
  strOf
    | .str s => s
    | _ => []
  strOf_str _ := rfl

/-- The paths of a write of the sample draft. -/
def sampleStaged : StagedPaths := ⟨sampleLayout, sampleDraft.prediction_id, text "0"⟩

/-- An empty vault. -/
def sampleSite : Site := ⟨Registry.empty, none, ⟨[], 0⟩, none, false, false, []⟩

/-- What the write of the sample draft prepares. -/
def samplePrepared : Except Error CommittedPrediction :=
  prepareCommitted id sampleSchemas sampleDraft none sampleTime

/-- The write of the sample draft; its front matter is dumped as JSON. -/
def sampleWrite : Writing Unit :=
  write (Json.print Json.compactStyle 0) sampleStaged samplePrepared

theorem sample_resolves : sampleStaged.Resolves :=
  ⟨by decide +kernel, by decide +kernel, by decide +kernel, by decide +kernel⟩

theorem sample_unstaged : Unstaged sampleStaged sampleSite where
  foreign := rfl
  fresh := by simp [sampleSite, Disk.get?]
  manifest := rfl
  unrelated := by simp [sampleSite, Disk.get?]

/-- The machine after the given steps, if it takes them all. -/
def machineAfter (m : WriterMachine) (events : List (Machine.Happening Point Site Error)) :
    WriterMachine :=
  ((follow (Machine.next? Site.die) m events).getD m)

/-- The write begins and puts its manifest in place. -/
def sampleBeginning : List (Machine.Happening Point Site Error) :=
  .start sampleWrite :: List.replicate 10 (.step .exec)

/-- The machine once the manifest is in place. -/
def sampleBegun : WriterMachine := machineAfter ⟨sampleSite, none⟩ sampleBeginning

/-- The site once another program has created a file. -/
def Site.withForeign (s : Site) (p : Path) (content : Text) : Site :=
  { s with disk := { s.disk.put p ⟨s.disk.next, content⟩ with next := s.disk.next + 1 }
           foreign := s.foreign ++ [(p, ⟨s.disk.next, content⟩)] }

theorem createsForeign_of_free {p : Path} (content : Text) (hp : w.IsFinal p)
    (hfree : s.disk.get? p = none) : CreatesForeign w s (s.withForeign p content) :=
  .create s p content _ hp (Disk.create_of_free content hfree)

/-- The user has put a note at the path of the record. -/
def sampleNoted : Site := sampleBegun.state.withForeign sampleStaged.record_path (text "note")

/-- The writer dies, and a recovery runs. -/
def sampleRecovery : List (Machine.Happening Point Site Error) :=
  .die :: .start (recoverUnfinishedTransactionsLocked sampleLayout) ::
    List.replicate 9 (.step .exec)

/-- The machine after the recovery. -/
def sampleRecovered : WriterMachine := machineAfter ⟨sampleNoted, sampleBegun.running⟩ sampleRecovery

theorem sample_recovery_evaluates :
    (follow (Machine.next? Site.die) ⟨sampleSite, none⟩ sampleBeginning).isSome = true ∧
      sampleBegun.state.disk.get? sampleStaged.record_path = none ∧
      (follow (Machine.next? Site.die) ⟨sampleNoted, sampleBegun.running⟩ sampleRecovery).isSome = true ∧
      sampleRecovered.state.disk.get? sampleStaged.record_path = none ∧
      sampleRecovered.state.foreign.map Prod.fst = [sampleStaged.record_path] := by
  decide +kernel

end Pine
