import Pine.Ledger.Writer.Rules

/-!
# The outcome of a recovery

A recovery only removes files. It returns or raises an error of the ledger when every
file with the name of a manifest is read as one or is refused as unreadable, which is
so for every manifest that a writer wrote.
-/

namespace Pine

open Procedure Writing

/-- The files with the name of a manifest are read, or refused with an error that recovery names. -/
def Recoverable (l : Layout) (s : Site) : Prop :=
  ∀ p f, l.isManifest p = true → s.disk.get? p = some f →
    ∀ e, l.recoveryPaths s.isCommitted f.content = .error e → e.isUnreadable = true

/-- Some files are gone, and nothing else happened. -/
structure Sheds (s t : Site) : Prop where
  registry : t.registry = s.registry
  disk : ∀ p f, t.disk.get? p = some f → s.disk.get? p = some f

namespace Sheds

theorem refl (s : Site) : Sheds s s := ⟨rfl, fun _ _ h => h⟩

theorem trans {a b c : Site} (h : Sheds a b) (k : Sheds b c) : Sheds a c :=
  ⟨k.registry.trans h.registry, fun p f hp => h.disk p f (k.disk p f hp)⟩

theorem unlink (s : Site) (p : Path) : Sheds s (s.unlink p) := by
  refine ⟨rfl, fun q f hq => ?_⟩
  rw [Site.unlink, Disk.get?_unlink] at hq
  split at hq
  · cases hq
  · exact hq

/-- Nothing of the registry changed. -/
theorem isCommitted {s t : Site} (h : Sheds s t) : t.isCommitted = s.isCommitted := by
  unfold Site.isCommitted
  rw [h.registry]

theorem recoverable {l : Layout} {s t : Site} (h : Sheds s t) (hs : Recoverable l s) :
    Recoverable l t := by
  intro p f hp hf
  rw [h.isCommitted]
  exact hs p f hp (h.disk p f hf)

end Sheds

variable {l : Layout} {s : Site}

/-- Removing paths only removes them. -/
theorem exec_removePaths (point : Point) (paths : List Path) (s : Site) :
    ∃ t, (removePaths point paths).exec s = (.ok (), t) ∧ Sheds s t := by
  induction paths generalizing s with
  | nil => exact ⟨s, rfl, Sheds.refl s⟩
  | cons p rest ih =>
    obtain ⟨t, hrest, hsheds⟩ := ih (s.unlink p)
    exact ⟨t, hrest, (Sheds.unlink s p).trans hsheds⟩

/-- The manifests that writes with no links among their paths left are recoverable. -/
theorem recoverable_of_written (h : ∀ p f, l.isManifest p = true → s.disk.get? p = some f →
    ∃ w : StagedPaths, w.layout = l ∧ w.Resolves ∧ f.content = w.manifestText) :
    Recoverable l s := by
  intro p f hp hf e he
  obtain ⟨w, rfl, hresolves, hcontent⟩ := h p f hp hf
  rw [hcontent, StagedPaths.recoveryPaths_manifestText w hresolves s.isCommitted] at he
  cases he

/-- One manifest is recovered, or refused. -/
theorem exec_recoverManifest {p : Path} (hp : l.isManifest p = true) :
    ∃ r t, (recoverManifest l p).exec s = (r, t) ∧ Sheds s t ∧ (Recoverable l s → Settles r) := by
  rw [recoverManifest, exec_handle, exec_bind, exec_ask]
  cases hfile : s.disk.get? p with
  | none => exact ⟨_, s, rfl, Sheds.refl s, fun _ => settles_error rfl⟩
  | some f =>
    simp only [required, Option.map_some, exec_bind, exec_ask]
    cases hpaths : l.recoveryPaths s.isCommitted f.content with
    | error e =>
      refine ⟨_, s, rfl, Sheds.refl s, fun hs => settles_error ?_⟩
      rw [if_pos (hs p f hp hfile e hpaths)]
      rfl
    | ok paths =>
      obtain ⟨t, hremoved, hsheds⟩ := exec_removePaths .recovering (paths ++ [p]) s
      dsimp only
      rw [hremoved]
      exact ⟨_, t, rfl, hsheds, fun _ => settles_ok ()⟩

theorem exec_recoverManifests {paths : List Path} (hpaths : ∀ p ∈ paths, l.isManifest p = true) :
    ∃ r t, (recoverManifests l paths).exec s = (r, t) ∧ Sheds s t ∧
      (Recoverable l s → Settles r) := by
  induction paths generalizing s with
  | nil => exact ⟨_, s, rfl, Sheds.refl s, fun _ => settles_ok ()⟩
  | cons p rest ih =>
    obtain ⟨r, t, hfirst, hsheds, hsettles⟩ := exec_recoverManifest (hpaths p List.mem_cons_self)
    rw [recoverManifests, exec_bind, hfirst]
    cases r with
    | error e => exact ⟨_, t, rfl, hsheds, fun hs => settles_error (hsettles hs e rfl)⟩
    | ok u =>
      obtain ⟨r, t', hrest, hsheds', hsettles'⟩ :=
        ih fun q hq => hpaths q (List.mem_cons_of_mem _ hq)
      exact ⟨r, t', hrest, hsheds.trans hsheds', fun hs => hsettles' (hsheds.recoverable hs)⟩

/-- A recovery only removes files, and settles where the manifests are read or refused. -/
theorem exec_recover (l : Layout) (s : Site) :
    ∃ r t, (recoverUnfinishedTransactionsLocked l).exec s = (r, t) ∧ Sheds s t ∧
      (Recoverable l s → Settles r) := by
  obtain ⟨t, hremoved, hsheds⟩ :=
    exec_removePaths .recovering (s.disk.paths.filter l.isManifestTemp) s
  rw [recoverUnfinishedTransactionsLocked, exec_bind, exec_ask]
  simp only [exec_bind, hremoved, exec_ask]
  have hlisted : ∀ p ∈ (t.disk.paths.filter l.isManifest).insertionSort
      (fun p q => p.nameLe q = true), l.isManifest p = true := by
    intro p hp
    have hmem := (List.perm_insertionSort _ _).mem_iff.mp hp
    exact (List.mem_filter.mp hmem).2
  obtain ⟨r, t', hrest, hsheds', hsettles⟩ := exec_recoverManifests (s := t) hlisted
  exact ⟨r, t', hrest, hsheds.trans hsheds', fun hs => hsettles (hsheds.recoverable hs)⟩

end Pine
