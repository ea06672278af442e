import Pine.Ledger.Writer.Manifest

/-!
# Rules for the steps of the writer

Triples for the building blocks that the writer is made of, in any environment.
-/

namespace Pine

open Procedure Writing

variable {env : Environment Point Site} {P : Site → Prop} {point : Point}

theorem triple_fsync (hP : Kept env P) : Triple env P P (fsync point) := by
  refine triple_act hP fun s t hs _ heffect => ?_
  cases heffect
  exact hs

/-- Removing paths one after the other. -/
theorem triple_removePaths (hP : Kept env P) {paths : List Path}
    (h : ∀ p ∈ paths, ∀ s, P s → env.clear point s → P (s.unlink p)) :
    Triple env P P (removePaths point paths) := by
  induction paths with
  | nil => exact triple_done _
  | cons p rest ih =>
    refine Triple.seq (triple_act hP fun s t hs hclear heffect => ?_) fun _ =>
      ih fun q hq => h q (List.mem_cons_of_mem _ hq)
    cases heffect
    exact h p List.mem_cons_self s hs hclear

theorem removePaths_append (point : Point) (paths rest : List Path) :
    removePaths point (paths ++ rest) = removePaths point paths >>= fun _ => removePaths point rest := by
  induction paths with
  | nil => rfl
  | cons p paths ih =>
    rw [List.cons_append, removePaths, removePaths, ih]
    rfl

/-- A path that is free stays free when another one is removed. -/
theorem free_unlink {s : Site} {p : Path} (q : Path) (h : s.disk.get? p = none) :
    (s.unlink q).disk.get? p = none := by
  simp [Site.unlink, h]

/-- Once they are removed, the paths are free. -/
theorem succeeds_removePaths (hP : Kept env P) {paths : List Path}
    (hother : ∀ p, env.Stable fun s => s.disk.get? p = none)
    (h : ∀ p ∈ paths, ∀ s, P s → env.clear point s → P (s.unlink p)) :
    Succeeds env P P (fun _ s => P s ∧ ∀ p ∈ paths, s.disk.get? p = none)
      (removePaths point paths) := by
  have hall : ∀ done : List Path, Succeeds env P (fun s => P s ∧ ∀ p ∈ done, s.disk.get? p = none)
      (fun _ s => P s ∧ ∀ p ∈ done ++ paths, s.disk.get? p = none) (removePaths point paths) := by
    induction paths with
    | nil => exact fun done => succeeds_done (fun _ _ s hs => by simpa using hs) fun _ h => h.1
    | cons q rest ih =>
      intro done
      have hkept : Kept env fun s => P s ∧ ∀ p ∈ done, s.disk.get? p = none :=
        hP.and fun s t hst hfree p hp => hother p s t hst (hfree p hp)
      refine Succeeds.bind (R := fun _ s => P s ∧ ∀ p ∈ done ++ [q], s.disk.get? p = none)
        (succeeds_act hkept (fun _ h => h.1) ?_) fun _ => ?_
      · rintro s t ⟨hs, hfree⟩ hclear heffect
        cases heffect
        refine ⟨h q List.mem_cons_self s hs hclear, fun p hp => ?_⟩
        rcases List.mem_append.mp hp with hp | hp
        · exact free_unlink q (hfree p hp)
        · rw [List.mem_singleton.mp hp]
          simp [Site.unlink]
      · have hrest := ih (fun p hp => h p (List.mem_cons_of_mem _ hp)) (done ++ [q])
        rwa [List.append_assoc] at hrest
  exact (hall []).pre fun s hs => ⟨hs, by simp⟩

/-- A step at a point without faults that cannot fail. -/
theorem succeeds_quiet {E : Site → Prop} {effect : Site → Except Error Site} {Q : Unit → Site → Prop}
    (hdies : ¬ env.dies point) (hraises : ¬ env.raises point) (hP : env.Stable P)
    (h : ∀ s, P s → ∃ t, effect s = .ok t ∧ Q () t) : Succeeds env E P Q (act point effect) := by
  intro s hs
  refine safe_step.mpr fun t hmeets => ⟨fun hd => absurd hd hdies, fun _ =>
    ⟨fun hr => absurd hr hraises, ?_⟩⟩
  obtain ⟨u, heffect, hu⟩ := h t (hP.meets hmeets hs)
  rw [heffect]
  exact hu

/-- Removing paths at a point without faults. -/
theorem succeeds_removeQuiet {E : Site → Prop} {paths : List Path} (hdies : ¬ env.dies point)
    (hraises : ¬ env.raises point) (hstable : ∀ Q : Site → Prop, env.Stable Q)
    (h : ∀ s p, P s → P (s.unlink p)) :
    Succeeds env E P (fun _ s => P s ∧ ∀ p ∈ paths, s.disk.get? p = none)
      (removePaths point paths) := by
  have hall : ∀ done : List Path,
      Succeeds env E (fun s => P s ∧ ∀ p ∈ done, s.disk.get? p = none)
        (fun _ s => P s ∧ ∀ p ∈ done ++ paths, s.disk.get? p = none) (removePaths point paths) := by
    induction paths with
    | nil => exact fun done => succeeds_return fun s hs => by simpa using hs
    | cons q rest ih =>
      intro done
      refine Succeeds.bind (R := fun _ s => P s ∧ ∀ p ∈ done ++ [q], s.disk.get? p = none)
        (succeeds_quiet hdies hraises (hstable _) ?_) fun _ => ?_
      · rintro s ⟨hs, hfree⟩
        refine ⟨s.unlink q, rfl, h s q hs, fun p hp => ?_⟩
        rcases List.mem_append.mp hp with hp | hp
        · exact free_unlink q (hfree p hp)
        · rw [List.mem_singleton.mp hp]
          simp [Site.unlink]
      · have hrest := ih (done ++ [q])
        rwa [List.append_assoc] at hrest
  exact (hall []).pre fun s hs => ⟨hs, by simp⟩

end Pine
