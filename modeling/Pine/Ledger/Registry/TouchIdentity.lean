import Pine.Ledger.Registry.Operations

/-!
# The identity a run touches

What the derivation of a touched window means: the window is the out-of-sample
window of the bound envelope, and the family is that of the committed prediction's
lineage for a preregistered run and the strategy otherwise.
-/

namespace Pine

open Registry

/-- The window is the out-of-sample window of the envelope that the binding stores. -/
def RunBindingRow.HasWindow (binding : RunBindingRow) (w : DateWindow) : Prop :=
  ∃ envelope window start stop, Json.loads binding.envelope_json = some envelope ∧
    outOfSampleWindow? envelope = some window ∧
    window.get? (text "start") = some (.str start) ∧ window.get? (text "end") = some (.str stop) ∧
    Date.fromisoformat start = some w.start ∧ Date.fromisoformat stop = some w.stop

/-- The lineage of a prediction names a family. -/
def PredictionRow.HasFamily (p : PredictionRow) (family_id : Text) : Prop :=
  ∃ lineage : Document, Json.loads p.lineage_json = some lineage ∧
    lineage.get? (text "family_id") = some (.str family_id)

/-- The family under which a bound run counts, before normalization. -/
def RunBindingRow.HasFamily (binding : RunBindingRow) (prediction : Option PredictionRow)
    (family_id : Text) : Prop :=
  if binding.registration_status = .preregistered then
    ∃ p, prediction = some p ∧ p.transaction_state = .committed ∧ p.HasFamily family_id
  else family_id = binding.strategy_id

theorem WindowBound.toDate_isoText {s : Text} {d : Date} :
    (WindowBound.isoText s).toDate = .ok d ↔ Date.fromisoformat s = some d := by
  simp only [WindowBound.toDate]
  cases Date.fromisoformat s <;> simp

theorem envelopeBound_ok {window : Document} {key : String} {b : WindowBound} :
    envelopeBound window key = .ok b ↔
      ∃ s, window.get? (text key) = some (.str s) ∧ b = .isoText s := by
  unfold envelopeBound
  rcases window.get? (text key) with _ | v
  · simp
  · cases v <;> simp [eq_comm]

theorem envelopeWindow_ok {window : Document} {start stop : Text}
    (h : envelopeWindow window = .ok (start, stop)) :
    ∃ (w : DateWindow) (s e : Text), window.get? (text "start") = some (.str s) ∧
      window.get? (text "end") = some (.str e) ∧ Date.fromisoformat s = some w.start ∧
      Date.fromisoformat e = some w.stop ∧ start = w.start.isoformat ∧ stop = w.stop.isoformat := by
  obtain ⟨first, hfirst, h⟩ := bind_eq_ok.mp h
  obtain ⟨last, hlast, h⟩ := bind_eq_ok.mp h
  obtain ⟨s, hs, rfl⟩ := envelopeBound_ok.mp hfirst
  obtain ⟨e, he, rfl⟩ := envelopeBound_ok.mp hlast
  obtain ⟨w, hstart, hstop, rfl, rfl⟩ := normalizeWindow_ok.mp h
  exact ⟨w, s, e, hs, he, WindowBound.toDate_isoText.mp hstart, WindowBound.toDate_isoText.mp hstop,
    rfl, rfl⟩

/-- Only a string normalizes to a family. -/
theorem normalizeFamilyId_ok {v : Document} {family : Text} (h : normalizeFamilyId v = .ok family) :
    ∃ s, v = .str s ∧ normalizeFamilyId (.str s) = .ok family := by
  cases v with
  | str s => exact ⟨s, rfl, h⟩
  | null | bool | int | float | arr | obj => cases h

theorem lineageFamily_ok {prediction : Option PredictionRow} {family_id : Text}
    (h : lineageFamily prediction = .ok (.str family_id)) :
    ∃ p, prediction = some p ∧ p.transaction_state = .committed ∧ p.HasFamily family_id := by
  unfold lineageFamily at h
  split at h
  · cases h
  · rename_i p
    split at h
    · cases h
    · rename_i hcommitted
      split at h
      · cases h
      · rename_i lineage hloads
        refine ⟨p, rfl, not_not.mp hcommitted, lineage, hloads, ?_⟩
        cases hget : lineage.get? (text "family_id") with
        | none => simp [hget] at h
        | some v => simpa [hget] using h

/-- A derived identity is the window of the envelope and the normalized family of the run. -/
theorem touchIdentity_ok {sha256 : Text → Text} {binding : RunBindingRow}
    {prediction : Option PredictionRow} {touch : Text × Text × Text}
    (h : touchIdentity sha256 binding prediction = .ok touch) :
    ∃ (w : DateWindow) (family_id : Text), binding.HasWindow w ∧
      binding.HasFamily prediction family_id ∧ normalizeFamilyId (.str family_id) = .ok touch.1 ∧
      touch.2.1 = w.start.isoformat ∧ touch.2.2 = w.stop.isoformat := by
  unfold touchIdentity at h
  obtain ⟨envelope, henvelope, h⟩ := bind_eq_ok.mp h
  obtain ⟨-, -, h⟩ := bind_eq_ok.mp h
  obtain ⟨hash, -, h⟩ := bind_eq_ok.mp h
  obtain ⟨-, -, h⟩ := bind_eq_ok.mp h
  obtain ⟨-, -, h⟩ := bind_eq_ok.mp h
  obtain ⟨-, -, h⟩ := bind_eq_ok.mp h
  obtain ⟨window, hwindow, h⟩ := bind_eq_ok.mp h
  obtain ⟨dates, hdates, h⟩ := bind_eq_ok.mp h
  obtain ⟨raw, hraw, h⟩ := bind_eq_ok.mp h
  obtain ⟨family, hfamily, h⟩ := bind_eq_ok.mp h
  cases h
  obtain ⟨w, s, e, hs, he, hws, hwe, hstart, hstop⟩ := envelopeWindow_ok (rethrow_ok.mp hdates)
  obtain ⟨family_id, rfl, hnormal⟩ := normalizeFamilyId_ok (rethrow_ok.mp hfamily)
  refine ⟨w, family_id, ⟨envelope, window, s, e, required_ok.mp henvelope, required_ok.mp hwindow,
    hs, he, hws, hwe⟩, ?_, hnormal, hstart, hstop⟩
  unfold RunBindingRow.HasFamily
  unfold bindingFamily at hraw
  split
  · rename_i hpre
    rw [if_pos hpre] at hraw
    exact lineageFamily_ok hraw
  · rename_i hpre
    rw [if_neg hpre] at hraw
    simpa using (Except.ok.inj hraw).symm

end Pine
