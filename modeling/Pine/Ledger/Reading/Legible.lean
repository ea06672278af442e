import Pine.Ledger.Reading.Run
import Pine.Ledger.Run.Load
import Pine.Ledger.Services

/-!
# Registries that the reader can read

What the services write of a run is what the reader looks for: every prediction has its
run, the times of that run are times that convert to UTC, and its binding seals the
envelope that was prepared for it. Every call of a service keeps this, provided that the
clock it reads shows a time that converts to UTC.
-/

namespace Pine

open Json (Value)

/-- An aware time that converts to UTC. -/
def DateTime.Timely (t : DateTime) : Prop := t.isAware = true ∧ t.astimezoneUtc ≠ none

instance (t : DateTime) : Decidable t.Timely := inferInstanceAs (Decidable (_ ∧ _))

/-- A stored text that reads as such a time. -/
def ReadsAsTime (s : Text) : Prop := ∃ t, DateTime.fromisoformat s = some t ∧ t.Timely

theorem DateTime.Timely.reads {t : DateTime} (h : t.Timely) : ReadsAsTime t.isoformat :=
  ⟨t, DateTime.fromisoformat_isoformat t, h⟩

theorem readTime_of_reads {s : Text} (h : ReadsAsTime s) (name : String) :
    ∃ t, readTime name s = .ok t := by
  obtain ⟨parsed, hparsed, haware, hutc⟩ := h
  obtain ⟨t, ht⟩ := Option.ne_none_iff_exists'.mp hutc
  refine ⟨t, bind_eq_ok.mpr ⟨parsed, required_ok.mpr hparsed, bind_eq_ok.mpr ⟨(), ?_, ?_⟩⟩⟩
  · exact refuse_ok.mpr (by simp [haware])
  · exact required_ok.mpr ht

theorem readOptionalTime_of_reads {s : Option Text} (h : ∀ t ∈ s, ReadsAsTime t) (name : String) :
    ∃ t, readOptionalTime name s = .ok t := by
  cases s with
  | none => exact ⟨none, rfl⟩
  | some s =>
    obtain ⟨t, ht⟩ := readTime_of_reads (h s rfl) name
    exact ⟨some t, by simp only [readOptionalTime, ht, Except.map]⟩

/-- The times of a run read as times. -/
structure RunRow.Timed (r : RunRow) : Prop where
  started_at : ReadsAsTime r.started_at
  execution_started_at : ∀ t ∈ r.execution_started_at, ReadsAsTime t
  completed_at : ∀ t ∈ r.completed_at, ReadsAsTime t

/-- The binding seals the envelope that a preparation made for the run of a prediction. -/
def Sealed (L : ResultLibrary) (sha256 : Text → Text) (run_id prediction_id : Text)
    (b : RunBindingRow) : Prop :=
  ∃ (request : RunRequest) (directory hash : Text) (snapshot : StrategySnapshot) (value : Document)
      (bound_at : DateTime),
    L.validateSnapshot value = some snapshot ∧ bound_at.Timely ∧
    b.registration_status = .preregistered ∧ b.strategy_id = snapshot.strategy_id ∧
    b.dataset_version = snapshot.dataset_version ∧ b.bound_at = bound_at.isoformat ∧
    sha256Json sha256 (runEnvelope request run_id (some prediction_id) .preregistered b.strategy_id
      directory snapshot bound_at (some hash)) = .ok b.envelope_hash ∧
    canonicalJson (runEnvelope request run_id (some prediction_id) .preregistered b.strategy_id
      directory snapshot bound_at (some hash)) = .ok b.envelope_json

namespace Registry

variable (L : ResultLibrary) (sha256 : Text → Text)

/-- Predictions have their runs, the times of these read as times, and their bindings are sealed. -/
structure Legible (db : Registry) : Prop where
  allocated : ∀ p ∈ db.predictions, ∃ r ∈ db.runs, r.run_id = p.run_id ∧
    r.prediction_id = some p.prediction_id
  timed : ∀ r ∈ db.runs, r.prediction_id ≠ none → r.Timed
  bindings : ∀ b ∈ db.run_bindings, ∃ r ∈ db.runs, r.run_id = b.run_id ∧
    ∀ id, r.prediction_id = some id → Sealed L sha256 r.run_id id b

variable {L sha256} {db db' : Registry}

theorem legible_empty : empty.Legible L sha256 where
  allocated := by simp [empty]
  timed := by simp [empty]
  bindings := by simp [empty]

/-! ## Statements -/

theorem Legible.of_same (h : db.Legible L sha256) (hpredictions : db'.predictions = db.predictions)
    (hruns : db'.runs = db.runs) (hbindings : db'.run_bindings = db.run_bindings) :
    db'.Legible L sha256 where
  allocated := by rw [hpredictions, hruns]; exact h.allocated
  timed := by rw [hruns]; exact h.timed
  bindings := by rw [hbindings, hruns]; exact h.bindings

theorem Legible.insertRun (h : db.Legible L sha256) {row : RunRow}
    (hinsert : insertRun row db = .ok db') (htimed : row.prediction_id ≠ none → row.Timed) :
    db'.Legible L sha256 := by
  obtain ⟨rfl, -⟩ := insertRun_ok hinsert
  refine ⟨fun p hp => ?_, fun r hr hallocated => ?_, fun b hb => ?_⟩
  · obtain ⟨r, hr, hsame⟩ := h.allocated p hp
    exact ⟨r, List.mem_append_left _ hr, hsame⟩
  · rcases List.mem_append.mp hr with hr | hr
    · exact h.timed r hr hallocated
    · obtain rfl := List.mem_singleton.mp hr
      exact htimed hallocated
  · obtain ⟨r, hr, hsealed⟩ := h.bindings b hb
    exact ⟨r, List.mem_append_left _ hr, hsealed⟩

theorem Legible.insertRunBinding (h : db.Legible L sha256) {row : RunBindingRow}
    (hinsert : insertRunBinding row db = .ok db') {r : RunRow} (hr : r ∈ db.runs)
    (hid : r.run_id = row.run_id)
    (hsealed : ∀ id, r.prediction_id = some id → Sealed L sha256 r.run_id id row) :
    db'.Legible L sha256 := by
  obtain ⟨rfl, -, -⟩ := insertRunBinding_ok hinsert
  refine ⟨h.allocated, h.timed, fun b hb => ?_⟩
  rcases List.mem_append.mp hb with hb | hb
  · exact h.bindings b hb
  · obtain rfl := List.mem_singleton.mp hb
    exact ⟨r, hr, hid, hsealed⟩

theorem apply_identity {u : RunUpdate} (h : u.namesIdentity = false) (r : RunRow) :
    (u.apply r).run_id = r.run_id ∧ (u.apply r).prediction_id = r.prediction_id := by
  simp only [RunUpdate.namesIdentity, Bool.or_eq_false_iff, Option.isSome_eq_false_iff,
    Option.isNone_iff_eq_none] at h
  simp only [RunUpdate.apply, h.1.1, h.1.2, Option.getD_none, and_self]

/-- An update of runs keeps their identities. -/
theorem updateRuns_identity {selects : RunRow → Bool} {u : RunUpdate} {n : Nat}
    (hupdate : updateRuns selects u db = .ok (n, db')) {r : RunRow} (hr : r ∈ db.runs) :
    ∃ r' ∈ db'.runs, r'.run_id = r.run_id ∧ r'.prediction_id = r.prediction_id := by
  obtain ⟨rfl, -, hall⟩ := updateRuns_ok hupdate
  refine ⟨_, List.mem_map_of_mem hr, ?_⟩
  split
  · rename_i hselected
    exact apply_identity (hall r hr hselected).1 r
  · exact ⟨rfl, rfl⟩

theorem Legible.updateRuns (h : db.Legible L sha256) {selects : RunRow → Bool} {u : RunUpdate}
    {n : Nat} (hupdate : updateRuns selects u db = .ok (n, db'))
    (htimed : ∀ r ∈ db.runs, selects r = true → r.prediction_id ≠ none → r.Timed →
      (u.apply r).Timed) : db'.Legible L sha256 := by
  have hkept := @updateRuns_identity db db' selects u n hupdate
  obtain ⟨rfl, -, hall⟩ := updateRuns_ok hupdate
  refine ⟨fun p hp => ?_, fun r' hr' hallocated => ?_, fun b hb => ?_⟩
  · obtain ⟨r, hr, hrun, hprediction⟩ := h.allocated p hp
    obtain ⟨r', hr', hid, hsame⟩ := hkept hr
    exact ⟨r', hr', hid.trans hrun, hsame.trans hprediction⟩
  · obtain ⟨r, hr, rfl⟩ := List.mem_map.mp hr'
    by_cases hselected : selects r = true
    · rw [if_pos hselected] at hallocated ⊢
      rw [(apply_identity (hall r hr hselected).1 r).2] at hallocated
      exact htimed r hr hselected hallocated (h.timed r hr hallocated)
    · rw [if_neg hselected] at hallocated ⊢
      exact h.timed r hr hallocated
  · obtain ⟨r, hr, hrun, hsealed⟩ := h.bindings b hb
    obtain ⟨r', hr', hid, hsame⟩ := hkept hr
    refine ⟨r', hr', hid.trans hrun, fun id hallocated => ?_⟩
    rw [hid]
    exact hsealed id (hsame ▸ hallocated)

theorem Legible.commitPrediction (h : db.Legible L sha256) {prediction_id : Text}
    {committed_at : DateTime} {u : Unit}
    (hrun : (commitPrediction prediction_id committed_at).run db = (.ok u, db')) :
    db'.Legible L sha256 := by
  obtain ⟨n, db1, hupdate, hcount⟩ := Program.run_bind_ok.mp hrun
  obtain ⟨-, rfl⟩ := Program.run_check_ok.mp hcount
  obtain ⟨rfl, -, -⟩ := updatePredictions_ok (executeUpdate_ok hupdate)
  refine ⟨fun p' hp' => ?_, h.timed, h.bindings⟩
  obtain ⟨p, hp, rfl⟩ := List.mem_map.mp hp'
  split <;> exact h.allocated p hp

/-! ## Operations -/

theorem Legible.beginPrediction (h : db.Legible L sha256) {prediction : CommittedPrediction}
    {u : Unit} (hcreated : prediction.created_at.Timely)
    (hrun : (beginPrediction prediction).run db = (.ok u, db')) : db'.Legible L sha256 := by
  obtain ⟨lineage_json, db1, hlineage, hrows⟩ := Program.run_bind_ok.mp hrun
  obtain ⟨-, rfl⟩ := Program.run_check_ok.mp hlineage
  obtain ⟨_, db2, hprediction, hallocate⟩ := Program.run_bind_ok.mp hrows
  obtain ⟨rfl, -⟩ := insertPrediction_ok (Program.run_update_ok.mp hprediction)
  obtain ⟨rfl, -⟩ := insertRun_ok (Program.run_update_ok.mp hallocate)
  refine ⟨fun p hp => ?_, fun r hr hallocated => ?_, fun b hb => ?_⟩
  · rcases List.mem_append.mp hp with hp | hp
    · obtain ⟨r, hr, hsame⟩ := h.allocated p hp
      exact ⟨r, List.mem_append_left _ hr, hsame⟩
    · obtain rfl := List.mem_singleton.mp hp
      exact ⟨_, List.mem_append_right _ (List.mem_singleton_self _), rfl, rfl⟩
  · rcases List.mem_append.mp hr with hr | hr
    · exact h.timed r hr hallocated
    · obtain rfl := List.mem_singleton.mp hr
      exact ⟨hcreated.reads, by simp, by simp⟩
  · obtain ⟨r, hr, hsealed⟩ := h.bindings b hb
    exact ⟨r, List.mem_append_left _ hr, hsealed⟩

theorem Legible.bindRun (h : db.Legible L sha256) {run_id : Text} {b : Binding} {u : Unit}
    (hrun : (bindRun run_id b).run db = (.ok u, db'))
    (hsealed : ∀ r ∈ db.runs, r.run_id = run_id → ∀ id, r.prediction_id = some id →
      Sealed L sha256 r.run_id id ⟨run_id, b.idempotency_key, b.request_hash,
        b.registration_status, b.strategy_id, b.dataset_version, b.envelope_json, b.envelope_hash,
        b.bound_at.isoformat⟩) : db'.Legible L sha256 := by
  obtain ⟨n, db1, hupdate, hcount⟩ := Program.run_bind_ok.mp hrun
  obtain ⟨-, rfl⟩ := Program.run_check_ok.mp hcount
  have hbound := executeUpdate_ok hupdate
  unfold insertBindingOfRegistered at hbound
  split at hbound
  · rename_i run hfound
    split at hbound
    · obtain ⟨db2, hinsert, heq⟩ := bind_eq_ok.mp hbound
      cases heq
      obtain ⟨hmem, hid⟩ := run?_some hfound
      exact h.insertRunBinding hinsert hmem hid (hsealed run hmem hid)
    · cases hbound
      exact h
  · cases hbound
    exact h

theorem bindRun_runs {run_id : Text} {b : Binding} {u : Unit}
    (hrun : (bindRun run_id b).run db = (.ok u, db')) : db'.runs = db.runs := by
  obtain ⟨n, db1, hupdate, hcount⟩ := Program.run_bind_ok.mp hrun
  obtain ⟨-, rfl⟩ := Program.run_check_ok.mp hcount
  have hbound := executeUpdate_ok hupdate
  unfold insertBindingOfRegistered at hbound
  split at hbound
  · split at hbound
    · obtain ⟨db2, hinsert, heq⟩ := bind_eq_ok.mp hbound
      cases heq
      obtain ⟨rfl, -, -⟩ := insertRunBinding_ok hinsert
      rfl
    · cases hbound
      rfl
  · cases hbound
    rfl

/-- A run under a new id that belongs to no prediction may be bound to anything. -/
theorem Legible.freshRun (h : db.Legible L sha256) {run_id : Text} {started_at : DateTime}
    {b : Binding} {u v : Unit} {db1 : Registry}
    (hinsert : (execute (Registry.insertRun (freshRun run_id started_at))).run db = (.ok u, db1))
    (hbind : (Registry.bindRun run_id b).run db1 = (.ok v, db')) : db'.Legible L sha256 := by
  have hrow := Program.run_update_ok.mp hinsert
  have hdb1 := h.insertRun hrow fun hallocated => absurd rfl hallocated
  obtain ⟨rfl, hnew⟩ := insertRun_ok hrow
  refine hdb1.bindRun hbind fun r hr hid id hallocated => ?_
  rcases List.mem_append.mp hr with hr | hr
  · exact absurd (List.mem_map.mpr ⟨r, hr, hid⟩) hnew
  · obtain rfl := List.mem_singleton.mp hr
    cases hallocated

theorem Legible.insertTouched (h : db.Legible L sha256) {family start stop : Text}
    {touched_at : DateTime} {u : Unit}
    (hrun : (insertTouched family start stop touched_at).run db = (.ok u, db')) :
    db'.Legible L sha256 := by
  rw [insertTouched_ok hrun]
  unfold insertTouchedWindow
  split
  · exact h
  · exact h.of_same rfl rfl rfl

theorem Legible.startRun (h : db.Legible L sha256) {run_id : Text} {started_at : DateTime}
    {u : Unit} (htimely : started_at.Timely)
    (hrun : (startRun sha256 run_id started_at).run db = (.ok u, db')) : db'.Legible L sha256 := by
  obtain ⟨_, db1, haware, hidentified⟩ := Program.run_bind_ok.mp hrun
  obtain ⟨touch, db2, hidentity, hupdated⟩ := Program.run_bind_ok.mp hidentified
  obtain ⟨n, db3, hupdate, hcounted⟩ := Program.run_bind_ok.mp hupdated
  obtain ⟨_, db4, hcount, hinsert⟩ := Program.run_bind_ok.mp hcounted
  obtain ⟨-, rfl⟩ := Program.run_check_ok.mp haware
  obtain ⟨rfl, -⟩ := touchIdentityForRun_ok hidentity
  obtain ⟨-, rfl⟩ := Program.run_check_ok.mp hcount
  have hclaimed := h.updateRuns (executeUpdate_ok hupdate) fun r _ _ _ htimed =>
    { started_at := htimed.started_at
      execution_started_at := by
        rintro t ht
        cases ht
        exact htimely.reads
      completed_at := htimed.completed_at }
  exact hclaimed.insertTouched hinsert

theorem Legible.finishRun (h : db.Legible L sha256) {run_id : Text} {completed_at : DateTime}
    {exit_code : Int} {note : Option Text} {u : Unit} (htimely : completed_at.Timely)
    (hrun : (finishRun run_id completed_at exit_code note).run db = (.ok u, db')) :
    db'.Legible L sha256 := by
  obtain ⟨n, db1, hfinish, hcount⟩ := Program.run_bind_ok.mp hrun
  obtain ⟨-, rfl⟩ := Program.run_check_ok.mp hcount
  exact h.updateRuns (executeFinish_ok hfinish) fun r _ _ _ htimed =>
    { started_at := htimed.started_at
      execution_started_at := htimed.execution_started_at
      completed_at := by
        rintro t ht
        cases ht
        exact htimely.reads }

theorem Legible.createRunResult (h : db.Legible L sha256) {run_id evidence_hash evidence_json : Text}
    {source_timestamp ingested_at : DateTime} {u : Unit}
    (hrun : (createRunResult run_id evidence_hash evidence_json source_timestamp ingested_at).run db =
      (.ok u, db')) : db'.Legible L sha256 := by
  obtain ⟨n, db1, hupdate, hcount⟩ := Program.run_bind_ok.mp hrun
  obtain ⟨-, rfl⟩ := Program.run_check_ok.mp hcount
  have hinserted := executeUpdate_ok hupdate
  split at hinserted
  · obtain ⟨db2, hinsert, heq⟩ := map_eq_ok.mp hinserted
    cases heq
    obtain ⟨-, rfl⟩ := enforced_ok hinsert
    exact h.of_same rfl rfl rfl
  · cases hinserted
    exact h

/-- The run belongs to no prediction. -/
def Outside (db : Registry) (run_id : Text) : Prop :=
  ∀ r ∈ db.runs, r.run_id = run_id → r.prediction_id = none

/-- An update of a run that belongs to no prediction. -/
theorem Legible.updateOutside (h : db.Legible L sha256) {run_id : Text} (hout : db.Outside run_id)
    {selects : RunRow → Bool} (hselects : ∀ r, selects r = true → r.run_id = run_id)
    {u : RunUpdate} {n : Nat} (hupdate : Registry.updateRuns selects u db = .ok (n, db')) :
    db'.Legible L sha256 ∧ db'.Outside run_id := by
  refine ⟨h.updateRuns hupdate fun r hr hselected hallocated _ =>
    absurd (hout r hr (hselects r hselected)) hallocated, fun r' hr' hid => ?_⟩
  obtain ⟨rfl, -, hall⟩ := updateRuns_ok hupdate
  obtain ⟨r, hr, rfl⟩ := List.mem_map.mp hr'
  by_cases hselected : selects r = true
  · rw [if_pos hselected] at hid ⊢
    rw [(apply_identity (hall r hr hselected).1 r).2]
    exact hout r hr (hselects r hselected)
  · rw [if_neg hselected] at hid ⊢
    exact hout r hr hid

theorem Legible.createExternalRunImport (h : db.Legible L sha256) {e : ExternalRun} {u : Unit}
    (hrun : (createExternalRunImport sha256 e).run db = (.ok u, db')) : db'.Legible L sha256 := by
  obtain ⟨_, db1, hinserted, hbind⟩ := Program.run_bind_ok.mp hrun
  obtain ⟨_, db2, hbound, hidentity⟩ := Program.run_bind_ok.mp hbind
  obtain ⟨touch, db3, htouch, hclaim⟩ := Program.run_bind_ok.mp hidentity
  obtain ⟨n, db4, hclaimed, hinsert⟩ := Program.run_bind_ok.mp hclaim
  obtain ⟨_, db5, htouched, hfinish⟩ := Program.run_bind_ok.mp hinsert
  obtain ⟨m, db6, hfinished, hlast⟩ := Program.run_bind_ok.mp hfinish
  obtain ⟨rfl, -⟩ := touchIdentityForRun_ok htouch
  have hselects (state : RunState) (r : RunRow)
      (hr : (r.run_id == e.run_id && r.state == state) = true) : r.run_id = e.run_id := by
    simp only [Bool.and_eq_true, beq_iff_eq] at hr
    exact hr.1
  have hdb3 := h.freshRun hinserted hbound
  have hout : db3.Outside e.run_id := by
    rw [Outside, bindRun_runs hbound]
    obtain ⟨rfl, hnew⟩ := insertRun_ok (Program.run_update_ok.mp hinserted)
    intro r hr hid
    rcases List.mem_append.mp hr with hr | hr
    · exact absurd (List.mem_map.mpr ⟨r, hr, hid⟩) hnew
    · obtain rfl := List.mem_singleton.mp hr
      rfl
  obtain ⟨hdb4, hout4⟩ := hdb3.updateOutside hout (hselects .registered)
    (executeUpdate_ok hclaimed)
  have hdb5 := hdb4.insertTouched htouched
  have hout5 : db5.Outside e.run_id := by
    rw [insertTouched_ok htouched]
    unfold insertTouchedWindow
    split <;> exact hout4
  have hdb6 := (hdb5.updateOutside hout5 (hselects .running) (executeFinish_ok hfinished)).1
  obtain ⟨-, rfl⟩ := enforced_ok (Program.run_update_ok.mp hlast)
  exact hdb6.of_same rfl rfl rfl

end Registry

end Pine
