import Pine.Ledger.Capture.Freshness
import Pine.Ledger.Registry.Statements

/-!
# Quarantine

What a quarantined prediction keeps, and what its status rests on. An UPDATE to the
status needs recorded evidence, but an INSERT has no such trigger: a draft that is
born quarantined has evidence only where its own transaction records it.
-/

namespace Pine

namespace Registry

/-- A violation of the prediction is recorded. -/
def HasViolation (db : Registry) (prediction_id : Text) : Prop :=
  ∃ v ∈ db.integrity_violations, v.prediction_id = prediction_id

/-- Every quarantined prediction has recorded evidence. -/
def Evidenced (db : Registry) : Prop :=
  ∀ p ∈ db.predictions, p.status = .quarantined → db.HasViolation p.prediction_id

/-- Every violation belongs to a prediction. -/
def ViolationsOwned (db : Registry) : Prop :=
  ∀ v ∈ db.integrity_violations, ∃ p ∈ db.predictions, p.prediction_id = v.prediction_id

/-- For each draft that is born quarantined, the same operations record a violation. -/
def Accounted (ops : List Operation) : Prop :=
  ∀ op ∈ ops, ∀ id, op.drafts id .quarantined → ∃ other ∈ ops, other.records id

/-! ## What statements do to evidence -/

/-- Evidence only grows, and who is newly quarantined was drafted so or has evidence. -/
structure Accounts (drafted : Text → PredictionStatus → Prop) (db db' : Registry) : Prop where
  violations : db.integrity_violations ⊆ db'.integrity_violations
  quarantined : ∀ p' ∈ db'.predictions, p'.status = .quarantined →
    drafted p'.prediction_id .quarantined ∨ db'.HasViolation p'.prediction_id ∨
      ∃ p ∈ db.predictions, p.prediction_id = p'.prediction_id ∧ p.status = .quarantined

variable {drafted : Text → PredictionStatus → Prop} {recorded : Text → Prop}

/-- A statement that leaves predictions alone and loses no violation. -/
theorem Accounts.of_same {db db' : Registry} (hp : db'.predictions = db.predictions)
    (hv : db.integrity_violations ⊆ db'.integrity_violations) : Accounts drafted db db' where
  violations := hv
  quarantined p' hp' hq := Or.inr (Or.inr ⟨p', hp ▸ hp', rfl, hq⟩)

theorem Accounts.refl (db : Registry) : Accounts drafted db db :=
  Accounts.of_same rfl (List.Subset.refl _)

theorem Accounts.trans {a b c : Registry} (h : Accounts drafted a b) (k : Accounts drafted b c) :
    Accounts drafted a c where
  violations _ hv := k.violations (h.violations hv)
  quarantined p' hp' hq := by
    rcases k.quarantined p' hp' hq with hd | hv | ⟨p, hp, hid, hpq⟩
    · exact Or.inl hd
    · exact Or.inr (Or.inl hv)
    · rw [← hid]
      rcases h.quarantined p hp hpq with hd | ⟨v, hv, hvid⟩ | hbefore
      · exact Or.inl hd
      · exact Or.inr (Or.inl ⟨v, k.violations hv, hvid⟩)
      · exact Or.inr (Or.inr hbefore)

/-- The triggers of an update that quarantines a row ask for its evidence. -/
theorem predictionTriggers_ok {db : Registry} {u : PredictionUpdate} {r : PredictionRow}
    (h : predictionTriggers db u r (u.apply r) = .ok ()) :
    (u.apply r).prediction_id = r.prediction_id ∧
      ((u.apply r).status = .quarantined → r.status = .quarantined ∨ db.HasViolation r.prediction_id) := by
  have hall := enforce_ok.mp h
  simp only [List.forall_mem_cons] at hall
  obtain ⟨himmutable, -, hquarantine, -⟩ := hall
  refine ⟨?_, fun hq => ?_⟩
  · simp only [PredictionUpdate.namesImmutable, Bool.or_eq_false_iff, Option.isSome_eq_false_iff,
      Option.isNone_iff_eq_none] at himmutable
    simp [PredictionUpdate.apply, himmutable]
  · by_contra hnone
    obtain ⟨hold, hmissing⟩ := not_or.mp hnone
    cases hu : u.status with
    | none => exact hold (by simpa [PredictionUpdate.apply, hu] using hq)
    | some status =>
      have hany : db.integrity_violations.any (·.prediction_id == r.prediction_id) = false := by
        rw [List.any_eq_false]
        intro v hv heq
        exact hmissing ⟨v, hv, by simpa using heq⟩
      simp [hu, hq, hold, hany] at hquarantine

theorem updatePredictions_accounts {selects : PredictionRow → Bool} {u : PredictionUpdate}
    {db db' : Registry} {n : Nat} (h : updatePredictions selects u db = .ok (n, db')) :
    Accounts drafted db db' := by
  obtain ⟨rfl, -, hall⟩ := updatePredictions_ok h
  refine ⟨List.Subset.refl _, fun p' hp' hq => ?_⟩
  obtain ⟨p, hp, rfl⟩ := List.mem_map.mp hp'
  split at hq
  · rename_i hs
    obtain ⟨hid, hevidence⟩ := predictionTriggers_ok (hall p hp hs)
    rw [if_pos hs, hid]
    rcases hevidence hq with hold | hv
    · exact Or.inr (Or.inr ⟨p, hp, rfl, hold⟩)
    · exact Or.inr (Or.inl hv)
  · rename_i hs
    rw [if_neg hs]
    exact Or.inr (Or.inr ⟨p, hp, rfl, hq⟩)

theorem insertTouchedWindow_same (row : TouchedWindowRow) (db : Registry) :
    (db.insertTouchedWindow row).predictions = db.predictions ∧
      (db.insertTouchedWindow row).integrity_violations = db.integrity_violations := by
  unfold insertTouchedWindow
  split <;> exact ⟨rfl, rfl⟩

/-- Evidence follows every statement. -/
theorem accounts_law : Law drafted (fun _ => True) (Accounts drafted) where
  refl := Accounts.refl
  trans _ _ _ := Accounts.trans
  insertRun row db db' h := by
    obtain ⟨-, rfl⟩ := enforced_ok h
    exact Accounts.of_same rfl (List.Subset.refl _)
  insertPrediction row db db' hd h := by
    obtain ⟨-, rfl⟩ := enforced_ok h
    refine ⟨List.Subset.refl _, fun p' hp' hq => ?_⟩
    rcases List.mem_append.mp hp' with hp' | hp'
    · exact Or.inr (Or.inr ⟨p', hp', rfl, hq⟩)
    · obtain rfl := List.mem_singleton.mp hp'
      rw [hq] at hd
      exact Or.inl hd
  insertRunBinding row db db' h := by
    obtain ⟨-, rfl⟩ := enforced_ok h
    exact Accounts.of_same rfl (List.Subset.refl _)
  insertCaptureRequest row db db' h := by
    obtain ⟨-, rfl⟩ := enforced_ok h
    exact Accounts.of_same rfl (List.Subset.refl _)
  insertIntegrityViolation row db db' _ h := by
    obtain ⟨-, rfl⟩ := enforced_ok h
    exact Accounts.of_same rfl (List.subset_append_left _ _)
  insertExternalRunImport row db db' h := by
    obtain ⟨-, rfl⟩ := enforced_ok h
    exact Accounts.of_same rfl (List.Subset.refl _)
  insertRunResult row db db' h := by
    obtain ⟨-, rfl⟩ := enforced_ok h
    exact Accounts.of_same rfl (List.Subset.refl _)
  insertTouchedWindow row db := by
    obtain ⟨hp, hv⟩ := insertTouchedWindow_same row db
    exact Accounts.of_same hp (hv ▸ List.Subset.refl _)
  updateRuns selects u db n db' h := by
    obtain ⟨rfl, -⟩ := updateRuns_ok h
    exact Accounts.of_same rfl (List.Subset.refl _)
  updatePredictions selects u db n db' h := updatePredictions_accounts h

/-- Predictions keep their ids, and a new violation is a recorded one of a prediction. -/
structure Owns (recorded : Text → Prop) (db db' : Registry) : Prop where
  predictions : ∀ p ∈ db.predictions, ∃ p' ∈ db'.predictions, p'.prediction_id = p.prediction_id
  violations : ∀ v ∈ db'.integrity_violations, v ∈ db.integrity_violations ∨
    recorded v.prediction_id ∧ ∃ p ∈ db'.predictions, p.prediction_id = v.prediction_id

/-- A statement that loses no prediction and adds no violation. -/
theorem Owns.of_same {db db' : Registry} (hp : db.predictions ⊆ db'.predictions)
    (hv : db'.integrity_violations = db.integrity_violations) : Owns recorded db db' where
  predictions p hmem := ⟨p, hp hmem, rfl⟩
  violations _ hmem := Or.inl (hv ▸ hmem)

theorem Owns.refl (db : Registry) : Owns recorded db db := Owns.of_same (List.Subset.refl _) rfl

theorem Owns.trans {a b c : Registry} (h : Owns recorded a b) (k : Owns recorded b c) :
    Owns recorded a c where
  predictions p hp := by
    obtain ⟨p', hp', hid⟩ := h.predictions p hp
    obtain ⟨p'', hp'', hid'⟩ := k.predictions p' hp'
    exact ⟨p'', hp'', hid'.trans hid⟩
  violations v hv := by
    rcases k.violations v hv with hv | hnew
    · rcases h.violations v hv with hv | ⟨hr, p, hp, hid⟩
      · exact Or.inl hv
      · obtain ⟨p', hp', hid'⟩ := k.predictions p hp
        exact Or.inr ⟨hr, p', hp', hid'.trans hid⟩
    · exact Or.inr hnew

/-- The foreign key of violations follows every statement. -/
theorem owns_law : Law (fun _ _ => True) recorded (Owns recorded) where
  refl := Owns.refl
  trans _ _ _ := Owns.trans
  insertRun row db db' h := by
    obtain ⟨-, rfl⟩ := enforced_ok h
    exact Owns.of_same (List.Subset.refl _) rfl
  insertPrediction row db db' _ h := by
    obtain ⟨-, rfl⟩ := enforced_ok h
    exact Owns.of_same (List.subset_append_left _ _) rfl
  insertRunBinding row db db' h := by
    obtain ⟨-, rfl⟩ := enforced_ok h
    exact Owns.of_same (List.Subset.refl _) rfl
  insertCaptureRequest row db db' h := by
    obtain ⟨-, rfl⟩ := enforced_ok h
    exact Owns.of_same (List.Subset.refl _) rfl
  insertIntegrityViolation row db db' hr h := by
    obtain ⟨hall, rfl⟩ := enforced_ok h
    refine ⟨fun p hp => ⟨p, hp, rfl⟩, fun v hv => ?_⟩
    rcases List.mem_append.mp hv with hv | hv
    · exact Or.inl hv
    · obtain rfl := List.mem_singleton.mp hv
      have hsome := hall _ (List.mem_singleton.mpr rfl)
      obtain ⟨p, hp⟩ := Option.isSome_iff_exists.mp (by simpa using hsome)
      obtain ⟨hmem, hid⟩ := prediction?_some hp
      exact Or.inr ⟨hr, p, hmem, hid⟩
  insertExternalRunImport row db db' h := by
    obtain ⟨-, rfl⟩ := enforced_ok h
    exact Owns.of_same (List.Subset.refl _) rfl
  insertRunResult row db db' h := by
    obtain ⟨-, rfl⟩ := enforced_ok h
    exact Owns.of_same (List.Subset.refl _) rfl
  insertTouchedWindow row db := by
    obtain ⟨hp, hv⟩ := insertTouchedWindow_same row db
    exact Owns.of_same (hp ▸ List.Subset.refl _) hv
  updateRuns selects u db n db' h := by
    obtain ⟨rfl, -⟩ := updateRuns_ok h
    exact Owns.of_same (List.Subset.refl _) rfl
  updatePredictions selects u db n db' h := by
    obtain ⟨rfl, -, hall⟩ := updatePredictions_ok h
    refine ⟨fun p hp => ⟨_, List.mem_map_of_mem hp, ?_⟩, fun _ hv => Or.inl hv⟩
    split
    · rename_i hs
      exact (predictionTriggers_ok (hall p hp hs)).1
    · rfl

theorem Owns.owned {db db' : Registry} (h : Owns recorded db db') (hdb : db.ViolationsOwned) :
    db'.ViolationsOwned := by
  intro v hv
  rcases h.violations v hv with hv | ⟨-, hp⟩
  · obtain ⟨p, hp, hid⟩ := hdb v hv
    obtain ⟨p', hp', hid'⟩ := h.predictions p hp
    exact ⟨p', hp', hid'.trans hid⟩
  · exact hp

/-! ## What operations do to evidence -/

theorem accounts_of_run {sha256 : Text → Text} {ops : List Operation} {db db' : Registry}
    {r : Except Error Unit} (h : (sequence sha256 ops).run db = (r, db')) :
    Accounts (fun id status => ∃ op ∈ ops, op.drafts id status) db db' := by
  have hlaw : Accounts (fun id status => ∃ op ∈ ops, op.drafts id status) db
      ((sequence sha256 ops).run db).2 :=
    accounts_law.sequence sha256 (fun op hop _ _ hd => ⟨op, hop, hd⟩) (fun _ _ _ _ => trivial) db
  rwa [h] at hlaw

theorem owns_of_run {sha256 : Text → Text} {ops : List Operation} {db db' : Registry}
    {r : Except Error Unit} (h : (sequence sha256 ops).run db = (r, db')) :
    Owns (fun id => ∃ op ∈ ops, op.records id) db db' := by
  have hlaw : Owns (fun id => ∃ op ∈ ops, op.records id) db ((sequence sha256 ops).run db).2 :=
    owns_law.sequence sha256 (fun _ _ _ _ _ => trivial) (fun op hop _ hr => ⟨op, hop, hr⟩) db
  rwa [h] at hlaw

/-- The first new violation of a batch is recorded, newly or already. -/
theorem insertNewViolations_ok {id : Text} {detected_at : DateTime} {v : Text × Text}
    {rest : List (Text × Text)} {db db' : Registry} {changed : Bool}
    (h : (insertNewViolations id detected_at (v :: rest)).run db = (.ok changed, db')) :
    db'.HasViolation id := by
  obtain ⟨n, db1, hinsert, hrest⟩ := Program.run_bind_ok.mp h
  obtain ⟨_, db2, htail, hdone⟩ := Program.run_bind_ok.mp hrest
  obtain ⟨-, rfl⟩ := Program.run_pure_ok.mp hdone
  have hgrows := (@insertNewViolations_keeps (fun _ => False) id detected_at rest).extends htail
  have hfirst : db1.HasViolation id := by
    simp only [executeUpdate, Program.run_statement, insertNewViolation] at hinsert
    split_ifs at hinsert with hany
    · obtain ⟨r, hr, hsame⟩ := List.any_eq_true.mp hany
      simp only [Bool.and_eq_true, beq_iff_eq] at hsame
      cases hinsert
      exact ⟨r, hr, hsame.1.1⟩
    · cases hrow : db.insertIntegrityViolation ⟨id, v.1, detected_at.isoformat, v.2⟩ with
      | error e => simp [hrow, Except.map] at hinsert
      | ok db3 =>
        obtain ⟨-, rfl⟩ := enforced_ok hrow
        simp only [hrow, Except.map, Prod.mk.injEq] at hinsert
        rw [← hinsert.2]
        exact ⟨_, List.mem_append_right _ (List.mem_singleton.mpr rfl), rfl⟩
  obtain ⟨r, hr, hid⟩ := hfirst
  exact ⟨r, hgrows.evolves.integrity_violations.subset hr, hid⟩

/-- An operation that records violations of a prediction leaves one. -/
theorem Operation.records_ok {sha256 : Text → Text} {op : Operation} {db db' : Registry}
    {u : Unit} {id : Text} (h : (op.program sha256).run db = (.ok u, db')) (hr : op.records id) :
    db'.HasViolation id := by
  cases op with
  | record_integrity_violation id' field note detected_at =>
    cases hr
    have hinsert := Program.run_update_ok.mp h
    obtain ⟨-, rfl⟩ := enforced_ok hinsert
    exact ⟨_, List.mem_append_right _ (List.mem_singleton.mpr rfl), rfl⟩
  | quarantine_prediction id' violations detected_at =>
    cases hr
    obtain ⟨_, db1, hquarantine, hdone⟩ := Program.run_bind_ok.mp h
    obtain ⟨-, rfl⟩ := Program.run_pure_ok.mp hdone
    obtain ⟨_, db2, hsome, hquarantine⟩ := Program.run_bind_ok.mp hquarantine
    obtain ⟨_, db3, hnonempty, hquarantine⟩ := Program.run_bind_ok.mp hquarantine
    obtain ⟨_, db4, haware, hquarantine⟩ := Program.run_bind_ok.mp hquarantine
    obtain ⟨row, db5, hrow, hquarantine⟩ := Program.run_bind_ok.mp hquarantine
    obtain ⟨hsome, -⟩ := Program.run_check_ok.mp hsome
    cases row with
    | none => cases hquarantine
    | some row =>
      obtain ⟨changed, db6, hviolations, hstatus⟩ := Program.run_bind_ok.mp hquarantine
      have hevidence : db6.HasViolation id := by
        cases violations with
        | nil => exact absurd rfl (refuse_ok.mp hsome)
        | cons v rest => exact insertNewViolations_ok hviolations
      split at hstatus
      · obtain ⟨_, db7, hupdate, hdone⟩ := Program.run_bind_ok.mp hstatus
        obtain ⟨-, rfl⟩ := Program.run_pure_ok.mp hdone
        simp only [executeUpdate, Program.run_statement] at hupdate
        split at hupdate
        · rename_i m db8 hrows
          obtain ⟨rfl, -, -⟩ := updatePredictions_ok hrows
          cases hupdate
          exact hevidence
        · cases hupdate
      · obtain ⟨-, rfl⟩ := Program.run_pure_ok.mp hstatus
        exact hevidence
  | _ => exact hr.elim

/-- Recorded evidence stays for the rest of the transaction. -/
theorem sequence_records {sha256 : Text → Text} {ops : List Operation} {db db' : Registry}
    {u : Unit} (h : (sequence sha256 ops).run db = (.ok u, db')) {op : Operation} (hop : op ∈ ops)
    {id : Text} (hr : op.records id) : db'.HasViolation id := by
  induction ops generalizing db with
  | nil => cases hop
  | cons first ops ih =>
    obtain ⟨_, db1, hfirst, hrest⟩ := Program.run_bind_ok.mp h
    rcases List.mem_cons.mp hop with rfl | hop
    · obtain ⟨v, hv, hid⟩ := op.records_ok hfirst hr
      exact ⟨v, (accounts_of_run hrest).violations hv, hid⟩
    · exact ih hrest hop

/-- A staged prediction is inserted under a new id, with the status of its draft. -/
theorem beginPrediction_ok {prediction : CommittedPrediction} {db db' : Registry} {u : Unit}
    (h : (beginPrediction prediction).run db = (.ok u, db')) :
    prediction.prediction_id.val ∉ db.predictions.map PredictionRow.prediction_id ∧
      ∃ p ∈ db'.predictions, p.prediction_id = prediction.prediction_id ∧
        p.status = prediction.status := by
  obtain ⟨lineage_json, db1, hjson, hrest⟩ := Program.run_bind_ok.mp h
  obtain ⟨_, db2, hinsert, hrun⟩ := Program.run_bind_ok.mp hrest
  obtain ⟨-, rfl⟩ := Program.run_check_ok.mp hjson
  obtain ⟨rfl, hnew⟩ := insertPrediction_ok (Program.run_update_ok.mp hinsert)
  obtain ⟨rfl, -⟩ := insertRun_ok (Program.run_update_ok.mp hrun)
  exact ⟨hnew, _, List.mem_append_right _ (List.mem_singleton.mpr rfl), rfl, rfl⟩

/-- A draft in a transaction that returns was under a new id, and its quarantined status stays. -/
theorem sequence_drafts {sha256 : Text → Text} {ops : List Operation} {db db' : Registry}
    {u : Unit} (h : (sequence sha256 ops).run db = (.ok u, db')) {op : Operation} (hop : op ∈ ops)
    {id : Text} (hd : op.drafts id .quarantined) :
    id ∉ db.predictions.map PredictionRow.prediction_id ∧
      ∃ p ∈ db'.predictions, p.prediction_id = id ∧ p.status = .quarantined := by
  induction ops generalizing db with
  | nil => cases hop
  | cons first ops ih =>
    obtain ⟨_, db1, hfirst, hrest⟩ := Program.run_bind_ok.mp h
    rcases List.mem_cons.mp hop with rfl | hop
    · cases op with
      | begin_prediction prediction =>
        obtain ⟨rfl, hstatus⟩ := hd
        obtain ⟨hnew, p, hp, hid, hpstatus⟩ := beginPrediction_ok hfirst
        obtain ⟨p', hp', hevolves⟩ := (sequence_lawful hrest).1.predictions.mem hp
        exact ⟨hnew, p', hp', hevolves.prediction_id.trans hid,
          (hevolves.quarantined (hpstatus.trans hstatus.symm)).1⟩
      | _ => exact hd.elim
    · obtain ⟨hnew, hstays⟩ := ih hrest hop
      refine ⟨fun hmem => hnew ?_, hstays⟩
      obtain ⟨p, hp, rfl⟩ := List.mem_map.mp hmem
      obtain ⟨p', hp', hevolves⟩ := ((first.program_keeps sha256).extends hfirst).evolves.predictions.mem hp
      exact List.mem_map.mpr ⟨p', hp', hevolves.prediction_id⟩

/-- A transaction that returns keeps every quarantine evidenced exactly when it accounts for the
drafts that are born quarantined. -/
theorem sequence_evidenced {sha256 : Text → Text} {ops : List Operation} {db db' : Registry}
    {u : Unit} (h : (sequence sha256 ops).run db = (.ok u, db')) (howned : db.ViolationsOwned)
    (hdb : db.Evidenced) : db'.Evidenced ↔ Accounted ops := by
  have haccounts := accounts_of_run h
  constructor
  · intro hev op hop id hd
    obtain ⟨hnew, p, hp, rfl, hq⟩ := sequence_drafts h hop hd
    obtain ⟨v, hv, hvid⟩ := hev p hp hq
    rcases (owns_of_run h).violations v hv with hv | ⟨⟨other, hother, hr⟩, -⟩
    · -- a violation from before would belong to a prediction under the new id
      obtain ⟨p', hp', hid⟩ := howned v hv
      exact absurd (List.mem_map.mpr ⟨p', hp', hid.trans hvid⟩) hnew
    · exact ⟨other, hother, hvid ▸ hr⟩
  · intro hacc p' hp' hq
    rcases haccounts.quarantined p' hp' hq with ⟨op, hop, hd⟩ | hv | ⟨p, hp, hid, hpq⟩
    · obtain ⟨other, hother, hr⟩ := hacc op hop _ hd
      exact sequence_records h hother hr
    · exact hv
    · obtain ⟨v, hv, hvid⟩ := hdb p hp hpq
      exact ⟨v, haccounts.violations hv, hvid.trans hid⟩

/-! ## Runs -/

variable {π : Type}

/-- The transactions that a run commits account for the drafts that are born quarantined. -/
def CommitsAccounted (sha256 : Text → Text)
    (trace : List (System π × Transaction.Event π Registry Error Unit)) : Prop :=
  ∀ x ∈ trace, x.2 = .commit → ∀ w, x.1.writer = some w → ∀ ops,
    w.begun = sequence sha256 ops → Accounted ops

/-- What every committed state of every run keeps. -/
theorem owned_of_admitted {sha256 : Text → Text} {t : System π}
    {trace : List (System π × Transaction.Event π Registry Error Unit)}
    (h : Run Transaction.Step ⟨empty, none⟩ trace t) (hops : Admitted sha256 trace) :
    (t.committed.ViolationsOwned ∧ t.committed.Keys) ∧ Transaction.Serial t ∧
      ∀ w, t.writer = some w → ∃ ops, w.begun = sequence sha256 ops := by
  refine @Transaction.invariant π Registry Error Unit (fun db => db.ViolationsOwned ∧ db.Keys) _
    ?_ _ _ _ h rfl hops ⟨by simp [ViolationsOwned, empty], keys_empty⟩
  rintro _ db u db' ⟨ops, rfl⟩ ⟨howned, hkeys⟩ hrun
  exact ⟨(owns_of_run hrun).owned howned, sequence_keys hrun hkeys⟩

/-- The committed states of a run that accounts for what it commits are evidenced. -/
theorem evidenced_of_accounted {sha256 : Text → Text} {t : System π}
    {trace : List (System π × Transaction.Event π Registry Error Unit)}
    (h : Run Transaction.Step ⟨empty, none⟩ trace t) (hops : Admitted sha256 trace)
    (hacc : CommitsAccounted sha256 trace) : t.committed.Evidenced := by
  induction h with
  | nil => simp [Evidenced, empty]
  | @snoc s t trace e hrun hstep ih =>
    have hops' : Admitted sha256 trace := fun x hx => hops x (List.mem_append_left _ hx)
    have hev := ih hops' fun x hx => hacc x (List.mem_append_left _ hx)
    by_cases he : e = .commit
    · subst he
      obtain ⟨⟨howned, -⟩, hserial, hadm⟩ := owned_of_admitted hrun hops'
      obtain ⟨w, a, hw, hwhole⟩ := hstep.commit_run hserial
      obtain ⟨ops, hbegun⟩ := hadm w hw
      rw [hbegun] at hwhole
      exact (sequence_evidenced hwhole howned hev).mpr (hacc (s, .commit) (by simp) rfl w hw ops hbegun)
    · rw [hstep.committed_eq he]
      exact hev

/-- A run whose committed states are evidenced accounts for what it commits. -/
theorem accounted_of_evidenced {sha256 : Text → Text} {t : System π}
    {trace : List (System π × Transaction.Event π Registry Error Unit)}
    (h : Run Transaction.Step ⟨empty, none⟩ trace t) (hops : Admitted sha256 trace)
    (hend : t.committed.Evidenced) (hbefore : ∀ x ∈ trace, x.1.committed.Evidenced) :
    CommitsAccounted sha256 trace := by
  intro x hx hcommit w hw ops hbegun
  obtain ⟨before, u, after, hrun, hstep, hafter, rfl⟩ := h.step_of_mem hx
  obtain ⟨⟨howned, -⟩, hserial, -⟩ :=
    owned_of_admitted hrun fun y hy => hops y (List.mem_append_left _ hy)
  obtain ⟨w', a, hw', hwhole⟩ := (hcommit ▸ hstep).commit_run hserial
  obtain rfl := Option.some.inj (hw.symm.trans hw')
  rw [hbegun] at hwhole
  have hnext : u.committed.Evidenced := by
    rcases hafter.start_visited with rfl | ⟨y, hy, rfl⟩
    · exact hend
    · exact hbefore y (by simp [hy])
  exact (sequence_evidenced hwhole howned (hbefore x hx)).mp hnext

/-- Every committed state of a run evolves into the last one. -/
theorem evolves_of_mem {sha256 : Text → Text} {t : System π}
    {trace : List (System π × Transaction.Event π Registry Error Unit)}
    (h : Run Transaction.Step ⟨empty, none⟩ trace t) (hops : Admitted sha256 trace)
    {x : System π × Transaction.Event π Registry Error Unit} (hx : x ∈ trace) :
    x.1.committed.Evolves t.committed := by
  obtain ⟨before, after, hbefore, hafter, rfl⟩ := h.split_of_mem hx
  obtain ⟨-, hserial, hwriter⟩ :=
    owned_of_admitted hbefore fun y hy => hops y (List.mem_append_left _ hy)
  refine Transaction.relates Evolves.refl (fun _ _ _ => Evolves.trans) ?_ hafter hserial hwriter
    fun y hy => hops y (List.mem_append_right _ hy)
  rintro p db u db' ⟨ops, rfl⟩ hp
  exact (sequence_lawful hp).1

/-- Every quarantine in every committed state of a run is evidenced exactly when each committed
transaction that drafts a quarantined prediction also records a violation of it; once a prediction
is quarantined its status, outcome and grade stay; and no violation is changed or removed. -/
theorem quarantine_evidenced_iff (sha256 : Text → Text) {t : System π}
    {trace : List (System π × Transaction.Event π Registry Error Unit)}
    (h : Run Transaction.Step ⟨empty, none⟩ trace t) (hops : Admitted sha256 trace) :
    ((t.committed.Evidenced ∧ ∀ x ∈ trace, x.1.committed.Evidenced) ↔
        CommitsAccounted sha256 trace) ∧
      (∀ x ∈ trace, ∀ p ∈ x.1.committed.predictions, p.status = .quarantined →
        ∃ p', t.committed.prediction? p.prediction_id = some p' ∧ p'.status = .quarantined ∧
          p'.outcome_json = p.outcome_json ∧ p'.grade_json = p.grade_json) ∧
      ∀ x ∈ trace, Grows Eq x.1.committed.integrity_violations t.committed.integrity_violations := by
  refine ⟨⟨fun ⟨hend, hbefore⟩ => accounted_of_evidenced h hops hend hbefore, fun hacc => ?_⟩,
    fun x hx p hp hq => ?_, fun x hx => (evolves_of_mem h hops hx).integrity_violations⟩
  · refine ⟨evidenced_of_accounted h hops hacc, fun x hx => ?_⟩
    obtain ⟨before, after, hbefore, -, rfl⟩ := h.split_of_mem hx
    exact evidenced_of_accounted hbefore (fun y hy => hops y (List.mem_append_left _ hy))
      fun y hy => hacc y (List.mem_append_left _ hy)
  · obtain ⟨p', hp', hevolves⟩ := (evolves_of_mem h hops hx).predictions.mem hp
    obtain ⟨⟨-, hkeys⟩, -⟩ := owned_of_admitted h hops
    refine ⟨p', ?_, hevolves.quarantined hq⟩
    rw [← hevolves.prediction_id]
    exact hkeys.prediction?_of_mem hp'

/-! ## A draft that is born quarantined -/

/-- A valid draft whose status is quarantined. -/
def quarantinedDraft : PredictionDraft := { sampleDraft with status := .quarantined }

/-- What the writer prepares from the draft, and the two operations that write it. -/
def quarantinedWrite : Except Error (List Operation) :=
  (prepareCommitted id sampleSchemas quarantinedDraft none sampleTime).map fun committed =>
    [.begin_prediction committed, .commit_prediction committed.prediction_id committed.committed_at]

/-- The operations of that write. -/
def quarantinedOperations : List Operation :=
  match quarantinedWrite with
  | .ok ops => ops
  | .error _ => []

/-- The registry after that write. -/
def quarantinedRegistry : Registry := ((sequence id quarantinedOperations).run empty).2

theorem quarantined_write_evaluates :
    quarantinedWrite.isOk = true ∧ ((sequence id quarantinedOperations).run empty).1.isOk = true ∧
      quarantinedRegistry.predictions.map PredictionRow.status = [.quarantined] ∧
      quarantinedRegistry.integrity_violations = [] := by
  decide +kernel

/-- Writing the quarantined draft commits a quarantined prediction without any violation. -/
theorem quarantined_draft_unevidenced :
    quarantinedWrite = .ok quarantinedOperations ∧
      ∃ (trace : List (System Unit × Transaction.Event Unit Registry Error Unit)) (t : System Unit),
        Run Transaction.Step ⟨empty, none⟩ trace t ∧ Admitted id trace ∧ ¬ t.committed.Evidenced := by
  obtain ⟨hwrite, hok, hstatus, hnone⟩ := quarantined_write_evaluates
  obtain ⟨_, hreturns⟩ : ∃ u, (sequence id quarantinedOperations).run empty =
      (.ok u, quarantinedRegistry) := Program.run_of_isOk hok
  obtain ⟨trace, hrun, hbegin⟩ := Transaction.whole () hreturns
  refine ⟨?_, trace, ⟨quarantinedRegistry, none⟩, hrun,
    fun x hx process p hp => ⟨quarantinedOperations, hbegin x hx process p hp⟩, fun hev => ?_⟩
  · unfold quarantinedOperations
    cases hw : quarantinedWrite with
    | error e =>
      rw [hw] at hwrite
      cases hwrite
    | ok ops => rfl
  · obtain ⟨p, hp, hquarantined⟩ : ∃ p ∈ quarantinedRegistry.predictions, p.status = .quarantined := by
      have hmem : PredictionStatus.quarantined ∈
          quarantinedRegistry.predictions.map PredictionRow.status := by rw [hstatus]; simp
      exact List.mem_map.mp hmem
    obtain ⟨v, hv, -⟩ := hev p hp hquarantined
    rw [show (⟨quarantinedRegistry, none⟩ : System Unit).committed.integrity_violations = [] from
      hnone] at hv
    cases hv

theorem quarantine_evidenced_iff_sample :
    ∃ (trace : List (System Unit × Transaction.Event Unit Registry Error Unit)) (t : System Unit),
      t.committed.predictions.map PredictionRow.status = [.quarantined] ∧
        ((t.committed.Evidenced ∧ ∀ x ∈ trace, x.1.committed.Evidenced) ↔ CommitsAccounted id trace) := by
  obtain ⟨-, hok, hstatus, -⟩ := quarantined_write_evaluates
  obtain ⟨_, hreturns⟩ : ∃ u, (sequence id quarantinedOperations).run empty =
      (.ok u, quarantinedRegistry) := Program.run_of_isOk hok
  obtain ⟨trace, hrun, hbegin⟩ := Transaction.whole () hreturns
  exact ⟨trace, ⟨quarantinedRegistry, none⟩, hstatus, (quarantine_evidenced_iff id hrun
    fun x hx process p hp => ⟨quarantinedOperations, hbegin x hx process p hp⟩).1⟩

end Registry

end Pine
