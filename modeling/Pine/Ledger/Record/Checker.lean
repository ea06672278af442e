import Pine.Ledger.Record.Soundness
import Pine.Ledger.SnapshotWatch

/-!
# The integrity checker

What the checker makes of the watcher's events, while the ledger and its users go on: it reads the
row of a prediction, then the record, then the snapshot, and quarantines the prediction in one
transaction when these do not verify. Any number of checks are in flight at a time.
-/

namespace Pine

/-- `IntegrityCheckState` -/
inductive IntegrityCheckState where
  | clean
  | quarantined
  | unregistered
  | error
  deriving DecidableEq

/-- `IntegrityCheckResult`, without its path -/
structure IntegrityCheckResult where
  prediction_id : Text
  state : IntegrityCheckState
  violations : List Text
  changed : Bool

namespace IntegrityCheckResult

/-- `_error_result` -/
def error (prediction_id : Text) : IntegrityCheckResult :=
  ⟨prediction_id, .error, [text "checker"], false⟩

/-- `_quarantined_result` -/
def quarantined (prediction_id : Text) (violations : List (Text × Text)) (changed : Bool) :
    IntegrityCheckResult :=
  ⟨prediction_id, .quarantined,
    (violations.map Prod.fst).insertionSort fun a b => textLe a b = true, changed⟩

def unregistered (prediction_id : Text) : IntegrityCheckResult :=
  ⟨prediction_id, .unregistered, [], false⟩

def clean (prediction_id : Text) : IntegrityCheckResult := ⟨prediction_id, .clean, [], false⟩

end IntegrityCheckResult

/-- A Markdown record that settled. -/
structure LedgerRecordEvent where
  path : Path
  prediction_id : Text
  observed_at : DateTime

/-- The value of a change. -/
def FileChangeKind.value : FileChangeKind → Text
  | .created => text "created"
  | .modified => text "modified"
  | .moved => text "moved"
  | .deleted => text "deleted"
  | .replaced => text "replaced"

/-- A change below the ledger directory; of its path only the stem is read. -/
structure ManagedPathViolation where
  stem : Text
  change : FileChangeKind
  reason : ManagedPathReason
  observed_at : DateTime

/-- The vault as a checker reads it: which paths lie inside it and outside of the ledger directory,
and what is found at the path of a record and behind the reference of a snapshot. -/
structure VaultFiles where
  inside : Path → Bool
  record : Path → ManagedFile
  snapshot : Text → ManagedFile

/-! ## One check -/

/-- A check in flight: its row was read, then its record, or it is about to quarantine. -/
inductive PendingCheck where
  | read (event : LedgerRecordEvent) (row : PredictionRow)
  | opened (event : LedgerRecordEvent) (row : PredictionRow) (record : ManagedFile)
  | judged (prediction_id : Text) (violations : List (Text × Text)) (observed_at : DateTime)

/-- A check goes on, or it is done, with a result unless its thread was interrupted. -/
inductive CheckOutcome where
  | more (check : PendingCheck)
  | done (result : Option IntegrityCheckResult)

/-- The row of a committed prediction. -/
def Registry.committedRow (db : Registry) (prediction_id : Text) : Option PredictionRow :=
  (db.prediction? prediction_id).filter (·.transaction_state == .committed)

/-- `except Exception` of a check. -/
def checkFailed (prediction_id : Text) (e : Error) : CheckOutcome :=
  .done (if e.isException then some (.error prediction_id) else none)

/-- `check_record`, until it has its row. -/
def openRecord (inside : Path → Bool) (db : Registry) (event : LedgerRecordEvent) : CheckOutcome :=
  if inside event.path = false then .done (some (.error event.prediction_id))
  else match db.committedRow event.prediction_id with
    | none => .done (some (.unregistered event.prediction_id))
    | some row => .more (.read event row)

/-- `handle_managed_violation`, until it has its row. -/
def openViolation (db : Registry) (violation : ManagedPathViolation) : CheckOutcome :=
  if violation.reason ∉ snapshotReasons then .done none
  else match db.committedRow violation.stem with
    | none => .done (some (.unregistered violation.stem))
    | some _ => .more (.judged violation.stem [(text "snapshot", text "watcher reported " ++
        violation.reason.value ++ text " with change " ++ violation.change.value)]
        violation.observed_at)

/-- What follows from a verification. -/
def judge (R : EvidenceReader) (sha256 : Text → Text) (event : LedgerRecordEvent)
    (row : PredictionRow) (record snapshot : ManagedFile) : CheckOutcome :=
  match verify R sha256 row record snapshot with
  | .error e => checkFailed event.prediction_id e
  | .ok r =>
    if r.violations ≠ [] then .more (.judged event.prediction_id r.violations event.observed_at)
    else if row.status = .quarantined then .done (some (.quarantined event.prediction_id [] false))
    else .done (some (.clean event.prediction_id))

/-- The transaction of a check that quarantines, committed or rolled back. -/
def settle (db : Registry) (prediction_id : Text) (violations : List (Text × Text))
    (observed_at : DateTime) : CheckOutcome × Registry :=
  match (Registry.quarantinePrediction prediction_id violations observed_at).run db with
  | (.ok changed, db') => (.done (some (.quarantined prediction_id violations changed)), db')
  | (.error e, _) => (checkFailed prediction_id e, db)

/-! ## All checks -/

/-- The registry and the files that checks read, the checks in flight, and the results so far. -/
structure CheckedVault where
  registry : Registry
  files : VaultFiles
  pending : List PendingCheck
  results : List IntegrityCheckResult

/-- What happens in a vault. -/
inductive CheckEvent where
  | call (call : LedgerCall)
  | edit (files : VaultFiles)
  | record (event : LedgerRecordEvent)
  | managed (violation : ManagedPathViolation)
  | advance (check : PendingCheck)

namespace CheckedVault

/-- A vault without any prediction. -/
def initial (files : VaultFiles) : CheckedVault := ⟨Registry.empty, files, [], []⟩

/-- The checks in flight and the results after an outcome. -/
def conclude (s : CheckedVault) (pending : List PendingCheck) : CheckOutcome → CheckedVault
  | .more check => { s with pending := pending ++ [check] }
  | .done result => { s with pending, results := s.results ++ result.toList }

section

variable (R : EvidenceReader) (V : Libraries) (sha256 : Text → Text)

/-- The next step of a check. -/
def advance (s : CheckedVault) : PendingCheck → CheckOutcome × Registry
  | .read event row => (.more (.opened event row (s.files.record event.path)), s.registry)
  | .opened event row record =>
    (judge R sha256 event row record (s.files.snapshot row.snapshot_ref), s.registry)
  | .judged prediction_id violations observed_at =>
    settle s.registry prediction_id violations observed_at

/-- Calls commit, files change, events arrive, and checks advance, in any order. -/
inductive Step : CheckedVault → CheckEvent → CheckedVault → Prop
  | call (s : CheckedVault) (call : LedgerCall) :
      Step s (.call call) { s with registry := call.commit V sha256 s.registry }
  | edit (s : CheckedVault) (files : VaultFiles) : Step s (.edit files) { s with files }
  | record (s : CheckedVault) (event : LedgerRecordEvent) :
      Step s (.record event) (s.conclude s.pending (openRecord s.files.inside s.registry event))
  | managed (s : CheckedVault) (violation : ManagedPathViolation) :
      Step s (.managed violation) (s.conclude s.pending (openViolation s.registry violation))
  | advance (s : CheckedVault) (check : PendingCheck) (before after : List PendingCheck) :
      s.pending = before ++ check :: after →
      Step s (.advance check)
        ({ s with registry := (s.advance R sha256 check).2 }.conclude (before ++ after)
          (s.advance R sha256 check).1)

end

end CheckedVault

/-! ## Quarantines -/

namespace Registry

/-- The prediction is quarantined. -/
def Quarantined (db : Registry) (prediction_id : Text) : Prop :=
  ∃ row ∈ db.predictions, row.prediction_id = prediction_id ∧ row.status = .quarantined

/-- The prediction is quarantined, or it has a violation to be quarantined for. -/
def Suspected (db : Registry) (prediction_id : Text) : Prop :=
  db.HasViolation prediction_id ∨ db.Quarantined prediction_id

variable {sha256 : Text → Text} {db db' : Registry} {id : Text}

/-- A quarantine is final. -/
theorem Quarantined.evolves (h : db.Quarantined id) (hevolves : db.Evolves db') :
    db'.Quarantined id := by
  obtain ⟨row, hrow, hid, hstatus⟩ := h
  obtain ⟨row', hrow', hsame⟩ := hevolves.predictions.mem hrow
  exact ⟨row', hrow', hsame.prediction_id.trans hid, (hsame.quarantined hstatus).1⟩

/-- The operation neither records a violation of the prediction nor stages it quarantined. -/
def Operation.Spares (id : Text) (op : Operation) : Prop :=
  ¬ op.records id ∧ ¬ op.drafts id .quarantined

/-- Operations that spare a prediction do not make it suspected. -/
theorem Suspected.of_commits (h : Commits sha256 (Operation.Spares id) db db')
    (hsuspected : db'.Suspected id) : db.Suspected id := by
  obtain ⟨ops, hops, hrun⟩ := h
  have hviolation : db'.HasViolation id → db.HasViolation id := by
    rintro ⟨v, hv, hid⟩
    rcases (owns_of_run hrun).violations v hv with hv | ⟨⟨op, hop, hrecords⟩, -⟩
    · exact ⟨v, hv, hid⟩
    · exact absurd (hid ▸ hrecords) (hops op hop).1
  rcases hsuspected with hv | ⟨row, hrow, hid, hstatus⟩
  · exact Or.inl (hviolation hv)
  · rcases (accounts_of_run hrun).quarantined row hrow hstatus with ⟨op, hop, hdrafts⟩ | hv | hbefore
    · exact absurd (hid ▸ hdrafts) (hops op hop).2
    · exact Or.inl (hviolation (hid ▸ hv))
    · obtain ⟨p, hp, hpid, hpstatus⟩ := hbefore
      exact Or.inr ⟨p, hp, hpid.trans hid, hpstatus⟩

theorem not_suspected_empty : ¬ empty.Suspected id := by
  rintro (⟨v, hv, -⟩ | ⟨row, hrow, -⟩)
  · cases hv
  · cases hrow

/-- A committed quarantine leaves the prediction quarantined, and spares all others. -/
theorem quarantinePrediction_ok {violations : List (Text × Text)} {at' : DateTime} {changed : Bool}
    (h : (quarantinePrediction id violations at').run db = (.ok changed, db')) :
    db.Evolves db' ∧ (db.Keys → db'.Keys) ∧ db'.Quarantined id ∧
      ∀ other, other ≠ id → db'.Suspected other → db.Suspected other := by
  have hextends := (@quarantinePrediction_keeps (fun _ => False) id violations at').extends h
  have hop : (Operation.program (fun s => s) (.quarantine_prediction id violations at')).run db =
      (.ok (), db') := Program.run_bind_ok.mpr ⟨changed, db', h, Program.run_pure_ok.mpr ⟨rfl, rfl⟩⟩
  refine ⟨hextends.evolves, hextends.keys, ?_, fun other hne => Suspected.of_commits
    (.one (.quarantine_prediction id violations at') ⟨hne, not_false⟩ hop)⟩
  obtain ⟨_, _, hnonempty, hfields⟩ := Program.run_bind_ok.mp h
  obtain ⟨-, rfl⟩ := Program.run_check_ok.mp hnonempty
  obtain ⟨_, _, hcomplete, haware⟩ := Program.run_bind_ok.mp hfields
  obtain ⟨-, rfl⟩ := Program.run_check_ok.mp hcomplete
  obtain ⟨_, _, hclock, hread⟩ := Program.run_bind_ok.mp haware
  obtain ⟨-, rfl⟩ := Program.run_check_ok.mp hclock
  obtain ⟨row, _, hselect, hrest⟩ := Program.run_bind_ok.mp hread
  obtain ⟨hfound, rfl⟩ := Program.run_query_ok.mp hselect
  cases row with
  | none => cases hrest
  | some row =>
    obtain ⟨hrow, -⟩ := Option.filter_eq_some_iff.mp (Except.ok.inj hfound)
    obtain ⟨hmem, hid⟩ := prediction?_some hrow
    obtain ⟨recorded, db1, hviolations, hmark⟩ := Program.run_bind_ok.mp hrest
    have hevolves := ((@insertNewViolations_keeps (fun _ => False) id at' violations).extends
      hviolations).evolves
    obtain ⟨row', hrow', hsame⟩ := hevolves.predictions.mem hmem
    by_cases hstatus : row.status = .quarantined
    · rw [if_neg (not_not.mpr hstatus)] at hmark
      obtain ⟨-, rfl⟩ := Program.run_pure_ok.mp hmark
      exact ⟨row', hrow', hsame.prediction_id.trans hid, (hsame.quarantined hstatus).1⟩
    · rw [if_pos hstatus] at hmark
      obtain ⟨n, _, hupdate, hdone⟩ := Program.run_bind_ok.mp hmark
      obtain ⟨-, rfl⟩ := Program.run_pure_ok.mp hdone
      obtain ⟨rfl, -, -⟩ := updatePredictions_ok (executeUpdate_ok hupdate)
      refine ⟨_, List.mem_map.mpr ⟨row', hrow', rfl⟩, ?_⟩
      rw [if_pos (beq_iff_eq.mpr (hsame.prediction_id.trans hid))]
      exact ⟨hsame.prediction_id.trans hid, rfl⟩

end Registry

/-- The call neither records a violation of the prediction nor stages it quarantined. -/
def LedgerCall.Spares (id : Text) : LedgerCall → Prop
  | .operations ops => ∀ op ∈ ops, op.Spares id
  | _ => True

/-- A sparing call that returns commits sparing operations. -/
theorem LedgerCall.program_spares {V : Libraries} {sha256 : Text → Text} {call : LedgerCall} {id : Text}
    {db db' : Registry} {u : Unit} (hspares : call.Spares id)
    (h : (call.program V sha256).run db = (.ok u, db')) :
    Registry.Commits sha256 (Registry.Operation.Spares id) db db' := by
  cases call with
  | operations ops => exact ⟨ops, hspares, h⟩
  | capture request world =>
    refine Registry.captureTransaction_prepares (fun inputs schema_hash c hinputs hprepared => ?_)
      (fun _ _ => ⟨not_false, not_false⟩) (fun _ _ _ _ => ⟨not_false, not_false⟩) h
    refine ⟨not_false, fun ⟨_, hstatus⟩ => ?_⟩
    obtain ⟨_, _, -, -, -, rfl⟩ := prepareCommitted_ok hprepared
    obtain ⟨_, -, hinputs⟩ := bind_eq_ok.mp hinputs
    obtain ⟨_, -, hinputs⟩ := bind_eq_ok.mp hinputs
    obtain ⟨_, -, hinputs⟩ := bind_eq_ok.mp hinputs
    obtain rfl := Except.ok.inj hinputs
    cases hstatus
  | prepare_run call world =>
    obtain ⟨_, _, hprepare, hreturn⟩ := Program.run_bind_ok.mp h
    obtain ⟨-, rfl⟩ := Program.run_pure_ok.mp hreturn
    obtain ⟨_, _, -, hfrom⟩ := Registry.prepare_ok hprepare
    cases hfrom with
    | retried run binding hfound hhash hid hsame => exact hsame ▸ .nothing _ _
    | allocated run _ _ _ _ _ _ _ _ _ hbound =>
      exact .one (.bind_preregistered_run _ _ _ _ _ _ _ _) ⟨not_false, not_false⟩ hbound
    | created _ _ _ _ _ hcreated =>
      exact .one (.create_exploratory_run _ _ _ _ _ _ _ _) ⟨not_false, not_false⟩ hcreated
  | ingest_external e world =>
    obtain ⟨_, _, hingest, hreturn⟩ := Program.run_bind_ok.mp h
    obtain ⟨-, rfl⟩ := Program.run_pure_ok.mp hreturn
    obtain ⟨_, -, ⟨_, -, -, -, rfl⟩ | ⟨columns, _, -, -, hcreated, -⟩⟩ :=
      Registry.ingestExternalRun_ok hingest
    · exact .nothing _ _
    · exact .one (.create_external_run_import columns) ⟨not_false, not_false⟩ hcreated
  | ingest_result e now =>
    obtain ⟨_, _, hingest, hreturn⟩ := Program.run_bind_ok.mp h
    obtain ⟨-, rfl⟩ := Program.run_pure_ok.mp hreturn
    refine (Registry.ingestEvidence_commits hingest).mono fun op hop => ?_
    cases op with
    | create_run_result => exact ⟨not_false, not_false⟩
    | _ => exact hop.elim

/-! ## Outcomes -/

section

variable {R : EvidenceReader} {sha256 : Text → Text} {event : LedgerRecordEvent} {row : PredictionRow}
  {record snapshot : ManagedFile} {db : Registry}

theorem checkFailed_done {id : Text} {e : Error} {r : IntegrityCheckResult}
    (h : checkFailed id e = .done (some r)) : r = .error id := by
  simp only [checkFailed, CheckOutcome.done.injEq, Option.ite_none_right_eq_some,
    Option.some.injEq] at h
  exact h.2.symm

theorem openRecord_more {inside : Path → Bool} {check : PendingCheck}
    (h : openRecord inside db event = .more check) :
    ∃ row, db.committedRow event.prediction_id = some row ∧ check = .read event row := by
  unfold openRecord at h
  split at h
  · cases h
  · split at h
    · cases h
    · rename_i row hrow
      cases h
      exact ⟨row, hrow, rfl⟩

theorem openRecord_done {inside : Path → Bool} {r : IntegrityCheckResult}
    (h : openRecord inside db event = .done (some r)) : r.state = .error ∨ r.state = .unregistered := by
  unfold openRecord at h
  split at h
  · cases h
    exact Or.inl rfl
  · split at h
    · cases h
      exact Or.inr rfl
    · cases h

theorem openViolation_more {violation : ManagedPathViolation} {check : PendingCheck}
    (h : openViolation db violation = .more check) : violation.reason ∈ snapshotReasons ∧
      ∃ violations, check = .judged violation.stem violations violation.observed_at := by
  unfold openViolation at h
  split at h
  · cases h
  · rename_i hreason
    split at h
    · cases h
    · cases h
      exact ⟨not_not.mp hreason, _, rfl⟩

theorem openViolation_done {violation : ManagedPathViolation} {r : IntegrityCheckResult}
    (h : openViolation db violation = .done (some r)) : r.state = .unregistered := by
  unfold openViolation at h
  split at h
  · cases h
  · split at h
    · cases h
      rfl
    · cases h

theorem judge_more {check : PendingCheck}
    (h : judge R sha256 event row record snapshot = .more check) :
    ∃ r, verify R sha256 row record snapshot = .ok r ∧ r.violations ≠ [] ∧
      check = .judged event.prediction_id r.violations event.observed_at := by
  unfold judge at h
  split at h
  · unfold checkFailed at h
    cases h
  · rename_i r hverify
    split at h
    · rename_i hviolations
      cases h
      exact ⟨r, hverify, hviolations, rfl⟩
    · split at h <;> cases h

/-- A check that ends with its verification failed, or it found no violation. -/
theorem judge_done {r : IntegrityCheckResult}
    (h : judge R sha256 event row record snapshot = .done (some r)) :
    r = .error event.prediction_id ∨
      ∃ result, verify R sha256 row record snapshot = .ok result ∧ result.violations = [] ∧
        ((row.status = .quarantined ∧ r = .quarantined event.prediction_id [] false) ∨
          (row.status ≠ .quarantined ∧ r = .clean event.prediction_id)) := by
  unfold judge at h
  split at h
  · exact Or.inl (checkFailed_done h)
  · rename_i result hverify
    split at h
    · cases h
    · rename_i hclean
      refine Or.inr ⟨result, hverify, not_not.mp hclean, ?_⟩
      split at h
      · rename_i hstatus
        cases h
        exact Or.inl ⟨hstatus, rfl⟩
      · rename_i hstatus
        cases h
        exact Or.inr ⟨hstatus, rfl⟩

/-- A transaction of a check quarantines its prediction, or nothing comes of it. -/
theorem settle_cases (db : Registry) (id : Text) (violations : List (Text × Text)) (at' : DateTime) :
    (∃ changed, settle db id violations at' = (.done (some (.quarantined id violations changed)),
        (settle db id violations at').2) ∧
      (Registry.quarantinePrediction id violations at').run db =
        (.ok changed, (settle db id violations at').2)) ∨
      ∃ e, settle db id violations at' = (checkFailed id e, db) := by
  unfold settle
  split
  · rename_i changed db' hrun
    exact Or.inl ⟨changed, rfl, hrun⟩
  · rename_i e _ _
    exact Or.inr ⟨e, rfl⟩

/-- The transaction of a check is that of a call. -/
theorem settle_registry (V : Libraries) (db : Registry) (id : Text) (violations : List (Text × Text))
    (at' : DateTime) : (settle db id violations at').2 =
      (LedgerCall.operations [.quarantine_prediction id violations at']).commit V sha256 db := by
  unfold settle LedgerCall.commit
  cases hrun : (Registry.quarantinePrediction id violations at').run db with
  | mk result db' =>
    cases result with
    | ok changed =>
      simp only [LedgerCall.program, Registry.sequence, Registry.Operation.program, Program.run_bind,
        hrun, Program.run_pure]
    | error e =>
      simp only [LedgerCall.program, Registry.sequence, Registry.Operation.program, Program.run_bind,
        hrun]

end

/-! ## Runs -/

namespace CheckedVault

variable {R : EvidenceReader} {V : Libraries} {sha256 : Text → Text} {s t : CheckedVault}
  {files : VaultFiles} {trace : List (CheckedVault × CheckEvent)} {id : Text}

/-- A check reported that the prediction is quarantined. -/
def Reported (s : CheckedVault) (id : Text) : Prop :=
  ∃ r ∈ s.results, r.prediction_id = id ∧ r.state = .quarantined

/-- The row that a check has read is that of its event, or it has evolved since. -/
def Current (db : Registry) : PendingCheck → Prop
  | .read event row | .opened event row _ =>
    row.prediction_id = event.prediction_id ∧ ∃ row' ∈ db.predictions, row.Evolves row'
  | .judged _ _ _ => True

theorem Current.evolves {db db' : Registry} {check : PendingCheck} (h : Current db check)
    (hevolves : db.Evolves db') : Current db' check := by
  have hrow : ∀ row : PredictionRow, (∃ row' ∈ db.predictions, row.Evolves row') →
      ∃ row' ∈ db'.predictions, row.Evolves row' := by
    rintro row ⟨row', hrow', hsame⟩
    obtain ⟨row'', hrow'', hsame'⟩ := hevolves.predictions.mem hrow'
    exact ⟨row'', hrow'', hsame.trans hsame'⟩
  cases check with
  | read event row => exact ⟨h.1, hrow row h.2⟩
  | opened event row record => exact ⟨h.1, hrow row h.2⟩
  | judged => trivial

/-- Checks know current rows, and a prediction is reported exactly when it is quarantined. -/
structure Watched (id : Text) (s : CheckedVault) : Prop where
  current : ∀ check ∈ s.pending, Current s.registry check
  suspected : s.registry.Suspected id → s.Reported id
  reported : s.Reported id → s.registry.Quarantined id

/-- The state after an outcome that knows its row, and reports no more than the registry holds. -/
theorem Watched.conclude {pending : List PendingCheck} {outcome : CheckOutcome}
    (hcurrent : ∀ check ∈ pending, Current s.registry check)
    (hmore : ∀ check, outcome = .more check → Current s.registry check)
    (hsuspected : s.registry.Suspected id → s.Reported id ∨
      ∃ r, outcome = .done (some r) ∧ r.prediction_id = id ∧ r.state = .quarantined)
    (hreported : s.Reported id → s.registry.Quarantined id)
    (hdone : ∀ r, outcome = .done (some r) → r.prediction_id = id → r.state = .quarantined →
      s.registry.Quarantined id) : (s.conclude pending outcome).Watched id := by
  cases outcome with
  | more check =>
    refine ⟨fun other hother => ?_, fun h => ?_, hreported⟩
    · rcases List.mem_append.mp hother with hother | hnew
      · exact hcurrent other hother
      · exact hmore other (by rw [List.mem_singleton.mp hnew])
    · exact (hsuspected h).resolve_right (by simp)
  | done result =>
    refine ⟨hcurrent, fun h => ?_, fun ⟨r, hr, hid, hstate⟩ => ?_⟩
    · rcases hsuspected h with ⟨r, hr, hid, hstate⟩ | ⟨r, hr, hid, hstate⟩
      · exact ⟨r, List.mem_append_left _ hr, hid, hstate⟩
      · cases hr
        exact ⟨r, List.mem_append_right _ (by simp), hid, hstate⟩
    · rcases List.mem_append.mp hr with hr | hnew
      · exact hreported ⟨r, hr, hid, hstate⟩
      · exact hdone r (by rw [Option.mem_toList.mp hnew]) hid hstate

/-- The row of a check that begins is the current one. -/
theorem current_read {db : Registry} {event : LedgerRecordEvent} {row : PredictionRow}
    (h : db.committedRow event.prediction_id = some row) : Current db (.read event row) := by
  obtain ⟨hrow, -⟩ := Option.filter_eq_some_iff.mp h
  obtain ⟨hmem, hid⟩ := Registry.prediction?_some hrow
  exact ⟨hid, row, hmem, .refl row⟩

/-- Every step of a vault keeps that, when calls spare the prediction. -/
theorem Watched.step (hs : s.Watched id) {event : CheckEvent} (h : Step R V sha256 s event t)
    (hspares : ∀ call, event = .call call → call.Spares id) : t.Watched id := by
  cases h with
  | call call =>
    have hcommits : Registry.Commits sha256 Registry.Operation.isAny s.registry
        (call.commit V sha256 s.registry) := LedgerCall.commit_commits call s.registry
    have hevolves := hcommits.evolves.1
    refine ⟨fun check hcheck => (hs.current check hcheck).evolves hevolves, fun h => hs.suspected ?_,
      fun h => (hs.reported h).evolves hevolves⟩
    revert h
    unfold LedgerCall.commit
    split
    · rename_i u db' hprogram
      exact Registry.Suspected.of_commits (LedgerCall.program_spares (hspares call rfl) hprogram)
    · exact fun h => h
  | edit files => exact ⟨hs.current, hs.suspected, hs.reported⟩
  | record event =>
    refine .conclude hs.current (fun check hmore => ?_) (fun h => Or.inl (hs.suspected h)) hs.reported
      fun r hdone _ hstate => ?_
    · obtain ⟨row, hrow, rfl⟩ := openRecord_more hmore
      exact current_read hrow
    · rcases openRecord_done hdone with herror | herror
      · rw [herror] at hstate
        cases hstate
      · rw [herror] at hstate
        cases hstate
  | managed violation =>
    refine .conclude hs.current (fun check hmore => ?_) (fun h => Or.inl (hs.suspected h)) hs.reported
      fun r hdone _ hstate => ?_
    · obtain ⟨-, violations, rfl⟩ := openViolation_more hmore
      trivial
    · rw [openViolation_done hdone] at hstate
      cases hstate
  | advance check before after hpending =>
    have hrest : ∀ other ∈ before ++ after, Current s.registry other := by
      intro other hother
      refine hs.current other (hpending ▸ ?_)
      rcases List.mem_append.mp hother with hother | hother
      · exact List.mem_append_left _ hother
      · exact List.mem_append_right _ (List.mem_cons_of_mem _ hother)
    have hcheck : Current s.registry check :=
      hs.current check (hpending ▸ List.mem_append_right _ List.mem_cons_self)
    cases check with
    | read event row =>
      refine .conclude hrest (fun check hmore => ?_) (fun h => Or.inl (hs.suspected h)) hs.reported
        fun r hdone _ _ => by cases hdone
      cases hmore
      exact hcheck
    | opened event row record =>
      refine .conclude hrest (fun check hmore => ?_) (fun h => Or.inl (hs.suspected h)) hs.reported
        fun r hdone hid hstate => ?_
      · obtain ⟨_, -, -, rfl⟩ := judge_more hmore
        trivial
      · obtain rfl | ⟨_, -, -, ⟨hstatus, rfl⟩ | ⟨-, rfl⟩⟩ := judge_done hdone
        · cases hstate
        · obtain ⟨hsame, row', hrow', hevolves⟩ := hcheck
          exact ⟨row', hrow', hevolves.prediction_id.trans (hsame.trans hid),
            (hevolves.quarantined hstatus).1⟩
        · cases hstate
    | judged id' violations observed_at =>
      change CheckedVault.Watched id (({ s with
        registry := (settle s.registry id' violations observed_at).2 } : CheckedVault).conclude
          (before ++ after) (settle s.registry id' violations observed_at).1)
      rcases settle_cases s.registry id' violations observed_at with ⟨changed, houtcome, hrun⟩ | ⟨e, houtcome⟩
      · obtain ⟨hevolves, -, hquarantined, hothers⟩ := Registry.quarantinePrediction_ok hrun
        rw [houtcome]
        refine .conclude (fun other hother => (hrest other hother).evolves hevolves)
          (fun _ hmore => by cases hmore) (fun h => ?_) (fun h => (hs.reported h).evolves hevolves)
          fun r hdone hid _ => ?_
        · by_cases hid : id = id'
          · exact Or.inr ⟨_, rfl, hid.symm, rfl⟩
          · exact Or.inl (hs.suspected (hothers id hid h))
        · cases hdone
          exact hid ▸ hquarantined
      · rw [houtcome]
        refine .conclude hrest (fun _ hmore => ?_) (fun h => Or.inl (hs.suspected h)) hs.reported
          fun r hdone _ hstate => ?_
        · simp [checkFailed] at hmore
        · rw [checkFailed_done hdone] at hstate
          cases hstate

theorem watched_initial : (initial files).Watched id where
  current check hcheck := by cases hcheck
  suspected h := absurd h Registry.not_suspected_empty
  reported := by
    rintro ⟨r, hr, -⟩
    cases hr

/-! ## Causes -/

/-- The check of the event read its row from the registry. -/
def Opened (trace : List (CheckedVault × CheckEvent)) (event : LedgerRecordEvent)
    (row : PredictionRow) : Prop :=
  ∃ x ∈ trace, x.2 = .record event ∧ x.1.registry.committedRow event.prediction_id = some row

/-- The check of the event read its row, then the record, then the snapshot, and this is what its
verification returned. -/
def Judged (R : EvidenceReader) (sha256 : Text → Text) (trace : List (CheckedVault × CheckEvent))
    (event : LedgerRecordEvent) (row : PredictionRow) (r : EvidenceVerificationResult) : Prop :=
  Opened trace event row ∧ ∃ y ∈ trace, ∃ z ∈ trace, y.2 = .advance (.read event row) ∧
    z.2 = .advance (.opened event row (y.1.files.record event.path)) ∧
    verify R sha256 row (y.1.files.record event.path) (z.1.files.snapshot row.snapshot_ref) = .ok r

/-- A verification for the prediction found a violation, or the watcher reported its snapshot. -/
def Caused (R : EvidenceReader) (sha256 : Text → Text) (trace : List (CheckedVault × CheckEvent))
    (id : Text) : Prop :=
  (∃ event row r, event.prediction_id = id ∧ Judged R sha256 trace event row r ∧ r.violations ≠ []) ∨
    ∃ x ∈ trace, ∃ violation, x.2 = .managed violation ∧ violation.stem = id ∧
      violation.reason ∈ snapshotReasons

theorem Opened.mono {event : LedgerRecordEvent} {row : PredictionRow} (h : Opened trace event row)
    (x : CheckedVault × CheckEvent) : Opened (trace ++ [x]) event row := by
  obtain ⟨y, hy, hrest⟩ := h
  exact ⟨y, List.mem_append_left _ hy, hrest⟩

theorem Judged.mono {event : LedgerRecordEvent} {row : PredictionRow} {r : EvidenceVerificationResult}
    (h : Judged R sha256 trace event row r) (x : CheckedVault × CheckEvent) :
    Judged R sha256 (trace ++ [x]) event row r := by
  obtain ⟨hopened, y, hy, z, hz, hrest⟩ := h
  exact ⟨hopened.mono x, y, List.mem_append_left _ hy, z, List.mem_append_left _ hz, hrest⟩

theorem Caused.mono (h : Caused R sha256 trace id) (x : CheckedVault × CheckEvent) :
    Caused R sha256 (trace ++ [x]) id := by
  rcases h with ⟨event, row, r, hid, hjudged, hviolations⟩ | ⟨y, hy, hrest⟩
  · exact Or.inl ⟨event, row, r, hid, hjudged.mono x, hviolations⟩
  · exact Or.inr ⟨y, List.mem_append_left _ hy, hrest⟩

/-- Where a check in flight stands. -/
def Traced (R : EvidenceReader) (sha256 : Text → Text) (trace : List (CheckedVault × CheckEvent)) :
    PendingCheck → Prop
  | .read event row => Opened trace event row
  | .opened event row record => Opened trace event row ∧
      ∃ y ∈ trace, y.2 = .advance (.read event row) ∧ record = y.1.files.record event.path
  | .judged prediction_id _ _ => Caused R sha256 trace prediction_id

theorem Traced.mono {check : PendingCheck} (h : Traced R sha256 trace check)
    (x : CheckedVault × CheckEvent) : Traced R sha256 (trace ++ [x]) check := by
  cases check with
  | read event row => exact Opened.mono h x
  | opened event row record =>
    obtain ⟨hopened, y, hy, hrest⟩ := h
    exact ⟨hopened.mono x, y, List.mem_append_left _ hy, hrest⟩
  | judged => exact Caused.mono h x

/-- Checks in flight are traced, and clean results come from verifications without violations. -/
structure Explained (R : EvidenceReader) (sha256 : Text → Text)
    (trace : List (CheckedVault × CheckEvent)) (s : CheckedVault) : Prop where
  pending : ∀ check ∈ s.pending, Traced R sha256 trace check
  clean : ∀ r ∈ s.results, r.state = .clean → ∃ event row result,
    event.prediction_id = r.prediction_id ∧ Judged R sha256 trace event row result ∧
      result.violations = [] ∧ row.status ≠ .quarantined

theorem Explained.mono (h : Explained R sha256 trace s) (x : CheckedVault × CheckEvent) :
    Explained R sha256 (trace ++ [x]) s where
  pending check hcheck := (h.pending check hcheck).mono x
  clean r hr hstate := by
    obtain ⟨event, row, result, hid, hjudged, hrest⟩ := h.clean r hr hstate
    exact ⟨event, row, result, hid, hjudged.mono x, hrest⟩

theorem Explained.conclude {pending : List PendingCheck} {outcome : CheckOutcome}
    (h : Explained R sha256 trace s) (hpending : pending ⊆ s.pending)
    (hmore : ∀ check, outcome = .more check → Traced R sha256 trace check)
    (hdone : ∀ r, outcome = .done (some r) → r.state = .clean → ∃ event row result,
      event.prediction_id = r.prediction_id ∧ Judged R sha256 trace event row result ∧
        result.violations = [] ∧ row.status ≠ .quarantined) :
    Explained R sha256 trace (s.conclude pending outcome) := by
  cases outcome with
  | more check =>
    refine ⟨fun other hother => ?_, h.clean⟩
    rcases List.mem_append.mp hother with hother | hnew
    · exact h.pending other (hpending hother)
    · exact hmore other (by rw [List.mem_singleton.mp hnew])
  | done result =>
    refine ⟨fun other hother => h.pending other (hpending hother), fun r hr => ?_⟩
    rcases List.mem_append.mp hr with hr | hnew
    · exact h.clean r hr
    · exact hdone r (by rw [Option.mem_toList.mp hnew])

/-- The verification of a check that has opened its record, at the step that judges it. -/
theorem judged_of_opened {event : LedgerRecordEvent} {row : PredictionRow} {record : ManagedFile}
    {r : EvidenceVerificationResult} (h : Traced R sha256 trace (.opened event row record))
    (hverify : verify R sha256 row record (s.files.snapshot row.snapshot_ref) = .ok r) :
    Judged R sha256 (trace ++ [(s, .advance (.opened event row record))]) event row r := by
  obtain ⟨hopened, y, hy, hread, rfl⟩ := h
  exact ⟨hopened.mono _, y, List.mem_append_left _ hy, (s, _), List.mem_append_right _
    (List.mem_singleton_self _), hread, rfl, hverify⟩

theorem Explained.step (hs : Explained R sha256 trace s) {event : CheckEvent}
    (h : Step R V sha256 s event t) : Explained R sha256 (trace ++ [(s, event)]) t := by
  have hlast : (s, event) ∈ trace ++ [(s, event)] :=
    List.mem_append_right _ (List.mem_singleton_self _)
  have hbefore := hs.mono (s, event)
  cases h with
  | call call => exact ⟨hbefore.pending, hbefore.clean⟩
  | edit files => exact ⟨hbefore.pending, hbefore.clean⟩
  | record event =>
    refine hbefore.conclude (List.Subset.refl _) (fun check hmore => ?_) fun r hdone hstate => ?_
    · obtain ⟨row, hrow, rfl⟩ := openRecord_more hmore
      exact ⟨_, hlast, rfl, hrow⟩
    · rcases openRecord_done hdone with herror | herror
      · rw [herror] at hstate
        cases hstate
      · rw [herror] at hstate
        cases hstate
  | managed violation =>
    refine hbefore.conclude (List.Subset.refl _) (fun check hmore => ?_) fun r hdone hstate => ?_
    · obtain ⟨hreason, violations, rfl⟩ := openViolation_more hmore
      exact Or.inr ⟨_, hlast, violation, rfl, rfl, hreason⟩
    · rw [openViolation_done hdone] at hstate
      cases hstate
  | advance check before after hpending =>
    have hrest : before ++ after ⊆ s.pending := by
      intro other hother
      rw [hpending]
      rcases List.mem_append.mp hother with hother | hother
      · exact List.mem_append_left _ hother
      · exact List.mem_append_right _ (List.mem_cons_of_mem _ hother)
    have hcheck : Traced R sha256 trace check :=
      hs.pending check (hpending ▸ List.mem_append_right _ List.mem_cons_self)
    have hstep : Explained R sha256 (trace ++ [(s, .advance check)])
        { s with registry := (s.advance R sha256 check).2 } := ⟨hbefore.pending, hbefore.clean⟩
    refine hstep.conclude hrest (fun other hmore => ?_) fun r hdone hstate => ?_
    · cases check with
      | read event row =>
        cases hmore
        exact ⟨Opened.mono hcheck _, _, hlast, rfl, rfl⟩
      | opened event row record =>
        obtain ⟨r, hverify, hviolations, rfl⟩ := judge_more hmore
        exact Or.inl ⟨event, row, r, rfl, judged_of_opened hcheck hverify, hviolations⟩
      | judged id' violations observed_at =>
        rcases settle_cases s.registry id' violations observed_at with ⟨_, houtcome, -⟩ | ⟨e, houtcome⟩
        · rw [advance, houtcome] at hmore
          cases hmore
        · rw [advance, houtcome] at hmore
          simp [checkFailed] at hmore
    · cases check with
      | read event row => cases hdone
      | opened event row record =>
        obtain rfl | ⟨result, hverify, hclean, ⟨-, rfl⟩ | ⟨hstatus, rfl⟩⟩ := judge_done hdone
        · cases hstate
        · cases hstate
        · exact ⟨event, row, result, rfl, judged_of_opened hcheck hverify, hclean, hstatus⟩
      | judged id' violations observed_at =>
        rcases settle_cases s.registry id' violations observed_at with ⟨_, houtcome, -⟩ | ⟨e, houtcome⟩
        · rw [advance, houtcome] at hdone
          cases hdone
          cases hstate
        · rw [advance, houtcome] at hdone
          rw [checkFailed_done hdone] at hstate
          cases hstate

/-- Every run explains its checks and its clean results. -/
theorem explained_of_run (h : Run (Step R V sha256) (initial files) trace s) :
    Explained R sha256 trace s := by
  induction h with
  | nil =>
    refine ⟨fun check hcheck => ?_, fun r hr => ?_⟩
    · cases hcheck
    · cases hr
  | snoc _ hstep ih => exact ih.step hstep

/-- A step reports no quarantine without a cause. -/
theorem caused_step (hs : s.Watched id) (hexplained : Explained R sha256 trace s)
    (hcaused : s.Reported id → Caused R sha256 trace id) {event : CheckEvent}
    (h : Step R V sha256 s event t) (hreported : t.Reported id) :
    Caused R sha256 (trace ++ [(s, event)]) id := by
  have hresult : ∀ {pending : List PendingCheck} {outcome : CheckOutcome} {db : Registry},
      (({ s with registry := db } : CheckedVault).conclude pending outcome).Reported id →
      s.Reported id ∨ ∃ r, outcome = .done (some r) ∧ r.prediction_id = id ∧ r.state = .quarantined := by
    rintro pending outcome db ⟨r, hr, hid, hstate⟩
    cases outcome with
    | more check => exact Or.inl ⟨r, hr, hid, hstate⟩
    | done result =>
      rcases List.mem_append.mp hr with hr | hnew
      · exact Or.inl ⟨r, hr, hid, hstate⟩
      · exact Or.inr ⟨r, by rw [Option.mem_toList.mp hnew], hid, hstate⟩
  cases h with
  | call call => exact (hcaused hreported).mono _
  | edit files => exact (hcaused hreported).mono _
  | record event =>
    rcases hresult hreported with hbefore | ⟨r, hdone, -, hstate⟩
    · exact (hcaused hbefore).mono _
    · rcases openRecord_done hdone with herror | herror
      · rw [herror] at hstate
        cases hstate
      · rw [herror] at hstate
        cases hstate
  | managed violation =>
    rcases hresult hreported with hbefore | ⟨r, hdone, -, hstate⟩
    · exact (hcaused hbefore).mono _
    · rw [openViolation_done hdone] at hstate
      cases hstate
  | advance check before after hpending =>
    have hmem : check ∈ s.pending := hpending ▸ List.mem_append_right _ List.mem_cons_self
    rcases hresult hreported with hbefore | ⟨r, hdone, hid, hstate⟩
    · exact (hcaused hbefore).mono _
    · cases check with
      | read event row => cases hdone
      | opened event row record =>
        obtain rfl | ⟨_, -, -, ⟨hstatus, rfl⟩ | ⟨-, rfl⟩⟩ := judge_done hdone
        · cases hstate
        · -- the row was quarantined already, so this was reported before
          obtain ⟨hsame, row', hrow', hevolves⟩ := hs.current _ hmem
          exact (hcaused (hs.suspected (Or.inr ⟨row', hrow', hevolves.prediction_id.trans
            (hsame.trans hid), (hevolves.quarantined hstatus).1⟩))).mono _
        · cases hstate
      | judged id' violations observed_at =>
        rcases settle_cases s.registry id' violations observed_at with ⟨_, houtcome, -⟩ | ⟨e, houtcome⟩
        · rw [advance, houtcome] at hdone
          cases hdone
          exact hid ▸ Caused.mono (hexplained.pending _ hmem) _
        · rw [advance, houtcome] at hdone
          rw [checkFailed_done hdone] at hstate
          cases hstate

/-- Every run keeps that, and reports of a quarantine have causes. -/
theorem watched_of_run (h : Run (Step R V sha256) (initial files) trace s)
    (hspares : ∀ x ∈ trace, ∀ call, x.2 = .call call → call.Spares id) :
    s.Watched id ∧ (s.Reported id → Caused R sha256 trace id) := by
  induction h with
  | nil =>
    refine ⟨watched_initial, ?_⟩
    rintro ⟨r, hr, -⟩
    cases hr
  | @snoc s t trace event hbefore hstep ih =>
    obtain ⟨hwatched, hcaused⟩ := ih fun x hx => hspares x (List.mem_append_left _ hx)
    exact ⟨hwatched.step hstep fun call => hspares (s, event) (by simp) call,
      caused_step hwatched (explained_of_run hbefore) hcaused hstep⟩

/-- The registry of a vault is one that calls lead to; those of the checks quarantine only. -/
theorem ledger_run (h : Run (Step R V sha256) (initial files) trace s) :
    ∃ calls, Run (LedgerCall.Step V sha256) Registry.empty calls s.registry ∧
      ∀ y ∈ calls, (∃ x ∈ trace, x.2 = .call y.2) ∨ ∃ id violations at',
        y.2 = .operations [.quarantine_prediction id violations at'] := by
  induction h with
  | nil =>
    refine ⟨[], .nil _, fun y hy => ?_⟩
    cases hy
  | @snoc s t trace event _ hstep ih =>
    obtain ⟨calls, hrun, hcalls⟩ := ih
    have hbefore : ∀ y ∈ calls, (∃ x ∈ trace ++ [(s, event)], x.2 = .call y.2) ∨
        ∃ id violations at', y.2 = .operations [.quarantine_prediction id violations at'] := by
      intro y hy
      rcases hcalls y hy with ⟨x, hx, heq⟩ | hquarantines
      · exact Or.inl ⟨x, List.mem_append_left _ hx, heq⟩
      · exact Or.inr hquarantines
    have hconclude : ∀ (s : CheckedVault) (pending : List PendingCheck) (outcome : CheckOutcome),
        (s.conclude pending outcome).registry = s.registry := by
      intro s pending outcome
      cases outcome <;> rfl
    cases hstep with
    | call call =>
      refine ⟨calls ++ [(s.registry, call)], hrun.snoc rfl, fun y hy => ?_⟩
      rcases List.mem_append.mp hy with hy | hnew
      · exact hbefore y hy
      · rw [List.mem_singleton.mp hnew]
        exact Or.inl ⟨_, List.mem_append_right _ (List.mem_singleton_self _), rfl⟩
    | edit files => exact ⟨calls, hrun, hbefore⟩
    | record event =>
      rw [hconclude]
      exact ⟨calls, hrun, hbefore⟩
    | managed violation =>
      rw [hconclude]
      exact ⟨calls, hrun, hbefore⟩
    | advance check before after hpending =>
      rw [hconclude]
      cases check with
      | read event row => exact ⟨calls, hrun, hbefore⟩
      | opened event row record => exact ⟨calls, hrun, hbefore⟩
      | judged id violations observed_at =>
        refine ⟨calls ++ [(s.registry, .operations [.quarantine_prediction id violations observed_at])],
          hrun.snoc (show LedgerCall.Step V sha256 s.registry (.operations [.quarantine_prediction id
            violations observed_at]) (settle s.registry id violations observed_at).2 from
              settle_registry V s.registry id violations observed_at), fun y hy => ?_⟩
        rcases List.mem_append.mp hy with hy | hnew
        · exact hbefore y hy
        · rw [List.mem_singleton.mp hnew]
          exact Or.inr ⟨_, _, _, rfl⟩

/-- Every row of a vault records a prediction that one of its calls staged. -/
theorem records_of_run (h : Run (Step R V sha256) (initial files) trace s) {row : PredictionRow}
    (hrow : row ∈ s.registry.predictions) :
    ∃ c, (∃ x ∈ trace, ∃ call, x.2 = .call call ∧ call.Stages sha256 c) ∧ row.Records c := by
  obtain ⟨calls, hrun, hcalls⟩ := ledger_run h
  obtain ⟨c, ⟨y, hy, hstages⟩, hrecords⟩ := LedgerCall.run_records hrun row hrow
  rcases hcalls y hy with ⟨x, hx, heq⟩ | ⟨_, _, _, heq⟩
  · exact ⟨c, ⟨x, hx, y.2, heq, hstages⟩, hrecords⟩
  · rw [heq] at hstages
    cases List.mem_singleton.mp hstages

/-- However checks, calls and edits interleave: behind every clean result is a prediction that a call
staged, whose row was not quarantined when the check read it, and what the check then read at the
path of the record and behind the snapshot reference is what was committed. -/
theorem clean_committed (h : Run (Step R V sha256) (initial files) trace s)
    (hwritten : ∀ x ∈ trace, ∀ call, x.2 = .call call → call.Written sha256)
    {r : IntegrityCheckResult} (hr : r ∈ s.results) (hclean : r.state = .clean) :
    ∃ c event row frontmatter e, c.prediction_id.val = r.prediction_id ∧
      (∃ x ∈ trace, ∃ call, x.2 = .call call ∧ call.Stages sha256 c) ∧
      row.status ≠ .quarantined ∧ event.prediction_id = r.prediction_id ∧
      Judged R sha256 trace event row ⟨some e, []⟩ ∧
      (CommittedEvidence c frontmatter e ∨ Collides sha256 c e) := by
  obtain ⟨event, row, result, hid, hjudged, hviolations, hstatus⟩ := (explained_of_run h).clean r hr hclean
  obtain ⟨⟨x, hx, hevent, hread⟩, y, hy, z, hz, hopened, hverified, hverify⟩ := hjudged
  obtain ⟨before, u, after, hbefore, -, -, rfl⟩ := h.step_of_mem hx
  obtain ⟨hfound, -⟩ := Option.filter_eq_some_iff.mp hread
  obtain ⟨hmem, hsame⟩ := Registry.prediction?_some hfound
  obtain ⟨c, ⟨w, hw, call, hcall, hstages⟩, hrecords⟩ := records_of_run hbefore hmem
  have hw' : w ∈ before ++ x :: after := List.mem_append_left _ hw
  obtain ⟨frontmatter, e, hverifies, rfl⟩ := verify_clean.mp ⟨hverify, hviolations⟩
  exact ⟨c, event, row, frontmatter, e, hrecords.prediction_id.symm.trans (hsame.trans hid),
    ⟨w, hw', call, hcall, hstages⟩, hstatus, hid,
    ⟨⟨x, hx, hevent, hread⟩, y, hy, z, hz, hopened, hverified, hverify⟩,
    hverifies.committed (hwritten w hw' call hcall c hstages) hrecords⟩

/-! ## Two checks -/

/-- A vault in which these files are found at every path. -/
def sampleFiles (record snapshot : ManagedFile) : VaultFiles :=
  ⟨fun _ => true, fun _ => record, fun _ => snapshot⟩

/-- The event of a record that settled. -/
def sampleEvent (c : CommittedPrediction) (path : Path) : LedgerRecordEvent :=
  ⟨path, c.prediction_id, Registry.sampleTime⟩

/-- A vault in which the prediction was just staged and committed. -/
def stagedVault (c : CommittedPrediction) (files : VaultFiles) (pending : List PendingCheck) :
    CheckedVault :=
  ⟨stagedRegistry c, files, pending, []⟩

/-- The check of a record, until it has opened it. -/
theorem staged_opens (c : CommittedPrediction) {row : PredictionRow}
    (hrow : (stagedRegistry c).committedRow c.prediction_id = some row) (files : VaultFiles)
    (path : Path) (hinside : files.inside path = true) :
    Run (Step sampleReader Registry.sampleLibraries (fun s => s)) (initial files)
      [(initial files, .call (stagingCall c)), (stagedVault c files [], .record (sampleEvent c path)),
        (stagedVault c files [.read (sampleEvent c path) row],
          .advance (.read (sampleEvent c path) row))]
      (stagedVault c files [.opened (sampleEvent c path) row (files.record path)]) := by
  have hopen : openRecord files.inside (stagedRegistry c) (sampleEvent c path) =
      .more (.read (sampleEvent c path) row) := by
    have hfound : (stagedRegistry c).committedRow (sampleEvent c path).prediction_id = some row := hrow
    have hpath : files.inside (sampleEvent c path).path = true := hinside
    simp only [openRecord, hpath, hfound, Bool.true_eq_false, if_false]
  refine .cons (.call _ _) (.cons (t := stagedVault c files [.read (sampleEvent c path) row]) ?_
    (.single ?_))
  · have hstep := @Step.record sampleReader Registry.sampleLibraries (fun s => s)
      (stagedVault c files []) (sampleEvent c path)
    rw [show (stagedVault c files []).files = files from rfl,
      show (stagedVault c files []).registry = stagedRegistry c from rfl, hopen] at hstep
    exact hstep
  · exact .advance _ _ [] [] rfl

/-- What the checker records of a record that is missing. -/
def missingRecord : List (Text × Text) :=
  [(text "record", text "committed Markdown record is missing")]

/-- The outcome reports a quarantine. -/
def reportsQuarantine : CheckOutcome → Bool
  | .done (some r) => r.state == .quarantined
  | _ => false

theorem staged_checks : samplePrepared.toOption.any (fun c => (snapshotBytes c).isOk &&
    ((stagedRegistry c).committedRow c.prediction_id).any (fun row => row.status == .open &&
      row.committed_at == some c.committed_at.isoformat) &&
    reportsQuarantine (settle (stagedRegistry c) c.prediction_id missingRecord
      Registry.sampleTime).1) = true := by
  decide +kernel

/-- A staged prediction, its row, and its snapshot. -/
theorem staged_sample : ∃ c row content, samplePrepared = .ok c ∧ snapshotBytes c = .ok content ∧
    (stagedRegistry c).committedRow c.prediction_id = some row ∧ row.status = .open ∧
    row.committed_at = some c.committed_at.isoformat ∧
    reportsQuarantine (settle (stagedRegistry c) c.prediction_id missingRecord
      Registry.sampleTime).1 = true := by
  obtain ⟨c, hc, hchecks⟩ := (Option.any_eq_true _ _).mp staged_checks
  simp only [Bool.and_eq_true] at hchecks
  obtain ⟨⟨hsnapshot, hrows⟩, hreports⟩ := hchecks
  obtain ⟨row, hrow, hstatus⟩ := (Option.any_eq_true _ _).mp hrows
  simp only [Bool.and_eq_true, beq_iff_eq] at hstatus
  have hprepared : samplePrepared = .ok c := by
    cases h : samplePrepared with
    | error e =>
      rw [h] at hc
      cases hc
    | ok d =>
      rw [h] at hc
      exact congrArg Except.ok (Option.some.inj hc)
  cases h : snapshotBytes c with
  | error e =>
    rw [h] at hsnapshot
    cases hsnapshot
  | ok content => exact ⟨c, row, content, hprepared, h, hrow, hstatus.1, hstatus.2, hreports⟩

/-- The call stages nothing but its prediction, which is not quarantined. -/
theorem staging_spares (c : CommittedPrediction) (hprepared : samplePrepared = .ok c) (id : Text) :
    (stagingCall c).Spares id := by
  intro op hop
  obtain ⟨_, _, -, -, -, rfl⟩ := prepareCommitted_ok hprepared
  rcases List.mem_cons.mp hop with rfl | hop
  · exact ⟨not_false, fun h => by cases h.2⟩
  · rw [List.mem_singleton.mp hop]
    exact ⟨not_false, not_false⟩

/-- The call stages its prediction only. -/
theorem staging_stages {c c' : CommittedPrediction} (h : (stagingCall c).Stages (fun s => s) c') :
    c' = c := by
  rcases List.mem_cons.mp h with heq | hother
  · exact Registry.Operation.begin_prediction.inj heq
  · cases List.mem_singleton.mp hother

/-- The rows of the vault record the prediction. -/
theorem staged_records (c : CommittedPrediction) {row : PredictionRow}
    (hrow : row ∈ (stagedRegistry c).predictions) : row.Records c := by
  have hrun : Run (Step sampleReader Registry.sampleLibraries (fun s => s))
      (initial (sampleFiles ⟨true, .ok none⟩ ⟨true, .ok none⟩)) [_]
      (stagedVault c (sampleFiles ⟨true, .ok none⟩ ⟨true, .ok none⟩) []) :=
    .single (.call _ (stagingCall c))
  obtain ⟨c', ⟨x, hx, call, hcall, hstaged⟩, hrecords⟩ := records_of_run hrun hrow
  rw [List.mem_singleton.mp hx] at hcall
  cases hcall
  exact staging_stages hstaged ▸ hrecords

/-- The only check in flight is done. -/
theorem Step.ends {check : PendingCheck} {r : IntegrityCheckResult} (hpending : s.pending = [check])
    (houtcome : (s.advance R sha256 check).1 = .done (some r)) :
    ∃ t, Step R V sha256 s (.advance check) t ∧ r ∈ t.results := by
  have hstep := @Step.advance R V sha256 s check [] [] hpending
  rw [houtcome] at hstep
  exact ⟨_, hstep, List.mem_append_right _ (List.mem_singleton_self r)⟩

/-- The outcome that reports a quarantine. -/
theorem reportsQuarantine_settle {db : Registry} {id : Text} {violations : List (Text × Text)}
    {at' : DateTime} (h : reportsQuarantine (settle db id violations at').1 = true) :
    ∃ changed, (settle db id violations at').1 =
      .done (some (.quarantined id violations changed)) := by
  rcases settle_cases db id violations at' with ⟨changed, houtcome, -⟩ | ⟨e, houtcome⟩
  · exact ⟨changed, congrArg Prod.fst houtcome⟩
  · rw [houtcome, checkFailed] at h
    cases hexception : e.isException with
    | true =>
      rw [hexception] at h
      cases h
    | false =>
      rw [hexception] at h
      cases h

theorem clean_committed_sample : ∃ (s : CheckedVault) (r : IntegrityCheckResult), r ∈ s.results ∧
    r.state = .clean ∧ ∃ c frontmatter e, c.prediction_id.val = r.prediction_id ∧
      (CommittedEvidence c frontmatter e ∨ Collides (fun s => s) c e) := by
  obtain ⟨c, row, content, hprepared, hbytes, hrow, hstatus, hcommitted, -⟩ := staged_sample
  obtain ⟨hwriter, hreadable⟩ := sample_readable c hprepared
  have hopened := staged_opens c hrow (sampleFiles
    ⟨true, .ok (some (Bytes.encodeUtf8 (recordBytes (Json.print Json.compactStyle 0) c)))⟩
    ⟨true, .ok (some (Bytes.encodeUtf8 content))⟩) ⟨[], []⟩ rfl
  obtain ⟨hfound, -⟩ := Option.filter_eq_some_iff.mp hrow
  have hrecords := staged_records c (Registry.prediction?_some hfound).1
  have hverify := verify_published hwriter hreadable hrecords hcommitted hbytes
  have hjudge : judge sampleReader (fun s => s) (sampleEvent c ⟨[], []⟩) row
      ⟨true, .ok (some (Bytes.encodeUtf8 (recordBytes (Json.print Json.compactStyle 0) c)))⟩
      ⟨true, .ok (some (Bytes.encodeUtf8 content))⟩ = .done (some (.clean c.prediction_id)) := by
    have hopen : row.status ≠ .quarantined := by
      rw [hstatus]
      decide
    rw [judge, show verify sampleReader (fun s => s) row _ _ = _ from hverify]
    simp only [ne_eq, not_true_eq_false, if_false, if_neg hopen]
    rfl
  obtain ⟨t, hchecked, hresult⟩ := @Step.ends sampleReader Registry.sampleLibraries (fun s => s) (stagedVault c
    (sampleFiles
      ⟨true, .ok (some (Bytes.encodeUtf8 (recordBytes (Json.print Json.compactStyle 0) c)))⟩
      ⟨true, .ok (some (Bytes.encodeUtf8 content))⟩) [.opened (sampleEvent c ⟨[], []⟩) row
      ⟨true, .ok (some (Bytes.encodeUtf8 (recordBytes (Json.print Json.compactStyle 0) c)))⟩])
    _ _ rfl hjudge
  refine ⟨t, _, hresult, rfl, ?_⟩
  obtain ⟨c, _, _, frontmatter, e, hid, -, -, -, -, hcommits⟩ :=
    clean_committed (hopened.snoc hchecked) (by
      intro x hx call hcall d hd
      simp only [List.mem_append, List.mem_cons, List.not_mem_nil, or_false] at hx
      rcases hx with (rfl | rfl | rfl) | rfl
      · cases hcall
        exact staging_stages hd ▸ hwriter
      all_goals cases hcall) hresult rfl
  exact ⟨c, frontmatter, e, hid, hcommits⟩

end CheckedVault

end Pine
