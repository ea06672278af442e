import Pine.Core.Keyset
import Pine.Ledger.Reading.Cursor
import Pine.Ledger.Reading.Run
import Pine.Ledger.Registry.Evolution

/-!
# The prediction list

A page of the prediction list is read in batches of registry rows. Every row is summarised on
its own, from the registry as it is by then, and the strategy filter is applied to the summary.
The page ends with a cursor when one more prediction than it holds was found.
-/

namespace Pine

/-- Why the evidence of a listed prediction failed verification. -/
inductive IntegrityReason where
  | registry_unverified
  | record_unverified
  | schema_unverified
  | snapshot_unverified
  | run_unverified
  | result_unverified
  | quarantined
  deriving DecidableEq

/-- What a summary shows of verified evidence. -/
structure VerifiedEvidence where
  strategy_id : Text
  out_of_sample_window : DateWindow
  run_state : RunState
  result_state : ResultState
  deriving DecidableEq

/-- One item of the list; without a reason its integrity state is verified. -/
structure PredictionSummary where
  prediction_id : Text
  run_id : Text
  registration_status : RegistrationStatus
  status : PredictionStatus
  strategy_id : Option Text
  schema_id : Text
  out_of_sample_window : Option DateWindow
  created_at : Option DateTime
  committed_at : Option DateTime
  run_state : Option RunState
  result_state : ResultState
  integrity_reason : Option IntegrityReason
  deriving DecidableEq

structure PredictionPage where
  items : List PredictionSummary
  next_cursor : Option Text
  deriving DecidableEq

/-! ## Keys -/

/-- The columns that the list is sorted by: the UTC commit time and the id. -/
structure SortKey where
  committed_at : Text
  prediction_id : Text
  deriving DecidableEq

namespace SortKey

/-- The order of the two text columns. -/
def le (a b : SortKey) : Bool :=
  !textLe b.committed_at a.committed_at ||
    (a.committed_at == b.committed_at && textLe a.prediction_id b.prediction_id)

theorem le_iff {a b : SortKey} : le a b = true ↔ textLe b.committed_at a.committed_at = false ∨
    a.committed_at = b.committed_at ∧ textLe a.prediction_id b.prediction_id = true := by
  simp [le]

theorem le_total (a b : SortKey) : le a b = true ∨ le b a = true := by
  rw [le_iff, le_iff]
  by_cases hab : textLe a.committed_at b.committed_at = true
  · by_cases hba : textLe b.committed_at a.committed_at = true
    · have heq := textLe_antisymm hab hba
      rcases textLe_total a.prediction_id b.prediction_id with hid | hid
      · exact Or.inl (Or.inr ⟨heq, hid⟩)
      · exact Or.inr (Or.inr ⟨heq.symm, hid⟩)
    · exact Or.inl (Or.inl (Bool.eq_false_iff.mpr hba))
  · exact Or.inr (Or.inl (Bool.eq_false_iff.mpr hab))

theorem le_trans {a b c : SortKey} (hab : le a b = true) (hbc : le b c = true) :
    le a c = true := by
  rw [le_iff] at hab hbc ⊢
  have hless : ∀ {s t : Text}, textLe t s = false → textLe s t = true := fun {s t} h =>
    (textLe_total s t).resolve_right (by simp [h])
  rcases hab with hab | ⟨hab, hid⟩
  · left
    rcases hbc with hbc | ⟨hbc, -⟩
    · refine Bool.eq_false_iff.mpr fun hca => ?_
      exact absurd (textLe_trans hca (hless hab)) (by simp [hbc])
    · rwa [← hbc]
  · rcases hbc with hbc | ⟨hbc, hid'⟩
    · left
      rwa [hab]
    · exact Or.inr ⟨hab.trans hbc, textLe_trans hid hid'⟩

theorem le_antisymm {a b : SortKey} (hab : le a b = true) (hba : le b a = true) : a = b := by
  rw [le_iff] at hab hba
  have hless : ∀ {s t : Text}, textLe t s = false → textLe s t = true := fun {s t} h =>
    (textLe_total s t).resolve_right (by simp [h])
  rcases hab with hab | ⟨heq, hid⟩
  · rcases hba with hba | ⟨heq, -⟩
    · exact absurd (hless hba) (by simp [hab])
    · rw [heq] at hab
      exact absurd hab (by simp [textLe_self])
  · rcases hba with hba | ⟨-, hid'⟩
    · rw [heq] at hba
      exact absurd hba (by simp [textLe_self])
    · obtain ⟨committed_at, prediction_id⟩ := a
      obtain ⟨committed_at', prediction_id'⟩ := b
      obtain rfl : committed_at = committed_at' := heq
      obtain rfl : prediction_id = prediction_id' := textLe_antisymm hid hid'
      rfl

instance : LinearOrder SortKey where
  le a b := le a b = true
  le_refl a := (le_total a a).elim id id
  le_trans _ _ _ := le_trans
  le_antisymm _ _ := le_antisymm
  le_total := le_total
  toDecidableLE a b := inferInstanceAs (Decidable (le a b = true))

end SortKey

/-- A row of the list query. -/
structure ListedRow where
  prediction : PredictionRow
  committed_sort_key : Text
  run_state : Option RunState
  has_result : Bool

/-- The values of a row that the list is sorted by. -/
def ListedRow.key (row : ListedRow) : SortKey :=
  ⟨row.committed_sort_key, row.prediction.prediction_id⟩

/-! ## The query -/

namespace Registry

/-- `run_results.run_id IS NOT NULL` -/
def hasResult (db : Registry) (row : PredictionRow) : Bool :=
  db.run_results.any (·.run_id == row.run_id)

/-- The clauses of the query on the columns of a row and on its result. -/
def selects (db : Registry) (registration_status : Option RegistrationStatus)
    (status : Option PredictionStatus) (result_state : Option ResultState) (row : PredictionRow) :
    Bool :=
  row.transaction_state == .committed &&
    registration_status.all (row.registration_status == ·) &&
    (match status with
      | none => row.status != .quarantined
      | some status => row.status == status) &&
    (match result_state with
      | none => true
      | some .present => db.hasResult row
      | some .absent => !db.hasResult row)

/-- `pine_utc_timestamp(committed_at) < ? OR (... = ? AND prediction_id < ?)` -/
def afterCursor (after : Option SortKey) (key : SortKey) : Bool :=
  match after with
  | none => true
  | some cursor =>
    !textLe cursor.committed_at key.committed_at ||
      (key.committed_at == cursor.committed_at && !textLe cursor.prediction_id key.prediction_id)

/-- The columns of a selected row; a time that has no key is an error of the database. -/
def listedRow (db : Registry) (row : PredictionRow) : Except Error ListedRow := do
  let key ← required (row.committed_at.bind canonicalUtcTimestamp)
    (.sqliteError (text "user-defined function raised exception"))
  return ⟨row, key, (db.run? row.run_id).map RunRow.state, db.hasResult row⟩

/-- `list_committed_predictions` -/
def listCommittedPredictions (db : Registry) (limit : Nat)
    (registration_status : Option RegistrationStatus) (status : Option PredictionStatus)
    (result_state : Option ResultState) (after : Option SortKey) :
    Except Error (List ListedRow) := do
  refuse (¬ (1 ≤ limit ∧ limit ≤ 100))
    (.valueError (text "prediction read limit must be between 1 and 100"))
  let rows ← (db.predictions.filter (db.selects registration_status status result_state)).mapM
    db.listedRow
  return ((rows.filter fun row => afterCursor after row.key).mergeSort
    fun row next => SortKey.le next.key row.key).take limit

end Registry

/-! ## Summaries -/

/-- The rest of `_verify_bundle_in_snapshot`, which reads the registry and the files of the vault. -/
abbrev EvidenceVerifier := Registry → PredictionRow → Except IntegrityReason VerifiedEvidence

/-- `_verify_bundle_in_snapshot` -/
def verifyBundleInSnapshot (V : EvidenceVerifier) (db : Registry) (row : PredictionRow) :
    Except IntegrityReason VerifiedEvidence :=
  if row.status = .quarantined then .error .quarantined
  else if db.integrity_violations.any (·.prediction_id == row.prediction_id) = true then
    .error .quarantined
  else V db row

/-- `_verify_bundle` -/
def verifyBundle (V : EvidenceVerifier) (db : Registry) (prediction_id : Text) :
    Except IntegrityReason (PredictionRow × VerifiedEvidence) :=
  match db.prediction? prediction_id with
  | none => .error .registry_unverified
  | some row =>
    if row.transaction_state ≠ .committed then .error .registry_unverified
    else (verifyBundleInSnapshot V db row).map fun evidence => (row, evidence)

/-- `_optional_time` -/
def optionalTime (value : Option Text) : Except Error (Option DateTime) :=
  match value with
  | none => .ok none
  | some value =>
    match readTime "timestamp" value with
    | .ok parsed => .ok (some parsed)
    | .error e => if e.isIntegrityError then .ok none else .error e

/-- `_failed_summary` -/
def failedSummary (row : ListedRow) (reason : IntegrityReason) : Except Error PredictionSummary := do
  let created_at ← optionalTime (some row.prediction.created_at)
  let committed_at ← optionalTime row.prediction.committed_at
  return {
    prediction_id := row.prediction.prediction_id
    run_id := row.prediction.run_id
    registration_status := row.prediction.registration_status
    status := row.prediction.status
    strategy_id := none
    schema_id := row.prediction.schema_id
    out_of_sample_window := none
    created_at := created_at
    committed_at := committed_at
    run_state := row.run_state
    result_state := if row.has_result then .present else .absent
    integrity_reason := some reason }

/-- `_summary` -/
def summary (V : EvidenceVerifier) (db : Registry) (row : ListedRow) :
    Except Error PredictionSummary :=
  match verifyBundle V db row.prediction.prediction_id with
  | .error reason => failedSummary row reason
  | .ok (prediction, evidence) => do
    let created_at ← optionalTime (some prediction.created_at)
    let committed_at ← optionalTime prediction.committed_at
    return {
      prediction_id := prediction.prediction_id
      run_id := prediction.run_id
      registration_status := prediction.registration_status
      status := prediction.status
      strategy_id := some evidence.strategy_id
      schema_id := prediction.schema_id
      out_of_sample_window := some evidence.out_of_sample_window
      created_at := created_at
      committed_at := committed_at
      run_state := some evidence.run_state
      result_state := evidence.result_state
      integrity_reason := none }

/-! ## Pages -/

/-- What a read service is built with. -/
structure ReadService where
  mac : Bytes → Tag
  loadsOther : Bytes → Option Document
  verifier : EvidenceVerifier

/-- A summary that passed the strategy filter, with the sort key of its row. -/
abbrev Match := PredictionSummary × SortKey

/-- Where a client that follows the cursors stands: before a call, at the head of the loop of
`list_predictions`, before the next row of a batch, or at an end. -/
inductive ListPhase where
  | call (cursor : Option Text)
  | batch (matched : List Match) (after : Option SortKey)
  | row (matched : List Match) (batch_size : Nat) (rows rest : List ListedRow)
  | finished
  | raised (error : Error ⊕ ReadCursorError)

/-- The pages that a client has, and where it stands. -/
structure Listing where
  pages : List PredictionPage
  phase : ListPhase

namespace Listing

/-- Before the first call. -/
def initial : Listing := ⟨[], .call none⟩

/-- The items of all pages. -/
def items (s : Listing) : List PredictionSummary := s.pages.flatMap PredictionPage.items

variable (S : ReadService) (limit : Nat) (filters : PredictionListFilters)

/-- The end of `list_predictions`: the page, and the next call when it has a cursor. -/
def finishPage (pages : List PredictionPage) (matched : List Match) : Listing :=
  let page_items := matched.take limit
  let next_cursor :=
    if limit < matched.length then page_items.getLast?.map fun item =>
      CursorCodec.encode S.mac item.2.committed_at item.2.prediction_id filters
    else none
  ⟨pages ++ [⟨page_items.map Prod.fst, next_cursor⟩],
    match next_cursor with
    | none => .finished
    | some cursor => .call (some cursor)⟩

/-- The next thing that the client or `list_predictions` does, on the registry as it is. -/
def advance (db : Registry) (s : Listing) : Listing :=
  match s.phase with
  | .call cursor =>
    if ¬ (1 ≤ limit ∧ limit ≤ 100) then
      { s with phase := .raised (.inl (.valueError
          (text "prediction read limit must be between 1 and 100"))) }
    else match cursor with
      | none => { s with phase := .batch [] none }
      | some cursor =>
        match CursorCodec.decode S.mac S.loadsOther cursor filters with
        | .error e => { s with phase := .raised (.inr e) }
        | .ok (committed_at, prediction_id) =>
          { s with phase := .batch [] (some ⟨committed_at, prediction_id⟩) }
  | .batch matched after =>
    let batch_size := min 100 (max 25 ((limit + 1 - matched.length) * 2))
    match db.listCommittedPredictions batch_size filters.registration_status filters.status
        filters.result_state after with
    | .error e => { s with phase := .raised (.inl e) }
    | .ok [] => finishPage S limit filters s.pages matched
    | .ok rows => { s with phase := .row matched batch_size rows rows }
  | .row matched batch_size rows (row :: rest) =>
    match summary S.verifier db row with
    | .error e => { s with phase := .raised (.inl e) }
    | .ok found =>
      let matched :=
        if filters.strategy_id.all (found.strategy_id == some ·) then
          matched ++ [(found, row.key)]
        else matched
      if limit < matched.length then finishPage S limit filters s.pages matched
      else { s with phase := .row matched batch_size rows rest }
  | .row matched batch_size rows [] =>
    -- `exhausted`, or the page is full
    if rows.length < batch_size ∨ limit < matched.length then
      finishPage S limit filters s.pages matched
    else { s with phase := .batch matched (rows.getLast?.map ListedRow.key) }
  | .finished | .raised _ => s

end Listing

end Pine
