import Pine.Ledger.Registry.Triggers

/-!
# Console workflows

The table of capture workflows and the statements the console executes on it, with
the keys, checks and triggers that SQLite applies. What every accepted UPDATE means
for the row it changed is one predicate.
-/

namespace Pine

open Registry (enforce enforce_ok)

/-- Durable states for one console capture workflow. -/
inductive WorkflowState where
  | editing
  | extracting
  | reviewing
  | frozen
  | submitting
  | uncertain
  | retryable_failure
  | terminal_failure
  | committed
  | cancelled
  deriving DecidableEq

namespace WorkflowState

def value : WorkflowState → Text
  | editing => text "editing"
  | extracting => text "extracting"
  | reviewing => text "reviewing"
  | frozen => text "frozen"
  | submitting => text "submitting"
  | uncertain => text "uncertain"
  | retryable_failure => text "retryable_failure"
  | terminal_failure => text "terminal_failure"
  | committed => text "committed"
  | cancelled => text "cancelled"

/-- `RECONCILIATION_STATES` -/
def isReconciliation : WorkflowState → Bool
  | frozen | submitting | uncertain | retryable_failure => true
  | _ => false

/-- The states that need a frozen request. -/
def isFrozen : WorkflowState → Bool
  | frozen | submitting | uncertain | retryable_failure | terminal_failure | committed => true
  | _ => false

/-- The states that `cleanup_expired` may delete. -/
def isDisposable : WorkflowState → Bool
  | editing | reviewing | terminal_failure | committed | cancelled => true
  | _ => false

/-- The changes of state that `workflows_legal_state_transition` lets through. -/
def leadsTo : WorkflowState → WorkflowState → Bool
  | editing, extracting | editing, cancelled => true
  | extracting, editing | extracting, reviewing => true
  | reviewing, cancelled | reviewing, frozen => true
  | frozen, submitting => true
  | submitting, committed | submitting, uncertain | submitting, retryable_failure
  | submitting, terminal_failure => true
  | uncertain, submitting | retryable_failure, submitting => true
  | _, _ => false

end WorkflowState

/-- A row of `workflows`. -/
structure WorkflowRow where
  workflow_id : Text
  user_id : Text
  state : WorkflowState
  schema_id : Text
  source_text : Option Text
  proposal_json : Option Text
  idempotency_key : Text
  frozen_request_json : Option Text
  capture_response_json : Option Text
  error_code : Option Text
  error_details_json : Option Text
  created_at : Text
  updated_at : Text
  expires_at : Option Text
  version : Nat
  deriving DecidableEq

/-- The columns of `workflows` that an UPDATE sets; the version is set from the old one. -/
structure WorkflowUpdate where
  workflow_id : Option Text := none
  user_id : Option Text := none
  state : Option WorkflowState := none
  schema_id : Option Text := none
  source_text : Option (Option Text) := none
  proposal_json : Option (Option Text) := none
  idempotency_key : Option Text := none
  frozen_request_json : Option (Option Text) := none
  capture_response_json : Option (Option Text) := none
  error_code : Option (Option Text) := none
  error_details_json : Option (Option Text) := none
  created_at : Option Text := none
  updated_at : Option Text := none
  expires_at : Option (Option Text) := none
  version : Option (Nat → Nat) := none

namespace WorkflowUpdate

def apply (u : WorkflowUpdate) (r : WorkflowRow) : WorkflowRow where
  workflow_id := u.workflow_id.getD r.workflow_id
  user_id := u.user_id.getD r.user_id
  state := u.state.getD r.state
  schema_id := u.schema_id.getD r.schema_id
  source_text := u.source_text.getD r.source_text
  proposal_json := u.proposal_json.getD r.proposal_json
  idempotency_key := u.idempotency_key.getD r.idempotency_key
  frozen_request_json := u.frozen_request_json.getD r.frozen_request_json
  capture_response_json := u.capture_response_json.getD r.capture_response_json
  error_code := u.error_code.getD r.error_code
  error_details_json := u.error_details_json.getD r.error_details_json
  created_at := u.created_at.getD r.created_at
  updated_at := u.updated_at.getD r.updated_at
  expires_at := u.expires_at.getD r.expires_at
  version := u.version.getD id r.version

/-- The trigger `workflows_identity_write_once` watches these columns. -/
def namesIdentity (u : WorkflowUpdate) : Bool :=
  u.workflow_id.isSome || u.user_id.isSome || u.schema_id.isSome || u.idempotency_key.isSome ||
    u.created_at.isSome

end WorkflowUpdate

/-- `LENGTH(value) BETWEEN low AND high` -/
def lengthBetween (low high : Nat) (s : Text) : Bool :=
  decide (low ≤ sqlLength s ∧ sqlLength s ≤ high)

namespace Workflows

/-- The CHECK constraints of a row; which texts are JSON is for the database to say. -/
def checkRow (json_valid : Text → Bool) (new : WorkflowRow) : Except Error Unit :=
  enforce [
    (!new.proposal_json.all json_valid, "CHECK constraint failed: json_valid(proposal_json)"),
    (!new.frozen_request_json.all json_valid,
      "CHECK constraint failed: json_valid(frozen_request_json)"),
    (!new.capture_response_json.all json_valid,
      "CHECK constraint failed: json_valid(capture_response_json)"),
    (!new.error_details_json.all json_valid,
      "CHECK constraint failed: json_valid(error_details_json)"),
    (sqlLength new.workflow_id != 36, "CHECK constraint failed: LENGTH(workflow_id) = 36"),
    (!lengthBetween 1 320 new.user_id,
      "CHECK constraint failed: LENGTH(user_id) BETWEEN 1 AND 320"),
    (!lengthBetween 1 256 new.schema_id,
      "CHECK constraint failed: LENGTH(schema_id) BETWEEN 1 AND 256"),
    (sqlLength new.idempotency_key != 44,
      "CHECK constraint failed: LENGTH(idempotency_key) = 44"),
    (!new.source_text.all (lengthBetween 1 200000),
      "CHECK constraint failed: LENGTH(source_text) BETWEEN 1 AND 200000")]

/-- `INSERT INTO workflows`, with the trigger that makes every workflow begin in editing. -/
def insertWorkflow (json_valid : Text → Bool) (row : WorkflowRow) (rows : List WorkflowRow) :
    Except Error (List WorkflowRow) := do
  enforce [(row.state != .editing || row.source_text.isNone || row.proposal_json.isSome ||
    row.frozen_request_json.isSome || row.capture_response_json.isSome || row.error_code.isSome ||
    row.error_details_json.isSome || row.expires_at.isNone || row.version != 0,
    "console workflow must begin in editing state")]
  checkRow json_valid row
  enforce [
    (rows.any (·.workflow_id == row.workflow_id),
      "UNIQUE constraint failed: workflows.workflow_id"),
    (rows.any (·.idempotency_key == row.idempotency_key),
      "UNIQUE constraint failed: workflows.idempotency_key")]
  return rows ++ [row]

/-- The triggers that fire before an update of a row. -/
def workflowTriggers (u : WorkflowUpdate) (old new : WorkflowRow) : Except Error Unit :=
  enforce [
    (u.namesIdentity, "console workflow identity is write-once"),
    (new.version != old.version + 1, "console workflow version must increment exactly once"),
    (u.state.isSome && new.state != old.state && !old.state.leadsTo new.state,
      "illegal console workflow transition"),
    (u.frozen_request_json.isSome && old.frozen_request_json.isSome &&
      new.frozen_request_json != old.frozen_request_json, "frozen console request is write-once"),
    (u.frozen_request_json.isSome && old.frozen_request_json.isNone &&
      new.frozen_request_json.isSome && !(old.state == .reviewing && new.state == .frozen),
      "frozen request requires reviewing-to-frozen transition"),
    (u.capture_response_json.isSome && old.capture_response_json.isSome &&
      new.capture_response_json != old.capture_response_json,
      "console capture response is write-once"),
    (u.capture_response_json.isSome && old.capture_response_json.isNone &&
      new.capture_response_json.isSome && !(old.state == .submitting && new.state == .committed),
      "capture response requires submitting-to-committed transition"),
    (new.state.isFrozen && new.frozen_request_json.isNone,
      "frozen workflow state requires exact request"),
    ((new.state == .committed) != new.capture_response_json.isSome,
      "capture response is valid only for committed workflows"),
    (new.state.isReconciliation && new.expires_at.isSome, "reconciliation workflow cannot expire"),
    (new.state == .terminal_failure && new.expires_at.isNone,
      "terminal failure workflow must expire"),
    (new.state == .cancelled && (new.source_text.isSome || new.proposal_json.isSome),
      "cancelled workflow must discard transient content")]

/-- `UPDATE workflows SET ... WHERE ...`, with the number of rows it changed. -/
def updateWorkflows (json_valid : Text → Bool) (selects : WorkflowRow → Bool) (u : WorkflowUpdate)
    (rows : List WorkflowRow) : Except Error (Nat × List WorkflowRow) := do
  let updated ← Registry.updateRows selects u.apply
    (fun old new => do
      workflowTriggers u old new
      checkRow json_valid new) rows
  return ((rows.filter selects).length, updated)

/-- `DELETE FROM workflows WHERE ...`, with the number of rows it removed. -/
def deleteWorkflows (selects : WorkflowRow → Bool) (rows : List WorkflowRow) :
    Except Error (Nat × List WorkflowRow) := do
  enforce [(rows.any fun r => selects r && !r.state.isDisposable,
    "workflow state is protected from automatic cleanup")]
  return ((rows.filter selects).length, rows.filter fun r => !selects r)

end Workflows

/-! ## What an accepted statement did -/

/-- What any accepted UPDATE means for a row that it changed. -/
structure WorkflowRow.Updated (old new : WorkflowRow) : Prop where
  workflow_id : new.workflow_id = old.workflow_id
  user_id : new.user_id = old.user_id
  schema_id : new.schema_id = old.schema_id
  idempotency_key : new.idempotency_key = old.idempotency_key
  created_at : new.created_at = old.created_at
  version : new.version = old.version + 1
  transition : new.state = old.state ∨ old.state.leadsTo new.state = true
  request : ∀ f, old.frozen_request_json = some f → new.frozen_request_json = some f
  first_request : old.frozen_request_json = none → new.frozen_request_json ≠ none →
    old.state = .reviewing ∧ new.state = .frozen
  response : ∀ f, old.capture_response_json = some f → new.capture_response_json = some f
  first_response : old.capture_response_json = none → new.capture_response_json ≠ none →
    old.state = .submitting ∧ new.state = .committed
  frozen : new.state.isFrozen = true → new.frozen_request_json ≠ none
  committed : new.state = .committed ↔ new.capture_response_json ≠ none
  reconciliation : new.state.isReconciliation = true → new.expires_at = none
  terminal : new.state = .terminal_failure → new.expires_at ≠ none
  cancelled : new.state = .cancelled → new.source_text = none ∧ new.proposal_json = none

namespace Workflows

/-- A nullable column: one that is written once, and first in a transition of its own. -/
theorem column_written {column : Option (Option Text)} {old : Option Text} {enters : Bool}
    (honce : (column.isSome && old.isSome && column.getD old != old) = false)
    (hfirst : (column.isSome && old.isNone && (column.getD old).isSome && !enters) = false) :
    (∀ f, old = some f → column.getD old = some f) ∧
      (old = none → column.getD old ≠ none → enters = true) := by
  cases column with
  | none =>
    refine ⟨fun f hf => hf, fun hnone hsome => ?_⟩
    exact absurd hnone hsome
  | some new =>
    cases old with
    | none =>
      refine ⟨nofun, fun _ hsome => ?_⟩
      obtain ⟨f, hf⟩ := Option.ne_none_iff_exists'.mp hsome
      simpa [show new = some f from hf] using hfirst
    | some f =>
      refine ⟨fun g hg => ?_, nofun⟩
      have heq : new = some f := by simpa using honce
      rw [← hg]
      exact heq

/-- The triggers let through exactly the updates that `Updated` describes. -/
theorem updated_of_triggers {u : WorkflowUpdate} {r : WorkflowRow} {v : Unit}
    (h : workflowTriggers u r (u.apply r) = .ok v) : r.Updated (u.apply r) := by
  have hall := enforce_ok.mp h
  simp only [List.mem_cons, List.not_mem_nil, or_false, forall_eq_or_imp, forall_eq] at hall
  obtain ⟨hidentity, hversion, htransition, honce, hfirst, hresponse, hfirstResponse, hfrozen,
    hcommitted, hreconciliation, hterminal, hcancelled⟩ := hall
  simp only [WorkflowUpdate.namesIdentity, Bool.or_eq_false_iff, Option.isSome_eq_false_iff,
    Option.isNone_iff_eq_none] at hidentity
  obtain ⟨⟨⟨⟨hid, huser⟩, hschema⟩, hkey⟩, hcreated⟩ := hidentity
  obtain ⟨hrequest, hnew⟩ := column_written honce hfirst
  obtain ⟨hreceipt, hnewReceipt⟩ := column_written hresponse hfirstResponse
  constructor
  · simp [WorkflowUpdate.apply, hid]
  · simp [WorkflowUpdate.apply, huser]
  · simp [WorkflowUpdate.apply, hschema]
  · simp [WorkflowUpdate.apply, hkey]
  · simp [WorkflowUpdate.apply, hcreated]
  · simpa using hversion
  · cases hstate : u.state with
    | none => exact Or.inl (by simp [WorkflowUpdate.apply, hstate])
    | some state =>
      by_cases hsame : (u.apply r).state = r.state
      · exact Or.inl hsame
      · exact Or.inr (by simpa [hstate, hsame] using htransition)
  · exact hrequest
  · intro hnone hsome
    simpa using hnew hnone hsome
  · exact hreceipt
  · intro hnone hsome
    simpa using hnewReceipt hnone hsome
  · intro hstate hnone
    simp [hstate, hnone] at hfrozen
  · rw [bne_eq_false_iff_eq] at hcommitted
    rw [← beq_iff_eq, hcommitted, Option.isSome_iff_ne_none]
  · intro hstate
    simpa [hstate] using hreconciliation
  · intro hstate hnone
    simp [hstate, hnone] at hterminal
  · intro hstate
    simpa [hstate] using hcancelled

/-- What an accepted UPDATE did to the table. -/
theorem updateWorkflows_ok {json_valid : Text → Bool} {selects : WorkflowRow → Bool}
    {u : WorkflowUpdate} {rows rows' : List WorkflowRow} {n : Nat}
    (h : updateWorkflows json_valid selects u rows = .ok (n, rows')) :
    rows' = rows.map (fun r => if selects r then u.apply r else r) ∧
      n = (rows.filter selects).length ∧
      ∀ r ∈ rows, selects r = true → r.Updated (u.apply r) := by
  obtain ⟨updated, hrows, hreturn⟩ := bind_eq_ok.mp h
  obtain ⟨hmap, hall⟩ := Registry.updateRows_ok hrows
  cases hreturn
  refine ⟨hmap, rfl, fun r hr hs => ?_⟩
  obtain ⟨_, htriggers, -⟩ := bind_eq_ok.mp (hall r hr hs)
  exact updated_of_triggers htriggers

/-- What an accepted INSERT did: a new workflow begins in editing, under identities not in use. -/
theorem insertWorkflow_ok {json_valid : Text → Bool} {row : WorkflowRow}
    {rows rows' : List WorkflowRow} (h : insertWorkflow json_valid row rows = .ok rows') :
    rows' = rows ++ [row] ∧ row.state = .editing ∧ row.frozen_request_json = none ∧
      row.capture_response_json = none ∧ row.workflow_id ∉ rows.map WorkflowRow.workflow_id := by
  obtain ⟨_, htrigger, hrest⟩ := bind_eq_ok.mp h
  obtain ⟨_, -, hrest⟩ := bind_eq_ok.mp hrest
  obtain ⟨_, hunique, hreturn⟩ := bind_eq_ok.mp hrest
  have hbegins := enforce_ok.mp htrigger
  have hkeys := enforce_ok.mp hunique
  simp only [List.mem_singleton, forall_eq, Bool.or_eq_false_iff, bne_eq_false_iff_eq,
    Option.isSome_eq_false_iff, Option.isNone_iff_eq_none] at hbegins
  simp only [List.mem_cons, List.not_mem_nil, or_false, forall_eq_or_imp, forall_eq,
    List.any_eq_false, beq_iff_eq] at hkeys
  cases hreturn
  refine ⟨rfl, hbegins.1.1.1.1.1.1.1.1, hbegins.1.1.1.1.1.2, hbegins.1.1.1.1.2, ?_⟩
  intro hmem
  obtain ⟨r, hr, heq⟩ := List.mem_map.mp hmem
  exact hkeys.1 r hr heq

/-- What an accepted DELETE did: the rows it selected are gone, and all of them were disposable. -/
theorem deleteWorkflows_ok {selects : WorkflowRow → Bool} {rows rows' : List WorkflowRow} {n : Nat}
    (h : deleteWorkflows selects rows = .ok (n, rows')) :
    rows' = rows.filter (fun r => !selects r) ∧
      ∀ r ∈ rows, selects r = true → r.state.isDisposable = true := by
  obtain ⟨_, htrigger, hreturn⟩ := bind_eq_ok.mp h
  have hnone := enforce_ok.mp htrigger
  simp only [List.mem_singleton, forall_eq, List.any_eq_false] at hnone
  cases hreturn
  refine ⟨rfl, fun r hr hs => ?_⟩
  simpa [hs] using hnone r hr

end Workflows

end Pine
