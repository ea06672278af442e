import Pine.Ledger.Registry.Running

/-!
# Run envelopes and results

What the run service reads from a stored run: the envelope that its binding
verifies, the result that it reports, the command and the environment that it
executes. A terminal run with a verified envelope always has a result.
-/

namespace Pine

open Json (Value)

open Registry (fieldText)

/-- `RegistrationStatus(value)` -/
def RegistrationStatus.ofValue (s : Text) : Option RegistrationStatus :=
  [preregistered, exploratory, imported, unregistered_external].find? (·.value == s)

theorem RegistrationStatus.ofValue_value (status : RegistrationStatus) :
    ofValue status.value = some status := by
  cases status <;> decide

/-- `_verified_envelope` -/
def verifiedEnvelope (sha256 : Text → Text) (binding : RunBindingRow) : Except Error Document := do
  let envelope ← required (Json.loads binding.envelope_json)
    (.integrityError (text "run envelope is not valid JSON"))
  refuse (envelope.isObject = false)
    (.integrityError (text "run envelope does not match its immutable hash"))
  let hash ← sha256Json sha256 envelope
  refuse (hash ≠ binding.envelope_hash)
    (.integrityError (text "run envelope does not match its immutable hash"))
  let snapshot ← required ((envelope.get? (text "snapshot")).filter Value.isObject)
    (.integrityError (text "run envelope is missing its snapshot"))
  refuse (fieldText envelope "registration_status" ≠ some binding.registration_status.value)
    (.integrityError (text "run envelope registration_status does not match its binding"))
  refuse (fieldText envelope "strategy_id" ≠ some binding.strategy_id)
    (.integrityError (text "run envelope strategy_id does not match its binding"))
  refuse (fieldText snapshot "dataset_version" ≠ some binding.dataset_version)
    (.integrityError (text "run envelope dataset_version does not match its binding"))
  return envelope

/-- Authoritative state returned after an execution or idempotent retry. -/
structure RunResult where
  run_id : Text
  prediction_id : Option Text
  registration_status : RegistrationStatus
  strategy_id : Text
  dataset_version : Text
  envelope_hash : Text
  state : RunState
  exit_code : Option Int
  failure_note : Option Text
  executed : Bool
  deriving DecidableEq

/-- `_result` -/
def runResult (sha256 : Text → Text) (run : RunRow) (binding : RunBindingRow) (executed : Bool) :
    Except Error RunResult := do
  let envelope ← verifiedEnvelope sha256 binding
  let dataset_version ← required
    (((envelope.get? (text "snapshot")).filter Value.isObject).bind
      (fieldText · "dataset_version"))
    (.integrityError (text "run envelope is missing its dataset version"))
  refuse (run.state.isTerminal = true ∧ run.exit_code = none)
    (.integrityError (text "terminal run is missing its exit code"))
  let registration_status ← required
    ((fieldText envelope "registration_status").bind RegistrationStatus.ofValue)
    (.valueError (text "not a valid RegistrationStatus"))
  let strategy_id ← required (fieldText envelope "strategy_id") (.keyError (text "strategy_id"))
  return { run_id := run.run_id, prediction_id := run.prediction_id, registration_status,
           strategy_id, dataset_version, envelope_hash := binding.envelope_hash,
           state := run.state, exit_code := run.exit_code, failure_note := run.failure_note,
           executed }

/-- The result of a stored run whose envelope verifies. -/
def storedResult (run : RunRow) (binding : RunBindingRow) (executed : Bool) : RunResult where
  run_id := run.run_id
  prediction_id := run.prediction_id
  registration_status := binding.registration_status
  strategy_id := binding.strategy_id
  dataset_version := binding.dataset_version
  envelope_hash := binding.envelope_hash
  state := run.state
  exit_code := run.exit_code
  failure_note := run.failure_note
  executed := executed

/-- The fields that a verified envelope shares with its binding. -/
theorem verifiedEnvelope_ok {sha256 : Text → Text} {binding : RunBindingRow} {envelope : Document}
    (h : verifiedEnvelope sha256 binding = .ok envelope) :
    (∃ snapshot, (envelope.get? (text "snapshot")).filter Value.isObject = some snapshot ∧
      fieldText snapshot "dataset_version" = some binding.dataset_version) ∧
    fieldText envelope "registration_status" = some binding.registration_status.value ∧
    fieldText envelope "strategy_id" = some binding.strategy_id := by
  obtain ⟨loaded, -, h⟩ := bind_eq_ok.mp h
  obtain ⟨_, -, h⟩ := bind_eq_ok.mp h
  obtain ⟨hash, -, h⟩ := bind_eq_ok.mp h
  obtain ⟨_, -, h⟩ := bind_eq_ok.mp h
  obtain ⟨snapshot, hsnapshot, h⟩ := bind_eq_ok.mp h
  obtain ⟨_, hstatus, h⟩ := bind_eq_ok.mp h
  obtain ⟨_, hstrategy, h⟩ := bind_eq_ok.mp h
  obtain ⟨_, hdataset, h⟩ := bind_eq_ok.mp h
  cases h
  exact ⟨⟨snapshot, required_ok.mp hsnapshot, not_not.mp (refuse_ok.mp hdataset)⟩,
    not_not.mp (refuse_ok.mp hstatus), not_not.mp (refuse_ok.mp hstrategy)⟩

/-- A stored run with a verified envelope has its result, unless it is terminal without exit code. -/
theorem runResult_stored {sha256 : Text → Text} {run : RunRow} {binding : RunBindingRow}
    {envelope : Document} (h : verifiedEnvelope sha256 binding = .ok envelope)
    (hexit : run.state.isTerminal = true → run.exit_code ≠ none) (executed : Bool) :
    runResult sha256 run binding executed = .ok (storedResult run binding executed) := by
  obtain ⟨⟨snapshot, hsnapshot, hdataset⟩, hstatus, hstrategy⟩ := verifiedEnvelope_ok h
  have hcomplete : ¬ (run.state.isTerminal = true ∧ run.exit_code = none) := fun hc => hexit hc.1 hc.2
  have hversion : ((envelope.get? (text "snapshot")).filter Value.isObject).bind
      (fieldText · "dataset_version") = some binding.dataset_version := by
    rw [hsnapshot, Option.bind_some, hdataset]
  have hregistration : (fieldText envelope "registration_status").bind RegistrationStatus.ofValue =
      some binding.registration_status := by
    rw [hstatus, Option.bind_some, RegistrationStatus.ofValue_value]
  refine bind_eq_ok.mpr ⟨envelope, h, ?_⟩
  refine bind_eq_ok.mpr ⟨binding.dataset_version, required_ok.mpr hversion, ?_⟩
  refine bind_eq_ok.mpr ⟨(), refuse_ok.mpr hcomplete, ?_⟩
  refine bind_eq_ok.mpr ⟨binding.registration_status, required_ok.mpr hregistration, ?_⟩
  exact bind_eq_ok.mpr ⟨binding.strategy_id, required_ok.mpr hstrategy, rfl⟩

/-! ## Command and environment -/

/-- A verified run that is about to start. -/
structure Prepared where
  run_id : Text
  envelope : Document
  envelope_hash : Text
  argv : Document
  working_directory : Document

/-- The envelope of a registered run, verified, with its command. -/
def prepare (sha256 : Text → Text) (binding : RunBindingRow) : Except Error Prepared := do
  let envelope ← verifiedEnvelope sha256 binding
  let command ← item envelope "command"
  let argv ← item command "argv"
  let working_directory ← item command "working_directory"
  return ⟨binding.run_id, envelope, binding.envelope_hash, argv, working_directory⟩

theorem prepare_ok {sha256 : Text → Text} {binding : RunBindingRow} {prepared : Prepared}
    (h : prepare sha256 binding = .ok prepared) : prepared.run_id = binding.run_id ∧
      ∃ envelope, verifiedEnvelope sha256 binding = .ok envelope := by
  obtain ⟨envelope, henvelope, h⟩ := bind_eq_ok.mp h
  obtain ⟨command, -, h⟩ := bind_eq_ok.mp h
  obtain ⟨argv, -, h⟩ := bind_eq_ok.mp h
  obtain ⟨working_directory, -, h⟩ := bind_eq_ok.mp h
  cases h
  exact ⟨rfl, envelope, henvelope⟩

/-- `value.get(key)`, when it is not `None`. -/
def present? (value : Document) (key : String) : Option Document :=
  (value.get? (text key)).filter fun v => match v with
    | .null => false
    | _ => true

/-- `_execution_environment`: the variables that are set, and those that are removed. -/
def executionEnvironment (prepared : Prepared) : Except Error (List (Text × Option Document)) := do
  let run_id ← item prepared.envelope "run_id"
  let registration_status ← item prepared.envelope "registration_status"
  let snapshot ← item prepared.envelope "snapshot"
  let dataset_version ← item snapshot "dataset_version"
  let command ← item prepared.envelope "command"
  return [(text "LEDGER_RUN_ID", some run_id),
    (text "LEDGER_REGISTRATION_STATUS", some registration_status),
    (text "LEDGER_DATASET_VERSION", some dataset_version),
    (text "LEDGER_ENVELOPE_HASH", some (.str prepared.envelope_hash)),
    (text "LEDGER_PREDICTION_ID", present? prepared.envelope "prediction_id"),
    (text "LEDGER_RESULT_EVIDENCE_PATH", present? command "result_evidence_path")]

/-! ## Runs that are already settled -/

/-- What `_execute` and `_execute_locked` do first: raise, report a terminal run, or go on. -/
def alreadySettled (sha256 : Text → Text) (db : Registry) (run_id : Text) :
    Option (Except Error RunResult) :=
  match db.run? run_id, db.binding? run_id with
  | some run, some binding =>
    if run.state.isTerminal then some (runResult sha256 run binding false) else none
  | _, _ => some (.error (.integrityError (text "run has no durable execution envelope: " ++ run_id)))

/-- The binding of the run verifies its envelope. -/
def Registry.Verified (sha256 : Text → Text) (db : Registry) (run_id : Text) : Prop :=
  ∃ binding envelope, db.binding? run_id = some binding ∧
    verifiedEnvelope sha256 binding = .ok envelope

/-- Bindings are permanent, so a verified run stays verified. -/
theorem Registry.Verified.evolves {sha256 : Text → Text} {db db' : Registry} {run_id : Text}
    (h : db.Verified sha256 run_id) (hevolves : db.Evolves db') (hk : db'.Keys) :
    db'.Verified sha256 run_id := by
  obtain ⟨binding, envelope, hbinding, hverified⟩ := h
  obtain ⟨hmem, rfl⟩ := Registry.binding?_some hbinding
  exact ⟨binding, envelope, hk.binding?_of_mem (hevolves.run_bindings.subset hmem), hverified⟩

/-- A terminal run is reported from its row, wherever it is asked for. -/
theorem alreadySettled_terminal {sha256 : Text → Text} {db : Registry} (hk : db.Keys)
    {run : RunRow} (hrun : run ∈ db.runs) (hlaw : run.Lawful) (hterminal : run.state.isTerminal = true)
    {binding : RunBindingRow} (hbinding : db.binding? run.run_id = some binding)
    {envelope : Document} (hverified : verifiedEnvelope sha256 binding = .ok envelope) :
    alreadySettled sha256 db run.run_id = some (.ok (storedResult run binding false)) := by
  obtain ⟨code, hcode⟩ := hlaw.exit_code hterminal
  have hresult := @runResult_stored sha256 run _ _ hverified
    (fun _ => by rw [hcode]; simp) false
  simp only [alreadySettled, hk.run?_of_mem hrun, hbinding, hterminal, hresult, if_true]

end Pine
