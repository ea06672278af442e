import Pine.Ledger.Registry.Lifecycle
import Pine.Ledger.Results.Ingest
import Pine.Ledger.Run.Result

/-!
# Verifying a run for the reader

`_verify_run` of the read service over one row of `runs LEFT JOIN run_bindings`, whatever
its nullable columns hold. The reader checks the lifecycle of a run anew, and compares the
run of a prediction with its envelope and its snapshot. Of a bound run that has not ended it
checks the times only: an exit code or a failure note that does not belong there passes.
-/

namespace Pine

open Json (Value)

/-- `RunState(value)` -/
def RunState.ofValue (s : Text) : Option RunState :=
  [registered, running, completed, failed].find? (·.value == s)

theorem RunState.ofValue_value (state : RunState) : ofValue state.value = some state := by
  cases state <;> decide

theorem RunState.ofValue_some {s : Text} {state : RunState} (h : ofValue s = some state) :
    s = state.value :=
  (@find?_key_some _ _ _ _ _ RunState.value s state h).2.symm

/-- A row of `runs LEFT JOIN run_bindings USING (run_id)`, as the reader finds it. -/
structure ReadRunRow where
  run_id : Text
  prediction_id : Option Text
  started_at : Text
  state : Text
  execution_started_at : Option Text
  completed_at : Option Text
  exit_code : Option Int
  failure_note : Option Text
  idempotency_key : Option Text
  request_hash : Option Text
  registration_status : Option Text
  strategy_id : Option Text
  dataset_version : Option Text
  envelope_json : Option Text
  envelope_hash : Option Text
  bound_at : Option Text
  deriving DecidableEq

/-- A joined row of the ledger, as the columns hold it. -/
def BoundRun.readRow (found : BoundRun) : ReadRunRow where
  run_id := found.run.run_id
  prediction_id := found.run.prediction_id
  started_at := found.run.started_at
  state := found.run.state.value
  execution_started_at := found.run.execution_started_at
  completed_at := found.run.completed_at
  exit_code := found.run.exit_code
  failure_note := found.run.failure_note
  idempotency_key := found.binding.map (·.idempotency_key)
  request_hash := found.binding.map (·.request_hash)
  registration_status := found.binding.map (·.registration_status.value)
  strategy_id := found.binding.map (·.strategy_id)
  dataset_version := found.binding.map (·.dataset_version)
  envelope_json := found.binding.map (·.envelope_json)
  envelope_hash := found.binding.map (·.envelope_hash)
  bound_at := found.binding.map (·.bound_at)

namespace ReadRunRow

/-- `binding_fields` -/
def bindingFields (row : ReadRunRow) : List (Option Text) :=
  [row.idempotency_key, row.request_hash, row.registration_status, row.strategy_id,
    row.dataset_version, row.envelope_json, row.envelope_hash, row.bound_at]

/-- The lifecycle columns of a row in a state. -/
def lifecycle (row : ReadRunRow) (state : RunState) : RunRow :=
  ⟨row.run_id, row.prediction_id, row.started_at, state, row.execution_started_at,
    row.completed_at, row.exit_code, row.failure_note⟩

/-- The lifecycle law, for the state that the row names. -/
def Lawful (row : ReadRunRow) : Prop :=
  ∀ state : RunState, row.state = state.value → (row.lifecycle state).Lawful

/-- A bound run that has not ended has an exit code or a failure note. -/
def Leftover (row : ReadRunRow) : Prop :=
  row.envelope_json ≠ none ∧
    (row.state = RunState.registered.value ∨ row.state = RunState.running.value) ∧
    (row.exit_code ≠ none ∨ row.failure_note ≠ none)

end ReadRunRow

/-- Verified immutable binding attached when a run is first executed. -/
structure RunBindingProjection where
  idempotency_key : Text
  request_hash : Text
  registration_status : RegistrationStatus
  strategy_id : Text
  dataset_version : Text
  envelope_hash : Text
  bound_at : DateTime

/-- Allocated run identity and lifecycle for a committed prediction. -/
structure RunProjection where
  run_id : Text
  prediction_id : Option Text
  started_at : DateTime
  state : RunState
  execution_started_at : Option DateTime
  completed_at : Option DateTime
  exit_code : Option Int
  failure_note : Option Text
  binding : Option RunBindingProjection

/-- `_parse_time` of a text column. -/
def readTime (name : String) (value : Text) : Except Error DateTime := do
  let parsed ← required (DateTime.fromisoformat value)
    (.integrityError (text name ++ text " is invalid"))
  refuse (parsed.isAware = false)
    (.integrityError (text name ++ text " must be timezone-aware"))
  required parsed.astimezoneUtc (.overflowError (text "date value out of range"))

/-- `_parse_optional_time` -/
def readOptionalTime (name : String) (value : Option Text) : Except Error (Option DateTime) :=
  match value with
  | none => .ok none
  | some s => (readTime name s).map some

/-- A column of a binding, when the binding is there. -/
def bindingColumn (value : Option Text) : Except Error Text :=
  required value (.integrityError (text "allocated run has a partial binding"))

/-- A run without a binding is as it was allocated. -/
def verifyUnbound (row : ReadRunRow) (state : RunState) : Except Error Unit := do
  refuse (row.bindingFields.any (·.isSome) = true)
    (.integrityError (text "allocated run has a partial binding"))
  refuse (state ≠ .registered ∨ row.execution_started_at ≠ none ∨ row.completed_at ≠ none ∨
      row.exit_code ≠ none ∨ row.failure_note ≠ none)
    (.integrityError (text "unbound run has invalid lifecycle state"))

/-- The lifecycle checks of a bound run. -/
def verifyBoundLifecycle (row : ReadRunRow) (state : RunState) : Except Error Unit :=
  match state with
  | .registered =>
    refuse (row.execution_started_at ≠ none ∨ row.completed_at ≠ none)
      (.integrityError (text "registered run has execution timestamps"))
  | .running =>
    refuse (row.execution_started_at = none ∨ row.completed_at ≠ none)
      (.integrityError (text "running run has invalid timestamps"))
  | .completed => do
    refuse (row.execution_started_at = none ∨ row.completed_at = none ∨ row.exit_code = none)
      (.integrityError (text "terminal run has incomplete lifecycle evidence"))
    refuse (row.exit_code ≠ some 0 ∨ row.failure_note ≠ none)
      (.integrityError (text "completed run has invalid terminal evidence"))
  | .failed => do
    refuse (row.execution_started_at = none ∨ row.completed_at = none ∨ row.exit_code = none)
      (.integrityError (text "terminal run has incomplete lifecycle evidence"))
    refuse (row.exit_code = some 0 ∧ row.failure_note = none)
      (.integrityError (text "failed run has invalid terminal evidence"))

/-- The envelope of a row, once it matches its hash. -/
def readEnvelope (sha256 : Text → Text) (envelope_json envelope_hash : Text) :
    Except Error Document := do
  let envelope ← required (Json.loads envelope_json)
    (.integrityError (text "run envelope is invalid"))
  refuse (envelope.isObject = false) (.integrityError (text "run envelope hash is invalid"))
  let hash ← sha256Json sha256 envelope
  refuse (hash ≠ envelope_hash) (.integrityError (text "run envelope hash is invalid"))
  return envelope

section

variable (L : ResultLibrary) (sha256 : Text → Text)

/-- The snapshot of an envelope is the snapshot of the prediction. -/
def compareSnapshot (envelope : Document) (snapshot : StrategySnapshot) : Except Error Unit := do
  let envelope_snapshot ← required
    (L.validateSnapshot ((envelope.get? (text "snapshot")).getD .null))
    (.valueError (text "validation errors for StrategySnapshot"))
  let bound ← canonicalJson envelope_snapshot.modelDump.toDict
  let committed ← canonicalJson snapshot.modelDump.toDict
  refuse (bound ≠ committed)
    (.integrityError (text "run snapshot differs from committed prediction snapshot"))

/-- The provenance that a binding shares with its envelope, its prediction and its snapshot. -/
def bindingProvenance (prediction : PredictionRow) (row : ReadRunRow) (envelope : Document)
    (status : RegistrationStatus) (strategy_id dataset_version : Text)
    (snapshot : StrategySnapshot) : List Bool :=
  [fieldEquals envelope "run_id" (.str row.run_id),
   fieldEquals envelope "prediction_id" (optionalText row.prediction_id),
   fieldEquals envelope "registration_status" (.str status.value),
   fieldEquals envelope "strategy_id" (.str strategy_id) && strategy_id == snapshot.strategy_id,
   dataset_version == snapshot.dataset_version,
   status.value == prediction.registration_status.value]

/-- The binding of a bound run. -/
def verifyBinding (prediction : PredictionRow) (row : ReadRunRow) (snapshot : StrategySnapshot) :
    Except Error RunBindingProjection := do
  let idempotency_key ← bindingColumn row.idempotency_key
  let request_hash ← bindingColumn row.request_hash
  let stored_status ← bindingColumn row.registration_status
  let strategy_id ← bindingColumn row.strategy_id
  let dataset_version ← bindingColumn row.dataset_version
  let envelope_json ← bindingColumn row.envelope_json
  let envelope_hash ← bindingColumn row.envelope_hash
  let bound_at ← bindingColumn row.bound_at
  let envelope ← readEnvelope sha256 envelope_json envelope_hash
  compareSnapshot L envelope snapshot
  let registration_status ← required (RegistrationStatus.ofValue stored_status)
    (.valueError (text "not a valid RegistrationStatus"))
  refuse ((bindingProvenance prediction row envelope registration_status strategy_id
      dataset_version snapshot).all id = false)
    (.integrityError (text "run binding provenance is invalid"))
  let bound_at ← readTime "run bound_at" bound_at
  return ⟨idempotency_key, request_hash, registration_status, strategy_id, dataset_version,
    envelope_hash, bound_at⟩

/-- The binding of a run, and its lifecycle. -/
def verifyBoundOrNot (prediction : PredictionRow) (row : ReadRunRow) (state : RunState)
    (snapshot : StrategySnapshot) : Except Error (Option RunBindingProjection) :=
  if row.envelope_json = none then do
    verifyUnbound row state
    return none
  else do
    let binding ← verifyBinding L sha256 prediction row snapshot
    verifyBoundLifecycle row state
    return some binding

/-- The run that is allocated to a prediction. -/
def allocatedRow (prediction : PredictionRow) (run : Option ReadRunRow) : Except Error ReadRunRow :=
  required (run.filter fun row => row.run_id == prediction.run_id &&
      row.prediction_id == some prediction.prediction_id)
    (.integrityError (text "prediction is missing its allocated run"))

/-- `_verify_run` -/
def verifyRun (prediction : PredictionRow) (run : Option ReadRunRow) (snapshot : StrategySnapshot) :
    Except Error RunProjection := do
  let row ← allocatedRow prediction run
  let state ← required (RunState.ofValue row.state) (.valueError (text "not a valid RunState"))
  let started_at ← readTime "run started_at" row.started_at
  let execution_started_at ← readOptionalTime "run execution_started_at" row.execution_started_at
  let completed_at ← readOptionalTime "run completed_at" row.completed_at
  let binding ← verifyBoundOrNot L sha256 prediction row state snapshot
  return ⟨row.run_id, row.prediction_id, started_at, state, execution_started_at, completed_at,
    row.exit_code, row.failure_note, binding⟩

end

/-! ## What the reader accepts -/

section

variable {L : ResultLibrary} {sha256 : Text → Text} {prediction : PredictionRow}
  {row : ReadRunRow} {snapshot : StrategySnapshot}

/-- What an accepted row passed. -/
theorem verifyRun_ok {projection : RunProjection}
    (h : verifyRun L sha256 prediction (some row) snapshot = .ok projection) :
    ∃ state binding, row.state = state.value ∧
      verifyBoundOrNot L sha256 prediction row state snapshot = .ok binding := by
  obtain ⟨found, hfound, h⟩ := bind_eq_ok.mp h
  obtain ⟨state, hstate, h⟩ := bind_eq_ok.mp h
  obtain ⟨_, -, h⟩ := bind_eq_ok.mp h
  obtain ⟨_, -, h⟩ := bind_eq_ok.mp h
  obtain ⟨_, -, h⟩ := bind_eq_ok.mp h
  obtain ⟨binding, hbinding, -⟩ := bind_eq_ok.mp h
  obtain ⟨hsame, -⟩ := Option.filter_eq_some_iff.mp (required_ok.mp hfound)
  cases hsame
  exact ⟨state, binding, RunState.ofValue_some (required_ok.mp hstate), hbinding⟩

/-- A row names one state. -/
theorem ReadRunRow.lawful_iff {state : RunState} (h : row.state = state.value) :
    row.Lawful ↔ (row.lifecycle state).Lawful := by
  refine ⟨fun hlaw => hlaw state h, fun hlaw other hother => ?_⟩
  obtain rfl := RunState.value_inj (h.symm.trans hother)
  exact hlaw

/-- The checks of an unbound run are the lifecycle law of a registered one. -/
theorem verifyUnbound_lawful {state : RunState} (h : verifyUnbound row state = .ok ()) :
    (row.lifecycle state).Lawful := by
  obtain ⟨_, -, h⟩ := bind_eq_ok.mp h
  have hlaw := refuse_ok.mp h
  simp only [not_or, not_not] at hlaw
  obtain ⟨rfl, hstarted, hcompleted, hexit, hnote⟩ := hlaw
  exact ⟨hstarted, hcompleted, hexit, hnote⟩

/-- The checks of a bound run are the lifecycle law, but for what a run that has not ended may
have left over. -/
theorem verifyBoundLifecycle_lawful {state : RunState} (hstate : row.state = state.value)
    (hbound : row.envelope_json ≠ none) (h : verifyBoundLifecycle row state = .ok ()) :
    (row.lifecycle state).Lawful ↔ ¬ row.Leftover := by
  have hopen (hopen : state = .registered ∨ state = .running) :
      row.Leftover ↔ row.exit_code ≠ none ∨ row.failure_note ≠ none := by
    have hnames : row.state = RunState.registered.value ∨ row.state = RunState.running.value := by
      rcases hopen with rfl | rfl
      · exact .inl hstate
      · exact .inr hstate
    exact ⟨fun hleft => hleft.2.2, fun hleft => ⟨hbound, hnames, hleft⟩⟩
  have hended (hregistered : state ≠ .registered) (hrunning : state ≠ .running) :
      ¬ row.Leftover := by
    rintro ⟨-, hname | hname, -⟩
    · exact hregistered (RunState.value_inj (hstate.symm.trans hname))
    · exact hrunning (RunState.value_inj (hstate.symm.trans hname))
  cases state with
  | registered =>
    have hpassed := refuse_ok.mp h
    rw [hopen (.inl rfl)]
    simp only [not_or, not_not] at hpassed ⊢
    exact ⟨fun hlaw => hlaw.2.2, fun hclean => ⟨hpassed.1, hpassed.2, hclean⟩⟩
  | running =>
    have hpassed := refuse_ok.mp h
    rw [hopen (.inr rfl)]
    simp only [not_or, not_not] at hpassed ⊢
    exact ⟨fun hlaw => hlaw.2.2, fun hclean => ⟨hpassed.1, hpassed.2, hclean⟩⟩
  | completed =>
    obtain ⟨_, hcomplete, hlast⟩ := bind_eq_ok.mp h
    have htimes := refuse_ok.mp hcomplete
    have hterminal := refuse_ok.mp hlast
    simp only [not_or, not_not] at htimes hterminal
    exact iff_of_true ⟨htimes.1, htimes.2.1, hterminal⟩ (hended nofun nofun)
  | failed =>
    obtain ⟨_, hcomplete, hlast⟩ := bind_eq_ok.mp h
    have htimes := refuse_ok.mp hcomplete
    have hterminal := refuse_ok.mp hlast
    simp only [not_or] at htimes
    obtain ⟨code, hcode⟩ := Option.ne_none_iff_exists'.mp htimes.2.2
    refine iff_of_true ⟨htimes.1, htimes.2.1, code, hcode, ?_⟩ (hended nofun nofun)
    rw [hcode, Option.some.injEq] at hterminal
    exact not_and_or.mp hterminal

/-- An accepted row obeys the lifecycle law exactly when it has nothing left over. -/
theorem verifyRun_lawful_iff {projection : RunProjection}
    (h : verifyRun L sha256 prediction (some row) snapshot = .ok projection) :
    row.Lawful ↔ ¬ row.Leftover := by
  obtain ⟨state, binding, hstate, hverified⟩ := verifyRun_ok h
  rw [ReadRunRow.lawful_iff hstate]
  unfold verifyBoundOrNot at hverified
  split at hverified
  · rename_i hunbound
    obtain ⟨_, hchecked, -⟩ := bind_eq_ok.mp hverified
    exact iff_of_true (verifyUnbound_lawful hchecked) fun hleft => hleft.1 hunbound
  · rename_i hbound
    obtain ⟨_, -, hrest⟩ := bind_eq_ok.mp hverified
    obtain ⟨_, hchecked, -⟩ := bind_eq_ok.mp hrest
    exact verifyBoundLifecycle_lawful hstate hbound hchecked

end

end Pine
