import Pine.Ledger.Msm
import Pine.Ledger.Run.Result

/-!
# Preparing a run

The transaction that binds a run to its request, of both run modes: the lookup of
the idempotency key, the checks, the envelope and the binding. What it reads outside
the registry (the working directory, the clock, fresh identifiers, the snapshot
source and the committed artifacts) is given with the call.
-/

namespace Pine

open Json (Value)

/-- The shared inputs of one wrapper invocation. -/
structure RunRequest where
  idempotency_key : Text
  command : List Text
  result_evidence_path : Option Text
  key_length : 1 ≤ idempotency_key.length ∧ idempotency_key.length ≤ 256
  command_nonempty : command ≠ []

/-- A request to execute the run of a committed prediction. -/
structure PreregisteredRunRequest extends RunRequest where
  prediction_id : Text

/-- A request to execute an exploratory run. -/
structure ExploratoryRunRequest extends RunRequest where
  strategy_id : Text
  in_sample_window : DateWindow
  out_of_sample_window : DateWindow

/-- What a preparation reads outside the registry. -/
structure PrepareWorld where
  working_directory : Except Error Text
  now : DateTime
  hex : Text
  snapshot_source : Option (Except Error StrategySnapshot)
  load : PredictionRow → Except Error (StrategyEdgeForecast × StrategySnapshot)

/-- A key that is there only with its value. -/
def optionalField (key : String) (value : Option Text) : List (Text × Document) :=
  (value.map fun v => (text key, Value.str v)).toList

/-- An object with distinct literal keys, of which the last may be missing, is keyed. -/
theorem keyed_obj_optional {fs : List (Text × Document)} (keys : List String) (key : String)
    (value : Option Text) (hkeys : fs.map Prod.fst = keys.map text)
    (hnodup : ((keys ++ [key]).map text).Nodup) (hvalues : FieldsKeyed fs) :
    Keyed (.obj (fs ++ optionalField key value)) := by
  cases value with
  | none =>
    rw [List.map_append] at hnodup
    rw [optionalField, Option.map_none, Option.toList_none, List.append_nil]
    exact keyed_obj keys hkeys hnodup.of_append_left hvalues
  | some v =>
    refine keyed_obj (keys ++ [key]) ?_ hnodup (fieldsKeyed_iff.mpr fun f hf => ?_)
    · rw [List.map_append, List.map_append, hkeys]
      rfl
    · rcases List.mem_append.mp hf with hf | hf
      · exact fieldsKeyed_iff.mp hvalues f hf
      · obtain rfl := List.mem_singleton.mp hf
        trivial

/-- The `request_identity` of a preregistered run. -/
def PreregisteredRunRequest.identity (request : PreregisteredRunRequest)
    (working_directory : Text) : Document :=
  .obj ([(text "mode", .str RegistrationStatus.preregistered.value),
    (text "prediction_id", .str request.prediction_id),
    (text "command", .arr (request.command.map Value.str)),
    (text "working_directory", .str working_directory)] ++
    optionalField "result_evidence_path" request.result_evidence_path)

/-- The `request_identity` of an exploratory run. -/
def ExploratoryRunRequest.identity (request : ExploratoryRunRequest)
    (working_directory : Text) : Document :=
  .obj ([(text "mode", .str RegistrationStatus.exploratory.value),
    (text "strategy_id", .str request.strategy_id),
    (text "in_sample_window", request.in_sample_window.modelDump),
    (text "out_of_sample_window", request.out_of_sample_window.modelDump),
    (text "command", .arr (request.command.map Value.str)),
    (text "working_directory", .str working_directory)] ++
    optionalField "result_evidence_path" request.result_evidence_path)

/-- `_envelope` -/
def runEnvelope (request : RunRequest) (run_id : Text) (prediction_id : Option Text)
    (registration_status : RegistrationStatus) (strategy_id working_directory : Text)
    (snapshot : StrategySnapshot) (bound_at : DateTime)
    (prediction_immutable_hash : Option Text) : Document :=
  .obj [(text "envelope_format_version", .int 1),
    (text "run_id", .str run_id),
    (text "prediction_id", (prediction_id.map Value.str).getD .null),
    (text "registration_status", .str registration_status.value),
    (text "strategy_id", .str strategy_id),
    (text "bound_at", .str bound_at.isoformat),
    (text "prediction_immutable_hash", (prediction_immutable_hash.map Value.str).getD .null),
    (text "command", .obj ([(text "argv", .arr (request.command.map Value.str)),
      (text "working_directory", .str working_directory)] ++
      optionalField "result_evidence_path" request.result_evidence_path)),
    (text "snapshot", snapshot.modelDump.toDict)]

theorem keyed_runEnvelope (request : RunRequest) (run_id : Text) (prediction_id : Option Text)
    (registration_status : RegistrationStatus) (strategy_id working_directory : Text)
    (snapshot : StrategySnapshot) (bound_at : DateTime) (prediction_immutable_hash : Option Text) :
    Keyed (runEnvelope request run_id prediction_id registration_status strategy_id
      working_directory snapshot bound_at prediction_immutable_hash) :=
  keyed_obj ["envelope_format_version", "run_id", "prediction_id", "registration_status",
      "strategy_id", "bound_at", "prediction_immutable_hash", "command", "snapshot"] rfl (by decide)
    ⟨trivial, trivial, keyed_optionalText _, trivial, trivial, trivial, keyed_optionalText _,
      keyed_obj_optional ["argv", "working_directory"] _ _ rfl (by decide)
        ⟨keyed_strings _, trivial, trivial⟩, snapshot.modelDump.keyed, trivial⟩

/-- `_verify_snapshot_binding` -/
def verifySnapshotBinding (snapshot : StrategySnapshot) (strategy_id : Text)
    (in_sample_window out_of_sample_window : DateWindow) (decision_at : DateTime) :
    Except Error Unit := do
  refuse (snapshot.strategy_id ≠ strategy_id)
    (.integrityError (text "MSM snapshot strategy_id does not match the run"))
  refuse (snapshot.in_sample_window ≠ in_sample_window)
    (.integrityError (text "MSM snapshot in-sample window does not match the run"))
  refuse (snapshot.out_of_sample_window ≠ out_of_sample_window)
    (.integrityError (text "MSM snapshot out-of-sample window does not match the run"))
  let as_of ← required snapshot.data_as_of_version.utcInstant
    (.overflowError (text "date value out of range"))
  let decision ← required decision_at.utcInstant
    (.overflowError (text "date value out of range"))
  refuse (as_of ≠ decision)
    (.integrityError (text "MSM snapshot data_as_of_version does not match the envelope time"))

/-- The clock of the run service. -/
def runClock (now : DateTime) : Except Error DateTime := do
  refuse (now.isAware = false)
    (.integrityError (text "run clock must return a timezone-aware value"))
  return now

/-- The snapshot that the source returned, once it belongs to the request. -/
def ExploratoryRunRequest.checkSnapshot (request : ExploratoryRunRequest) (decision_at : DateTime)
    (provided : Except Error StrategySnapshot) : Except Error StrategySnapshot := do
  let snapshot ← provided
  verifySnapshotBinding snapshot request.strategy_id request.in_sample_window
    request.out_of_sample_window decision_at
  return snapshot

/-- `_capture_exploratory_snapshot` -/
def captureExploratorySnapshot (request : ExploratoryRunRequest) (decision_at : DateTime)
    (snapshot_source : Option (Except Error StrategySnapshot)) : Except Error StrategySnapshot :=
  match snapshot_source with
  | none => .error (.snapshotCaptureError
      (text "exploratory runs require a local MSM snapshot source"))
  | some provided => match request.checkSnapshot decision_at provided with
    | .ok snapshot => .ok snapshot
    | .error (.snapshotCaptureError message) => .error (.snapshotCaptureError message)
    | .error e => .error (if e.isException then
        .snapshotCaptureError (text "exploratory MSM snapshot capture failed") else e)

namespace Registry

/-- `get_run_by_idempotency_key` -/
def runByKey? (db : Registry) (idempotency_key : Text) : Option (RunRow × RunBindingRow) :=
  (db.run_bindings.find? (·.idempotency_key == idempotency_key)).bind fun binding =>
    (db.run? binding.run_id).map fun run => (run, binding)

/-- `get_run_by_prediction_id` -/
def runByPrediction? (db : Registry) (prediction_id : Text) : Option RunRow :=
  db.runs.find? (·.prediction_id == some prediction_id)

/-- `_idempotent_run` -/
def idempotentRun (idempotency_key request_hash : Text) (db : Registry) :
    Except Error (Option RunRow) :=
  match db.runByKey? idempotency_key with
  | none => .ok none
  | some (run, binding) =>
    if binding.request_hash ≠ request_hash then .error (.idempotencyConflictError
      (text "idempotency key is already bound to a different run request"))
    else .ok (some run)

variable (sha256 : Text → Text) (world : PrepareWorld)

/-- The part of `_prepare_exploratory` for a key that is not bound yet. -/
def prepareExploratoryNew (request : ExploratoryRunRequest) (working_directory request_hash : Text) :
    Session Text := do
  let bound_at ← Program.check (runClock world.now)
  let snapshot ← Program.check (captureExploratorySnapshot request bound_at world.snapshot_source)
  let run_id := text "run_" ++ world.hex
  let envelope := runEnvelope request.toRunRequest run_id none .exploratory request.strategy_id
    working_directory snapshot bound_at none
  let envelope_hash ← Program.check (sha256Json sha256 envelope)
  let envelope_json ← Program.check (canonicalJson envelope)
  createExploratoryRun run_id bound_at request.idempotency_key request_hash request.strategy_id
    snapshot.dataset_version envelope_json envelope_hash
  return run_id

/-- `_prepare_exploratory` -/
def prepareExploratory (request : ExploratoryRunRequest) : Session Text := do
  let working_directory ← Program.check world.working_directory
  let request_hash ← Program.check (sha256Json sha256 (request.identity working_directory))
  let existing ← Program.query (idempotentRun request.idempotency_key request_hash)
  match existing with
  | some run => return run.run_id
  | none => prepareExploratoryNew sha256 world request working_directory request_hash

/-- The prediction and the run of a preregistered request, when the run can be bound. -/
def preregisteredRun (prediction_id : Text) (db : Registry) :
    Except Error (PredictionRow × RunRow) := do
  let prediction ← required ((db.prediction? prediction_id).filter
      (·.transaction_state == .committed))
    (.integrityError (text "preregistered execution requires a committed prediction"))
  refuse (prediction.registration_status ≠ .preregistered) (.integrityError
    (text "only a preregistered prediction can use the preregistered run path"))
  let run ← required ((db.runByPrediction? prediction_id).filter
      (·.run_id == prediction.run_id))
    (.integrityError (text "committed prediction is missing its allocated run"))
  refuse ((db.run? run.run_id).all (·.state != .registered) = true)
    (.runStateError (text "prediction run has already started"))
  refuse ((db.binding? run.run_id).isSome = true)
    (.runStateError (text "prediction run is already bound to another request"))
  return (prediction, run)

/-- The part of `_prepare_preregistered` for a key that is not bound yet. -/
def preparePreregisteredNew (request : PreregisteredRunRequest)
    (working_directory request_hash : Text) : Session Text := do
  let found ← Program.query (preregisteredRun request.prediction_id)
  let loaded ← Program.check (world.load found.1)
  let bound_at ← Program.check (runClock world.now)
  let envelope := runEnvelope request.toRunRequest found.2.run_id (some request.prediction_id)
    .preregistered loaded.1.strategy_id working_directory loaded.2 bound_at
    (some found.1.immutable_hash)
  let envelope_hash ← Program.check (sha256Json sha256 envelope)
  let envelope_json ← Program.check (canonicalJson envelope)
  bindPreregisteredRun found.2.run_id request.idempotency_key request_hash loaded.1.strategy_id
    loaded.2.dataset_version envelope_json envelope_hash bound_at
  return found.2.run_id

/-- `_prepare_preregistered` -/
def preparePreregistered (request : PreregisteredRunRequest) : Session Text := do
  let working_directory ← Program.check world.working_directory
  let request_hash ← Program.check (sha256Json sha256 (request.identity working_directory))
  let existing ← Program.query (idempotentRun request.idempotency_key request_hash)
  match existing with
  | some run => return run.run_id
  | none => preparePreregisteredNew sha256 world request working_directory request_hash

end Registry

/-- A request to the run service. -/
inductive RunCall where
  | preregistered (request : PreregisteredRunRequest)
  | exploratory (request : ExploratoryRunRequest)

namespace RunCall

/-- The idempotency key of a call. -/
def idempotency_key : RunCall → Text
  | preregistered request => request.idempotency_key
  | exploratory request => request.idempotency_key

/-- The `request_identity` of a call. -/
def identity (working_directory : Text) : RunCall → Document
  | preregistered request => request.identity working_directory
  | exploratory request => request.identity working_directory

end RunCall

/-- The preparation of a call; the result is the id of the run that it goes on to execute. -/
def RunCall.prepare (sha256 : Text → Text) (world : PrepareWorld) : RunCall → Registry.Session Text
  | preregistered request => Registry.preparePreregistered sha256 world request
  | exploratory request => Registry.prepareExploratory sha256 world request

end Pine
