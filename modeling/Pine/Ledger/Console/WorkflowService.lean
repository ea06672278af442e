import Pine.Ledger.Console.Store

/-!
# The workflow service

The processes of the console over one workflow database. Each executes store
operations as interleaved transactions; a confirmation or a retry then sends the
stored request to the backend once, and records what became of it. Any process may
die at any time, and any process may recover abandoned workflows or clean up.
-/

namespace Pine

/-- Safe workflow outcome inferred from a validated backend failure. -/
inductive FailureDisposition where
  | terminal
  | retryable
  | uncertain
  deriving DecidableEq

/-- The codes of failures that end a workflow. -/
def terminalCodes : List String :=
  ["invalid_request", "schema_not_found", "invalid_forecast", "fresh_window_conflict",
    "idempotency_conflict", "integrity_error"]

/-- The codes of failures after which the request may be sent again. -/
def retryableCodes : List String := ["snapshot_unavailable", "unauthorized"]

/-- `BackendDomainError.disposition` -/
def disposition (code : Text) : FailureDisposition :=
  if terminalCodes.any (text · == code) then .terminal
  else if retryableCodes.any (text · == code) then .retryable
  else .uncertain

/-- `_failure_state` -/
def failureState : FailureDisposition → WorkflowState
  | .terminal => .terminal_failure
  | .retryable => .retryable_failure
  | .uncertain => .uncertain

/-- What became of one call to the backend: a validated receipt, a structured error of the
backend, a transport or protocol failure, or any other exception. -/
inductive CaptureOutcome where
  | response (receipt : CaptureResponse)
  | domainError (code : Text) (details : List Text)
  | backendError
  | exception

/-- The operation that records an outcome. -/
def CaptureOutcome.operation (workflow_id user_id : Text) : CaptureOutcome → StoreOperation
  | response receipt => .record_capture_response workflow_id user_id receipt
  | domainError code details => .record_capture_failure workflow_id user_id
      (failureState (disposition code)) code details
  | backendError => .record_capture_failure workflow_id user_id .uncertain
      (text "backend_response_unverified") [text "capture outcome requires exact replay"]
  | exception => .record_capture_failure workflow_id user_id .uncertain
      (text "console_internal_error") [text "capture outcome requires exact replay"]

/-- What a process is asked for: a store operation by itself, or one that a submission follows. -/
inductive ServiceRequest where
  | store (operation : StoreOperation)
  | confirm (workflow_id user_id : Text) (capture : CaptureArgument) (expected_version : Option Int)
  | retry (workflow_id user_id : Text) (expected_version : Option Int)

/-- The operation that a request begins with. -/
def ServiceRequest.operation : ServiceRequest → StoreOperation
  | store operation => operation
  | confirm workflow_id user_id capture version =>
    .freeze_and_begin_submission workflow_id user_id capture version
  | retry workflow_id user_id version => .begin_retry workflow_id user_id version

/-- Where a process stands. -/
inductive ConsolePhase where
  | idle
  | requesting (request : ServiceRequest)
  | submitting (workflow : ConsoleWorkflow) (user_id : Text)
  | awaiting (workflow : ConsoleWorkflow) (user_id : Text)
  | classified (workflow : ConsoleWorkflow) (user_id : Text) (outcome : CaptureOutcome)
  | recording (workflow : ConsoleWorkflow) (user_id : Text) (outcome : CaptureOutcome)

/-- A call that was sent to the backend. -/
structure CaptureCall where
  workflow_id : Text
  request : PreregisteredCaptureRequest

/-- The console: its database, its processes, how many UUIDs were drawn, and the calls sent. -/
structure Console (π : Type) where
  database : Transaction.State π (List WorkflowRow) ConsoleError StoreResult
  phase : π → ConsolePhase
  draws : Nat
  calls : List CaptureCall

/-- What can happen to the console. -/
inductive ConsoleAction (π : Type) where
  | begin (process : π) (request : ServiceRequest) (world : StoreWorld)
  | record (process : π) (world : StoreWorld)
  | advance
  | commit
  | abort
  | send (process : π)
  | settle (process : π) (outcome : CaptureOutcome)
  | crash (process : π)

/-- How many UUIDs an operation draws. -/
def StoreOperation.draws : StoreOperation → Nat
  | create_workflow _ _ _ => 2
  | _ => 0

/-- The world of an operation whose UUIDs are the next ones. -/
def StoreWorld.drawing (S : StoreWorld) (uuid : Nat → Text) (draws : Nat) : StoreWorld :=
  { S with uuid_factory := fun i => uuid (draws + i) }

/-- The submission that follows the committed operation of a confirmation or a retry. -/
def submissionOf (L : ConsoleLibrary) (user_id : Text) (retry : Bool) : StoreResult → ConsolePhase
  | .workflow row => match workflowFromRow L row with
    | .ok workflow =>
      if !retry && workflow.state == .committed then .idle else .submitting workflow user_id
    | .error _ => .idle
  | _ => .idle

/-- A failure to record a receipt is caught, and recorded as an outcome of its own. -/
def afterFailure (workflow : ConsoleWorkflow) (user_id : Text) : CaptureOutcome → ConsolePhase
  | .response _ => .classified workflow user_id .exception
  | _ => .idle

/-- Where a process stands after its transaction was committed. -/
def ConsolePhase.afterCommit (L : ConsoleLibrary) (result : StoreResult) : ConsolePhase → ConsolePhase
  | requesting (.confirm _ user_id _ _) => submissionOf L user_id false result
  | requesting (.retry _ user_id _) => submissionOf L user_id true result
  | recording workflow user_id outcome => match result with
    | .workflow row => match workflowFromRow L row with
      | .ok _ => .idle
      | .error _ => afterFailure workflow user_id outcome
    | _ => .idle
  | _ => .idle

/-- Where a process stands after its transaction raised and was rolled back. -/
def ConsolePhase.afterAbort : ConsolePhase → ConsolePhase
  | recording workflow user_id outcome => afterFailure workflow user_id outcome
  | _ => .idle

namespace Console

variable {π : Type} [DecidableEq π]

/-- An empty database, and processes that wait for requests. -/
def initial : Console π := ⟨⟨[], none⟩, fun _ => .idle, 0, []⟩

/-- The console with one process in another phase. -/
def enter (s : Console π) (p : π) (phase : ConsolePhase) : Console π :=
  { s with phase := Function.update s.phase p phase }

/-- A process begins the transaction of an operation. -/
def begin (L : ConsoleLibrary) (uuid : Nat → Text) (s : Console π) (p : π) (operation : StoreOperation)
    (world : StoreWorld) (phase : ConsolePhase) : Option (Console π) :=
  (Transaction.next s.database
    (.begin p (operation.program L (world.drawing uuid s.draws)))).map fun database =>
      { s with database, phase := Function.update s.phase p phase,
               draws := s.draws + operation.draws }

/-- `_submit`, up to the call: the request is rebuilt from the stored one and sent. -/
def send (L : ConsoleLibrary) (s : Console π) (p : π) (workflow : ConsoleWorkflow) (user_id : Text) :
    Console π :=
  match workflow.frozen_request with
  | none => s.enter p .idle
  | some frozen => match frozen.toBackendRequest L with
    | none => s.enter p (.classified workflow user_id .exception)
    | some request =>
      { s.enter p (.awaiting workflow user_id) with
        calls := s.calls ++ [⟨workflow.workflow_id, request⟩] }

/-- The step that an action takes, when it is enabled. -/
def next (L : ConsoleLibrary) (uuid : Nat → Text) (s : Console π) :
    ConsoleAction π → Option (Console π)
  | .begin p request world => match s.phase p with
    | .idle => s.begin L uuid p request.operation world (.requesting request)
    | _ => none
  | .record p world => match s.phase p with
    | .classified workflow user_id outcome =>
      s.begin L uuid p (outcome.operation workflow.workflow_id user_id) world
        (.recording workflow user_id outcome)
    | _ => none
  | .advance => (Transaction.next s.database .advance).map fun database => { s with database }
  | .commit => match s.database.writer with
    | some ⟨p, _, copy, .done (.ok result)⟩ =>
      some ({ s with database := ⟨copy, none⟩ }.enter p ((s.phase p).afterCommit L result))
    | _ => none
  | .abort => match s.database.writer with
    | some w => some ({ s with database := ⟨s.database.committed, none⟩ }.enter w.process
        (s.phase w.process).afterAbort)
    | none => none
  | .send p => match s.phase p with
    | .submitting workflow user_id => some (s.send L p workflow user_id)
    | _ => none
  | .settle p outcome => match s.phase p with
    | .awaiting workflow user_id => some (s.enter p (.classified workflow user_id outcome))
    | _ => none
  | .crash p => match s.database.writer with
    | some w => if w.process = p then
        some ({ s with database := ⟨s.database.committed, none⟩ }.enter p .idle)
      else some (s.enter p .idle)
    | none => some (s.enter p .idle)

/-- The console as a transition system. -/
def Step (L : ConsoleLibrary) (uuid : Nat → Text) (s : Console π) (e : ConsoleAction π)
    (t : Console π) : Prop :=
  s.next L uuid e = some t

end Console

end Pine
