import Pine.Core.Json.Print
import Pine.Ledger.Run.Result

/-!
# Wrapper processes

Any number of processes in `_execute`, each at one of its phases, over one registry
and one lock for each run. A step is one registry transaction, one lock operation,
one executor call, or the death of a process; the transactions of the other
services interleave with them.
-/

namespace Pine

open Json (Value)

/-! ## Phases of a process -/

/-- How an execution ends. -/
inductive Ending where
  | exited (exit_code : Int)
  | interrupted
  | failed (failure_note : Text)
  | orphaned
  deriving DecidableEq

/-- The exit code that is recorded. -/
def Ending.exitCode : Ending → Int
  | exited exit_code => exit_code
  | interrupted => 130
  | failed _ | orphaned => 1

/-- The failure note that is recorded. -/
def Ending.failureNote : Ending → Option Text
  | exited exit_code => if exit_code = 0 then none
      else some (text "process exited with code " ++ Json.printInt exit_code)
  | interrupted => some (text "wrapper interrupted")
  | failed failure_note => some failure_note
  | orphaned => some (text "wrapper exited before recording process completion")

/-- What is reported once the ending is recorded: an interrupt is raised again. -/
def Ending.reports : Ending → Option Bool
  | exited _ => some true
  | interrupted => none
  | failed _ | orphaned => some false

/-- Where a process is in `_execute`. -/
inductive Phase where
  | idle
  | called (run_id : Text)
  | acquiring (run_id : Text)
  | locked (run_id : Text)
  | verified (prepared : Prepared)
  | started (prepared : Prepared)
  | executing (run_id : Text)
  | ending (run_id : Text) (ending : Ending)
  | recorded (run_id : Text) (executed : Bool)
  | releasing (run_id : Text) (result : Except Error RunResult)
  | returning (run_id : Text) (result : Except Error RunResult)

namespace Phase

/-- The run whose lock the process holds. -/
def holds : Phase → Option Text
  | locked run_id | executing run_id | ending run_id _ | recorded run_id _
  | releasing run_id _ => some run_id
  | verified prepared | started prepared => some prepared.run_id
  | idle | called _ | acquiring _ | returning _ _ => none

/-- The run that the process was called for. -/
def run? : Phase → Option Text
  | called run_id | acquiring run_id | returning run_id _ => some run_id
  | phase => phase.holds

/-- An error raised in this phase: the lock is released on the way out. -/
def raised (e : Error) : Phase → Option Phase
  | called run_id | acquiring run_id => some (returning run_id (.error e))
  | locked run_id | executing run_id | ending run_id _ | recorded run_id _ =>
      some (releasing run_id (.error e))
  | verified prepared | started prepared => some (releasing prepared.run_id (.error e))
  | idle | releasing _ _ | returning _ _ => none

end Phase

/-- The first read of `_execute`. -/
def afterRead (sha256 : Text → Text) (db : Registry) (run_id : Text) : Phase :=
  match alreadySettled sha256 db run_id with
  | some result => .returning run_id result
  | none => .acquiring run_id

/-- The read of `_execute_locked`, once the run is known to be bound and not terminal. -/
def afterUnsettled (sha256 : Text → Text) (run : RunRow) (binding : RunBindingRow) : Phase :=
  if run.state = .running then .ending run.run_id .orphaned
  else match prepare sha256 binding with
    | .ok prepared => .verified prepared
    | .error e => .releasing run.run_id (.error e)

/-- The read of `_execute_locked`. -/
def afterInspect (sha256 : Text → Text) (db : Registry) (run_id : Text) : Phase :=
  match alreadySettled sha256 db run_id, db.run? run_id, db.binding? run_id with
  | some result, _, _ => .releasing run_id result
  | none, some run, some binding => afterUnsettled sha256 run binding
  | none, _, _ => .idle

/-- The read that follows a recorded ending. -/
def afterRecorded (sha256 : Text → Text) (db : Registry) (run_id : Text) (executed : Bool) :
    Except Error RunResult :=
  match db.run? run_id, db.binding? run_id with
  | some run, some binding => runResult sha256 run binding executed
  | some _, none => .error (.integrityError (text "run envelope is not valid JSON"))
  | none, _ => .error (.integrityError (text "run disappeared: " ++ run_id))

/-! ## The other services -/

/-- A transaction of another service: operations that neither start nor finish a run, or the
ingestion of an external run. -/
inductive ServiceTransaction where
  | operations (ops : List Registry.Operation)
  | ingest (e : Registry.ExternalRun)

/-- Only the run service starts and finishes runs, and only ingestion imports them. -/
def Registry.Operation.isForeign : Registry.Operation → Bool
  | .start_run .. | .finish_run .. | .create_external_run_import _ => false
  | _ => true

/-- The import of an external run, and the check of its stored envelope that precedes the commit. -/
def ingestExternal (sha256 : Text → Text) (e : Registry.ExternalRun) : Registry.Session Unit := do
  Registry.createExternalRunImport sha256 e
  let binding ← Registry.select (·.binding? e.run_id)
  let _ ← Program.check do
    let binding ← required binding
      (.integrityError (text "external run disappeared during its import"))
    verifiedEnvelope sha256 binding

def ServiceTransaction.program (sha256 : Text → Text) : ServiceTransaction → Registry.Session Unit
  | operations ops => Registry.sequence sha256 ops
  | ingest e => ingestExternal sha256 e

def ServiceTransaction.admitted : ServiceTransaction → Bool
  | operations ops => ops.all Registry.Operation.isForeign
  | ingest _ => true

/-! ## Steps -/

/-- One executor invocation. -/
structure Invocation where
  run_id : Text
  argv : Document
  working_directory : Document
  environment : List (Text × Option Document)

/-- The registry, the holder of each lock file, the phase of each process, and the executor
invocations so far. -/
structure Wrappers (π : Type) where
  registry : Registry
  locks : Text → Option π
  phase : π → Phase
  invoked : List Invocation

namespace Wrappers

/-- What a process does. -/
inductive Move where
  | call (run_id : Text)
  | read
  | acquire
  | inspect
  | start (started_at : DateTime)
  | invoke
  | outcome (ending : Ending)
  | finish (completed_at : DateTime)
  | report
  | release
  | ret
  | raise (e : Error)
  | crash

inductive Action (π : Type) where
  | move (process : π) (move : Move)
  | service (transaction : ServiceTransaction)

variable {π : Type}

/-- Before any process was called. -/
def initial : Wrappers π := ⟨Registry.empty, fun _ => none, fun _ => .idle, []⟩

variable [DecidableEq π]

/-- The process enters a phase. -/
def enter (s : Wrappers π) (p : π) (phase : Phase) : Wrappers π :=
  { s with phase := Function.update s.phase p phase }

/-- A transaction commits. -/
def commit (s : Wrappers π) (registry : Registry) : Wrappers π := { s with registry }

/-- The executor is invoked. -/
def log (s : Wrappers π) (invocation : Invocation) : Wrappers π :=
  { s with invoked := s.invoked ++ [invocation] }

/-- The lock file changes hands. -/
def lock (s : Wrappers π) (key : Text) (holder : Option π) : Wrappers π :=
  { s with locks := Function.update s.locks key holder }

/-- The death of a process releases its locks. -/
def drop (s : Wrappers π) (p : π) : Wrappers π :=
  { s with locks := fun key => if s.locks key = some p then none else s.locks key }

/-- The lock is tried once: it is exclusive, and there is no waiting. -/
def acquire (sha256 : Text → Text) (s : Wrappers π) (p : π) (run_id : Text) : Wrappers π :=
  if s.locks (sha256 run_id) = none then (s.lock (sha256 run_id) (some p)).enter p (.locked run_id)
  else s.enter p (.returning run_id
    (.error (.runStateError (text "run is currently executing: " ++ run_id))))

/-- The transaction that claims the run. -/
def start (sha256 : Text → Text) (s : Wrappers π) (p : π) (prepared : Prepared)
    (started_at : DateTime) : Wrappers π :=
  match (Registry.startRun sha256 prepared.run_id started_at).run s.registry with
  | (.ok _, registry) => (s.commit registry).enter p (.started prepared)
  | (.error e, _) => s.enter p (.releasing prepared.run_id (.error e))

/-- The executor call, once the environment is built. -/
def invoke (s : Wrappers π) (p : π) (prepared : Prepared) : Wrappers π :=
  match executionEnvironment prepared with
  | .ok environment =>
    (s.log ⟨prepared.run_id, prepared.argv, prepared.working_directory, environment⟩).enter p
      (.executing prepared.run_id)
  | .error e => s.enter p (.releasing prepared.run_id (.error e))

/-- The transaction that records an ending. -/
def finish (s : Wrappers π) (p : π) (run_id : Text) (ending : Ending) (completed_at : DateTime) :
    Wrappers π :=
  match (Registry.finishRun run_id completed_at ending.exitCode ending.failureNote).run s.registry with
  | (.ok _, registry) => (s.commit registry).enter p (match ending.reports with
      | some executed => .recorded run_id executed
      | none => .releasing run_id (.error .keyboardInterrupt))
  | (.error e, _) => s.enter p (.releasing run_id (.error e))

/-- What a process does in its phase, if it can. -/
def advance (sha256 : Text → Text) (s : Wrappers π) (p : π) : Move → Phase → Option (Wrappers π)
  | .call run_id, .idle => some (s.enter p (.called run_id))
  | .read, .called run_id => some (s.enter p (afterRead sha256 s.registry run_id))
  | .acquire, .acquiring run_id => some (s.acquire sha256 p run_id)
  | .inspect, .locked run_id => some (s.enter p (afterInspect sha256 s.registry run_id))
  | .start started_at, .verified prepared => some (s.start sha256 p prepared started_at)
  | .invoke, .started prepared => some (s.invoke p prepared)
  | .outcome ending, .executing run_id =>
    if ending = .orphaned then none else some (s.enter p (.ending run_id ending))
  | .finish completed_at, .ending run_id ending => some (s.finish p run_id ending completed_at)
  | .report, .recorded run_id executed =>
    some (s.enter p (.releasing run_id (afterRecorded sha256 s.registry run_id executed)))
  | .release, .releasing run_id result =>
    some ((s.lock (sha256 run_id) none).enter p (.returning run_id result))
  | .ret, .returning _ _ => some (s.enter p .idle)
  | .raise e, phase => (phase.raised e).map (s.enter p)
  | .crash, _ => some ((s.drop p).enter p .idle)
  | _, _ => none

/-- A transaction of another service that commits. -/
def serve (sha256 : Text → Text) (s : Wrappers π) (t : ServiceTransaction) : Option (Wrappers π) :=
  if t.admitted then
    match (t.program sha256).run s.registry with
    | (.ok _, registry) => some (s.commit registry)
    | (.error _, _) => none
  else none

/-- One step of the system. -/
def step (sha256 : Text → Text) (s : Wrappers π) : Action π → Option (Wrappers π)
  | .move p m => s.advance sha256 p m (s.phase p)
  | .service t => s.serve sha256 t

/-- The step relation. -/
def Step (sha256 : Text → Text) (s : Wrappers π) (a : Action π) (t : Wrappers π) : Prop :=
  s.step sha256 a = some t

end Wrappers

end Pine
