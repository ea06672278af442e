import Pine.Ledger.Run.Execution

/-!
# Creating a backup

Any number of calls of `create_backup` beside the run processes and the other services,
over one registry. A call holds the ledger lock while it asks for running runs, copies
the database and copies the files; it publishes the copy afterwards, with one rename.
Nothing in it takes the lock of a run.
-/

namespace Pine

/-- Where a call of `create_backup` is, with its copy of the registry once it is made. -/
inductive BackupPhase where
  | idle
  | called
  | locked
  | checked
  | copied (registry : Registry)
  | unlocked (registry : Registry)
  | published (registry : Registry)
  | failed (e : Error)
  | dead

namespace BackupPhase

/-- The call stands between its check and its copy. -/
def isChecked : BackupPhase → Bool
  | checked => true
  | _ => false

/-- An error raised in this phase: the temporary directory is removed, and so is a backup that
does not verify once it is published. -/
def raised (e : Error) : BackupPhase → Option BackupPhase
  | called | locked | checked | copied _ | unlocked _ | published _ => some (failed e)
  | idle | failed _ | dead => none

/-- The death of the process: what is published stays. -/
def killed : BackupPhase → Option BackupPhase
  | called | locked | checked | copied _ | unlocked _ => some dead
  | idle | published _ | failed _ | dead => none

end BackupPhase

/-- `SELECT count(*) FROM runs WHERE state = 'running'` -/
def Registry.runningRuns (db : Registry) : Nat :=
  db.runs.countP (·.state == .running)

/-! ## The ledger lock -/

/-- The operations whose service holds the ledger lock. -/
def Registry.Operation.locksLedger : Registry.Operation → Bool
  | .begin_prediction .. | .commit_prediction .. | .register_capture_request ..
  | .create_exploratory_run .. | .bind_preregistered_run .. | .create_external_run_import ..
  | .create_run_result .. => true
  | _ => false

/-- The transactions that are executed under the ledger lock. -/
def ServiceTransaction.locksLedger : ServiceTransaction → Bool
  | operations ops => ops.any Registry.Operation.locksLedger
  | ingest _ => true

/-- Starting and finishing a run needs no ledger lock. -/
def Wrappers.Action.locksLedger {π : Type} : Wrappers.Action π → Bool
  | .move .. => false
  | .service transaction => transaction.locksLedger

/-! ## Steps -/

/-- The run processes and their registry, the call that holds the ledger lock, and the phase of each
call. -/
structure Backups (π β : Type) where
  wrappers : Wrappers π
  ledger_lock : Option β
  phase : β → BackupPhase

namespace Backups

/-- What a call does. -/
inductive Move where
  | call
  | acquire
  | check
  | copy
  | release
  | publish
  | raise (e : Error)
  | kill

inductive Action (π β : Type) where
  | other (action : Wrappers.Action π)
  | backup (call : β) (move : Move)

variable {π β : Type}

/-- Before anything happened. -/
def initial : Backups π β := ⟨Wrappers.initial, none, fun _ => .idle⟩

variable [DecidableEq π] [DecidableEq β]

/-- The call enters a phase. -/
def enter (s : Backups π β) (b : β) (phase : BackupPhase) : Backups π β :=
  { s with phase := Function.update s.phase b phase }

/-- The call takes the ledger lock. -/
def lock (s : Backups π β) (b : β) : Backups π β := { s with ledger_lock := some b }

/-- The call gives the ledger lock back, if it holds it. -/
def unlock (s : Backups π β) (b : β) : Backups π β :=
  { s with ledger_lock := if s.ledger_lock = some b then none else s.ledger_lock }

/-- The answer to the question for running runs. -/
def check (s : Backups π β) (b : β) : Backups π β :=
  if s.wrappers.registry.runningRuns = 0 then s.enter b .checked
  else (s.unlock b).enter b
    (.failed (.integrityError (text "cannot back up the vault while an MSM run is active")))

/-- What a call does in its phase, if it can. -/
def advance (s : Backups π β) (b : β) : Move → BackupPhase → Option (Backups π β)
  | .call, .idle => some (s.enter b .called)
  | .acquire, .called => if s.ledger_lock = none then some ((s.lock b).enter b .locked) else none
  | .check, .locked => some (s.check b)
  | .copy, .checked => some (s.enter b (.copied s.wrappers.registry))
  | .release, .copied registry => some ((s.unlock b).enter b (.unlocked registry))
  | .publish, .unlocked registry => some (s.enter b (.published registry))
  | .raise e, phase => (phase.raised e).map ((s.unlock b).enter b)
  | .kill, phase => phase.killed.map ((s.unlock b).enter b)
  | _, _ => none

/-- A step of a run process or of another service: it waits for the ledger lock if it needs it. -/
def serve (sha256 : Text → Text) (s : Backups π β) (action : Wrappers.Action π) :
    Option (Backups π β) :=
  if action.locksLedger = true ∧ s.ledger_lock ≠ none then none
  else (s.wrappers.step sha256 action).map fun wrappers => { s with wrappers }

/-- One step of the system. -/
def step (sha256 : Text → Text) (s : Backups π β) : Action π β → Option (Backups π β)
  | .other action => s.serve sha256 action
  | .backup b move => s.advance b move (s.phase b)

/-- The step relation. -/
def Step (sha256 : Text → Text) (s : Backups π β) (a : Action π β) (t : Backups π β) : Prop :=
  s.step sha256 a = some t

end Backups

end Pine
