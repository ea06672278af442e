import Pine.Ledger.Writer.Site

/-!
# Staging, publishing and recovery

`LedgerWriter.write` step by step: every file operation, row statement and commit is
one step of a procedure, with the handlers of the source around them. Steps that only
synchronize a directory change nothing, but can still raise.
-/

namespace Pine

/-- What part of the writer a step belongs to. -/
inductive Point where
  | recovering
  | staging
  | providing
  | committing
  | handling
  | removing
  | removingArtifact
  | finalizing
  | closing
  deriving DecidableEq

/-- Steps on the site of a write. -/
abbrev Writing := Procedure Point Site Error

namespace Writing

open Procedure

/-- Lift a pure check. -/
def check {α : Type} (r : Except Error α) : Writing α := .done r

/-- A disk operation, with the error it raises when it is refused. -/
def diskEffect (operation : Disk Path Text → Option (Disk Path Text)) (e : Error) (s : Site) :
    Except Error Site :=
  match operation s.disk with
  | some disk => .ok { s with disk }
  | none => .error e

/-- One disk operation. -/
def onDisk (point : Point) (operation : Disk Path Text → Option (Disk Path Text)) (e : Error) :
    Writing Unit :=
  act point (diskEffect operation e)

theorem diskEffect_ok {operation : Disk Path Text → Option (Disk Path Text)} {e : Error}
    {s t : Site} (h : diskEffect operation e s = .ok t) :
    ∃ disk, operation s.disk = some disk ∧ t = { s with disk } := by
  unfold diskEffect at h
  split at h
  · exact ⟨_, ‹_›, (Except.ok.inj h).symm⟩
  · cases h

/-- Statements of the open transaction. -/
def sql (point : Point) (session : Registry.Session Unit) : Writing Unit :=
  act point fun s => match s.tx with
    | some db => match session.run db with
      | (.ok _, db) => .ok { s with tx := some db }
      | (.error e, _) => .error e
    | none => .error (.sqliteError (text "no transaction is active"))

/-- A read of the open transaction. -/
def query {α : Type} (point : Point) (read : Registry → Except Error α) : Writing α :=
  ask point fun s => match s.tx with
    | some db => read db
    | none => .error (.sqliteError (text "no transaction is active"))

/-- `_fsync_directory` -/
def fsync (point : Point) : Writing Unit := act point .ok

/-- `_remove_paths` -/
def removePaths (point : Point) : List Path → Writing Unit
  | [] => pure ()
  | p :: rest => do
    act point fun s => .ok (s.unlink p)
    removePaths point rest

/-- `_write_new_file` -/
def writeNewFile (p : Path) (content : Text) : Writing Unit := do
  onDisk .staging (·.create p []) (.osError (text "File exists: " ++ p.str))
  onDisk .staging (·.fill p content) (.osError (text "No such file: " ++ p.str))

/-- `_publish_no_replace` -/
def publishNoReplace (source target : Path) : Writing Unit :=
  onDisk .staging (·.link source target) (.integrityError
    (text "artifact appeared during commit; refusing to overwrite " ++ target.str))

/-- `path.unlink()` of a file that must be there. -/
def unlinkExisting (p : Path) : Writing Unit :=
  act .staging fun s => if (s.disk.get? p).isSome then .ok (s.unlink p)
    else .error (.osError (text "No such file: " ++ p.str))

end Writing

open Procedure Writing

/-! ## Recovery -/

/-- What `recover_unfinished_transactions_locked` turns into an integrity error. -/
def Error.isUnreadable : Error → Bool
  | .osError _ | .valueError _ | .keyError _ => true
  | _ => false

/-- One manifest of `recover_unfinished_transactions_locked`. -/
def recoverManifest (l : Layout) (manifest_path : Path) : Writing Unit :=
  Procedure.handle (do
    let content ← ask .recovering fun s => required ((s.disk.get? manifest_path).map File.content)
      (.osError (text "No such file: " ++ manifest_path.str))
    let paths ← ask .recovering fun s => l.recoveryPaths s.isCommitted content
    removePaths .recovering (paths ++ [manifest_path]))
  fun
    | .ok _ => pure ()
    | .error e => raise (if e.isUnreadable then
        .integrityError (text "cannot safely recover transaction " ++ manifest_path.str) else e)

/-- The manifests one after the other. -/
def recoverManifests (l : Layout) : List Path → Writing Unit
  | [] => pure ()
  | manifest_path :: rest => do
    recoverManifest l manifest_path
    recoverManifests l rest

/-- `a <= b` of paths in one directory. -/
def Path.nameLe (p q : Path) : Bool := textLe p.name q.name

/-- `recover_unfinished_transactions_locked` -/
def recoverUnfinishedTransactionsLocked (l : Layout) : Writing Unit := do
  let unfinished ← ask .recovering fun s => .ok (s.disk.paths.filter l.isManifestTemp)
  removePaths .recovering unfinished
  let manifests ← ask .recovering fun s =>
    .ok ((s.disk.paths.filter l.isManifest).insertionSort fun p q => p.nameLe q = true)
  recoverManifests l manifests

/-! ## Finalize and rollback -/

/-- `StagedWrite.finalize` -/
def finalize (w : StagedPaths) : Writing Unit := do
  removePaths .finalizing [w.record_temp, w.snapshot_temp, w.manifest_path]
  fsync .finalizing
  fsync .finalizing

/-- The artifacts that a rollback removes. -/
def ownedArtifacts (w : StagedPaths) (record_owned snapshot_owned : Bool) : List Path :=
  (if record_owned then [w.record_path] else []) ++ if snapshot_owned then [w.snapshot_path] else []

/-- `StagedWrite.rollback` -/
def rollback (w : StagedPaths) : Writing Unit := do
  let record_owned ← ask .removing fun s =>
    .ok (s.record_published || s.disk.sameFile w.record_temp w.record_path)
  let snapshot_owned ← ask .removing fun s =>
    .ok (s.snapshot_published || s.disk.sameFile w.snapshot_temp w.snapshot_path)
  removePaths .removing [w.record_temp, w.snapshot_temp, w.manifest_path]
  removePaths .removingArtifact (ownedArtifacts w record_owned snapshot_owned)
  fsync .closing
  fsync .closing

/-! ## Staging -/

/-- `_atomic_manifest_write` -/
def atomicManifestWrite (w : StagedPaths) : Writing Unit := do
  writeNewFile w.manifest_temp w.manifestText
  onDisk .staging (·.rename w.manifest_temp w.manifest_path)
    (.osError (text "No such file: " ++ w.manifest_temp.str))
  fsync .staging

/-- Publish the snapshot, and forget its temporary link. -/
def publishSnapshot (w : StagedPaths) : Writing Unit := do
  publishNoReplace w.snapshot_temp w.snapshot_path
  act .staging fun s => .ok { s with snapshot_published := true }
  unlinkExisting w.snapshot_temp
  fsync .staging

/-- Publish the record, and forget its temporary link. -/
def publishRecord (w : StagedPaths) : Writing Unit := do
  publishNoReplace w.record_temp w.record_path
  act .staging fun s => .ok { s with record_published := true }
  unlinkExisting w.record_temp
  fsync .staging

/-- The guarded part of `_stage_committed`. -/
def stageSteps (safeDump : Document → Text) (w : StagedPaths) (prediction : CommittedPrediction) :
    Writing Unit := do
  atomicManifestWrite w
  let snapshot ← check (snapshotBytes prediction)
  writeNewFile w.snapshot_temp snapshot
  writeNewFile w.record_temp (recordBytes safeDump prediction)
  sql .staging (Registry.beginPrediction prediction)
  publishSnapshot w
  publishRecord w
  sql .staging (Registry.commitPrediction prediction.prediction_id prediction.committed_at)

/-- `_stage_committed` -/
def stageCommitted (safeDump : Document → Text) (w : StagedPaths)
    (prediction : CommittedPrediction) : Writing Unit := do
  let taken ← ask .staging fun s =>
    .ok ((s.disk.get? w.record_path).isSome || (s.disk.get? w.snapshot_path).isSome)
  check (refuse (taken = true) (.integrityError
    (text "unregistered artifact collision; refusing to overwrite possible audit evidence")))
  act .staging fun s => .ok s.restage
  (stageSteps safeDump w prediction).handle fun
    | .ok _ => pure ()
    | .error e => do
      rollback w
      raise e

/-- `result_for_row` -/
def resultOfRow (l : Layout) (row : PredictionRow) : Writing Unit := do
  let artifacts ← ask .staging fun s => .ok ((s.disk.get? (l.recordPath row.prediction_id)).isSome &&
    (s.disk.get? (l.snapshotPath row.prediction_id)).isSome)
  check (resultForRow artifacts row)

/-- `stage_in_transaction`; the result is whether the staged write is finished already. -/
def stageWrite (safeDump : Document → Text) (w : StagedPaths) (prediction : Except Error CommittedPrediction) :
    Writing Bool := do
  let existing ← query .staging fun db => .ok (db.prediction? w.prediction_id)
  match existing with
  | some row => do
    resultOfRow w.layout row
    return true
  | none => do
    let prediction ← check prediction
    stageCommitted safeDump w prediction
    return false

/-! ## The transaction around it -/

/-- `BEGIN IMMEDIATE` on a new connection. -/
def beginImmediate : Writing Unit :=
  act .staging fun s => match s.tx with
    | none => .ok { s with tx := some s.registry }
    | some _ => .error (.sqliteError (text "database is locked"))

/-- The staged write was returned to the caller. -/
def assignStaged (finished : Bool) : Writing Unit :=
  act .staging fun s => .ok { s with staged := some finished }

/-- `connection.commit()`: an error can still follow the durable commit. -/
def commit : Writing Unit := do
  act .committing fun s => match s.tx with
    | some db => .ok { s with registry := db, tx := none }
    | none => .error (.sqliteError (text "no transaction is active"))
  fsync .committing

/-- `is_committed` in a handler: a failing query leaves the answer open. -/
def askCommitted (prediction_id : Text) : Writing (Option Bool) :=
  (ask .handling fun s => .ok (s.isCommitted prediction_id)).handle fun
    | .ok committed => pure (some committed)
    | .error e => if e.isException then pure none else raise e

/-- Finalize what was committed and roll back what was not; when that is unknown, recovery will. -/
def settleStaged (w : StagedPaths) : Writing Unit := do
  let committed ← askCommitted w.prediction_id
  match committed with
  | some true => finalize w
  | some false => rollback w
  | none => pure ()

/-- `except BaseException` of a write. -/
def exceptWrite (w : StagedPaths) (e : Error) : Writing Unit := do
  act .handling fun s => .ok { s with tx := none }
  let staged ← ask .handling fun s => .ok s.staged
  match staged with
  | some false => do
    settleStaged w
    raise e
  | _ => raise e

/-- `try: ... except: ... else: ... finally: connection.close()` -/
def guarded (w : StagedPaths) (body : Writing Bool) : Writing Unit :=
  (body.handle fun
    | .ok finished => if finished then pure () else finalize w
    | .error e => exceptWrite w e).handle fun r => do
      act .closing fun s => .ok { s with tx := none }
      check r

/-- The guarded part of `write`. -/
def writeSteps (safeDump : Document → Text) (w : StagedPaths)
    (prediction : Except Error CommittedPrediction) : Writing Bool := do
  beginImmediate
  let finished ← stageWrite safeDump w prediction
  assignStaged finished
  commit
  return finished

/-- `self.registry.connect()`, with nothing staged yet. -/
def connect : Writing Unit := act .staging fun s => .ok { s with staged := none }

/-- `write`, of a draft that was prepared or refused. -/
def write (safeDump : Document → Text) (w : StagedPaths) (prediction : Except Error CommittedPrediction) :
    Writing Unit := do
  recoverUnfinishedTransactionsLocked w.layout
  connect
  guarded w (writeSteps safeDump w prediction)

end Pine
