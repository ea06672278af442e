import Pine.Core.Path
import Pine.Ledger.Capture.Idempotence
import Pine.Ledger.Console.BackendDetails
import Pine.Ledger.Console.WorkflowService

/-!
# The capture backend

What the console sends for a capture, how the application answers it, and what the client makes of
the answer. Losing the answer on the way, or giving up on it, is not part of this module.
-/

namespace Pine

/-! ## The application -/

/-- What the application answers to a capture, as the client reads it. -/
inductive Reply where
  | receipt (response : CaptureResponse)
  | error (status_code : Nat) (code message : Text) (details : List Text)
  deriving DecidableEq

/-- The exception handlers of the application; nobody answers after an interrupt. -/
def exceptionReply : Error → Option Reply
  | .schemaNotFoundError message => some (.error 404 (text "schema_not_found") message [])
  | .forecastValidationError errors =>
    some (.error 422 (text "invalid_forecast") (text "forecast validation failed") errors)
  | .freshWindowError message => some (.error 409 (text "fresh_window_conflict") message [])
  | .idempotencyConflictError message => some (.error 409 (text "idempotency_conflict") message [])
  | .snapshotCaptureError message => some (.error 503 (text "snapshot_unavailable") message [])
  | .integrityError message | .runStateError message =>
    some (.error 409 (text "integrity_error") message [])
  | .keyboardInterrupt => none
  | _ => some (.error 500 (text "internal_error") (text "local backend request failed") [])

/-- `path.relative_to(root).as_posix()` -/
def relativeTo (root path : Text) : Except Error Text :=
  if (root ++ ['/']).isPrefixOf path then .ok (path.drop (root.length + 1))
  else .error (.valueError (text "path is not in the subpath of the vault root"))

/-- `_capture_response` -/
def captureResponse (l : Layout) (result : WriteResult) : Except Error CaptureResponse := do
  let record_ref ← relativeTo l.vault_root result.record_path
  let snapshot_ref ← relativeTo l.vault_root result.snapshot_path
  return {
    prediction_id := result.prediction_id
    run_id := result.run_id
    record_ref
    snapshot_ref
    schema_id := result.schema_id
    schema_hash := result.schema_hash
    immutable_hash := result.immutable_hash
    created := result.created }

/-- `create_capture`, of what the capture returned or raised. -/
def createCapture (l : Layout) (captured : Except Error WriteResult) : Option Reply :=
  match captured >>= captureResponse l with
  | .ok response => some (.receipt response)
  | .error e => exceptionReply e

/-- `require_token`, of a request without the token. -/
def unauthorizedReply : Reply :=
  .error 401 (text "unauthorized") (text "a valid local backend token is required") []

/-- `request_validation_handler` -/
def validationReply (details : List Text) : Reply :=
  .error 422 (text "invalid_request") (text "request validation failed") details

/-- The request that the application reads from `canonical_json(request.model_dump())`. -/
def CaptureCall.received (L : ConsoleLibrary) (call : CaptureCall) :
    Option PreregisteredCaptureRequest :=
  match canonicalJson call.request.modelDump with
  | .ok body => (Json.loads body).bind (PreregisteredCaptureRequest.modelValidate L)
  | .error _ => none

/-! ## Handling a capture -/

/-- What happens to a capture beside its statements: it is refused without a token; the lock, the
recovery or the connection raises in front of the transaction; publishing its files raises inside;
the commit or the cleanup raises once everything is committed; or the process dies, before the
commit or after it. -/
inductive CaptureFault where
  | none
  | unauthorized
  | before (e : Error)
  | staging (e : Error)
  | after (e : Error)
  | died (committed : Bool)

/-- The answer to a body that is no request. -/
def refusal (details : List Text) : CaptureFault → Option Reply
  | .unauthorized => some unauthorizedReply
  | .died _ => none
  | _ => some (validationReply details)

/-- What the code in front of the transaction raises: an unreadable manifest is the only error of
the ledger. -/
def Error.isRecoveryError : Error → Bool
  | .integrityError _ => true
  | e => !e.isLedgerError

/-- The registry after a capture was handled, and the answer. -/
def handleCapture (l : Layout) (sha256 : Text → Text) (request : PreregisteredCaptureRequest)
    (fault : CaptureFault) (world : CaptureWorld) (db : Registry) :
    Option (Registry × Option Reply) :=
  let captured := (Registry.captureResult l sha256 request world).run db
  match fault with
  | .none => match captured with
    | (.ok result, db') => some (db', createCapture l (.ok result))
    | (.error e, _) => some (db, createCapture l (.error e))
  | .unauthorized => some (db, some unauthorizedReply)
  | .before e => if e.isRecoveryError then some (db, createCapture l (.error e)) else none
  | .staging e => if (db.capture? request.idempotency_key).isNone then
      some (db, createCapture l (.error e)) else none
  | .after e => match captured with
    | (.ok _, db') => if e.isLedgerError then none else some (db', createCapture l (.error e))
    | (.error _, _) => none
  | .died committed => match captured with
    | (.ok _, db') => some (if committed then db' else db, none)
    | (.error _, _) => some (db, none)

/-! ## The client -/

/-- `_EXPECTED_ERROR_STATUSES` -/
def _EXPECTED_ERROR_STATUSES : List (String × Nat) :=
  [("unauthorized", 401), ("invalid_request", 422), ("schema_not_found", 404),
    ("invalid_forecast", 422), ("fresh_window_conflict", 409), ("idempotency_conflict", 409),
    ("snapshot_unavailable", 503), ("integrity_error", 409), ("prediction_not_found", 404),
    ("invalid_cursor", 422), ("internal_error", 500)]

/-- `_safe_identifier` accepts the value. -/
def isSafeIdentifier (value : Text) : Bool :=
  !(value.isEmpty || value == text "." || value == text ".." || 128 < value.length ||
    value.any fun c => c == '/' || c == '\\' || c == '\x00')

/-- `_safe_relative_reference` accepts the value. -/
def isSafeReference (value : Text) : Bool :=
  !(value.isEmpty || 4096 < value.length || pathAbsolute (purePath value) ||
    pathText (purePath value) != value || (purePath value).2.any fun part =>
      part == [] || part == text "." || part == text "..")

/-- `_WireCapture` accepts the receipt. -/
def CaptureResponse.isWire (r : CaptureResponse) : Bool :=
  isSafeIdentifier r.prediction_id && isSafeIdentifier r.run_id && isSafeReference r.record_ref &&
    isSafeReference r.snapshot_ref && 1 ≤ r.schema_id.length && r.schema_id.length ≤ 256 &&
    isSha256Text r.schema_hash && isSha256Text r.immutable_hash

/-- The receipt belongs to the request. -/
def CaptureResponse.binds (r : CaptureResponse) (request : PreregisteredCaptureRequest) : Bool :=
  r.schema_id == request.schema_id && request.expected_schema_hash.all (r.schema_hash == ·) &&
    r.record_ref == text "predictions/" ++ r.prediction_id ++ text ".md" &&
    r.snapshot_ref == text ".ledger/snapshots/" ++ r.prediction_id ++ text ".json"

/-- The client's `capture`, of an answer that it received in time. -/
def clientCapture (isWord : Char → Bool) (request : PreregisteredCaptureRequest) :
    Reply → CaptureOutcome
  | .receipt response =>
    if response.isWire && response.binds request then .response response else .backendError
  | .error status_code code message details =>
    if 1 ≤ code.length ∧ code.length ≤ 128 ∧ 1 ≤ message.length ∧ message.length ≤ 2000 ∧
        _EXPECTED_ERROR_STATUSES.all fun expected =>
          text expected.1 != code || expected.2 == status_code then
      .domainError code (BackendDetails.sanitize_backend_details isWord details)
    else .backendError

/-! ## What is true of an answer -/

variable {l : Layout} {sha256 : Text → Text} {request : PreregisteredCaptureRequest}
  {fault : CaptureFault} {world : CaptureWorld} {db db' : Registry} {answer : Option Reply}

/-- An error that is none of the ledger's. -/
theorem isRecoveryError_of_foreign {e : Error} (he : e.isLedgerError = false) :
    e.isRecoveryError = true := by
  cases e <;> first | rfl | cases he

/-- No error of the ledger is raised. -/
def Foreign {α : Type} (r : Except Error α) : Prop := ∀ e, r = .error e → e.isLedgerError = false

theorem foreign_bind {α β : Type} {x : Except Error α} {f : α → Except Error β} (hx : Foreign x)
    (hf : ∀ a, Foreign (f a)) : Foreign (x >>= f) := by
  cases x with
  | ok a => exact hf a
  | error e =>
    rintro _ ⟨⟩
    exact hx e rfl

/-- Resolving a path raises no error of the ledger. -/
def Layout.ResolvesForeign (l : Layout) : Prop := ∀ raw, Foreign (l.resolve raw)

theorem foreign_required {α : Type} {value : Option α} {e : Error} (he : e.isLedgerError = false) :
    Foreign (required value e) := by
  cases value with
  | some a => exact fun _ h => by cases h
  | none =>
    rintro _ ⟨⟩
    exact he

theorem foreign_item (value : Document) (key : String) : Foreign (item value key) := by
  unfold item
  split
  · exact foreign_required rfl
  · rintro _ ⟨⟩
    rfl

theorem Layout.ResolvesForeign.managedPath {l : Layout} (h : l.ResolvesForeign) (raw : Document) :
    Foreign (l.managedPath raw) := by
  cases raw with
  | str raw =>
    refine foreign_bind (h raw) fun path => foreign_bind ?_ fun _ e he => by cases he
    unfold refuse
    split
    · rintro _ ⟨⟩
      rfl
    · exact fun _ he => by cases he
  | _ =>
    rintro _ ⟨⟩
    rfl

/-- Reading a manifest raises no error of the ledger. -/
theorem Layout.ResolvesForeign.recoveryPaths {l : Layout} (h : l.ResolvesForeign)
    (isCommitted : Text → Bool) (content : Text) : Foreign (l.recoveryPaths isCommitted content) := by
  have hpath (manifest : Document) (key : String) :
      Foreign ((item manifest key).bind l.managedPath) :=
    foreign_bind (foreign_item manifest key) h.managedPath
  refine foreign_bind (foreign_required rfl) fun manifest => foreign_bind (foreign_item _ _)
    fun prediction_id => foreign_bind (hpath _ _) fun record_temp => foreign_bind (hpath _ _)
      fun snapshot_temp => ?_
  split
  · exact fun _ he => by cases he
  · exact foreign_bind (hpath _ _) fun _ => foreign_bind (hpath _ _) fun _ _ he => by cases he

open Procedure Writing in
/-- What a recovery raises: its own error about a manifest, or none of the ledger's. -/
theorem recover_raises {l : Layout} (hresolves : l.ResolvesForeign) (s : Site) {e : Error}
    (h : ((recoverUnfinishedTransactionsLocked l).exec s).1 = .error e) :
    e.isRecoveryError = true := by
  have hone : ∀ p (s : Site) e, ((recoverManifest l p).exec s).1 = .error e →
      e.isRecoveryError = true := by
    intro p s e he
    rw [recoverManifest, exec_handle, exec_bind, exec_ask] at he
    cases hfile : s.disk.get? p with
    | none =>
      rw [hfile] at he
      cases he
      rfl
    | some f =>
      rw [hfile] at he
      simp only [required, Option.map_some, exec_bind, exec_ask] at he
      cases hpaths : l.recoveryPaths s.isCommitted f.content with
      | error raised =>
        have hforeign := hresolves.recoveryPaths s.isCommitted f.content raised hpaths
        rw [hpaths] at he
        change Except.error (if raised.isUnreadable then Error.integrityError _ else raised) = _ at he
        obtain rfl := Except.error.inj he
        split
        · rfl
        · exact isRecoveryError_of_foreign hforeign
      | ok paths =>
        obtain ⟨t, hremoved, -⟩ := exec_removePaths .recovering (paths ++ [p]) s
        rw [hpaths] at he
        dsimp only at he
        rw [hremoved] at he
        cases he
  have hall : ∀ paths (s : Site) e, ((recoverManifests l paths).exec s).1 = .error e →
      e.isRecoveryError = true := by
    intro paths
    induction paths with
    | nil =>
      intro s e he
      cases he
    | cons p rest ih =>
      intro s e he
      rw [recoverManifests, exec_bind] at he
      rcases hfirst : (recoverManifest l p).exec s with ⟨raised | u, t⟩
      · rw [hfirst] at he
        obtain rfl := Except.error.inj he
        exact hone p s raised (congrArg Prod.fst hfirst)
      · rw [hfirst] at he
        exact ih t e he
  obtain ⟨t, hremoved, -⟩ :=
    exec_removePaths .recovering (s.disk.paths.filter l.isManifestTemp) s
  rw [recoverUnfinishedTransactionsLocked, exec_bind, exec_ask] at h
  simp only [exec_bind, hremoved, exec_ask] at h
  exact hall _ t e h

/-- An error is answered as an error. -/
theorem exceptionReply_ne_receipt (e : Error) (response : CaptureResponse) :
    exceptionReply e ≠ some (.receipt response) := by
  cases e <;> exact fun h => by cases h

/-- An error that is none of the ledger's does not end a workflow. -/
theorem exceptionReply_foreign {e : Error} (he : e.isLedgerError = false) {status_code : Nat}
    {code message : Text} {details : List Text}
    (h : exceptionReply e = some (.error status_code code message details)) :
    disposition code ≠ .terminal := by
  cases e with
  | integrityError | schemaNotFoundError | forecastValidationError | freshWindowError
  | idempotencyConflictError | snapshotCaptureError | runStateError => cases he
  | keyboardInterrupt => cases h
  | valueError | typeError | keyError | overflowError | osError | sqliteError | otherException =>
    cases h
    decide

/-- Of the errors in front of the transaction, only an unreadable manifest ends a workflow. -/
theorem exceptionReply_recovery {e : Error} (he : e.isRecoveryError = true) {status_code : Nat}
    {code message : Text} {details : List Text}
    (h : exceptionReply e = some (.error status_code code message details))
    (hcode : disposition code = .terminal) : code = text "integrity_error" := by
  cases hledger : e.isLedgerError with
  | false => exact absurd hcode (exceptionReply_foreign hledger h)
  | true =>
    cases e with
    | integrityError message =>
      cases h
      rfl
    | schemaNotFoundError | forecastValidationError | freshWindowError | idempotencyConflictError
    | snapshotCaptureError | runStateError => cases he
    | valueError | typeError | keyError | overflowError | osError | sqliteError | keyboardInterrupt
    | otherException => cases hledger

/-- A result that cannot be answered with a receipt does not end a workflow. -/
theorem createCapture_ok_terminal {result : WriteResult} {status_code : Nat} {code message : Text}
    {details : List Text}
    (h : createCapture l (.ok result) = some (.error status_code code message details)) :
    disposition code ≠ .terminal := by
  have hraises : ∀ root path e, relativeTo root path = .error e →
      e = .valueError (text "path is not in the subpath of the vault root") := by
    intro root path e he
    unfold relativeTo at he
    split at he
    · cases he
    · exact (Except.error.inj he).symm
  unfold createCapture at h
  change (match captureResponse l result with
    | .ok response => some (Reply.receipt response)
    | .error e => exceptionReply e) = _ at h
  unfold captureResponse at h
  cases hrecord : relativeTo l.vault_root result.record_path with
  | error e =>
    obtain rfl := hraises _ _ e hrecord
    rw [hrecord] at h
    cases h
    decide
  | ok record_ref =>
    cases hsnapshot : relativeTo l.vault_root result.snapshot_path with
    | error e =>
      obtain rfl := hraises _ _ e hsnapshot
      rw [hrecord, hsnapshot] at h
      cases h
      decide
    | ok snapshot_ref =>
      rw [hrecord, hsnapshot] at h
      cases h

/-- Only a capture that returned is answered with a receipt, which is that of its result. -/
theorem handleCapture_receipt {response : CaptureResponse}
    (h : handleCapture l sha256 request fault world db = some (db', some (.receipt response))) :
    ∃ result, (Registry.captureResult l sha256 request world).run db = (.ok result, db') ∧
      captureResponse l result = .ok response := by
  have hnever := fun e => exceptionReply_ne_receipt e response
  unfold handleCapture at h
  rcases hrun : (Registry.captureResult l sha256 request world).run db with ⟨e | result, after⟩
  · rw [hrun] at h
    cases fault <;> simp only [Option.ite_none_right_eq_some, Option.some.injEq, Prod.mk.injEq,
      reduceCtorEq, and_false] at h
    · exact absurd h.2 (hnever e)
    · cases h.2
    · exact absurd h.2.2 (hnever _)
    · exact absurd h.2.2 (hnever _)
  · rw [hrun] at h
    cases fault <;> simp only [Option.ite_none_right_eq_some, Option.ite_none_left_eq_some,
      Option.some.injEq, Prod.mk.injEq, reduceCtorEq, and_false] at h
    · obtain ⟨rfl, hanswer⟩ := h
      refine ⟨result, rfl, ?_⟩
      unfold createCapture at hanswer
      change (match captureResponse l result with
        | .ok response => some (Reply.receipt response)
        | .error e => exceptionReply e) = _ at hanswer
      split at hanswer
      · cases hanswer
        assumption
      · exact absurd hanswer (hnever _)
    · cases h.2
    · exact absurd h.2.2 (hnever _)
    · exact absurd h.2.2 (hnever _)
    · exact absurd h.2.2 (hnever _)

/-- The registry after handling a capture: nothing was committed, or the capture was. -/
theorem handleCapture_registry
    (h : handleCapture l sha256 request fault world db = some (db', answer)) :
    db' = db ∨
      ∃ result, (Registry.captureResult l sha256 request world).run db = (.ok result, db') := by
  unfold handleCapture at h
  rcases hrun : (Registry.captureResult l sha256 request world).run db with ⟨e | result, after⟩
  · rw [hrun] at h
    cases fault <;> simp only [Option.ite_none_right_eq_some, Option.some.injEq, Prod.mk.injEq,
      reduceCtorEq] at h
    · exact Or.inl h.1.symm
    · exact Or.inl h.1.symm
    · exact Or.inl h.2.1.symm
    · exact Or.inl h.2.1.symm
    · exact Or.inl h.1.symm
  · rw [hrun] at h
    cases fault <;> simp only [Option.ite_none_right_eq_some, Option.ite_none_left_eq_some,
      Option.some.injEq, Prod.mk.injEq] at h
    · exact Or.inr ⟨result, by rw [h.1]⟩
    · exact Or.inl h.1.symm
    · exact Or.inl h.2.1.symm
    · exact Or.inl h.2.1.symm
    · exact Or.inr ⟨result, by rw [h.2.1]⟩
    · rename_i committed
      cases committed with
      | true => exact Or.inr ⟨result, by rw [← h.1]; rfl⟩
      | false => exact Or.inl h.1.symm

/-- A failure that ends a workflow commits nothing. -/
theorem handleCapture_terminal {status_code : Nat} {code message : Text} {details : List Text}
    (h : handleCapture l sha256 request fault world db =
      some (db', some (.error status_code code message details)))
    (hcode : disposition code = .terminal) : db' = db := by
  unfold handleCapture at h
  rcases hrun : (Registry.captureResult l sha256 request world).run db with ⟨e | result, after⟩
  · rw [hrun] at h
    cases fault <;> simp only [Option.ite_none_right_eq_some, Option.some.injEq, Prod.mk.injEq,
      reduceCtorEq, and_false] at h
    · exact h.1.symm
    · exact h.1.symm
    · exact h.2.1.symm
    · exact h.2.1.symm
  · rw [hrun] at h
    cases fault <;> simp only [Option.ite_none_right_eq_some, Option.ite_none_left_eq_some,
      Option.some.injEq, Prod.mk.injEq, reduceCtorEq, and_false] at h
    · exact absurd hcode (createCapture_ok_terminal h.2)
    · exact h.1.symm
    · exact h.2.1.symm
    · exact h.2.1.symm
    · exact absurd hcode (exceptionReply_foreign (Bool.eq_false_of_not_eq_true h.1) h.2.2)

/-- The only failure that ends the workflow of the request that its key is bound to is an integrity
error: a file of its prediction is lost, or a manifest is unreadable. -/
theorem handleCapture_bound {hash : Text} {row : PredictionRow} {r : WriteResult}
    (hbound : Registry.Bound l db request.idempotency_key hash row r)
    (hhash : requestHash sha256 request = .ok hash) {status_code : Nat} {code message : Text}
    {details : List Text}
    (h : handleCapture l sha256 request fault world db =
      some (db', some (.error status_code code message details)))
    (hcode : disposition code = .terminal) : code = text "integrity_error" := by
  have hrun : (Registry.captureResult l sha256 request world).run db = _ :=
    Registry.captureResult_of_same hbound hhash
  have hkey : (db.capture? request.idempotency_key).isNone = false := by
    rw [hbound.bound]
    rfl
  unfold handleCapture at h
  rw [hrun, hkey] at h
  by_cases hthere : world.artifacts row = true
  · rw [if_pos hthere] at h
    cases fault <;> simp only [Option.ite_none_right_eq_some, Option.ite_none_left_eq_some,
      Option.some.injEq, Prod.mk.injEq, reduceCtorEq, and_false, false_and] at h
    · exact absurd hcode (createCapture_ok_terminal h.2)
    · cases h.2
      exact absurd hcode (by decide)
    · exact exceptionReply_recovery h.1 h.2.2 hcode
    · exact absurd hcode (exceptionReply_foreign (Bool.eq_false_of_not_eq_true h.1) h.2.2)
  · rw [if_neg hthere] at h
    cases fault <;> simp only [Option.ite_none_right_eq_some, Option.some.injEq, Prod.mk.injEq,
      reduceCtorEq, and_false, false_and] at h
    · cases h.2
      rfl
    · cases h.2
      exact absurd hcode (by decide)
    · exact exceptionReply_recovery h.1 h.2.2 hcode

end Pine
