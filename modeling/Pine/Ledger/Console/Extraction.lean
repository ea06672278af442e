import Pine.Ledger.Console.Moves
import Pine.Ledger.Console.WorkflowService

/-!
# Extractions

The processes of the console that extract proposals. An extraction begins with one
transaction, sends the source it read to the backend outside of any transaction, and
ends with a second transaction that only looks at the state of the workflow then.
Recovery, revision and every other operation may commit in between.
-/

namespace Pine

open Workflows

/-- What became of one call of the extractor. -/
inductive ExtractionOutcome where
  | result (result : ExtractionResult)
  | domainError (code : Text) (details : List Text)
  | backendError
  | exception

/-- The operation that an extraction ends with. -/
def ExtractionOutcome.operation (workflow_id user_id : Text) : ExtractionOutcome → StoreOperation
  | result extracted => .finish_extraction workflow_id user_id extracted
  | domainError code details => .fail_extraction workflow_id user_id code details
  | backendError => .fail_extraction workflow_id user_id (text "backend_unavailable")
      [text "extraction may be started again"]
  | exception => .fail_extraction workflow_id user_id (text "console_internal_error")
      [text "extraction may be started again"]

/-- The operations that only an extraction ends with. -/
def StoreOperation.endsExtraction : StoreOperation → Bool
  | finish_extraction _ _ _ | fail_extraction _ _ _ _ => true
  | _ => false

/-- What an extracting console is asked for. -/
inductive ExtractionCall where
  | store (operation : StoreOperation) (alone : operation.endsExtraction = false)
  | extract (workflow_id user_id : Text) (expected_version : Option Int)
  | revise_and_extract (workflow_id user_id source_text schema_id : Text)
      (expected_version : Option Int)

/-- The operation that a call begins with. -/
def ExtractionCall.operation : ExtractionCall → StoreOperation
  | store operation _ => operation
  | extract workflow_id user_id version => .begin_extraction workflow_id user_id version
  | revise_and_extract workflow_id user_id source_text schema_id version =>
    .revise_source workflow_id user_id source_text schema_id version

/-- One attempt of an extraction: the workflow it was begun for, and what it sends. -/
structure Attempt where
  workflow_id : Text
  user_id : Text
  request : HypothesisExtractionRequest

/-- An attempt and its answer. -/
structure Answer where
  attempt : Attempt
  outcome : ExtractionOutcome

/-- Where an extracting process stands. -/
inductive ExtractionPhase where
  | idle
  | requesting (call : ExtractionCall)
  | revised (workflow_id user_id : Text) (version : Nat)
  | extracting (attempt : Attempt)
  | answered (answer : Answer)
  | recording (answer : Answer)

/-- The extraction that follows a committed `begin_extraction`. -/
def attemptOf (L : ConsoleLibrary) (workflow_id user_id : Text) : StoreResult → ExtractionPhase
  | .workflow row => match workflowFromRow L row with
    | .ok workflow => match workflow.source_text with
      | some source => match HypothesisExtractionRequest.of source workflow.schema_id with
        | .ok request => .extracting ⟨workflow_id, user_id, request⟩
        | .error _ => .idle
      | none => .idle
    | .error _ => .idle
  | _ => .idle

/-- The extraction that a committed revision goes on with. -/
def revisionOf (L : ConsoleLibrary) (workflow_id user_id : Text) : StoreResult → ExtractionPhase
  | .workflow row => match workflowFromRow L row with
    | .ok workflow => .revised workflow_id user_id workflow.version
    | .error _ => .idle
  | _ => .idle

/-- Where a process stands after its transaction was committed. -/
def ExtractionPhase.afterCommit (L : ConsoleLibrary) (result : StoreResult) :
    ExtractionPhase → ExtractionPhase
  | requesting (.extract workflow_id user_id _) => attemptOf L workflow_id user_id result
  | requesting (.revise_and_extract workflow_id user_id _ _ _) =>
    revisionOf L workflow_id user_id result
  | _ => .idle

/-- The console: its database, its processes, and the answers that came back. -/
structure Extractors (π : Type) where
  database : Transaction.State π (List WorkflowRow) ConsoleError StoreResult
  phase : π → ExtractionPhase
  answers : List Answer

/-- What can happen to the console. -/
inductive ExtractionAction (π : Type) where
  | begin (process : π) (call : ExtractionCall) (world : StoreWorld)
  | proceed (process : π) (world : StoreWorld)
  | record (process : π) (world : StoreWorld)
  | advance
  | commit
  | abort
  | answer (process : π) (outcome : ExtractionOutcome)
  | crash (process : π)

namespace Extractors

variable {π : Type} [DecidableEq π]

/-- An empty database, and processes that wait for calls. -/
def initial : Extractors π := ⟨⟨[], none⟩, fun _ => .idle, []⟩

/-- The committed workflows. -/
def rows (s : Extractors π) : List WorkflowRow := s.database.committed

/-- The console with one process in another phase. -/
def enter (s : Extractors π) (p : π) (phase : ExtractionPhase) : Extractors π :=
  { s with phase := Function.update s.phase p phase }

/-- A process begins the transaction of an operation. -/
def begin (L : ConsoleLibrary) (s : Extractors π) (p : π) (operation : StoreOperation)
    (world : StoreWorld) (phase : ExtractionPhase) : Option (Extractors π) :=
  (Transaction.next s.database (.begin p (operation.program L world))).map fun database =>
    { s with database, phase := Function.update s.phase p phase }

/-- The writer slot is given back, and nothing was committed. -/
def rollback (s : Extractors π) : Extractors π :=
  { s with database := ⟨s.database.committed, none⟩ }

/-- The step that an action takes, when it is enabled. -/
def next (L : ConsoleLibrary) (s : Extractors π) : ExtractionAction π → Option (Extractors π)
  | .begin p call world => match s.phase p with
    | .idle => s.begin L p call.operation world (.requesting call)
    | _ => none
  | .proceed p world => match s.phase p with
    | .revised workflow_id user_id version =>
      let call := ExtractionCall.extract workflow_id user_id (some version)
      s.begin L p call.operation world (.requesting call)
    | _ => none
  | .record p world => match s.phase p with
    | .answered ⟨attempt, outcome⟩ =>
      s.begin L p (outcome.operation attempt.workflow_id attempt.user_id) world
        (.recording ⟨attempt, outcome⟩)
    | _ => none
  | .advance => (Transaction.next s.database .advance).map fun database => { s with database }
  | .commit => match s.database.writer with
    | some ⟨p, _, copy, .done (.ok result)⟩ =>
      some ({ s with database := ⟨copy, none⟩ }.enter p ((s.phase p).afterCommit L result))
    | _ => none
  | .abort => match s.database.writer with
    | some w => some (s.rollback.enter w.process .idle)
    | none => none
  | .answer p outcome => match s.phase p with
    | .extracting attempt => some
        { s.enter p (.answered ⟨attempt, outcome⟩) with
          answers := s.answers ++ [⟨attempt, outcome⟩] }
    | _ => none
  | .crash p => match s.database.writer with
    | some w => if w.process = p then some (s.rollback.enter p .idle) else some (s.enter p .idle)
    | none => some (s.enter p .idle)

/-- The console as a transition system. -/
def Step (L : ConsoleLibrary) (s : Extractors π) (e : ExtractionAction π) (t : Extractors π) :
    Prop :=
  s.next L e = some t

/-! ## What is asked of reviewed proposals -/

/-- A stored proposal is the one that an attempt on this workflow with this source brought. -/
def Produced (answers : List Answer) (row : WorkflowRow) : Prop :=
  ∃ a ∈ answers, a.attempt.workflow_id = row.workflow_id ∧
    row.source_text = some a.attempt.request.text ∧
    ∃ proposal json, a.outcome = .result (.ready proposal) ∧
      canonicalJson proposal.modelDump = .ok json ∧ row.proposal_json = some json

/-- Every workflow under review holds a proposal produced for the source it has now. -/
def Reviewed (s : Extractors π) : Prop :=
  ∀ r ∈ s.rows, r.state = .reviewing → Produced s.answers r

/-- Every proposal under review has the source of its workflow as its body. -/
def BodiesCurrent (s : Extractors π) : Prop :=
  ∀ r ∈ s.rows, r.state = .reviewing → ∃ (proposal : DraftProposal) (json : Text),
    canonicalJson proposal.modelDump = .ok json ∧ r.proposal_json = some json ∧
      r.source_text = some proposal.body

/-- The next commit is that of the ready result of an attempt. -/
def Readies (s : Extractors π) (attempt : Attempt) (proposal : DraftProposal) : Prop :=
  ∃ w, s.database.writer = some w ∧
    s.phase w.process = .recording ⟨attempt, .result (.ready proposal)⟩

/-- A ready result is only committed to a workflow whose source is still what the attempt sent. -/
def Timely (s : Extractors π) (e : ExtractionAction π) : Prop :=
  e = .commit → ∀ attempt proposal, s.Readies attempt proposal →
    ∀ r ∈ s.rows, r.workflow_id = attempt.workflow_id →
      r.source_text = some attempt.request.text

/-- The backend returns proposals whose body is the text of the request. -/
def Honest (s : Extractors π) : Prop :=
  ∀ a ∈ s.answers, ∀ proposal, a.outcome = .result (.ready proposal) →
    proposal.body = a.attempt.request.text

end Extractors

end Pine
