import Pine.Ledger.Console.Moves

/-!
# Where concluded workflows come from

A workflow is committed or fails for good only by the operation that records the answer to its
capture, and keeps what was recorded. Its identity and its key were drawn together.
-/

namespace Pine

open Workflows

/-- The row says what the operation recorded, if its workflow is concluded. -/
structure StoreOperation.Recorded (op : StoreOperation) (r : WorkflowRow) : Prop where
  failed : r.state = .terminal_failure → ∃ user_id code details,
    op = .record_capture_failure r.workflow_id user_id .terminal_failure code details ∧
      r.error_code = some code
  committed : r.state = .committed → ∃ user_id response json,
    op = .record_capture_response r.workflow_id user_id response ∧
      consoleJson response.modelDump = .ok json ∧ r.capture_response_json = some json

/-- A row that is not concluded has nothing to say. -/
theorem StoreOperation.Recorded.of_open {op : StoreOperation} {r : WorkflowRow}
    (hfailed : r.state ≠ .terminal_failure) (hcommitted : r.state ≠ .committed) : op.Recorded r :=
  ⟨fun h => absurd h hfailed, fun h => absurd h hcommitted⟩

/-- Rows after the operation were there before, or say what it recorded. -/
def StoreOperation.Concludes (op : StoreOperation) (before after : List WorkflowRow) : Prop :=
  ∀ r ∈ after, r ∈ before ∨ op.Recorded r

namespace StoreWorld

variable {L : ConsoleLibrary} {S : StoreWorld} {rows rows' : List WorkflowRow}
  {op : StoreOperation} {workflow_id user_id : Text} {result : StoreResult}

/-- What the common course of the operations concludes. -/
theorem transition_concludes {reject_expired : Bool} {guard : WorkflowRow → Except ConsoleError Unit}
    {assignments : Int → Except ConsoleError WorkflowUpdate} (hkeys : Keys rows)
    (h : (S.transition workflow_id user_id reject_expired guard assignments).run rows =
      (.ok result, rows'))
    (hrecorded : ∀ row now u, row.workflow_id = workflow_id → guard row = .ok () →
      assignments now = .ok u → row.Updated (u.apply row) → op.Recorded (u.apply row)) :
    op.Concludes rows rows' := by
  obtain ⟨row, now, u, _, hrow, hid, hguard, hassigned, hupdated, rfl, -⟩ := transition_ok h
  intro r hr
  obtain ⟨old, hold, rfl⟩ := List.mem_map.mp hr
  split
  · rename_i hsame
    obtain rfl := hkeys.eq hold hrow ((beq_iff_eq.mp hsame).trans hid.symm)
    exact Or.inr (hrecorded old now u hid hguard hassigned hupdated)
  · exact Or.inl hold

/-- An update that sets a state in which nothing is concluded. -/
theorem transition_open {reject_expired : Bool} {guard : WorkflowRow → Except ConsoleError Unit}
    {assignments : Int → Except ConsoleError WorkflowUpdate} (hkeys : Keys rows)
    (h : (S.transition workflow_id user_id reject_expired guard assignments).run rows =
      (.ok result, rows'))
    (hopen : ∀ now u, assignments now = .ok u →
      ∃ state, u.state = some state ∧ state ≠ .terminal_failure ∧ state ≠ .committed) :
    op.Concludes rows rows' := by
  refine transition_concludes hkeys h fun row now u _ _ hassigned _ => ?_
  obtain ⟨state, hstate, hfailed, hcommitted⟩ := hopen now u hassigned
  have happlied : (u.apply row).state = state := by
    rw [WorkflowUpdate.apply, hstate, Option.getD_some]
  exact .of_open (happlied ▸ hfailed) (happlied ▸ hcommitted)

theorem reviseSource_concludes {source_text schema_id : Text} {version : Option Int}
    (hkeys : Keys rows)
    (h : (S.reviseSource workflow_id user_id source_text schema_id version).run rows =
      (.ok result, rows')) : op.Concludes rows rows' := by
  obtain ⟨request, -, h⟩ := Program.run_check_bind_ok.mp h
  refine transition_concludes hkeys h fun row now u _ hguard hassigned _ => ?_
  obtain ⟨_, hstate, -⟩ := bind_eq_ok.mp hguard
  obtain ⟨_, -, hreturn⟩ := bind_eq_ok.mp hassigned
  cases hreturn
  have happlied := requireState_ok hstate
  refine .of_open ?_ ?_ <;> simp [WorkflowUpdate.apply, happlied]

theorem recordCaptureResponse_concludes {response : CaptureResponse} (hkeys : Keys rows)
    (h : (S.recordCaptureResponse workflow_id user_id response).run rows = (.ok result, rows')) :
    (StoreOperation.record_capture_response workflow_id user_id response).Concludes rows rows' := by
  refine transition_concludes hkeys h fun row now u hid _ hassigned hupdated => ?_
  obtain ⟨json, hjson, hrest⟩ := bind_eq_ok.mp hassigned
  obtain ⟨_, -, hreturn⟩ := bind_eq_ok.mp hrest
  cases hreturn
  constructor
  · intro hfailed
    cases hfailed
  · intro _
    refine ⟨user_id, response, json, ?_, hjson, rfl⟩
    rw [hupdated.workflow_id, hid]

theorem recordCaptureFailure_concludes {state : WorkflowState} {code : Text} {details : List Text}
    (hkeys : Keys rows)
    (h : (S.recordCaptureFailure workflow_id user_id state code details).run rows =
      (.ok result, rows')) :
    (StoreOperation.record_capture_failure workflow_id user_id state code details).Concludes
      rows rows' := by
  obtain ⟨_, hreject, h⟩ := Program.run_check_bind_ok.mp h
  refine transition_concludes hkeys h fun row now u hid _ hassigned hupdated => ?_
  obtain ⟨_, -, hrest⟩ := bind_eq_ok.mp hassigned
  obtain ⟨_, -, hreturn⟩ := bind_eq_ok.mp hrest
  cases hreturn
  constructor
  · intro hfailed
    obtain rfl : state = .terminal_failure := hfailed
    refine ⟨user_id, code, details, ?_, rfl⟩
    rw [hupdated.workflow_id, hid]
  · intro hcommitted
    obtain rfl : state = .committed := hcommitted
    exact absurd ⟨by decide, by decide, by decide⟩ (reject_ok.mp hreject)

theorem freezeAndSubmit_concludes {identity : Text} {now : Int} {row : WorkflowRow}
    {capture : CaptureArgument} {version : Option Int}
    (h : (S.freezeAndSubmit L workflow_id identity now row capture version).run rows =
      (.ok result, rows')) : op.Concludes rows rows' := by
  obtain ⟨_, -, h⟩ := Program.run_check_bind_ok.mp h
  obtain ⟨_, -, h⟩ := Program.run_check_bind_ok.mp h
  obtain ⟨request, -, h⟩ := Program.run_check_bind_ok.mp h
  obtain ⟨request_json, -, h⟩ := Program.run_check_bind_ok.mp h
  obtain ⟨_, frozenRows, hfreeze, hsubmitting⟩ := Program.run_bind_ok.mp h
  obtain ⟨rfl, hfrozen⟩ := updateRow_ok hfreeze
  obtain ⟨_, submittingRows, hsubmit, hwritten⟩ := Program.run_bind_ok.mp hsubmitting
  obtain ⟨rfl, -⟩ := updateRow_ok hsubmit
  obtain ⟨updated, _, hread, hreturn⟩ := Program.run_bind_ok.mp hwritten
  obtain ⟨rfl, -, -, -⟩ := getRow_ok hread
  obtain ⟨-, rfl⟩ := Program.run_pure_ok.mp hreturn
  intro r hr
  obtain ⟨middle, hmiddle, rfl⟩ := List.mem_map.mp hr
  obtain ⟨old, hold, rfl⟩ := List.mem_map.mp hmiddle
  by_cases hsame : (old.workflow_id == workflow_id) = true
  · have hid := (hfrozen old hold (beq_iff_eq.mp hsame)).workflow_id.trans (beq_iff_eq.mp hsame)
    rw [if_pos hsame, if_pos (beq_iff_eq.mpr hid)]
    refine Or.inr (.of_open ?_ ?_) <;> simp [WorkflowUpdate.apply]
  · rw [if_neg hsame, if_neg hsame]
    exact Or.inl hold

theorem freezeAndBeginSubmission_concludes {capture : CaptureArgument} {version : Option Int}
    (h : (S.freezeAndBeginSubmission L workflow_id user_id capture version).run rows =
      (.ok result, rows')) : op.Concludes rows rows' := by
  obtain ⟨identity, -, h⟩ := Program.run_check_bind_ok.mp h
  obtain ⟨now, -, h⟩ := Program.run_check_bind_ok.mp h
  obtain ⟨row, _, hread, hrest⟩ := Program.run_bind_ok.mp h
  obtain ⟨rfl, -, -, -⟩ := getRow_ok hread
  split at hrest
  · obtain ⟨_, -, hreturn⟩ := Program.run_check_bind_ok.mp hrest
    obtain ⟨-, rfl⟩ := Program.run_pure_ok.mp hreturn
    exact fun r hr => Or.inl hr
  · exact freezeAndSubmit_concludes hrest

/-- The rows after a creation: one more, with the identity and the key that were drawn. -/
theorem createWorkflow_rows {source_text schema_id : Text}
    (h : (S.createWorkflow user_id source_text schema_id).run rows = (.ok result, rows')) :
    ∃ row, rows' = rows ++ [row] ∧ row.state = .editing ∧ row.workflow_id = S.uuid_factory 0 ∧
      row.idempotency_key = text "console-" ++ S.uuid_factory 1 := by
  obtain ⟨request, -, h⟩ := Program.run_check_bind_ok.mp h
  obtain ⟨identity, -, h⟩ := Program.run_check_bind_ok.mp h
  obtain ⟨now, -, h⟩ := Program.run_check_bind_ok.mp h
  obtain ⟨expires_at, -, h⟩ := Program.run_check_bind_ok.mp h
  obtain ⟨_, inserted, hupdate, hrest⟩ := Program.run_bind_ok.mp h
  obtain ⟨created, _, hread, hreturn⟩ := Program.run_bind_ok.mp hrest
  obtain ⟨rfl, -, -, -⟩ := getRow_ok hread
  obtain ⟨-, rfl⟩ := Program.run_pure_ok.mp hreturn
  have hinsert := Program.run_update_ok.mp hupdate
  split at hinsert
  · rename_i heq
    cases hinsert
    obtain ⟨rfl, -, -, -, -⟩ := insertWorkflow_ok heq
    exact ⟨_, rfl, rfl, rfl, rfl⟩
  · cases hinsert

/-- An update of the recovery concludes nothing. -/
theorem recoverState_concludes {state next : WorkflowState} {u : WorkflowUpdate} {n : Nat}
    (hnext : u.state = some next) (hfailed : next ≠ .terminal_failure)
    (hcommitted : next ≠ .committed) (h : (S.recoverState state u).run rows = (.ok n, rows')) :
    op.Concludes rows rows' := by
  rw [recoverState, Program.run_statement] at h
  split at h
  · rename_i heq
    cases h
    split at heq
    · rename_i hupdate
      cases heq
      obtain ⟨rfl, -, -⟩ := updateWorkflows_ok hupdate
      intro r hr
      obtain ⟨old, hold, rfl⟩ := List.mem_map.mp hr
      split
      · have happlied : (u.apply old).state = next := by
          rw [WorkflowUpdate.apply, hnext, Option.getD_some]
        exact Or.inr (.of_open (happlied ▸ hfailed) (happlied ▸ hcommitted))
      · exact Or.inl hold
    · cases heq
  · cases h

theorem recoverAbandonedWorkflows_concludes
    (h : S.recoverAbandonedWorkflows.run rows = (.ok result, rows')) : op.Concludes rows rows' := by
  obtain ⟨now, -, h⟩ := Program.run_check_bind_ok.mp h
  obtain ⟨submitting, uncertainRows, hfirst, hrest⟩ := Program.run_bind_ok.mp h
  obtain ⟨expires_at, -, hrest⟩ := Program.run_check_bind_ok.mp hrest
  obtain ⟨extracting, _, hsecond, hreturn⟩ := Program.run_bind_ok.mp hrest
  obtain ⟨-, rfl⟩ := Program.run_pure_ok.mp hreturn
  have huncertain : op.Concludes rows uncertainRows :=
    recoverState_concludes rfl (by decide) (by decide) hfirst
  have hediting : op.Concludes uncertainRows rows' :=
    recoverState_concludes rfl (by decide) (by decide) hsecond
  intro r hr
  rcases hediting r hr with hmiddle | hrecorded
  · exact huncertain r hmiddle
  · exact Or.inr hrecorded

theorem cleanupExpired_concludes (h : S.cleanupExpired.run rows = (.ok result, rows')) :
    op.Concludes rows rows' := by
  obtain ⟨now, -, h⟩ := Program.run_check_bind_ok.mp h
  obtain ⟨count, _, hdelete, hreturn⟩ := Program.run_bind_ok.mp h
  obtain ⟨-, rfl⟩ := Program.run_pure_ok.mp hreturn
  rw [Program.run_statement] at hdelete
  split at hdelete
  · rename_i heq
    cases hdelete
    split at heq
    · rename_i hdeleted
      cases heq
      obtain ⟨rfl, -⟩ := deleteWorkflows_ok hdeleted
      exact fun r hr => Or.inl (List.mem_filter.mp hr).1
    · cases heq
  · cases hdelete

end StoreWorld

namespace StoreOperation

variable {L : ConsoleLibrary} {S : StoreWorld} {op : StoreOperation} {result : StoreResult}
  {rows rows' : List WorkflowRow}

/-- Whatever an operation does, concluded rows say what was recorded. -/
theorem concludes (hkeys : Keys rows) (h : (op.program L S).run rows = (.ok result, rows')) :
    op.Concludes rows rows' := by
  cases op with
  | create_workflow =>
    obtain ⟨row, rfl, hstate, -⟩ := StoreWorld.createWorkflow_rows h
    intro r hr
    rcases List.mem_append.mp hr with hold | hnew
    · exact Or.inl hold
    · obtain rfl := List.mem_singleton.mp hnew
      refine Or.inr (.of_open ?_ ?_) <;> rw [hstate] <;> decide
  | begin_extraction =>
    refine StoreWorld.transition_open hkeys h fun now u hu => ?_
    cases hu
    exact ⟨.extracting, rfl, by decide, by decide⟩
  | revise_source => exact StoreWorld.reviseSource_concludes hkeys h
  | finish_extraction workflow_id user_id extracted =>
    refine StoreWorld.transition_open hkeys h fun now u hu => ?_
    obtain ⟨_, -, hrest⟩ := bind_eq_ok.mp hu
    cases extracted with
    | ready proposal =>
      obtain ⟨_, -, hreturn⟩ := bind_eq_ok.mp hrest
      cases hreturn
      exact ⟨.reviewing, rfl, by decide, by decide⟩
    | unable errors nonempty =>
      obtain ⟨_, -, hreturn⟩ := bind_eq_ok.mp hrest
      cases hreturn
      exact ⟨.editing, rfl, by decide, by decide⟩
  | fail_extraction =>
    refine StoreWorld.transition_open hkeys h fun now u hu => ?_
    obtain ⟨_, -, hrest⟩ := bind_eq_ok.mp hu
    obtain ⟨_, -, hreturn⟩ := bind_eq_ok.mp hrest
    cases hreturn
    exact ⟨.editing, rfl, by decide, by decide⟩
  | freeze_and_begin_submission => exact StoreWorld.freezeAndBeginSubmission_concludes h
  | begin_retry =>
    refine StoreWorld.transition_open hkeys h fun now u hu => ?_
    cases hu
    exact ⟨.submitting, rfl, by decide, by decide⟩
  | record_capture_response => exact StoreWorld.recordCaptureResponse_concludes hkeys h
  | record_capture_failure => exact StoreWorld.recordCaptureFailure_concludes hkeys h
  | cancel_workflow =>
    refine StoreWorld.transition_open hkeys h fun now u hu => ?_
    obtain ⟨_, -, hreturn⟩ := bind_eq_ok.mp hu
    cases hreturn
    exact ⟨.cancelled, rfl, by decide, by decide⟩
  | recover_abandoned_workflows => exact StoreWorld.recoverAbandonedWorkflows_concludes h
  | cleanup_expired => exact StoreWorld.cleanupExpired_concludes h

/-- A row of another workflow has the identity and the key of a row before, or both were drawn. -/
theorem issues (hkeys : Keys rows) (h : (op.program L S).run rows = (.ok result, rows'))
    {r : WorkflowRow} (hr : r ∈ rows') :
    (∃ r' ∈ rows, r'.workflow_id = r.workflow_id ∧ r'.idempotency_key = r.idempotency_key) ∨
      (r.workflow_id = S.uuid_factory 0 ∧
        r.idempotency_key = text "console-" ++ S.uuid_factory 1) := by
  have houtcome := (outcome hkeys h).1
  cases houtcome with
  | moved hmoved =>
    obtain ⟨old, hold, hmoves⟩ := forall₂_right hmoved hr
    exact Or.inl ⟨old, hold, hmoves.kept.workflow_id.symm, hmoves.kept.idempotency_key.symm⟩
  | created row fresh sound =>
    obtain ⟨new, heq, -, hid, hkey⟩ := StoreWorld.createWorkflow_rows h
    rw [heq] at hr
    rcases List.mem_append.mp hr with hold | hnew
    · exact Or.inl ⟨r, hold, rfl, rfl⟩
    · rw [List.mem_singleton.mp hnew]
      exact Or.inr ⟨hid, hkey⟩
  | deleted selects disposable => exact Or.inl ⟨r, (List.mem_filter.mp hr).1, rfl, rfl⟩

end StoreOperation

end Pine
