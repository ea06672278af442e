import Mathlib.Data.List.Forall2
import Pine.Ledger.Console.Store

/-!
# What the store operations do to workflows

Single statements raise the version of every row they change by one. Whole operations
move each row along one relation that composes: identities stay, a frozen request and
a receipt stay, and a workflow whose request is frozen keeps its source and proposal
and never leaves the states after freezing.
-/

namespace Pine

namespace WorkflowRow

/-- What stays of a workflow over any number of operations. -/
structure Kept (old new : WorkflowRow) : Prop where
  workflow_id : new.workflow_id = old.workflow_id
  user_id : new.user_id = old.user_id
  schema_id : new.schema_id = old.schema_id
  idempotency_key : new.idempotency_key = old.idempotency_key
  created_at : new.created_at = old.created_at
  version : old.version ≤ new.version
  request : ∀ f, old.frozen_request_json = some f → new.frozen_request_json = some f
  response : ∀ f, old.capture_response_json = some f → new.capture_response_json = some f
  frozen : old.state.isFrozen = true → new.state.isFrozen = true ∧
    new.source_text = old.source_text ∧ new.proposal_json = old.proposal_json

theorem Kept.refl (r : WorkflowRow) : r.Kept r :=
  ⟨rfl, rfl, rfl, rfl, rfl, le_rfl, fun _ h => h, fun _ h => h, fun h => ⟨h, rfl, rfl⟩⟩

theorem Kept.trans {a b c : WorkflowRow} (h : a.Kept b) (k : b.Kept c) : a.Kept c where
  workflow_id := k.workflow_id.trans h.workflow_id
  user_id := k.user_id.trans h.user_id
  schema_id := k.schema_id.trans h.schema_id
  idempotency_key := k.idempotency_key.trans h.idempotency_key
  created_at := k.created_at.trans h.created_at
  version := h.version.trans k.version
  request f hf := k.request f (h.request f hf)
  response f hf := k.response f (h.response f hf)
  frozen ha := by
    obtain ⟨hb, hsource, hproposal⟩ := h.frozen ha
    obtain ⟨hc, hsource', hproposal'⟩ := k.frozen hb
    exact ⟨hc, hsource'.trans hsource, hproposal'.trans hproposal⟩

/-- No legal transition leads back from a frozen request. -/
theorem isFrozen_of_leadsTo {a b : WorkflowState} (h : a.leadsTo b = true)
    (ha : a.isFrozen = true) : b.isFrozen = true := by
  revert h ha
  cases a <;> cases b <;> decide

/-- An accepted update keeps what stays, if it leaves source and proposal alone once the request
is frozen. -/
theorem Updated.kept {u : WorkflowUpdate} {r : WorkflowRow} (h : r.Updated (u.apply r))
    (hcontent : r.state.isFrozen = true → u.source_text = none ∧ u.proposal_json = none) :
    r.Kept (u.apply r) where
  workflow_id := h.workflow_id
  user_id := h.user_id
  schema_id := h.schema_id
  idempotency_key := h.idempotency_key
  created_at := h.created_at
  version := by rw [h.version]; exact Nat.le_succ _
  request := h.request
  response := h.response
  frozen hfrozen := by
    obtain ⟨hsource, hproposal⟩ := hcontent hfrozen
    refine ⟨?_, by simp [WorkflowUpdate.apply, hsource],
      by simp [WorkflowUpdate.apply, hproposal]⟩
    rcases h.transition with hsame | hleads
    · rw [hsame]
      exact hfrozen
    · exact isFrozen_of_leadsTo hleads hfrozen

/-- What holds of every committed row: it is not between freezing and submitting, a reconciling
one does not expire, and a frozen request is the canonical text of a request under its key. -/
structure Sound (r : WorkflowRow) : Prop where
  settled : r.state ≠ .frozen
  request : r.state.isFrozen = true → r.frozen_request_json ≠ none
  reconciliation : r.state.isReconciliation = true → r.expires_at = none
  stored : ∀ s, r.frozen_request_json = some s → ∃ request : FrozenCaptureRequest,
    canonicalJson request.modelDump = .ok s ∧ request.idempotency_key = r.idempotency_key

/-- What a whole operation does to a row. -/
structure Moves (old new : WorkflowRow) : Prop where
  kept : old.Kept new
  sound : old.Sound → new.Sound

theorem Moves.refl (r : WorkflowRow) : r.Moves r := ⟨Kept.refl r, id⟩

theorem Moves.trans {a b c : WorkflowRow} (h : a.Moves b) (k : b.Moves c) : a.Moves c :=
  ⟨h.kept.trans k.kept, fun ha => k.sound (h.sound ha)⟩

/-- An accepted update that freezes nothing moves its rows. -/
theorem Updated.moves {u : WorkflowUpdate} {r : WorkflowRow} (h : r.Updated (u.apply r))
    (hstate : u.state ≠ some .frozen) (hrequest : u.frozen_request_json = none)
    (hcontent : r.state.isFrozen = true → u.source_text = none ∧ u.proposal_json = none) :
    r.Moves (u.apply r) := by
  refine ⟨h.kept hcontent, fun hr => ⟨?_, h.frozen, h.reconciliation, ?_⟩⟩
  · cases hu : u.state with
    | none => simpa [WorkflowUpdate.apply, hu] using hr.settled
    | some state =>
      rw [hu] at hstate
      simpa [WorkflowUpdate.apply, hu] using hstate
  · intro s hs
    rw [h.idempotency_key]
    refine hr.stored s ?_
    simpa [WorkflowUpdate.apply, hrequest] using hs

end WorkflowRow

namespace Workflows

/-- The primary key. -/
def Keys (rows : List WorkflowRow) : Prop := (rows.map WorkflowRow.workflow_id).Nodup

theorem Keys.eq {rows : List WorkflowRow} (h : Keys rows) {a b : WorkflowRow} (ha : a ∈ rows)
    (hb : b ∈ rows) (heq : a.workflow_id = b.workflow_id) : a = b :=
  List.inj_on_of_nodup_map h ha hb heq

/-! ## Single statements -/

/-- What one statement does: the primary key stays one, and a row is as it was or one version
older. -/
structure Statement (before after : List WorkflowRow) : Prop where
  keys : Keys before → Keys after
  raised : Keys before → ∀ r ∈ before, ∀ r' ∈ after, r'.workflow_id = r.workflow_id →
    r' = r ∨ r'.version = r.version + 1

theorem Statement.refl (rows : List WorkflowRow) : Statement rows rows :=
  ⟨id, fun hkeys _ hr _ hr' heq => Or.inl (hkeys.eq hr' hr heq)⟩

theorem Statement.update {json_valid : Text → Bool} {selects : WorkflowRow → Bool}
    {u : WorkflowUpdate} {rows rows' : List WorkflowRow} {n : Nat}
    (h : updateWorkflows json_valid selects u rows = .ok (n, rows')) : Statement rows rows' := by
  obtain ⟨hrows, -, hupdated⟩ := updateWorkflows_ok h
  have hid : ∀ r ∈ rows, (if selects r then u.apply r else r).workflow_id = r.workflow_id := by
    intro r hr
    split
    · exact (hupdated r hr ‹_›).workflow_id
    · rfl
  subst hrows
  constructor
  · intro hkeys
    unfold Keys
    rw [map_key_of_keeps hid]
    exact hkeys
  · intro hkeys r hr r' hr' heq
    obtain ⟨old, hold, rfl⟩ := List.mem_map.mp hr'
    rw [hid old hold] at heq
    obtain rfl := hkeys.eq hold hr heq
    split
    · exact Or.inr (hupdated old hold ‹_›).version
    · exact Or.inl rfl

theorem Statement.insert {json_valid : Text → Bool} {row : WorkflowRow}
    {rows rows' : List WorkflowRow} (h : insertWorkflow json_valid row rows = .ok rows') :
    Statement rows rows' := by
  obtain ⟨rfl, -, -, -, hfresh⟩ := insertWorkflow_ok h
  refine ⟨fun hkeys => nodup_append_key hkeys hfresh, fun hkeys r hr r' hr' heq => ?_⟩
  rcases List.mem_append.mp hr' with hold | hnew
  · exact Or.inl (hkeys.eq hold hr heq)
  · rw [List.mem_singleton.mp hnew] at heq
    exact absurd (heq ▸ List.mem_map_of_mem hr) hfresh

theorem Statement.delete {selects : WorkflowRow → Bool} {rows rows' : List WorkflowRow} {n : Nat}
    (h : deleteWorkflows selects rows = .ok (n, rows')) : Statement rows rows' := by
  obtain ⟨rfl, -⟩ := deleteWorkflows_ok h
  refine ⟨fun hkeys => hkeys.sublist (List.filter_sublist.map _), ?_⟩
  intro hkeys r hr r' hr' heq
  exact Or.inl (hkeys.eq (List.mem_filter.mp hr').1 hr heq)

end Workflows

open Workflows

namespace StoreWorld

variable {L : ConsoleLibrary} {S : StoreWorld}

theorem getRow_each (reading : Nat) (workflow_id user_id : Text) (reject_expired : Bool) :
    (S.getRow reading workflow_id user_id reject_expired).Each Statement :=
  (Program.Each.query Statement.refl _).bind fun _ =>
    (Program.Each.check _).bind fun _ => Program.Each.pure _

theorem updateRow_each (workflow_id : Text) (u : WorkflowUpdate) :
    (S.updateRow workflow_id u).Each Statement := by
  refine Program.Each.update Statement.refl fun rows rows' h => ?_
  split at h
  · cases h
  · rename_i count updated hupdate
    split at h
    · cases h
      exact Statement.update hupdate
    · cases h

theorem transition_each (workflow_id user_id : Text) (reject_expired : Bool)
    (guard : WorkflowRow → Except ConsoleError Unit)
    (assignments : Int → Except ConsoleError WorkflowUpdate) :
    (S.transition workflow_id user_id reject_expired guard assignments).Each Statement :=
  (Program.Each.check _).bind fun _ => (Program.Each.check _).bind fun _ =>
    (getRow_each _ _ _ _).bind fun _ => (Program.Each.check _).bind fun _ =>
      (Program.Each.check _).bind fun _ => (updateRow_each _ _).bind fun _ =>
        (getRow_each _ _ _ _).bind fun _ => Program.Each.pure _

theorem freezeAndSubmit_each (workflow_id identity : Text) (now : Int) (row : WorkflowRow)
    (capture : CaptureArgument) (expected_version : Option Int) :
    (S.freezeAndSubmit L workflow_id identity now row capture expected_version).Each Statement :=
  (Program.Each.check _).bind fun _ => (Program.Each.check _).bind fun _ =>
    (Program.Each.check _).bind fun _ => (Program.Each.check _).bind fun _ =>
      (updateRow_each _ _).bind fun _ => (updateRow_each _ _).bind fun _ =>
        (getRow_each _ _ _ _).bind fun _ => Program.Each.pure _

theorem freezeAndBeginSubmission_each (workflow_id user_id : Text) (capture : CaptureArgument)
    (expected_version : Option Int) :
    (S.freezeAndBeginSubmission L workflow_id user_id capture expected_version).Each Statement := by
  refine (Program.Each.check _).bind fun _ => (Program.Each.check _).bind fun _ =>
    (getRow_each _ _ _ _).bind fun row => ?_
  split
  · exact (Program.Each.check _).bind fun _ => Program.Each.pure _
  · exact freezeAndSubmit_each _ _ _ _ _ _

theorem createWorkflow_each (user_id source_text schema_id : Text) :
    (S.createWorkflow user_id source_text schema_id).Each Statement := by
  refine (Program.Each.check _).bind fun _ => (Program.Each.check _).bind fun _ =>
    (Program.Each.check _).bind fun _ => (Program.Each.check _).bind fun _ =>
      (Program.Each.update Statement.refl fun rows rows' h => ?_).bind fun _ =>
        (getRow_each _ _ _ _).bind fun _ => Program.Each.pure _
  split at h
  · rename_i inserted hinsert
    cases h
    exact Statement.insert hinsert
  · cases h

theorem recoverState_each (state : WorkflowState) (u : WorkflowUpdate) :
    (S.recoverState state u).Each Statement := by
  refine Program.Each.statement Statement.refl fun rows n rows' h => ?_
  split at h
  · rename_i r hupdate
    cases h
    exact Statement.update hupdate
  · cases h

theorem recoverAbandonedWorkflows_each : S.recoverAbandonedWorkflows.Each Statement :=
  (Program.Each.check _).bind fun _ => (recoverState_each _ _).bind fun _ =>
    (Program.Each.check _).bind fun _ => (recoverState_each _ _).bind fun _ =>
      Program.Each.pure _

theorem cleanupExpired_each : S.cleanupExpired.Each Statement := by
  refine (Program.Each.check _).bind fun _ =>
    (Program.Each.statement Statement.refl fun rows n rows' h => ?_).bind fun _ =>
      Program.Each.pure _
  split at h
  · rename_i r hdelete
    cases h
    exact Statement.delete hdelete
  · cases h

end StoreWorld

/-- Every statement of every operation raises versions by one. -/
theorem StoreOperation.each (L : ConsoleLibrary) (S : StoreWorld) (op : StoreOperation) :
    (op.program L S).Each Statement := by
  cases op with
  | create_workflow => exact StoreWorld.createWorkflow_each _ _ _
  | revise_source =>
    exact (Program.Each.check _).bind fun _ => StoreWorld.transition_each _ _ _ _ _
  | record_capture_failure =>
    exact (Program.Each.check _).bind fun _ => StoreWorld.transition_each _ _ _ _ _
  | freeze_and_begin_submission => exact StoreWorld.freezeAndBeginSubmission_each _ _ _ _
  | recover_abandoned_workflows => exact StoreWorld.recoverAbandonedWorkflows_each
  | cleanup_expired => exact StoreWorld.cleanupExpired_each
  | begin_extraction => exact StoreWorld.transition_each _ _ _ _ _
  | finish_extraction => exact StoreWorld.transition_each _ _ _ _ _
  | fail_extraction => exact StoreWorld.transition_each _ _ _ _ _
  | begin_retry => exact StoreWorld.transition_each _ _ _ _ _
  | record_capture_response => exact StoreWorld.transition_each _ _ _ _ _
  | cancel_workflow => exact StoreWorld.transition_each _ _ _ _ _

/-! ## Whole operations -/

namespace StoreWorld

variable {L : ConsoleLibrary} {S : StoreWorld} {rows rows' : List WorkflowRow}

/-- What reading a row returned. -/
theorem getRow_ok {reading : Nat} {workflow_id user_id : Text} {reject_expired : Bool}
    {row : WorkflowRow} (h : (S.getRow reading workflow_id user_id reject_expired).run rows =
      (.ok row, rows')) :
    rows' = rows ∧ row ∈ rows ∧ row.workflow_id = workflow_id ∧ row.user_id = user_id := by
  obtain ⟨found, _, hquery, hrest⟩ := Program.run_bind_ok.mp h
  obtain ⟨hfound, rfl⟩ := Program.run_query_ok.mp hquery
  obtain ⟨_, _, hcheck, hreturn⟩ := Program.run_bind_ok.mp hrest
  obtain ⟨-, rfl⟩ := Program.run_check_ok.mp hcheck
  obtain ⟨rfl, rfl⟩ := Program.run_pure_ok.mp hreturn
  have hrow := demand_ok.mp hfound
  have hkeys := List.find?_some hrow
  simp only [Bool.and_eq_true, beq_iff_eq] at hkeys
  exact ⟨rfl, List.mem_of_find?_eq_some hrow, hkeys.1, hkeys.2⟩

/-- What an update of one workflow did. -/
theorem updateRow_ok {workflow_id : Text} {u : WorkflowUpdate} {v : Unit}
    (h : (S.updateRow workflow_id u).run rows = (.ok v, rows')) :
    rows' = rows.map (fun r => if r.workflow_id == workflow_id then u.apply r else r) ∧
      ∀ r ∈ rows, r.workflow_id = workflow_id → r.Updated (u.apply r) := by
  have hupdate := Program.run_update_ok.mp h
  split at hupdate
  · cases hupdate
  · rename_i count updated heq
    obtain ⟨hmap, -, hall⟩ := updateWorkflows_ok heq
    split at hupdate
    · cases hupdate
      exact ⟨hmap, fun r hr hid => hall r hr (beq_iff_eq.mpr hid)⟩
    · cases hupdate

/-- An update of the one row of a workflow moves the table when it moves that row. -/
theorem moved_of_updateRow {workflow_id : Text} {u : WorkflowUpdate} {row : WorkflowRow}
    (hkeys : Keys rows) (hrow : row ∈ rows) (hid : row.workflow_id = workflow_id)
    (hmoves : row.Moves (u.apply row)) :
    List.Forall₂ WorkflowRow.Moves rows
      (rows.map fun r => if r.workflow_id == workflow_id then u.apply r else r) := by
  refine List.forall₂_map_right_iff.mpr (List.forall₂_same.mpr fun r hr => ?_)
  split
  · rename_i hsame
    obtain rfl := hkeys.eq hr hrow ((beq_iff_eq.mp hsame).trans hid.symm)
    exact hmoves
  · exact WorkflowRow.Moves.refl r

/-- What the common course of the operations did. -/
theorem transition_ok {workflow_id user_id : Text} {reject_expired : Bool}
    {guard : WorkflowRow → Except ConsoleError Unit}
    {assignments : Int → Except ConsoleError WorkflowUpdate} {result : StoreResult}
    (h : (S.transition workflow_id user_id reject_expired guard assignments).run rows =
      (.ok result, rows')) :
    ∃ row now u updated, row ∈ rows ∧ row.workflow_id = workflow_id ∧ guard row = .ok () ∧
      assignments now = .ok u ∧ row.Updated (u.apply row) ∧
      rows' = rows.map (fun r => if r.workflow_id == workflow_id then u.apply r else r) ∧
      result = .workflow updated ∧ updated ∈ rows' ∧ updated.workflow_id = workflow_id := by
  obtain ⟨identity, -, h⟩ := Program.run_check_bind_ok.mp h
  obtain ⟨now, -, h⟩ := Program.run_check_bind_ok.mp h
  obtain ⟨row, _, hread, hafter⟩ := Program.run_bind_ok.mp h
  obtain ⟨rfl, hrow, hid, -⟩ := getRow_ok hread
  obtain ⟨_, hguard, hguarded⟩ := Program.run_check_bind_ok.mp hafter
  obtain ⟨u, hassigned, hset⟩ := Program.run_check_bind_ok.mp hguarded
  obtain ⟨_, updatedRows, hwrite, hwritten⟩ := Program.run_bind_ok.mp hset
  obtain ⟨hmap, hupdated⟩ := updateRow_ok hwrite
  obtain ⟨updated, _, hreread, hreturn⟩ := Program.run_bind_ok.mp hwritten
  obtain ⟨rfl, hmem, hupdatedId, -⟩ := getRow_ok hreread
  obtain ⟨rfl, rfl⟩ := Program.run_pure_ok.mp hreturn
  exact ⟨row, now, u, updated, hrow, hid, hguard, hassigned, hupdated row hrow hid, hmap, rfl,
    hmem, hupdatedId⟩

/-- An update that the guard and the assignments of an operation let through freezes nothing, and
leaves a frozen request's content alone. -/
def Ordinary (guard : WorkflowRow → Except ConsoleError Unit)
    (assignments : Int → Except ConsoleError WorkflowUpdate) : Prop :=
  ∀ row now u, guard row = .ok () → assignments now = .ok u →
    u.state ≠ some .frozen ∧ u.frozen_request_json = none ∧
      (row.state.isFrozen = true → u.source_text = none ∧ u.proposal_json = none)

/-- An operation of the common course moves the table. -/
theorem transition_moves {workflow_id user_id : Text} {reject_expired : Bool}
    {guard : WorkflowRow → Except ConsoleError Unit}
    {assignments : Int → Except ConsoleError WorkflowUpdate} {result : StoreResult}
    (h : (S.transition workflow_id user_id reject_expired guard assignments).run rows =
      (.ok result, rows')) (hordinary : Ordinary guard assignments) (hkeys : Keys rows) :
    List.Forall₂ WorkflowRow.Moves rows rows' := by
  obtain ⟨row, now, u, updated, hrow, hid, hguard, hassigned, hupdated, rfl, -⟩ := transition_ok h
  obtain ⟨hstate, hrequest, hcontent⟩ := hordinary row now u hguard hassigned
  exact moved_of_updateRow hkeys hrow hid (hupdated.moves hstate hrequest hcontent)

theorem requireState_ok {row : WorkflowRow} {expected : WorkflowState} {v : Unit}
    (h : requireState row expected = .ok v) : row.state = expected :=
  not_not.mp (reject_ok.mp h)

/-- A guard that only lets rows of an unfrozen state through. -/
theorem ordinary_of_unfrozen {guard : WorkflowRow → Except ConsoleError Unit}
    {assignments : Int → Except ConsoleError WorkflowUpdate}
    (hguard : ∀ row, guard row = .ok () → row.state.isFrozen = false)
    (hassigned : ∀ now u, assignments now = .ok u →
      u.state ≠ some .frozen ∧ u.frozen_request_json = none) : Ordinary guard assignments := by
  intro row now u hlet hset
  refine ⟨(hassigned now u hset).1, (hassigned now u hset).2, fun hfrozen => ?_⟩
  rw [hguard row hlet] at hfrozen
  cases hfrozen

theorem unfrozen_of_requireState {row : WorkflowRow} {expected : WorkflowState}
    {rest : Except ConsoleError Unit} (hexpected : expected.isFrozen = false)
    (h : (requireState row expected >>= fun _ => rest) = .ok ()) : row.state.isFrozen = false := by
  obtain ⟨_, hstate, -⟩ := bind_eq_ok.mp h
  rw [requireState_ok hstate]
  exact hexpected

theorem beginExtraction_moves {workflow_id user_id : Text} {version : Option Int}
    {result : StoreResult} (hkeys : Keys rows)
    (h : (S.beginExtraction workflow_id user_id version).run rows = (.ok result, rows')) :
    List.Forall₂ WorkflowRow.Moves rows rows' := by
  refine transition_moves h (ordinary_of_unfrozen ?_ ?_) hkeys
  · exact fun row => unfrozen_of_requireState rfl
  · rintro now u ⟨⟩
    exact ⟨nofun, rfl⟩

theorem reviseSource_moves {workflow_id user_id source_text schema_id : Text}
    {version : Option Int} {result : StoreResult} (hkeys : Keys rows)
    (h : (S.reviseSource workflow_id user_id source_text schema_id version).run rows =
      (.ok result, rows')) : List.Forall₂ WorkflowRow.Moves rows rows' := by
  obtain ⟨request, -, h⟩ := Program.run_check_bind_ok.mp h
  refine transition_moves h (ordinary_of_unfrozen ?_ ?_) hkeys
  · exact fun row => unfrozen_of_requireState rfl
  · intro now u hu
    obtain ⟨_, -, hreturn⟩ := bind_eq_ok.mp hu
    cases hreturn
    exact ⟨nofun, rfl⟩

theorem finishExtraction_moves {workflow_id user_id : Text} {extracted : ExtractionResult}
    {result : StoreResult} (hkeys : Keys rows)
    (h : (S.finishExtraction workflow_id user_id extracted).run rows = (.ok result, rows')) :
    List.Forall₂ WorkflowRow.Moves rows rows' := by
  refine transition_moves h (ordinary_of_unfrozen ?_ ?_) hkeys
  · intro row hrow
    rw [requireState_ok hrow]
    rfl
  · intro now u hu
    obtain ⟨_, -, hrest⟩ := bind_eq_ok.mp hu
    cases extracted with
    | ready proposal =>
      obtain ⟨_, -, hreturn⟩ := bind_eq_ok.mp hrest
      cases hreturn
      exact ⟨nofun, rfl⟩
    | unable errors nonempty =>
      obtain ⟨_, -, hreturn⟩ := bind_eq_ok.mp hrest
      cases hreturn
      exact ⟨nofun, rfl⟩

theorem failExtraction_moves {workflow_id user_id code : Text} {details : List Text}
    {result : StoreResult} (hkeys : Keys rows)
    (h : (S.failExtraction workflow_id user_id code details).run rows = (.ok result, rows')) :
    List.Forall₂ WorkflowRow.Moves rows rows' := by
  refine transition_moves h (ordinary_of_unfrozen ?_ ?_) hkeys
  · intro row hrow
    rw [requireState_ok hrow]
    rfl
  · intro now u hu
    obtain ⟨_, -, hrest⟩ := bind_eq_ok.mp hu
    obtain ⟨_, -, hreturn⟩ := bind_eq_ok.mp hrest
    cases hreturn
    exact ⟨nofun, rfl⟩

theorem beginRetry_moves {workflow_id user_id : Text} {version : Option Int}
    {result : StoreResult} (hkeys : Keys rows)
    (h : (S.beginRetry workflow_id user_id version).run rows = (.ok result, rows')) :
    List.Forall₂ WorkflowRow.Moves rows rows' := by
  refine transition_moves h ?_ hkeys
  rintro row now u - ⟨⟩
  exact ⟨nofun, rfl, fun _ => ⟨rfl, rfl⟩⟩

theorem recordCaptureResponse_moves {workflow_id user_id : Text} {response : CaptureResponse}
    {result : StoreResult} (hkeys : Keys rows)
    (h : (S.recordCaptureResponse workflow_id user_id response).run rows = (.ok result, rows')) :
    List.Forall₂ WorkflowRow.Moves rows rows' := by
  refine transition_moves h ?_ hkeys
  intro row now u _ hu
  obtain ⟨_, -, hrest⟩ := bind_eq_ok.mp hu
  obtain ⟨_, -, hreturn⟩ := bind_eq_ok.mp hrest
  cases hreturn
  exact ⟨nofun, rfl, fun _ => ⟨rfl, rfl⟩⟩

theorem recordCaptureFailure_moves {workflow_id user_id code : Text} {state : WorkflowState}
    {details : List Text} {result : StoreResult} (hkeys : Keys rows)
    (h : (S.recordCaptureFailure workflow_id user_id state code details).run rows =
      (.ok result, rows')) : List.Forall₂ WorkflowRow.Moves rows rows' := by
  obtain ⟨_, hreject, h⟩ := Program.run_check_bind_ok.mp h
  have hstate := reject_ok.mp hreject
  refine transition_moves h ?_ hkeys
  intro row now u _ hu
  obtain ⟨_, -, hassigned⟩ := bind_eq_ok.mp hu
  obtain ⟨_, -, hreturn⟩ := bind_eq_ok.mp hassigned
  cases hreturn
  refine ⟨?_, rfl, fun _ => ⟨rfl, rfl⟩⟩
  rintro ⟨⟩
  exact hstate ⟨by decide, by decide, by decide⟩

theorem cancelWorkflow_moves {workflow_id user_id : Text} {version : Option Int}
    {result : StoreResult} (hkeys : Keys rows)
    (h : (S.cancelWorkflow workflow_id user_id version).run rows = (.ok result, rows')) :
    List.Forall₂ WorkflowRow.Moves rows rows' := by
  refine transition_moves h (ordinary_of_unfrozen ?_ ?_) hkeys
  · intro row hrow
    obtain ⟨_, hreject, -⟩ := bind_eq_ok.mp hrow
    have hstate := reject_ok.mp hreject
    rw [not_and_or, not_not, not_not] at hstate
    rcases hstate with hstate | hstate <;> rw [hstate] <;> rfl
  · intro now u hu
    obtain ⟨_, -, hreturn⟩ := bind_eq_ok.mp hu
    cases hreturn
    exact ⟨nofun, rfl⟩

/-- A request and the canonical text it is frozen as. -/
theorem frozenRequest_key {row : WorkflowRow} {capture : CaptureArgument}
    {request : FrozenCaptureRequest} (h : frozenRequest L row capture = .ok request) :
    request.idempotency_key = row.idempotency_key := by
  obtain ⟨input, -, h⟩ := bind_eq_ok.mp h
  obtain ⟨_, -, h⟩ := bind_eq_ok.mp h
  obtain ⟨workflow, -, h⟩ := bind_eq_ok.mp h
  obtain ⟨proposal, -, h⟩ := bind_eq_ok.mp h
  obtain ⟨_, -, h⟩ := bind_eq_ok.mp h
  exact CaptureInput.freeze_key (demand_ok.mp h)

/-- Freezing and submitting moves the row under review straight to submitting. -/
theorem freezeAndSubmit_moves {workflow_id identity : Text} {now : Int} {row : WorkflowRow}
    {capture : CaptureArgument} {version : Option Int} {result : StoreResult} (hkeys : Keys rows)
    (hrow : row ∈ rows) (hid : row.workflow_id = workflow_id)
    (h : (S.freezeAndSubmit L workflow_id identity now row capture version).run rows =
      (.ok result, rows')) :
    List.Forall₂ WorkflowRow.Moves rows rows' ∧ ∃ updated ∈ rows', result = .workflow updated := by
  obtain ⟨_, hstate, h⟩ := Program.run_check_bind_ok.mp h
  obtain ⟨_, -, h⟩ := Program.run_check_bind_ok.mp h
  obtain ⟨request, hrequest, h⟩ := Program.run_check_bind_ok.mp h
  obtain ⟨request_json, hjson, h⟩ := Program.run_check_bind_ok.mp h
  obtain ⟨_, frozenRows, hfreeze, hsubmitting⟩ := Program.run_bind_ok.mp h
  obtain ⟨hfrozenRows, hfrozen⟩ := updateRow_ok hfreeze
  obtain ⟨_, submittingRows, hsubmit, hwritten⟩ := Program.run_bind_ok.mp hsubmitting
  obtain ⟨hsubmittingRows, hsubmitted⟩ := updateRow_ok hsubmit
  obtain ⟨updated, _, hread, hreturn⟩ := Program.run_bind_ok.mp hwritten
  obtain ⟨rfl, hmem, -, -⟩ := getRow_ok hread
  obtain ⟨rfl, rfl⟩ := Program.run_pure_ok.mp hreturn
  refine ⟨?_, updated, hmem, rfl⟩
  have hfirst := hfrozen row hrow hid
  have hreviewing : row.state.isFrozen = false := by
    rw [requireState_ok hstate]
    rfl
  subst hfrozenRows hsubmittingRows
  rw [List.map_map]
  refine List.forall₂_map_right_iff.mpr (List.forall₂_same.mpr fun r hr => ?_)
  rw [Function.comp_apply]
  by_cases hsame : r.workflow_id = workflow_id
  · obtain rfl := hkeys.eq hr hrow (hsame.trans hid.symm)
    rw [if_pos (beq_iff_eq.mpr hsame)]
    have hsecond := hsubmitted _ (List.mem_map_of_mem hr)
    rw [if_pos (beq_iff_eq.mpr hsame)] at hsecond
    have hmiddle := hfirst.workflow_id.trans hsame
    rw [if_pos (beq_iff_eq.mpr hmiddle)]
    have hlast := hsecond hmiddle
    refine ⟨(hfirst.kept fun hfrozen => ?_).trans (hlast.kept fun _ => ⟨rfl, rfl⟩), fun _ => ?_⟩
    · rw [hreviewing] at hfrozen
      cases hfrozen
    · refine ⟨nofun, hlast.frozen, hlast.reconciliation, ?_⟩
      rintro s ⟨⟩
      have hkey := hlast.idempotency_key.trans hfirst.idempotency_key
      exact ⟨request, consoleJson_ok.mp hjson, (frozenRequest_key hrequest).trans hkey.symm⟩
  · have hother : ¬ (r.workflow_id == workflow_id) = true := by simpa using hsame
    rw [if_neg hother, if_neg hother]
    exact WorkflowRow.Moves.refl r

/-- An update of every workflow in a state, of the recovery after a restart. -/
theorem recoverState_moves {state : WorkflowState} {u : WorkflowUpdate} {n : Nat}
    (hstate : u.state ≠ some .frozen) (hrequest : u.frozen_request_json = none)
    (hcontent : u.source_text = none ∧ u.proposal_json = none)
    (h : (S.recoverState state u).run rows = (.ok n, rows')) :
    List.Forall₂ WorkflowRow.Moves rows rows' := by
  rw [recoverState, Program.run_statement] at h
  split at h
  · rename_i heq
    cases h
    split at heq
    · rename_i hupdate
      cases heq
      obtain ⟨rfl, -, hall⟩ := updateWorkflows_ok hupdate
      refine List.forall₂_map_right_iff.mpr (List.forall₂_same.mpr fun r hr => ?_)
      split
      · exact (hall r hr ‹_›).moves hstate hrequest fun _ => hcontent
      · exact WorkflowRow.Moves.refl r
    · cases heq
  · cases h

end StoreWorld

namespace StoreOperation

/-- What a committed operation did to the table. -/
inductive Outcome (S : StoreWorld) : StoreOperation → List WorkflowRow → List WorkflowRow → Prop
  | moved {op : StoreOperation} {before after : List WorkflowRow}
      (h : List.Forall₂ WorkflowRow.Moves before after) : Outcome S op before after
  | created {user_id source_text schema_id : Text} {before : List WorkflowRow} (row : WorkflowRow)
      (fresh : row.workflow_id = S.uuid_factory 0) (sound : row.Sound) :
      Outcome S (.create_workflow user_id source_text schema_id) before (before ++ [row])
  | deleted {op : StoreOperation} {before : List WorkflowRow} (selects : WorkflowRow → Bool)
      (disposable : ∀ r ∈ before, selects r = true → r.state.isDisposable = true) :
      Outcome S op before (before.filter fun r => !selects r)

variable {L : ConsoleLibrary} {S : StoreWorld} {rows rows' : List WorkflowRow}

theorem outcome_create {user_id source_text schema_id : Text} {result : StoreResult}
    (h : (S.createWorkflow user_id source_text schema_id).run rows = (.ok result, rows')) :
    Outcome S (.create_workflow user_id source_text schema_id) rows rows' ∧
      ∀ row, result = .workflow row → row ∈ rows' := by
  obtain ⟨request, -, h⟩ := Program.run_check_bind_ok.mp h
  obtain ⟨identity, -, h⟩ := Program.run_check_bind_ok.mp h
  obtain ⟨now, -, h⟩ := Program.run_check_bind_ok.mp h
  obtain ⟨expires_at, -, h⟩ := Program.run_check_bind_ok.mp h
  obtain ⟨_, inserted, hupdate, hrest⟩ := Program.run_bind_ok.mp h
  obtain ⟨created, _, hread, hreturn⟩ := Program.run_bind_ok.mp hrest
  obtain ⟨rfl, hmem, -, -⟩ := StoreWorld.getRow_ok hread
  obtain ⟨rfl, rfl⟩ := Program.run_pure_ok.mp hreturn
  have hinsert := Program.run_update_ok.mp hupdate
  split at hinsert
  · rename_i heq
    cases hinsert
    obtain ⟨rfl, -, -, -, -⟩ := insertWorkflow_ok heq
    refine ⟨Outcome.created _ rfl ⟨nofun, nofun, nofun, nofun⟩, ?_⟩
    rintro row ⟨⟩
    exact hmem
  · cases hinsert

/-- Moves compose over the rows of a table. -/
theorem forall₂_moves_trans {a b c : List WorkflowRow} (h : List.Forall₂ WorkflowRow.Moves a b)
    (k : List.Forall₂ WorkflowRow.Moves b c) : List.Forall₂ WorkflowRow.Moves a c := by
  induction h generalizing c with
  | nil => exact k
  | cons hab _ ih =>
    cases k with
    | cons hbc hrest => exact .cons (hab.trans hbc) (ih hrest)

theorem outcome_recover {result : StoreResult}
    (h : S.recoverAbandonedWorkflows.run rows = (.ok result, rows')) :
    List.Forall₂ WorkflowRow.Moves rows rows' ∧ ∀ row, result ≠ .workflow row := by
  obtain ⟨now, -, h⟩ := Program.run_check_bind_ok.mp h
  obtain ⟨submitting, uncertainRows, hfirst, hrest⟩ := Program.run_bind_ok.mp h
  obtain ⟨expires_at, -, hrest⟩ := Program.run_check_bind_ok.mp hrest
  obtain ⟨extracting, _, hsecond, hreturn⟩ := Program.run_bind_ok.mp hrest
  obtain ⟨rfl, rfl⟩ := Program.run_pure_ok.mp hreturn
  have huncertain := StoreWorld.recoverState_moves (by nofun) rfl ⟨rfl, rfl⟩ hfirst
  have hediting := StoreWorld.recoverState_moves (by nofun) rfl ⟨rfl, rfl⟩ hsecond
  refine ⟨forall₂_moves_trans huncertain hediting, ?_⟩
  rintro row ⟨⟩

theorem outcome_cleanup {op : StoreOperation} {result : StoreResult}
    (h : S.cleanupExpired.run rows = (.ok result, rows')) :
    Outcome S op rows rows' ∧ ∀ row, result ≠ .workflow row := by
  obtain ⟨now, -, h⟩ := Program.run_check_bind_ok.mp h
  obtain ⟨count, _, hdelete, hreturn⟩ := Program.run_bind_ok.mp h
  obtain ⟨rfl, rfl⟩ := Program.run_pure_ok.mp hreturn
  rw [Program.run_statement] at hdelete
  split at hdelete
  · rename_i heq
    cases hdelete
    split at heq
    · rename_i hdeleted
      cases heq
      obtain ⟨rfl, hdisposable⟩ := deleteWorkflows_ok hdeleted
      refine ⟨Outcome.deleted _ hdisposable, ?_⟩
      rintro row ⟨⟩
    · cases heq
  · cases hdelete

theorem outcome_freeze {workflow_id user_id : Text} {capture : CaptureArgument}
    {version : Option Int} {result : StoreResult} (hkeys : Keys rows)
    (h : (S.freezeAndBeginSubmission L workflow_id user_id capture version).run rows =
      (.ok result, rows')) :
    List.Forall₂ WorkflowRow.Moves rows rows' ∧ ∃ updated ∈ rows', result = .workflow updated := by
  obtain ⟨identity, -, h⟩ := Program.run_check_bind_ok.mp h
  obtain ⟨now, -, h⟩ := Program.run_check_bind_ok.mp h
  obtain ⟨row, _, hread, hrest⟩ := Program.run_bind_ok.mp h
  obtain ⟨rfl, hrow, hid, -⟩ := StoreWorld.getRow_ok hread
  split at hrest
  · obtain ⟨_, -, hreturn⟩ := Program.run_check_bind_ok.mp hrest
    obtain ⟨rfl, rfl⟩ := Program.run_pure_ok.mp hreturn
    exact ⟨List.forall₂_same.mpr fun r _ => WorkflowRow.Moves.refl r, row, hrow, rfl⟩
  · exact StoreWorld.freezeAndSubmit_moves hkeys hrow hid hrest

/-- The row that an operation of the common course returns is in the table. -/
theorem transition_result {workflow_id user_id : Text} {reject_expired : Bool}
    {guard : WorkflowRow → Except ConsoleError Unit}
    {assignments : Int → Except ConsoleError WorkflowUpdate} {result : StoreResult}
    (h : (S.transition workflow_id user_id reject_expired guard assignments).run rows =
      (.ok result, rows')) : ∀ row, result = .workflow row → row ∈ rows' := by
  obtain ⟨_, _, _, updated, -, -, -, -, -, -, rfl, hmem, -⟩ := StoreWorld.transition_ok h
  rintro row ⟨⟩
  exact hmem

/-- What any operation that commits did to the table, and that the row it returns is in it. -/
theorem outcome {op : StoreOperation} {result : StoreResult} (hkeys : Keys rows)
    (h : (op.program L S).run rows = (.ok result, rows')) :
    Outcome S op rows rows' ∧ ∀ row, result = .workflow row → row ∈ rows' := by
  cases op with
  | create_workflow => exact outcome_create h
  | begin_extraction =>
    exact ⟨.moved (StoreWorld.beginExtraction_moves hkeys h), transition_result h⟩
  | revise_source =>
    obtain ⟨_, -, hrest⟩ := Program.run_check_bind_ok.mp h
    exact ⟨.moved (StoreWorld.reviseSource_moves hkeys h), transition_result hrest⟩
  | finish_extraction =>
    exact ⟨.moved (StoreWorld.finishExtraction_moves hkeys h), transition_result h⟩
  | fail_extraction =>
    exact ⟨.moved (StoreWorld.failExtraction_moves hkeys h), transition_result h⟩
  | freeze_and_begin_submission =>
    obtain ⟨hmoves, updated, hmem, rfl⟩ := outcome_freeze hkeys h
    refine ⟨.moved hmoves, ?_⟩
    rintro row ⟨⟩
    exact hmem
  | begin_retry => exact ⟨.moved (StoreWorld.beginRetry_moves hkeys h), transition_result h⟩
  | record_capture_response =>
    exact ⟨.moved (StoreWorld.recordCaptureResponse_moves hkeys h), transition_result h⟩
  | record_capture_failure =>
    obtain ⟨_, -, hrest⟩ := Program.run_check_bind_ok.mp h
    exact ⟨.moved (StoreWorld.recordCaptureFailure_moves hkeys h), transition_result hrest⟩
  | cancel_workflow =>
    exact ⟨.moved (StoreWorld.cancelWorkflow_moves hkeys h), transition_result h⟩
  | recover_abandoned_workflows =>
    obtain ⟨hmoves, hnone⟩ := outcome_recover h
    exact ⟨.moved hmoves, fun row heq => absurd heq (hnone row)⟩
  | cleanup_expired =>
    obtain ⟨hdeleted, hnone⟩ := outcome_cleanup h
    exact ⟨hdeleted, fun row heq => absurd heq (hnone row)⟩

end StoreOperation

end Pine
