import Pine.Ledger.Capture.Freshness
import Pine.Ledger.Console.Moves
import Pine.Ledger.Console.WorkflowService
import Pine.Ledger.Results.Permanence

/-!
# Frozen workflows

What is known of every workflow that was ever committed, deleted ones included: the
last row of each identity. Rows only move along the relation of the operations, so
every submission and every call made for a workflow, at whatever time it is sent,
carries the request that was frozen for it.
-/

namespace Pine

open Workflows

/-! ## Rows of a moved table -/

namespace StoreOperation

variable {S : StoreWorld} {op : StoreOperation} {before after : List WorkflowRow}

/-- A row after an operation moved from one before it, or was created under the fresh UUID. -/
theorem Outcome.origin (h : Outcome S op before after) {r' : WorkflowRow} (hr' : r' ∈ after) :
    (∃ r ∈ before, r.Moves r') ∨
      (r'.workflow_id = S.uuid_factory 0 ∧ op.draws = 2 ∧ r'.Sound) := by
  cases h with
  | moved hmoved =>
    obtain ⟨r, hr, hmoves⟩ := forall₂_right hmoved hr'
    exact Or.inl ⟨r, hr, hmoves⟩
  | created row hfresh hsound =>
    rcases List.mem_append.mp hr' with hold | hnew
    · exact Or.inl ⟨r', hold, WorkflowRow.Moves.refl r'⟩
    · rw [List.mem_singleton.mp hnew]
      exact Or.inr ⟨hfresh, rfl, hsound⟩
  | deleted selects _ =>
    exact Or.inl ⟨r', (List.mem_filter.mp hr').1, WorkflowRow.Moves.refl r'⟩

/-- An operation keeps every committed row sound. -/
theorem Outcome.sound (h : Outcome S op before after) (hbefore : ∀ r ∈ before, r.Sound) :
    ∀ r' ∈ after, r'.Sound := by
  intro r' hr'
  rcases h.origin hr' with ⟨r, hr, hmoves⟩ | ⟨-, -, hsound⟩
  · exact hmoves.sound (hbefore r hr)
  · exact hsound

/-- A reconciling workflow is still there after any operation. -/
theorem Outcome.protects (h : Outcome S op before after) {r : WorkflowRow} (hr : r ∈ before)
    (hstate : r.state.isReconciliation = true) : ∃ r' ∈ after, r.Kept r' := by
  cases h with
  | moved hmoved =>
    obtain ⟨r', hr', hmoves⟩ := forall₂_left hmoved hr
    exact ⟨r', hr', hmoves.kept⟩
  | created row hfresh hsound =>
    exact ⟨r, List.mem_append_left _ hr, WorkflowRow.Kept.refl r⟩
  | deleted selects hdisposable =>
    refine ⟨r, List.mem_filter.mpr ⟨hr, ?_⟩, WorkflowRow.Kept.refl r⟩
    cases hs : selects r with
    | false => rfl
    | true =>
      have hdisposed := hdisposable r hr hs
      revert hstate hdisposed
      cases r.state <;> decide

end StoreOperation

/-! ## The last row of every workflow -/

/-- The last row of every workflow that was ever committed. -/
structure History (seen : WorkflowRow → Prop) (last : Text → Option WorkflowRow)
    (rows : List WorkflowRow) : Prop where
  current : ∀ r ∈ rows, last r.workflow_id = some r
  kept : ∀ r, seen r → ∃ r', last r.workflow_id = some r' ∧ r.Kept r'

/-- The last rows once a table is committed. -/
def lastRows (rows : List WorkflowRow) (last : Text → Option WorkflowRow) (workflow_id : Text) :
    Option WorkflowRow :=
  (rows.find? (·.workflow_id == workflow_id)).or (last workflow_id)

theorem lastRows_of_mem {rows : List WorkflowRow} (last : Text → Option WorkflowRow)
    (hkeys : Keys rows) {r : WorkflowRow} (hr : r ∈ rows) :
    lastRows rows last r.workflow_id = some r := by
  rw [lastRows, find?_key_of_mem hkeys hr, Option.some_or]

/-- What the last rows know, they knew before or committed now. -/
theorem lastRows_ne_none {rows : List WorkflowRow} {last : Text → Option WorkflowRow}
    {workflow_id : Text} (h : lastRows rows last workflow_id ≠ none) :
    last workflow_id ≠ none ∨ ∃ r ∈ rows, r.workflow_id = workflow_id := by
  cases hfind : rows.find? (·.workflow_id == workflow_id) with
  | none =>
    rw [lastRows, hfind, Option.none_or] at h
    exact Or.inl h
  | some r =>
    obtain ⟨hr, hid⟩ := find?_key_some hfind
    exact Or.inr ⟨r, hr, hid⟩

/-- A commit keeps the history when every row has its origin in the table before, or belongs to
a workflow that was never there. -/
theorem History.commit {seen seen' : WorkflowRow → Prop} {last : Text → Option WorkflowRow}
    {rows rows' : List WorkflowRow} (h : History seen last rows) (hkeys : Keys rows')
    (horigin : ∀ r' ∈ rows', (∃ r ∈ rows, r.Kept r') ∨ last r'.workflow_id = none)
    (hseen : ∀ r, seen' r → seen r ∨ r ∈ rows') : History seen' (lastRows rows' last) rows' := by
  refine ⟨fun r hr => lastRows_of_mem last hkeys hr, fun r hr => ?_⟩
  rcases hseen r hr with hold | hnew
  · obtain ⟨r', hlast, hkept⟩ := h.kept r hold
    cases hfind : rows'.find? (·.workflow_id == r.workflow_id) with
    | none => exact ⟨r', by rw [lastRows, hfind, Option.none_or, hlast], hkept⟩
    | some now =>
      obtain ⟨hnow, hid⟩ := find?_key_some hfind
      refine ⟨now, by rw [lastRows, hfind, Option.some_or], ?_⟩
      rcases horigin now hnow with ⟨before, hbefore, hmoved⟩ | hnone
      · have hsame := h.current before hbefore
        rw [← hmoved.workflow_id, hid, hlast] at hsame
        obtain rfl := Option.some.inj hsame
        exact hkept.trans hmoved
      · rw [hid, hlast] at hnone
        cases hnone
  · exact ⟨r, lastRows_of_mem last hkeys hnew, WorkflowRow.Kept.refl r⟩

namespace Console

variable {π : Type} {L : ConsoleLibrary} {uuid : Nat → Text} {seen : WorkflowRow → Prop}
  {last : Text → Option WorkflowRow}

/-! ## The invariant -/

/-- The workflow identities below a number of draws. -/
def Drawn (uuid : Nat → Text) (last : Text → Option WorkflowRow) (limit : Nat) : Prop :=
  ∀ workflow_id, last workflow_id ≠ none → ∃ i < limit, workflow_id = uuid i

/-- The invariant of the database: what the writer does, and the history of the rows. -/
structure Database (L : ConsoleLibrary) (uuid : Nat → Text) (seen : WorkflowRow → Prop)
    (last : Text → Option WorkflowRow) (draws : Nat)
    (d : Transaction.State π (List WorkflowRow) ConsoleError StoreResult) : Prop where
  serial : Transaction.Serial d
  each : ∀ w, d.writer = some w → w.rest.Each Statement ∧ Keys w.copy
  writer : ∀ w, d.writer = some w → ∃ (op : StoreOperation) (world : StoreWorld) (drawn : Nat),
    w.begun = op.program L world ∧ world.uuid_factory 0 = uuid drawn ∧ drawn + op.draws ≤ draws ∧ Drawn uuid last drawn
  keys : Keys d.committed
  sound : ∀ r ∈ d.committed, r.Sound
  history : History seen last d.committed
  drawn : Drawn uuid last draws

/-- A workflow held by a process was projected from a committed row. -/
def Holds (L : ConsoleLibrary) (seen : WorkflowRow → Prop) (workflow : ConsoleWorkflow) : Prop :=
  ∃ r, seen r ∧ r.workflow_id = workflow.workflow_id ∧ r.Sound ∧
    ∀ request, workflow.frozen_request = some request → ∃ s, r.frozen_request_json = some s ∧
      FrozenCaptureRequest.modelValidateJson L s = some request

/-- The workflow of a process that submits. -/
def phaseWorkflow : ConsolePhase → Option ConsoleWorkflow
  | .submitting workflow _ | .awaiting workflow _ | .classified workflow _ _
  | .recording workflow _ _ => some workflow
  | _ => none

/-- A call carries the request that was frozen for its workflow, under the workflow's key. -/
def Carries (seen : WorkflowRow → Prop) (call : CaptureCall) : Prop :=
  ∃ r s, seen r ∧ r.workflow_id = call.workflow_id ∧ r.frozen_request_json = some s ∧
    canonicalJson call.request.modelDump = .ok s ∧
    call.request.idempotency_key = r.idempotency_key

/-- The invariant of the console. -/
structure Safe (L : ConsoleLibrary) (uuid : Nat → Text) (seen : WorkflowRow → Prop)
    (last : Text → Option WorkflowRow) (s : Console π) : Prop where
  database : Database L uuid seen last s.draws s.database
  phases : ∀ p workflow, phaseWorkflow (s.phase p) = some workflow → Holds L seen workflow
  calls : ∀ call ∈ s.calls, Carries seen call

theorem Holds.mono {seen seen' : WorkflowRow → Prop} (hseen : ∀ r, seen r → seen' r)
    {workflow : ConsoleWorkflow} (h : Holds L seen workflow) : Holds L seen' workflow := by
  obtain ⟨r, hr, hrest⟩ := h
  exact ⟨r, hseen r hr, hrest⟩

theorem Carries.mono {seen seen' : WorkflowRow → Prop} (hseen : ∀ r, seen r → seen' r)
    {call : CaptureCall} (h : Carries seen call) : Carries seen' call := by
  obtain ⟨r, s, hr, hrest⟩ := h
  exact ⟨r, s, hseen r hr, hrest⟩

/-- What a process sends is the request of the row that its workflow was projected from. -/
theorem Holds.carries {workflow : ConsoleWorkflow} (h : Holds L seen workflow)
    {frozen : FrozenCaptureRequest} {request : PreregisteredCaptureRequest}
    (hfrozen : workflow.frozen_request = some frozen)
    (hsent : frozen.toBackendRequest L = some request) :
    Carries seen ⟨workflow.workflow_id, request⟩ := by
  obtain ⟨r, hseen, hid, hsound, hrequest⟩ := h
  obtain ⟨s, hs, hread⟩ := hrequest frozen hfrozen
  obtain ⟨stored, hcanonical, hkey⟩ := hsound.stored s hs
  obtain ⟨hsame, htext⟩ := FrozenCaptureRequest.rebuilt hcanonical hread hsent
  exact ⟨r, s, hseen, hid, hs, htext, hsame.idempotency_key.trans hkey⟩

/-! ## Steps of the database -/

/-- Nobody is in a transaction, and a process begins one. -/
theorem Database.begin {draws : Nat}
    {d d' : Transaction.State π (List WorkflowRow) ConsoleError StoreResult} {p : π}
    {op : StoreOperation} {world : StoreWorld} (h : Database L uuid seen last draws d)
    (hstep : Transaction.next d (.begin p (op.program L (world.drawing uuid draws))) = some d') :
    Database L uuid seen last (draws + op.draws) d' ∧ d'.committed = d.committed := by
  obtain ⟨committed, _ | w⟩ := d
  · cases hstep
    refine ⟨⟨?_, ?_, ?_, h.keys, h.sound, h.history, ?_⟩, rfl⟩
    · rintro w ⟨⟩
      rfl
    · rintro w ⟨⟩
      exact ⟨op.each L _, h.keys⟩
    · rintro w ⟨⟩
      exact ⟨op, world.drawing uuid draws, draws, rfl, rfl, le_rfl, h.drawn⟩
    · intro workflow_id hid
      obtain ⟨i, hi, heq⟩ := h.drawn workflow_id hid
      exact ⟨i, Nat.lt_add_right _ hi, heq⟩
  · cases hstep

/-- One statement of the writer: versions are raised by one, and nothing is committed. -/
theorem Database.advance {draws : Nat}
    {d d' : Transaction.State π (List WorkflowRow) ConsoleError StoreResult}
    (h : Database L uuid seen last draws d) (hstep : Transaction.next d .advance = some d') :
    Database L uuid seen last draws d' ∧ d'.committed = d.committed ∧
      ∃ w w', d.writer = some w ∧ d'.writer = some w' ∧ Keys w.copy ∧ Statement w.copy w'.copy := by
  have hs := Transaction.step_of_next hstep
  obtain ⟨w, w', hw, hw', hprocess, hbegun, hstatement⟩ :=
    hs.advance_each fun w hw => (h.each w hw).1
  have hcommitted := hs.committed_eq nofun
  have hcopy := (h.each w hw).2
  refine ⟨⟨hs.serial h.serial, ?_, ?_, ?_, ?_, ?_, h.drawn⟩, hcommitted, w, w', hw, hw', hcopy,
    hstatement⟩
  · intro v hv
    refine ⟨hs.each nofun (fun w hw => (h.each w hw).1) v hv, ?_⟩
    obtain rfl := Option.some.inj (hw'.symm.trans hv)
    exact hstatement.keys hcopy
  · intro v hv
    obtain rfl := Option.some.inj (hw'.symm.trans hv)
    obtain ⟨op, world, drawn, hop, hrest⟩ := h.writer w hw
    exact ⟨op, world, drawn, hbegun.trans hop, hrest⟩
  · rw [hcommitted]
    exact h.keys
  · rw [hcommitted]
    exact h.sound
  · rw [hcommitted]
    exact h.history

/-- A rolled back transaction leaves nothing. -/
theorem Database.rollback {draws : Nat}
    {d : Transaction.State π (List WorkflowRow) ConsoleError StoreResult}
    (h : Database L uuid seen last draws d) :
    Database L uuid seen last draws (⟨d.committed, none⟩ : Transaction.State π _ _ _) :=
  ⟨nofun, nofun, nofun, h.keys, h.sound, h.history, h.drawn⟩

/-- What a commit publishes is the outcome of one whole operation. -/
theorem Database.commit (huuid : Function.Injective uuid) {draws : Nat} {committed copy : List WorkflowRow}
    {p : π} {begun : Program (List WorkflowRow) ConsoleError StoreResult} {result : StoreResult}
    (h : Database L uuid seen last draws ⟨committed, some ⟨p, begun, copy, .done (.ok result)⟩⟩)
    {seen' : WorkflowRow → Prop} (hseen : ∀ r, seen' r → seen r ∨ r ∈ copy) :
    Database L uuid seen' (lastRows copy last) draws (⟨copy, none⟩ : Transaction.State π _ _ _) ∧
      (∀ r ∈ committed, r.state.isReconciliation = true → ∃ r' ∈ copy, r.Kept r') ∧
      ∀ row, result = .workflow row → row ∈ copy := by
  obtain ⟨op, world, drawn, rfl, hfresh, hdraws, hbefore⟩ := h.writer _ rfl
  have hrun : (op.program L world).run committed = (.ok result, copy) := (h.serial _ rfl).symm
  obtain ⟨houtcome, hresult⟩ := StoreOperation.outcome h.keys hrun
  have hkeys : Keys copy := (h.each _ rfl).2
  have horigin : ∀ r' ∈ copy, (∃ r ∈ committed, r.Kept r') ∨
      (last r'.workflow_id = none ∧ ∃ i < draws, r'.workflow_id = uuid i) := by
    intro r' hr'
    rcases houtcome.origin hr' with ⟨r, hr, hmoves⟩ | ⟨hid, hcreates, -⟩
    · exact Or.inl ⟨r, hr, hmoves.kept⟩
    · refine Or.inr ⟨?_, drawn, by omega, hid.trans hfresh⟩
      by_contra hknown
      obtain ⟨i, hi, heq⟩ := hbefore r'.workflow_id hknown
      have hsame := huuid ((hid.trans hfresh).symm.trans heq)
      omega
  refine ⟨⟨nofun, nofun, nofun, hkeys, houtcome.sound h.sound, ?_, ?_⟩,
    fun r hr hstate => houtcome.protects hr hstate, hresult⟩
  · exact h.history.commit hkeys (fun r' hr' => (horigin r' hr').imp_right And.left) hseen
  · intro workflow_id hid
    rcases lastRows_ne_none hid with hknown | ⟨r', hr', rfl⟩
    · exact h.drawn workflow_id hknown
    · rcases horigin r' hr' with ⟨r, hr, hkept⟩ | ⟨-, hdrawn⟩
      · refine h.drawn _ ?_
        rw [hkept.workflow_id, h.history.current r hr]
        nofun
      · exact hdrawn

/-! ## Steps of the console -/

/-- The committed workflows. -/
def rows (s : Console π) : List WorkflowRow := s.database.committed

/-- A reconciling workflow is still there after the step, with its content and in a state that
follows freezing. -/
def Protects (s t : Console π) : Prop :=
  ∀ r ∈ s.rows, r.state.isReconciliation = true → ∃ r' ∈ t.rows, r.Kept r'

/-- The working copy of a transaction that goes on changed no row but by one version. -/
def RaisesVersions (s t : Console π) : Prop :=
  ∀ w w', s.database.writer = some w → t.database.writer = some w' →
    ∀ r ∈ w.copy, ∀ r' ∈ w'.copy, r'.workflow_id = r.workflow_id →
      r' = r ∨ r'.version = r.version + 1

theorem Database.mono {draws : Nat}
    {d : Transaction.State π (List WorkflowRow) ConsoleError StoreResult} {seen' : WorkflowRow → Prop}
    (h : Database L uuid seen last draws d) (hseen : ∀ r, seen' r → seen r) :
    Database L uuid seen' last draws d :=
  { h with history := ⟨h.history.current, fun r hr => h.history.kept r (hseen r hr)⟩ }

theorem afterFailure_workflow {workflow workflow' : ConsoleWorkflow} {user_id : Text}
    {outcome : CaptureOutcome}
    (h : phaseWorkflow (afterFailure workflow user_id outcome) = some workflow') :
    workflow' = workflow := by
  cases outcome <;> cases h
  rfl

theorem afterAbort_workflow {phase : ConsolePhase} {workflow : ConsoleWorkflow}
    (h : phaseWorkflow phase.afterAbort = some workflow) : phaseWorkflow phase = some workflow := by
  cases phase with
  | recording held user_id outcome =>
    obtain rfl := afterFailure_workflow h
    rfl
  | _ => cases h

/-- The workflow that a submission begins with was projected from the row that was returned. -/
theorem submissionOf_workflow {user_id : Text} {retry : Bool} {result : StoreResult}
    {workflow : ConsoleWorkflow}
    (h : phaseWorkflow (submissionOf L user_id retry result) = some workflow) :
    ∃ row, result = .workflow row ∧ workflowFromRow L row = .ok workflow := by
  cases result with
  | workflow row =>
    cases hprojected : workflowFromRow L row with
    | ok projected =>
      simp only [submissionOf, hprojected] at h
      by_cases hcommitted : (!retry && projected.state == .committed) = true
      · rw [if_pos hcommitted] at h
        cases h
      · rw [if_neg hcommitted] at h
        cases h
        exact ⟨row, rfl, hprojected⟩
    | error e =>
      simp only [submissionOf, hprojected] at h
      cases h
  | _ => cases h

theorem afterCommit_workflow {result : StoreResult} {phase : ConsolePhase}
    {workflow : ConsoleWorkflow}
    (h : phaseWorkflow (phase.afterCommit L result) = some workflow) :
    phaseWorkflow phase = some workflow ∨
      ∃ row, result = .workflow row ∧ workflowFromRow L row = .ok workflow := by
  cases phase with
  | requesting request =>
    cases request with
    | store => cases h
    | confirm => exact Or.inr (submissionOf_workflow h)
    | retry => exact Or.inr (submissionOf_workflow h)
  | recording held user_id outcome =>
    cases result with
    | workflow row =>
      unfold ConsolePhase.afterCommit at h
      cases hprojected : workflowFromRow L row with
      | ok projected =>
        simp only [hprojected] at h
        cases h
      | error e =>
        simp only [hprojected] at h
        obtain rfl := afterFailure_workflow h
        exact Or.inl rfl
    | _ => cases h
  | _ => cases h

/-- A projection of a sound committed row is held. -/
theorem holds_of_row {row : WorkflowRow} {workflow : ConsoleWorkflow} (hseen : seen row)
    (hsound : row.Sound) (h : workflowFromRow L row = .ok workflow) : Holds L seen workflow := by
  obtain ⟨hid, -, -, hrequest⟩ := workflowFromRow_ok h
  exact ⟨row, hseen, hid.symm, hsound, hrequest⟩

/-- The rows seen before a step, and those seen after it. -/
structure Sees (seen seen' : WorkflowRow → Prop) (s t : Console π) : Prop where
  forward : ∀ r, seen r → seen' r
  now : ∀ r ∈ s.rows, seen r
  new : ∀ r ∈ t.rows, seen' r
  only : ∀ r, seen' r → seen r ∨ r ∈ t.rows

/-- What a step of a safe console keeps and does. -/
def Advances (L : ConsoleLibrary) (uuid : Nat → Text) (seen' : WorkflowRow → Prop)
    (s t : Console π) : Prop :=
  (∃ last', Safe L uuid seen' last' t) ∧ s.Protects t ∧ s.RaisesVersions t

variable {s t : Console π} {seen' : WorkflowRow → Prop}

/-- A step that commits nothing sees nothing new, and leaves every workflow. -/
theorem Sees.quiet (h : Sees seen seen' s t) (hrows : t.rows = s.rows) :
    (∀ r, seen' r → seen r) ∧ s.Protects t := by
  refine ⟨fun r hr => (h.only r hr).elim id fun hr => h.now r (hrows ▸ hr), fun r hr _ => ?_⟩
  exact ⟨r, hrows ▸ hr, WorkflowRow.Kept.refl r⟩

/-- A step that commits nothing keeps the invariant. -/
theorem Safe.silent (h : Safe L uuid seen last s) (hsees : Sees seen seen' s t)
    (hrows : t.rows = s.rows) (hdatabase : Database L uuid seen last t.draws t.database)
    (hphases : ∀ p workflow, phaseWorkflow (t.phase p) = some workflow → Holds L seen workflow)
    (hcalls : ∀ call ∈ t.calls, call ∈ s.calls ∨ Carries seen call)
    (hraises : s.RaisesVersions t) : Advances L uuid seen' s t := by
  obtain ⟨hback, hprotects⟩ := hsees.quiet hrows
  refine ⟨⟨last, hdatabase.mono hback, ?_, ?_⟩, hprotects, hraises⟩
  · exact fun p workflow hp => (hphases p workflow hp).mono hsees.forward
  · intro call hcall
    rcases hcalls call hcall with hold | hnew
    · exact (h.calls call hold).mono hsees.forward
    · exact hnew.mono hsees.forward

/-- A step outside the database, or one that rolls a transaction back. -/
theorem Safe.outside (h : Safe L uuid seen last s) (hsees : Sees seen seen' s t)
    (hdatabase : t.database = s.database ∨ t.database = ⟨s.database.committed, none⟩)
    (hdraws : t.draws = s.draws)
    (hphases : ∀ p workflow, phaseWorkflow (t.phase p) = some workflow → Holds L seen workflow)
    (hcalls : ∀ call ∈ t.calls, call ∈ s.calls ∨ Carries seen call) :
    Advances L uuid seen' s t := by
  have hrows : t.rows = s.rows := by
    rcases hdatabase with heq | heq <;> rw [rows, heq] <;> rfl
  refine h.silent hsees hrows ?_ hphases hcalls ?_
  · rw [hdraws]
    rcases hdatabase with heq | heq
    · rw [heq]
      exact h.database
    · rw [heq]
      exact h.database.rollback
  · intro w w' hw hw' r hr r' hr' hid
    rcases hdatabase with heq | heq
    · rw [heq] at hw'
      obtain rfl := Option.some.inj (hw.symm.trans hw')
      exact Or.inl ((h.database.each w hw).2.eq hr' hr hid)
    · rw [heq] at hw'
      cases hw'

/-- The writer executes one statement. -/
theorem Safe.advances (h : Safe L uuid seen last s)
    {d : Transaction.State π (List WorkflowRow) ConsoleError StoreResult}
    (hd : Transaction.next s.database .advance = some d)
    (hsees : Sees seen seen' s { s with database := d }) :
    Advances L uuid seen' s { s with database := d } := by
  obtain ⟨hdatabase, hcommitted, w, w', hw, hw', hkeys, hstatement⟩ := h.database.advance hd
  refine h.silent hsees hcommitted hdatabase h.phases (fun call hcall => Or.inl hcall) ?_
  intro v v' hv hv'
  obtain rfl := Option.some.inj (hw.symm.trans hv)
  obtain rfl := Option.some.inj (hw'.symm.trans hv')
  exact hstatement.raised hkeys

/-- A row that was committed at some time of the run. -/
def Seen (trace : List (Console π × ConsoleAction π)) (s : Console π) (r : WorkflowRow) : Prop :=
  (∃ x ∈ trace, r ∈ x.1.rows) ∨ r ∈ s.rows

theorem sees_snoc (trace : List (Console π × ConsoleAction π)) (s t : Console π)
    (e : ConsoleAction π) : Sees (Seen trace s) (Seen (trace ++ [(s, e)]) t) s t where
  forward r hr := by
    rcases hr with ⟨x, hx, hmem⟩ | hmem
    · exact Or.inl ⟨x, List.mem_append_left _ hx, hmem⟩
    · exact Or.inl ⟨(s, e), by simp, hmem⟩
  now _ hr := Or.inr hr
  new _ hr := Or.inr hr
  only r hr := by
    rcases hr with ⟨x, hx, hmem⟩ | hmem
    · rcases List.mem_append.mp hx with hx | hx
      · exact Or.inl (Or.inl ⟨x, hx, hmem⟩)
      · rw [List.mem_singleton.mp hx] at hmem
        exact Or.inl (Or.inr hmem)
    · exact Or.inr hmem

theorem safe_initial (L : ConsoleLibrary) (uuid : Nat → Text) :
    Safe L uuid (Seen (π := π) [] initial) (fun _ => none) (initial : Console π) where
  database :=
    { serial := fun _ hw => nomatch hw
      each := fun _ hw => nomatch hw
      writer := fun _ hw => nomatch hw
      keys := List.nodup_nil
      sound := fun _ hr => absurd hr List.not_mem_nil
      history := ⟨fun _ hr => absurd hr List.not_mem_nil,
        fun _ hr => by simp [Seen, rows, initial] at hr⟩
      drawn := fun _ h => absurd rfl h }
  phases _ _ h := by cases h
  calls _ h := absurd h List.not_mem_nil

/-- Two rows of one workflow agree on its key and on its frozen request. -/
theorem Safe.agree {s : Console π} (h : Safe L uuid seen last s) {a b : WorkflowRow} (ha : seen a)
    (hb : seen b) (hid : a.workflow_id = b.workflow_id) :
    a.idempotency_key = b.idempotency_key ∧ ∀ f g, a.frozen_request_json = some f →
      b.frozen_request_json = some g → f = g := by
  obtain ⟨c, hc, hac⟩ := h.database.history.kept a ha
  obtain ⟨d, hd, hbd⟩ := h.database.history.kept b hb
  rw [hid] at hc
  obtain rfl := Option.some.inj (hc.symm.trans hd)
  refine ⟨hac.idempotency_key.symm.trans hbd.idempotency_key, fun f g hf hg => ?_⟩
  exact Option.some.inj ((hac.request f hf).symm.trans (hbd.request g hg))

variable [DecidableEq π]

/-- A process enters a phase that holds no other workflow than it may. -/
theorem phases_enter {s : Console π} {p : π} {phase : ConsolePhase}
    (h : ∀ q workflow, phaseWorkflow (s.phase q) = some workflow → Holds L seen workflow)
    (hphase : ∀ workflow, phaseWorkflow phase = some workflow → Holds L seen workflow) :
    ∀ q workflow, phaseWorkflow (Function.update s.phase p phase q) = some workflow →
      Holds L seen workflow := by
  intro q workflow hq
  by_cases hqp : q = p
  · subst hqp
    rw [Function.update_self] at hq
    exact hphase workflow hq
  · rw [Function.update_of_ne hqp] at hq
    exact h q workflow hq

/-- A process begins a transaction. -/
theorem Safe.begins (h : Safe L uuid seen last s) (hsees : Sees seen seen' s t) {p : π}
    {op : StoreOperation} {world : StoreWorld} {phase : ConsolePhase}
    (hbegin : s.begin L uuid p op world phase = some t)
    (hphase : ∀ workflow, phaseWorkflow phase = some workflow → Holds L seen workflow) :
    Advances L uuid seen' s t := by
  obtain ⟨d, hd, rfl⟩ := Option.map_eq_some_iff.mp hbegin
  obtain ⟨hdatabase, hcommitted⟩ := h.database.begin hd
  refine h.silent hsees hcommitted hdatabase (phases_enter h.phases hphase)
    (fun call hcall => Or.inl hcall) ?_
  intro w w' hw
  simp only [Transaction.next, hw] at hd
  cases hd

/-- The writer commits. -/
theorem Safe.commits (huuid : Function.Injective uuid) (h : Safe L uuid seen last s) {p : π}
    {begun : ConsoleStore StoreResult} {copy : List WorkflowRow} {result : StoreResult}
    (hwriter : s.database.writer = some ⟨p, begun, copy, .done (.ok result)⟩)
    (hsees : Sees seen seen' s
      ({ s with database := ⟨copy, none⟩ }.enter p ((s.phase p).afterCommit L result))) :
    Advances L uuid seen' s
      ({ s with database := ⟨copy, none⟩ }.enter p ((s.phase p).afterCommit L result)) := by
  have hdatabase := h.database
  have hd : s.database = ⟨s.database.committed, some ⟨p, begun, copy, .done (.ok result)⟩⟩ := by
    rw [← hwriter]
  rw [hd] at hdatabase
  obtain ⟨hcommit, hprotects, hresult⟩ := hdatabase.commit huuid hsees.only
  refine ⟨⟨_, hcommit, ?_, fun call hcall => (h.calls call hcall).mono hsees.forward⟩,
    hprotects, fun w w' _ hw' => nomatch hw'⟩
  refine phases_enter (fun q workflow hq => (h.phases q workflow hq).mono hsees.forward) ?_
  intro workflow hworkflow
  rcases afterCommit_workflow hworkflow with hheld | ⟨row, hrow, hprojected⟩
  · exact (h.phases p workflow hheld).mono hsees.forward
  · have hmem := hresult row hrow
    exact holds_of_row (hsees.new row hmem) (hcommit.sound row hmem) hprojected

/-- A process sends its call, once the request was rebuilt. -/
theorem Safe.sends (h : Safe L uuid seen last s) {p : π} {workflow : ConsoleWorkflow}
    {user_id : Text} (hphase : s.phase p = .submitting workflow user_id)
    (hsees : Sees seen seen' s (s.send L p workflow user_id)) :
    Advances L uuid seen' s (s.send L p workflow user_id) := by
  have hholds : Holds L seen workflow := h.phases p workflow (by rw [hphase]; rfl)
  have henter : ∀ {phase}, (phaseWorkflow phase = none ∨ phaseWorkflow phase = some workflow) →
      ∀ q held, phaseWorkflow (Function.update s.phase p phase q) = some held →
        Holds L seen held := by
    intro phase hworkflow
    refine phases_enter h.phases fun held hheld => ?_
    rcases hworkflow with hnone | hsome
    · rw [hnone] at hheld
      cases hheld
    · obtain rfl := Option.some.inj (hsome.symm.trans hheld)
      exact hholds
  unfold send at hsees ⊢
  split at hsees
  · exact h.outside hsees (Or.inl rfl) rfl (henter (Or.inl rfl)) fun call hcall => Or.inl hcall
  · rename_i frozen hfrozen
    split at hsees
    · exact h.outside hsees (Or.inl rfl) rfl (henter (Or.inr rfl)) fun call hcall => Or.inl hcall
    · rename_i request hrequest
      refine h.outside hsees (Or.inl rfl) rfl (henter (Or.inr rfl)) fun call hcall => ?_
      rcases List.mem_append.mp hcall with hold | hnew
      · exact Or.inl hold
      · rw [List.mem_singleton.mp hnew]
        exact Or.inr (hholds.carries hfrozen hrequest)

theorem phaseWorkflow_idle (workflow : ConsoleWorkflow) (h : phaseWorkflow .idle = some workflow) :
    Holds L seen workflow := by
  cases h

theorem phaseWorkflow_requesting (request : ServiceRequest) (workflow : ConsoleWorkflow)
    (h : phaseWorkflow (.requesting request) = some workflow) : Holds L seen workflow := by
  cases h

/-- What any step of a safe console keeps and does. -/
theorem Safe.step (huuid : Function.Injective uuid) {e : ConsoleAction π}
    (h : Safe L uuid seen last s) (hstep : s.Step L uuid e t) (hsees : Sees seen seen' s t) :
    Advances L uuid seen' s t := by
  cases e with
  | begin p request world =>
    simp only [Step, next] at hstep
    split at hstep
    · exact h.begins hsees hstep (phaseWorkflow_requesting request)
    · cases hstep
  | record p world =>
    simp only [Step, next] at hstep
    split at hstep
    · rename_i workflow user_id outcome hphase
      refine h.begins hsees hstep fun held hheld => h.phases p held ?_
      rw [hphase]
      exact hheld
    · cases hstep
  | advance =>
    simp only [Step, next] at hstep
    obtain ⟨d, hd, rfl⟩ := Option.map_eq_some_iff.mp hstep
    exact h.advances hd hsees
  | commit =>
    simp only [Step, next] at hstep
    split at hstep
    · rename_i p begun copy result hwriter
      obtain rfl := Option.some.inj hstep
      exact h.commits huuid hwriter hsees
    · cases hstep
  | abort =>
    simp only [Step, next] at hstep
    split at hstep
    · rename_i w hwriter
      obtain rfl := Option.some.inj hstep
      refine h.outside hsees (Or.inr rfl) rfl (phases_enter h.phases fun workflow hworkflow => ?_)
        fun call hcall => Or.inl hcall
      exact h.phases w.process workflow (afterAbort_workflow hworkflow)
    · cases hstep
  | send p =>
    simp only [Step, next] at hstep
    split at hstep
    · rename_i workflow user_id hphase
      obtain rfl := Option.some.inj hstep
      exact h.sends hphase hsees
    · cases hstep
  | settle p outcome =>
    simp only [Step, next] at hstep
    split at hstep
    · rename_i workflow user_id hphase
      obtain rfl := Option.some.inj hstep
      refine h.outside hsees (Or.inl rfl) rfl (phases_enter h.phases fun held hheld => ?_)
        fun call hcall => Or.inl hcall
      refine h.phases p held ?_
      rw [hphase]
      exact hheld
    · cases hstep
  | crash p =>
    simp only [Step, next] at hstep
    split at hstep
    · split at hstep
      · obtain rfl := Option.some.inj hstep
        exact h.outside hsees (Or.inr rfl) rfl (phases_enter h.phases phaseWorkflow_idle)
          fun call hcall => Or.inl hcall
      · obtain rfl := Option.some.inj hstep
        exact h.outside hsees (Or.inl rfl) rfl (phases_enter h.phases phaseWorkflow_idle)
          fun call hcall => Or.inl hcall
    · obtain rfl := Option.some.inj hstep
      exact h.outside hsees (Or.inl rfl) rfl (phases_enter h.phases phaseWorkflow_idle)
        fun call hcall => Or.inl hcall

/-! ## Runs of the console -/

/-- Every state that the console reaches is safe. -/
theorem run_safe (huuid : Function.Injective uuid) {trace : List (Console π × ConsoleAction π)}
    {s : Console π} (h : Run (Step L uuid) initial trace s) :
    ∃ last, Safe L uuid (Seen trace s) last s := by
  induction h with
  | nil => exact ⟨_, safe_initial L uuid⟩
  | @snoc s t trace e _ hstep ih =>
    obtain ⟨last, hsafe⟩ := ih
    exact (hsafe.step huuid hstep (sees_snoc trace s t e)).1

/-- In every run of the console: a frozen request and a receipt never change; every call carries
the canonical request that was frozen for its workflow, under the workflow's own key; every
accepted update raises the version by one; no committed workflow is frozen but not submitted; and
a workflow that is submitting, uncertain or retryable does not expire, and every step leaves it
there, neither edited nor cancelled. -/
theorem frozen_workflow (L : ConsoleLibrary) {uuid : Nat → Text} (huuid : Function.Injective uuid)
    {trace : List (Console π × ConsoleAction π)} {s : Console π}
    (h : Run (Step L uuid) initial trace s) :
    (∀ r, Seen trace s r → ∀ r' ∈ s.rows, r'.workflow_id = r.workflow_id →
      (∀ f, r.frozen_request_json = some f → r'.frozen_request_json = some f) ∧
        ∀ f, r.capture_response_json = some f → r'.capture_response_json = some f) ∧
    (∀ call ∈ s.calls, Carries (Seen trace s) call ∧
      ∀ r, Seen trace s r → r.workflow_id = call.workflow_id →
        call.request.idempotency_key = r.idempotency_key ∧
          ∀ f, r.frozen_request_json = some f → canonicalJson call.request.modelDump = .ok f) ∧
    (∀ r ∈ s.rows, r.state ≠ .frozen) ∧
    ∀ e t, s.Step L uuid e t → s.RaisesVersions t ∧
      ∀ r ∈ s.rows, r.state ∈ [.submitting, .uncertain, .retryable_failure] →
        r.expires_at = none ∧ ∃ r' ∈ t.rows, r'.workflow_id = r.workflow_id ∧
          r'.state ∈ [.submitting, .uncertain, .retryable_failure, .terminal_failure, .committed] ∧
          r'.source_text = r.source_text ∧ r'.proposal_json = r.proposal_json ∧
          r'.frozen_request_json = r.frozen_request_json := by
  obtain ⟨last, hsafe⟩ := run_safe huuid h
  refine ⟨?_, ?_, fun r hr => (hsafe.database.sound r hr).settled, ?_⟩
  · intro r hr r' hr' hid
    obtain ⟨now, hnow, hkept⟩ := hsafe.database.history.kept r hr
    rw [← hid, hsafe.database.history.current r' hr'] at hnow
    obtain rfl := Option.some.inj hnow
    exact ⟨hkept.request, hkept.response⟩
  · intro call hcall
    have hcarries := hsafe.calls call hcall
    refine ⟨hcarries, fun r hr hid => ?_⟩
    obtain ⟨sent, text, hsent, hsentId, hfrozen, hcanonical, hkey⟩ := hcarries
    obtain ⟨hsame, hrequest⟩ := hsafe.agree hsent hr (hsentId.trans hid.symm)
    refine ⟨hkey.trans hsame, fun f hf => ?_⟩
    rw [← hrequest text f hfrozen hf]
    exact hcanonical
  · intro e t hstep
    obtain ⟨⟨last', hnext⟩, hprotects, hraises⟩ := hsafe.step huuid hstep (sees_snoc trace s t e)
    refine ⟨hraises, fun r hr hstate => ?_⟩
    have hreconciling : r.state.isReconciliation = true ∧ r.state.isFrozen = true := by
      revert hstate
      cases r.state <;> decide
    obtain ⟨r', hr', hkept⟩ := hprotects r hr hreconciling.1
    obtain ⟨hfrozen, hsource, hproposal⟩ := hkept.frozen hreconciling.2
    have hsound := hsafe.database.sound r hr
    refine ⟨hsound.reconciliation hreconciling.1, r', hr', hkept.workflow_id, ?_, hsource,
      hproposal, ?_⟩
    · have hsettled := (hnext.database.sound r' hr').settled
      revert hfrozen hsettled
      cases r'.state <;> decide
    · obtain ⟨f, hf⟩ := Option.ne_none_iff_exists'.mp (hsound.request hreconciling.2)
      rw [hf]
      exact hkept.request f hf

/-! ## A capture that is sent twice -/

/-- Two UUIDs, and other texts after them. -/
def sampleUuid : Nat → Text
  | 0 => text "00000000-0000-4000-8000-000000000000"
  | 1 => text "00000000-0000-4000-8000-000000000001"
  | n + 2 => List.replicate (n + 37) '0'

theorem sampleUuid_injective : Function.Injective sampleUuid := by
  have hlength : ∀ n, (sampleUuid (n + 2)).length = n + 37 := fun n => List.length_replicate
  intro a b h
  have hlen := congrArg List.length h
  match a, b with
  | 0, 0 | 1, 1 => rfl
  | 0, 1 | 1, 0 => exact absurd h (by decide)
  | 0, n + 2 | 1, n + 2 => rw [hlength] at hlen; exact absurd hlen (by simp [sampleUuid, text])
  | n + 2, 0 | n + 2, 1 => rw [hlength] at hlen; exact absurd hlen (by simp [sampleUuid, text])
  | m + 2, n + 2 =>
    rw [hlength, hlength] at hlen
    omega

/-- One day of retention, and a clock that stands still. -/
def sampleStore : StoreWorld where
  ordinary_retention := dayMicros
  receipt_retention := dayMicros
  clock _ := Registry.sampleTime
  uuid_factory _ := []
  json_valid s := (Json.loads (F := Binary64) s).isSome
  retention_positive := by decide

/-- Numbers and booleans are read as they are. -/
def sampleConsoleLibrary : ConsoleLibrary where
  toResultLibrary := Registry.sampleResultLibrary
  parseFloat
    | .float x => some x
    | _ => none
  parseBool
    | .bool b => some b
    | _ => none
  parseFloat_float _ := rfl

/-- The hash of the schema. -/
def sampleSchemaHash : Text := text "sha256:" ++ Registry.sampleDigest

/-- The extracted proposal. -/
def sampleProposal : DraftProposal where
  schema_id := text "finance/strategy-edge:1"
  schema_hash := sampleSchemaHash
  forecast := Registry.sampleForecast
  decision := text "run it"
  lineage := Registry.sampleLineage
  body := text "momentum"
  fresh_window := true

/-- The confirmed input. -/
def sampleInput : CaptureInput where
  schema_id := text "finance/strategy-edge:1"
  schema_hash := sampleSchemaHash
  forecast := Registry.sampleForecast
  decision := text "run it"
  lineage := Registry.sampleLineage
  body := text "momentum"
  family_id := text "momentum"
  schema_length := CaptureInput.default_schema_length
  hash_pattern := by decide +kernel
  decision_nonempty := by decide
  lineage_family := Registry.sampleRequest.lineage_family

/-- The receipt of the backend. -/
def sampleReceipt : CaptureResponse where
  prediction_id := text "pred_1"
  run_id := text "run_1"
  record_ref := text "predictions/pred_1.md"
  snapshot_ref := text ".ledger/snapshots/pred_1.json"
  schema_id := text "finance/strategy-edge:1"
  schema_hash := sampleSchemaHash
  immutable_hash := sampleSchemaHash
  created := true

/-- A whole transaction of so many statements. -/
def transacted (first : ConsoleAction Unit) (statements : Nat) : List (ConsoleAction Unit) :=
  first :: (List.replicate statements .advance ++ [.commit])

/-- A workflow is created, extracted and confirmed; the first response is lost, and the retry
brings the receipt. -/
def sampleConsoleActions : List (ConsoleAction Unit) :=
  let id := sampleUuid 0
  let user := text "user@example.com"
  let request r n := transacted (.begin () r sampleStore) n
  request (.store (.create_workflow user (text "momentum") (text "finance/strategy-edge:1"))) 2 ++
    request (.store (.begin_extraction id user none)) 3 ++
    request (.store (.finish_extraction id user (.ready sampleProposal))) 3 ++
    request (.confirm id user (.input sampleInput) none) 4 ++
    [.send (), .settle () .backendError] ++ transacted (.record () sampleStore) 3 ++
    request (.retry id user none) 3 ++
    [.send (), .settle () (.response sampleReceipt)] ++ transacted (.record () sampleStore) 3

/-- The console at the end. -/
def sampleConsole : Option (Console Unit) :=
  follow (fun s e => s.next sampleConsoleLibrary sampleUuid e) initial sampleConsoleActions

theorem sampleConsole_sent :
    (sampleConsole.map fun s => (s.calls.length, s.rows.map WorkflowRow.state)) =
      some (2, [.committed]) := by
  decide +kernel

theorem frozen_workflow_sample :
    ∃ (trace : List (Console Unit × ConsoleAction Unit)) (s : Console Unit),
      Run (Step sampleConsoleLibrary sampleUuid) initial trace s ∧ s.calls.length = 2 ∧
        ∀ call ∈ s.calls, Carries (Seen trace s) call := by
  obtain ⟨s, hs, hsent⟩ := Option.map_eq_some_iff.mp sampleConsole_sent
  obtain ⟨trace, hrun, -⟩ := Run.of_follow hs
  have hfrozen := frozen_workflow sampleConsoleLibrary sampleUuid_injective hrun
  exact ⟨trace, s, hrun, congrArg Prod.fst hsent, fun call hcall => (hfrozen.2.1 call hcall).1⟩

end Console

end Pine
