import Pine.Ledger.Console.Extraction
import Pine.Ledger.Console.FrozenWorkflow

/-!
# Proposals under review

A committed operation leaves the rows under review as they were, except that the end
of an extraction may add one. What that one holds is the proposal of the attempt and
the source that the row has at the end, so the proposal belongs to the source exactly
when the source is still the one that was sent.
-/

namespace Pine

open Json (Value)
open Workflows

/-! ## What an operation does to the rows under review -/

/-- Every row under review after an operation was there before. -/
def Unreviewed (before after : List WorkflowRow) : Prop :=
  ∀ r ∈ after, r.state = .reviewing → r ∈ before

/-- A row that a ready extraction moved under review. -/
structure Readied (workflow_id : Text) (proposal : DraftProposal) (before : List WorkflowRow)
    (new : WorkflowRow) : Prop where
  identity : new.workflow_id = workflow_id
  source : ∃ old ∈ before, old.workflow_id = workflow_id ∧ new.source_text = old.source_text
  stored : ∃ json, canonicalJson proposal.modelDump = .ok json ∧ new.proposal_json = some json

theorem Unreviewed.refl (rows : List WorkflowRow) : Unreviewed rows rows := fun _ hr _ => hr

theorem Unreviewed.trans {a b c : List WorkflowRow} (h : Unreviewed a b) (k : Unreviewed b c) :
    Unreviewed a c :=
  fun r hr hstate => h r (k r hr hstate) hstate

namespace StoreWorld

variable {L : ConsoleLibrary} {S : StoreWorld} {rows rows' : List WorkflowRow}

/-- An update that leaves no row it selects under review. -/
theorem unreviewed_map {selects : WorkflowRow → Bool} {u : WorkflowUpdate}
    (h : ∀ r ∈ rows, selects r = true → (u.apply r).state ≠ .reviewing) :
    Unreviewed rows (rows.map fun r => if selects r then u.apply r else r) := by
  intro r' hr' hstate
  obtain ⟨r, hr, rfl⟩ := List.mem_map.mp hr'
  split at hstate
  · exact absurd hstate (h r hr ‹_›)
  · rw [if_neg ‹_›]
    exact hr

/-- An operation of the common course that leaves its row in another state. -/
theorem transition_unreviewed {workflow_id user_id : Text} {reject_expired : Bool}
    {guard : WorkflowRow → Except ConsoleError Unit}
    {assignments : Int → Except ConsoleError WorkflowUpdate} {result : StoreResult}
    (hkeys : Keys rows)
    (hstate : ∀ row now u, guard row = .ok () → assignments now = .ok u →
      (u.apply row).state ≠ .reviewing)
    (h : (S.transition workflow_id user_id reject_expired guard assignments).run rows =
      (.ok result, rows')) : Unreviewed rows rows' := by
  obtain ⟨row, now, u, updated, hrow, hid, hguard, hassigned, -, rfl, -⟩ := transition_ok h
  refine unreviewed_map fun r hr hsame => ?_
  obtain rfl := hkeys.eq hr hrow ((beq_iff_eq.mp hsame).trans hid.symm)
  exact hstate r now u hguard hassigned

/-- A ready extraction moves its row under review with the source that the row has then. -/
theorem finishExtraction_ready {workflow_id user_id : Text} {proposal : DraftProposal}
    {result : StoreResult}
    (h : (S.finishExtraction workflow_id user_id (.ready proposal)).run rows =
      (.ok result, rows')) :
    (∀ r ∈ rows', r.state = .reviewing → r ∈ rows ∨ Readied workflow_id proposal rows r) ∧
      ∃ r ∈ rows', r.state = .reviewing ∧ Readied workflow_id proposal rows r := by
  obtain ⟨row, now, u, updated, hrow, hid, -, hassigned, hupdated, rfl, -⟩ := transition_ok h
  obtain ⟨_, -, hready⟩ := bind_eq_ok.mp hassigned
  obtain ⟨json, hjson, hreturn⟩ := bind_eq_ok.mp hready
  cases hreturn
  have hreadied : ∀ r ∈ rows, r.workflow_id = workflow_id →
      ∀ new, new.workflow_id = r.workflow_id → new.source_text = r.source_text →
        new.proposal_json = some json → Readied workflow_id proposal rows new :=
    fun r hr hsame new hnew hsource hstored =>
      ⟨hnew.trans hsame, ⟨r, hr, hsame, hsource⟩, json, consoleJson_ok.mp hjson, hstored⟩
  constructor
  · intro r' hr' _
    obtain ⟨r, hr, rfl⟩ := List.mem_map.mp hr'
    split
    · exact Or.inr (hreadied r hr (beq_iff_eq.mp ‹_›) _ rfl rfl rfl)
    · exact Or.inl hr
  · refine ⟨_, List.mem_map_of_mem hrow, ?_⟩
    rw [if_pos (beq_iff_eq.mpr hid)]
    exact ⟨rfl, hreadied row hrow hid _ rfl rfl rfl⟩

theorem recoverState_unreviewed {state : WorkflowState} {u : WorkflowUpdate} {n : Nat}
    (hstate : ∃ new ≠ .reviewing, u.state = some new)
    (h : (S.recoverState state u).run rows = (.ok n, rows')) : Unreviewed rows rows' := by
  obtain ⟨new, hnew, hset⟩ := hstate
  rw [recoverState, Program.run_statement] at h
  split at h
  · rename_i heq
    cases h
    split at heq
    · rename_i hupdate
      cases heq
      obtain ⟨rfl, -, -⟩ := updateWorkflows_ok hupdate
      refine unreviewed_map fun r _ _ => ?_
      rw [WorkflowUpdate.apply, hset]
      exact hnew
    · cases heq
  · cases h

theorem recoverAbandonedWorkflows_unreviewed {result : StoreResult}
    (h : S.recoverAbandonedWorkflows.run rows = (.ok result, rows')) : Unreviewed rows rows' := by
  obtain ⟨now, -, h⟩ := Program.run_check_bind_ok.mp h
  obtain ⟨submitting, uncertainRows, hfirst, hrest⟩ := Program.run_bind_ok.mp h
  obtain ⟨expires_at, -, hrest⟩ := Program.run_check_bind_ok.mp hrest
  obtain ⟨extracting, _, hsecond, hreturn⟩ := Program.run_bind_ok.mp hrest
  obtain ⟨rfl, rfl⟩ := Program.run_pure_ok.mp hreturn
  have huncertain := recoverState_unreviewed ⟨_, by nofun, rfl⟩ hfirst
  have hediting := recoverState_unreviewed ⟨_, by nofun, rfl⟩ hsecond
  exact huncertain.trans hediting

theorem freezeAndBeginSubmission_unreviewed {workflow_id user_id : Text}
    {capture : CaptureArgument} {version : Option Int} {result : StoreResult}
    (h : (S.freezeAndBeginSubmission L workflow_id user_id capture version).run rows =
      (.ok result, rows')) : Unreviewed rows rows' := by
  obtain ⟨identity, -, h⟩ := Program.run_check_bind_ok.mp h
  obtain ⟨now, -, h⟩ := Program.run_check_bind_ok.mp h
  obtain ⟨row, _, hread, hrest⟩ := Program.run_bind_ok.mp h
  obtain ⟨rfl, -, -, -⟩ := getRow_ok hread
  split at hrest
  · obtain ⟨_, -, hreturn⟩ := Program.run_check_bind_ok.mp hrest
    obtain ⟨-, rfl⟩ := Program.run_pure_ok.mp hreturn
    exact Unreviewed.refl _
  · obtain ⟨_, -, h⟩ := Program.run_check_bind_ok.mp hrest
    obtain ⟨_, -, h⟩ := Program.run_check_bind_ok.mp h
    obtain ⟨_, -, h⟩ := Program.run_check_bind_ok.mp h
    obtain ⟨_, -, h⟩ := Program.run_check_bind_ok.mp h
    obtain ⟨_, frozenRows, hfreeze, hsubmitting⟩ := Program.run_bind_ok.mp h
    obtain ⟨rfl, -⟩ := updateRow_ok hfreeze
    obtain ⟨_, submittingRows, hsubmit, hwritten⟩ := Program.run_bind_ok.mp hsubmitting
    obtain ⟨rfl, -⟩ := updateRow_ok hsubmit
    obtain ⟨updated, _, hreread, hreturn⟩ := Program.run_bind_ok.mp hwritten
    obtain ⟨rfl, -, -, -⟩ := getRow_ok hreread
    obtain ⟨-, rfl⟩ := Program.run_pure_ok.mp hreturn
    refine (unreviewed_map fun r _ _ => ?_).trans (unreviewed_map fun r _ _ => ?_)
    · nofun
    · nofun

theorem createWorkflow_unreviewed {user_id source_text schema_id : Text} {result : StoreResult}
    (h : (S.createWorkflow user_id source_text schema_id).run rows = (.ok result, rows')) :
    Unreviewed rows rows' := by
  obtain ⟨request, -, h⟩ := Program.run_check_bind_ok.mp h
  obtain ⟨identity, -, h⟩ := Program.run_check_bind_ok.mp h
  obtain ⟨now, -, h⟩ := Program.run_check_bind_ok.mp h
  obtain ⟨expires_at, -, h⟩ := Program.run_check_bind_ok.mp h
  obtain ⟨_, inserted, hupdate, hrest⟩ := Program.run_bind_ok.mp h
  obtain ⟨created, _, hread, hreturn⟩ := Program.run_bind_ok.mp hrest
  obtain ⟨rfl, -, -, -⟩ := getRow_ok hread
  obtain ⟨-, rfl⟩ := Program.run_pure_ok.mp hreturn
  have hinsert := Program.run_update_ok.mp hupdate
  split at hinsert
  · rename_i heq
    cases hinsert
    obtain ⟨rfl, hstate, -⟩ := insertWorkflow_ok heq
    intro r hr hreviewing
    rcases List.mem_append.mp hr with hold | hnew
    · exact hold
    · rw [List.mem_singleton.mp hnew, hstate] at hreviewing
      cases hreviewing
  · cases hinsert

theorem cleanupExpired_unreviewed {result : StoreResult}
    (h : S.cleanupExpired.run rows = (.ok result, rows')) : Unreviewed rows rows' := by
  obtain ⟨now, -, h⟩ := Program.run_check_bind_ok.mp h
  obtain ⟨count, _, hdelete, hreturn⟩ := Program.run_bind_ok.mp h
  obtain ⟨-, rfl⟩ := Program.run_pure_ok.mp hreturn
  rw [Program.run_statement] at hdelete
  split at hdelete
  · rename_i heq
    cases hdelete
    split at heq
    · rename_i hdeleted
      cases heq
      obtain ⟨rfl, -⟩ := deleteWorkflows_ok hdeleted
      exact fun r hr _ => (List.mem_filter.mp hr).1
    · cases heq
  · cases hdelete

/-- A revision is only made in editing, and stays there. -/
theorem reviseSource_unreviewed {workflow_id user_id source_text schema_id : Text}
    {version : Option Int} {result : StoreResult} (hkeys : Keys rows)
    (h : (S.reviseSource workflow_id user_id source_text schema_id version).run rows =
      (.ok result, rows')) : Unreviewed rows rows' := by
  obtain ⟨request, -, h⟩ := Program.run_check_bind_ok.mp h
  refine transition_unreviewed hkeys ?_ h
  intro row now u hguard hassigned
  obtain ⟨_, hediting, -⟩ := bind_eq_ok.mp hguard
  obtain ⟨_, -, hreturn⟩ := bind_eq_ok.mp hassigned
  cases hreturn
  change row.state ≠ .reviewing
  rw [requireState_ok hediting]
  nofun

/-- An operation of the common course that sets another state. -/
theorem transition_sets {workflow_id user_id : Text} {reject_expired : Bool}
    {guard : WorkflowRow → Except ConsoleError Unit}
    {assignments : Int → Except ConsoleError WorkflowUpdate} {result : StoreResult}
    (hkeys : Keys rows)
    (hset : ∀ now u, assignments now = .ok u → ∃ new ≠ .reviewing, u.state = some new)
    (h : (S.transition workflow_id user_id reject_expired guard assignments).run rows =
      (.ok result, rows')) : Unreviewed rows rows' := by
  refine transition_unreviewed hkeys (fun row now u _ hassigned => ?_) h
  obtain ⟨new, hnew, hstate⟩ := hset now u hassigned
  rw [WorkflowUpdate.apply, hstate]
  exact hnew

end StoreWorld

/-- A ready result of an extraction. -/
def StoreOperation.readies : StoreOperation → Bool
  | finish_extraction _ _ (.ready _) => true
  | _ => false

/-- Nothing but a ready result moves a row under review. -/
theorem StoreOperation.unreviewed {L : ConsoleLibrary} {S : StoreWorld} {op : StoreOperation}
    {rows rows' : List WorkflowRow} {result : StoreResult} (hkeys : Keys rows)
    (hop : op.readies = false) (h : (op.program L S).run rows = (.ok result, rows')) :
    Unreviewed rows rows' := by
  cases op with
  | create_workflow => exact StoreWorld.createWorkflow_unreviewed h
  | begin_extraction =>
    refine StoreWorld.transition_sets hkeys ?_ h
    rintro now u ⟨⟩
    exact ⟨_, by nofun, rfl⟩
  | revise_source => exact StoreWorld.reviseSource_unreviewed hkeys h
  | finish_extraction workflow_id user_id extracted =>
    refine StoreWorld.transition_sets hkeys (fun now u hu => ?_) h
    obtain ⟨_, -, hrest⟩ := bind_eq_ok.mp hu
    cases extracted with
    | ready proposal => cases hop
    | unable errors nonempty =>
      obtain ⟨_, -, hreturn⟩ := bind_eq_ok.mp hrest
      cases hreturn
      exact ⟨_, by nofun, rfl⟩
  | fail_extraction =>
    refine StoreWorld.transition_sets hkeys (fun now u hu => ?_) h
    obtain ⟨_, -, hrest⟩ := bind_eq_ok.mp hu
    obtain ⟨_, -, hreturn⟩ := bind_eq_ok.mp hrest
    cases hreturn
    exact ⟨_, by nofun, rfl⟩
  | freeze_and_begin_submission => exact StoreWorld.freezeAndBeginSubmission_unreviewed h
  | begin_retry =>
    refine StoreWorld.transition_sets hkeys ?_ h
    rintro now u ⟨⟩
    exact ⟨_, by nofun, rfl⟩
  | record_capture_response =>
    refine StoreWorld.transition_sets hkeys (fun now u hu => ?_) h
    obtain ⟨_, -, hrest⟩ := bind_eq_ok.mp hu
    obtain ⟨_, -, hreturn⟩ := bind_eq_ok.mp hrest
    cases hreturn
    exact ⟨_, by nofun, rfl⟩
  | record_capture_failure workflow_id user_id state code details =>
    obtain ⟨_, hreject, h⟩ := Program.run_check_bind_ok.mp h
    refine StoreWorld.transition_sets hkeys (fun now u hu => ?_) h
    obtain ⟨_, -, hrest⟩ := bind_eq_ok.mp hu
    obtain ⟨_, -, hreturn⟩ := bind_eq_ok.mp hrest
    cases hreturn
    refine ⟨state, ?_, rfl⟩
    rintro rfl
    exact reject_ok.mp hreject ⟨nofun, nofun, nofun⟩
  | cancel_workflow =>
    refine StoreWorld.transition_sets hkeys (fun now u hu => ?_) h
    obtain ⟨_, -, hreturn⟩ := bind_eq_ok.mp hu
    cases hreturn
    exact ⟨_, by nofun, rfl⟩
  | recover_abandoned_workflows => exact StoreWorld.recoverAbandonedWorkflows_unreviewed h
  | cleanup_expired => exact StoreWorld.cleanupExpired_unreviewed h

/-- The dump of a proposal repeats no key. -/
theorem DraftProposal.keyed_modelDump (p : DraftProposal) : Keyed p.modelDump :=
  keyed_obj ["schema_id", "schema_hash", "registration_status", "forecast", "decision", "lineage",
    "body", "fresh_window"] rfl (by decide)
    ⟨trivial, trivial, trivial, keyed_forecast _, trivial, p.lineage.keyed, trivial, trivial,
      trivial⟩

/-- Proposals with one canonical text have one body. -/
theorem DraftProposal.body_eq {p q : DraftProposal} {json : Text}
    (hp : canonicalJson p.modelDump = .ok json) (hq : canonicalJson q.modelDump = .ok json) :
    p.body = q.body := by
  have hsorted := canonicalJson_injective p.keyed_modelDump q.keyed_modelDump hp hq
  have hreordered : Reordered p.modelDump q.modelDump :=
    ⟨p.keyed_modelDump, q.keyed_modelDump, hsorted⟩
  have hbody : q.modelDump.get? (text "body") = some (.str q.body) := rfl
  obtain ⟨x, hx, hsame⟩ := hreordered.field hbody
  have hfield : p.modelDump.get? (text "body") = some (.str p.body) := rfl
  rw [hsame.eq_str, hfield] at hx
  exact Value.str.inj (Option.some.inj hx)

namespace Extractors

variable {π : Type} {L : ConsoleLibrary} {s t : Extractors π}

/-! ## The invariant -/

/-- What the process in a transaction has begun. -/
def Begun (L : ConsoleLibrary) (begun : ConsoleStore StoreResult) : ExtractionPhase → Prop
  | .requesting call => ∃ world, begun = call.operation.program L world
  | .recording ⟨attempt, outcome⟩ => ∃ world,
    begun = (outcome.operation attempt.workflow_id attempt.user_id).program L world
  | _ => False

/-- The answer that a process holds. -/
def heldAnswer : ExtractionPhase → Option Answer
  | .answered a | .recording a => some a
  | _ => none

/-- The invariant of the console. -/
structure Tracked (L : ConsoleLibrary) (s : Extractors π) : Prop where
  serial : Transaction.Serial s.database
  each : ∀ w, s.database.writer = some w → w.rest.Each Statement ∧ Keys w.copy
  keys : Keys s.database.committed
  begun : ∀ w, s.database.writer = some w → Begun L w.begun (s.phase w.process)
  held : ∀ p a, heldAnswer (s.phase p) = some a → a ∈ s.answers

theorem tracked_initial : Tracked L (initial : Extractors π) :=
  ⟨nofun, nofun, List.nodup_nil, nofun, fun _ _ h => by cases h⟩

/-- The writer executes one statement. -/
theorem Tracked.advances (h : Tracked L s)
    {d : Transaction.State π (List WorkflowRow) ConsoleError StoreResult}
    (hd : Transaction.next s.database .advance = some d) :
    Tracked L { s with database := d } ∧ d.committed = s.database.committed := by
  have hs := Transaction.step_of_next hd
  obtain ⟨w, w', hw, hw', hprocess, hbegun, hstatement⟩ :=
    hs.advance_each fun w hw => (h.each w hw).1
  have hcommitted := hs.committed_eq nofun
  refine ⟨⟨hs.serial h.serial, ?_, ?_, ?_, h.held⟩, hcommitted⟩
  · intro v hv
    refine ⟨hs.each nofun (fun w hw => (h.each w hw).1) v hv, ?_⟩
    obtain rfl := Option.some.inj (hw'.symm.trans hv)
    exact hstatement.keys (h.each w hw).2
  · change Keys d.committed
    rw [hcommitted]
    exact h.keys
  · intro v hv
    obtain rfl := Option.some.inj (hw'.symm.trans hv)
    change Begun L w'.begun (s.phase w'.process)
    rw [hprocess, hbegun]
    exact h.begun w hw

theorem Tracked.rollback (h : Tracked L s) : Tracked L s.rollback :=
  ⟨nofun, nofun, h.keys, nofun, h.held⟩

/-- A process that is not in a transaction is not the writer. -/
theorem Tracked.other (h : Tracked L s) {p : π}
    (hphase : ∀ begun, ¬ Begun L begun (s.phase p)) :
    ∀ w, s.database.writer = some w → w.process ≠ p := by
  rintro w hw rfl
  exact hphase w.begun (h.begun w hw)
/-- What a step did to the rows under review. -/
inductive Reviews (s : Extractors π) (e : ExtractionAction π) (t : Extractors π) : Prop
  | kept (rows : Unreviewed s.rows t.rows)
      (other : e = .commit → ∀ attempt proposal, ¬ s.Readies attempt proposal)
  | readied (attempt : Attempt) (proposal : DraftProposal) (commit : e = .commit)
      (readies : s.Readies attempt proposal)
      (rows : ∀ r ∈ t.rows, r.state = .reviewing →
        r ∈ s.rows ∨ Readied attempt.workflow_id proposal s.rows r)
      (readied : ∃ r ∈ t.rows, r.state = .reviewing ∧
        Readied attempt.workflow_id proposal s.rows r)

/-- What a step keeps and does. -/
structure Goes (L : ConsoleLibrary) (s : Extractors π) (e : ExtractionAction π)
    (t : Extractors π) : Prop where
  tracked : Tracked L t
  reviews : Reviews s e t
  answers : ∀ a ∈ s.answers, a ∈ t.answers

/-- A step that commits nothing, and forgets no answer. -/
theorem goes_silent {e : ExtractionAction π} (he : e ≠ .commit) (htracked : Tracked L t)
    (hrows : t.rows = s.rows) (hanswers : ∀ a ∈ s.answers, a ∈ t.answers) : Goes L s e t :=
  ⟨htracked, .kept (fun _ hr _ => hrows ▸ hr) fun hcommit => absurd hcommit he, hanswers⟩

/-- An answer that came back for a process that records it. -/
theorem Tracked.answered (h : Tracked L s) {attempt : Attempt} {proposal : DraftProposal}
    (hreadies : s.Readies attempt proposal) :
    ⟨attempt, .result (.ready proposal)⟩ ∈ s.answers := by
  obtain ⟨w, -, hphase⟩ := hreadies
  exact h.held w.process _ (by rw [hphase]; rfl)

/-- A phase without an answer. -/
theorem held_none {phase : ExtractionPhase} (h : heldAnswer phase = none) (answers : List Answer) :
    ∀ a, heldAnswer phase = some a → a ∈ answers := by
  intro a ha
  rw [h] at ha
  cases ha

/-- An honest proposal of the source has it as its body. -/
theorem bodies_current (hreviewed : s.Reviewed) (hhonest : s.Honest) : s.BodiesCurrent := by
  intro r hr hstate
  obtain ⟨a, ha, -, hsource, proposal, json, houtcome, hjson, hstored⟩ := hreviewed r hr hstate
  refine ⟨proposal, json, hjson, hstored, ?_⟩
  rw [hsource, hhonest a ha proposal houtcome]


variable [DecidableEq π]

/-- Answers are held after a process went on, if it then holds none that did not come back. -/
theorem held_enter {phase : π → ExtractionPhase} {answers : List Answer}
    (h : ∀ p a, heldAnswer (phase p) = some a → a ∈ answers) {p : π} {new : ExtractionPhase}
    (hnew : ∀ a, heldAnswer new = some a → a ∈ answers) :
    ∀ q a, heldAnswer (Function.update phase p new q) = some a → a ∈ answers := by
  intro q a hq
  by_cases hqp : q = p
  · subst hqp
    rw [Function.update_self] at hq
    exact hnew a hq
  · rw [Function.update_of_ne hqp] at hq
    exact h q a hq

/-- A process begins a transaction. -/
theorem Tracked.begins (h : Tracked L s) {p : π} {operation : StoreOperation} {world : StoreWorld}
    {phase : ExtractionPhase} (hbegin : s.begin L p operation world phase = some t)
    (hbegun : Begun L (operation.program L world) phase)
    (hheld : ∀ a, heldAnswer phase = some a → a ∈ s.answers) :
    Tracked L t ∧ t.rows = s.rows ∧ t.answers = s.answers := by
  obtain ⟨d, hd, rfl⟩ := Option.map_eq_some_iff.mp hbegin
  obtain ⟨⟨committed, writer⟩, phases, answers⟩ := s
  cases writer with
  | some w => cases hd
  | none =>
    cases hd
    refine ⟨⟨?_, ?_, h.keys, ?_, held_enter h.held hheld⟩, rfl, rfl⟩
    · rintro w ⟨⟩
      rfl
    · rintro w ⟨⟩
      exact ⟨operation.each L world, h.keys⟩
    · rintro w ⟨⟩
      change Begun L (operation.program L world) (Function.update phases p phase p)
      rw [Function.update_self]
      exact hbegun

/-- A process leaves its transaction, or one that is in none goes on. -/
theorem Tracked.leaves (h : Tracked L s) {p : π} {phase : ExtractionPhase}
    (hheld : ∀ a, heldAnswer phase = some a → a ∈ s.answers)
    (hother : ∀ w, s.database.writer = some w → w.process ≠ p) : Tracked L (s.enter p phase) := by
  refine ⟨h.serial, h.each, h.keys, fun w hw => ?_, held_enter h.held hheld⟩
  change Begun L w.begun (Function.update s.phase p phase w.process)
  rw [Function.update_of_ne (hother w hw)]
  exact h.begun w hw

/-- No call begins with a ready result. -/
theorem readies_call (call : ExtractionCall) : call.operation.readies = false := by
  cases call with
  | store operation alone =>
    cases operation with
    | finish_extraction => cases alone
    | _ => rfl
  | _ => rfl

/-- The writer commits. -/
theorem Tracked.commits (h : Tracked L s) {p : π} {begun : ConsoleStore StoreResult}
    {copy : List WorkflowRow} {result : StoreResult} {phase : ExtractionPhase}
    (hwriter : s.database.writer = some ⟨p, begun, copy, .done (.ok result)⟩)
    (hheld : heldAnswer phase = none) :
    Tracked L ({ s with database := ⟨copy, none⟩ }.enter p phase) ∧
      Reviews s .commit ({ s with database := ⟨copy, none⟩ }.enter p phase) := by
  have hrun : begun.run s.database.committed = (.ok result, copy) := (h.serial _ hwriter).symm
  refine ⟨⟨nofun, nofun, (h.each _ hwriter).2, nofun, held_enter h.held (held_none hheld _)⟩, ?_⟩
  have hbegun := h.begun _ hwriter
  change Begun L begun (s.phase p) at hbegun
  have hphase : ∀ attempt proposal, s.Readies attempt proposal →
      s.phase p = .recording ⟨attempt, .result (.ready proposal)⟩ := by
    rintro attempt proposal ⟨w, hw, hphase⟩
    obtain rfl := Option.some.inj (hwriter.symm.trans hw)
    exact hphase
  cases hp : s.phase p with
  | requesting call =>
    rw [hp] at hbegun hphase
    obtain ⟨world, rfl⟩ := hbegun
    exact .kept (StoreOperation.unreviewed h.keys (readies_call call) hrun) fun _ attempt proposal
      hreadies => nomatch hphase attempt proposal hreadies
  | recording answer =>
    obtain ⟨attempt, outcome⟩ := answer
    rw [hp] at hbegun hphase
    obtain ⟨world, rfl⟩ := hbegun
    cases hready : (outcome.operation attempt.workflow_id attempt.user_id).readies with
    | false =>
      refine .kept (StoreOperation.unreviewed h.keys hready hrun) fun _ attempt' proposal
        hreadies => ?_
      cases hphase attempt' proposal hreadies
      cases hready
    | true =>
      rcases outcome with (proposal | errors) | _ | _ | _
      · obtain ⟨hrows, hreadied⟩ := StoreWorld.finishExtraction_ready hrun
        exact .readied attempt proposal rfl ⟨_, hwriter, hp⟩ hrows hreadied
      all_goals cases hready
  | _ =>
    rw [hp] at hbegun
    cases hbegun

/-- What a process does after its transaction holds no answer. -/
theorem heldAnswer_afterCommit (result : StoreResult) (phase : ExtractionPhase) :
    heldAnswer (phase.afterCommit L result) = none := by
  have hattempt : ∀ workflow_id user_id,
      heldAnswer (attemptOf L workflow_id user_id result) = none := by
    intro workflow_id user_id
    unfold attemptOf
    split
    · split
      · split
        · split <;> rfl
        · rfl
      · rfl
    · rfl
  have hrevision : ∀ workflow_id user_id,
      heldAnswer (revisionOf L workflow_id user_id result) = none := by
    intro workflow_id user_id
    unfold revisionOf
    split
    · split <;> rfl
    · rfl
  cases phase with
  | requesting call =>
    cases call with
    | store => rfl
    | extract => exact hattempt _ _
    | revise_and_extract => exact hrevision _ _
  | _ => rfl

/-- What any step of a tracked console keeps and does. -/
theorem Tracked.step {e : ExtractionAction π} (h : Tracked L s) (hstep : s.Step L e t) :
    Goes L s e t := by
  cases e with
  | begin p call world =>
    simp only [Step, next] at hstep
    split at hstep
    · obtain ⟨htracked, hrows, hanswers⟩ := h.begins hstep ⟨world, rfl⟩ (held_none rfl _)
      exact goes_silent nofun htracked hrows fun a ha => hanswers ▸ ha
    · cases hstep
  | proceed p world =>
    simp only [Step, next] at hstep
    split at hstep
    · obtain ⟨htracked, hrows, hanswers⟩ := h.begins hstep ⟨world, rfl⟩ (held_none rfl _)
      exact goes_silent nofun htracked hrows fun a ha => hanswers ▸ ha
    · cases hstep
  | record p world =>
    simp only [Step, next] at hstep
    split at hstep
    · rename_i attempt outcome hphase
      obtain ⟨htracked, hrows, hanswers⟩ := h.begins hstep ⟨world, rfl⟩ fun a ha =>
        h.held p a (by rw [hphase]; exact ha)
      exact goes_silent nofun htracked hrows fun a ha => hanswers ▸ ha
    · cases hstep
  | advance =>
    simp only [Step, next] at hstep
    obtain ⟨d, hd, rfl⟩ := Option.map_eq_some_iff.mp hstep
    obtain ⟨htracked, hrows⟩ := h.advances hd
    exact goes_silent nofun htracked hrows fun a ha => ha
  | commit =>
    simp only [Step, next] at hstep
    split at hstep
    · rename_i p begun copy result hwriter
      obtain rfl := Option.some.inj hstep
      obtain ⟨htracked, hreviews⟩ := h.commits hwriter (heldAnswer_afterCommit result (s.phase p))
      exact ⟨htracked, hreviews, fun a ha => ha⟩
    · cases hstep
  | abort =>
    simp only [Step, next] at hstep
    split at hstep
    · obtain rfl := Option.some.inj hstep
      exact goes_silent nofun (h.rollback.leaves (held_none rfl _) nofun) rfl fun a ha => ha
    · cases hstep
  | answer p outcome =>
    simp only [Step, next] at hstep
    split at hstep
    · rename_i attempt hphase
      obtain rfl := Option.some.inj hstep
      have hother := h.other (p := p) fun begun hbegun => by
        rw [hphase] at hbegun
        cases hbegun
      have hanswers : ∀ a ∈ s.answers, a ∈ s.answers ++ [⟨attempt, outcome⟩] :=
        fun a ha => List.mem_append_left _ ha
      have hmore : Tracked L { s with answers := s.answers ++ [⟨attempt, outcome⟩] } :=
        ⟨h.serial, h.each, h.keys, h.begun, fun q a hq => hanswers a (h.held q a hq)⟩
      refine goes_silent nofun (hmore.leaves ?_ hother) rfl hanswers
      rintro a ⟨⟩
      exact List.mem_append_right _ (List.mem_singleton_self _)
    · cases hstep
  | crash p =>
    simp only [Step, next] at hstep
    split at hstep
    · rename_i w hwriter
      split at hstep
      · obtain rfl := Option.some.inj hstep
        exact goes_silent nofun (h.rollback.leaves (held_none rfl _) nofun) rfl fun a ha => ha
      · rename_i hne
        obtain rfl := Option.some.inj hstep
        refine goes_silent nofun (h.leaves (held_none rfl _) fun v hv => ?_) rfl fun a ha => ha
        obtain rfl := Option.some.inj (hwriter.symm.trans hv)
        exact hne
    · rename_i hnone
      obtain rfl := Option.some.inj hstep
      refine goes_silent nofun (h.leaves (held_none rfl _) fun v hv => ?_) rfl fun a ha => ha
      rw [hnone] at hv
      cases hv

/-! ## Runs of the console -/

/-- More answers lose no proposal. -/
theorem Produced.mono {answers answers' : List Answer} (h : ∀ a ∈ answers, a ∈ answers')
    {row : WorkflowRow} (hproduced : Produced answers row) : Produced answers' row := by
  obtain ⟨a, ha, hrest⟩ := hproduced
  exact ⟨a, h a ha, hrest⟩

/-- A timely step keeps every proposal under review that of its source. -/
theorem Tracked.reviewed {e : ExtractionAction π} (h : Tracked L s) (hstep : s.Step L e t)
    (htimely : s.Timely e) (hreviewed : s.Reviewed) : t.Reviewed := by
  obtain ⟨-, hreviews, hanswers⟩ := h.step hstep
  intro r hr hstate
  cases hreviews with
  | kept hkept _ => exact (hreviewed r (hkept r hr hstate) hstate).mono hanswers
  | readied attempt proposal hcommit hreadies hrows _ =>
    rcases hrows r hr hstate with hold | hnew
    · exact (hreviewed r hold hstate).mono hanswers
    · obtain ⟨old, hold, hid, hsource⟩ := hnew.source
      obtain ⟨json, hjson, hstored⟩ := hnew.stored
      have hcurrent := htimely hcommit attempt proposal hreadies old hold hid
      exact ⟨_, hanswers _ (h.answered hreadies), hnew.identity.symm, hsource.trans hcurrent,
        proposal, json, rfl, hjson, hstored⟩

/-- With an honest backend, a step that is not timely leaves a proposal of another source. -/
theorem Tracked.timely {e : ExtractionAction π} (h : Tracked L s) (hstep : s.Step L e t)
    (hhonest : t.Honest) (hreviewed : t.Reviewed) : s.Timely e := by
  obtain ⟨-, hreviews, hanswers⟩ := h.step hstep
  intro hcommit attempt proposal hreadies r hr hid
  cases hreviews with
  | kept _ hother => exact absurd hreadies (hother hcommit attempt proposal)
  | readied attempt' proposal' _ hreadies' _ hreadied =>
    obtain ⟨w, hw, hphase⟩ := hreadies
    have hattempt := hreadies'
    obtain ⟨w', hw', hphase'⟩ := hreadies'
    obtain rfl := Option.some.inj (hw.symm.trans hw')
    rw [hphase] at hphase'
    cases hphase'
    obtain ⟨new, hnew, hstate, hready⟩ := hreadied
    obtain ⟨old, hold, holdId, hsource⟩ := hready.source
    obtain ⟨json, hjson, hstored⟩ := hready.stored
    obtain ⟨a, ha, -, hcurrent, proposal', json', houtcome, hjson', hstored'⟩ :=
      hreviewed new hnew hstate
    obtain rfl := Option.some.inj (hstored.symm.trans hstored')
    have hbody := DraftProposal.body_eq hjson hjson'
    rw [hhonest a ha proposal' houtcome,
      hhonest _ (hanswers _ (h.answered hattempt)) proposal rfl] at hbody
    obtain rfl := h.keys.eq hr hold (hid.trans holdId.symm)
    rw [← hsource, hcurrent, hbody]

/-- Every state that the console reaches is tracked. -/
theorem run_tracked {trace : List (Extractors π × ExtractionAction π)}
    (h : Run (Step L) initial trace s) : Tracked L s :=
  h.invariant (Tracked L) (fun _ _ _ htracked hstep => (htracked.step hstep).tracked)
    tracked_initial

/-- A run of timely steps ends with every proposal under review that of its source. -/
theorem reviewed_of_timely {trace : List (Extractors π × ExtractionAction π)}
    (h : Run (Step L) initial trace s) (htimely : ∀ x ∈ trace, x.1.Timely x.2) : s.Reviewed := by
  have hboth : Tracked L s ∧ s.Reviewed := by
    refine h.invariant_of (fun s => Tracked L s ∧ s.Reviewed) Timely ?_ htimely
      ⟨tracked_initial, nofun⟩
    intro s e t he hs hstep
    exact ⟨(hs.1.step hstep).tracked, hs.1.reviewed hstep he hs.2⟩
  exact hboth.2

/-- With an honest backend, a run through such states only has timely steps. -/
theorem timely_of_reviewed {trace : List (Extractors π × ExtractionAction π)}
    (h : Run (Step L) initial trace s) (hhonest : s.Honest)
    (hall : ∀ x ∈ trace, x.1.Reviewed) (hlast : s.Reviewed) : ∀ x ∈ trace, x.1.Timely x.2 := by
  induction h with
  | nil =>
    intro x hx
    cases hx
  | @snoc t u trace e hrun hstep ih =>
    have htracked := run_tracked hrun
    have hbefore : t.Honest := fun a ha => hhonest a ((htracked.step hstep).answers a ha)
    intro x hx
    rcases List.mem_append.mp hx with hx | hx
    · exact ih hbefore (fun y hy => hall y (List.mem_append_left _ hy)) (hall (t, e) (by simp)) x hx
    · rw [List.mem_singleton.mp hx]
      exact htracked.timely hstep hhonest hlast

/-- In a run whose steps are timely every proposal under review is one for the source that its
workflow has, and has it as its body when the backend is honest. With an honest backend, a run
reaches only such states exactly when its steps are timely. -/
theorem reviewed_iff_timely (L : ConsoleLibrary) {trace : List (Extractors π × ExtractionAction π)}
    (h : Run (Step L) initial trace s) :
    ((∀ x ∈ trace, x.1.Timely x.2) → s.Reviewed ∧ (s.Honest → s.BodiesCurrent)) ∧
      (s.Honest →
        (((∀ x ∈ trace, x.1.Reviewed) ∧ s.Reviewed) ↔ ∀ x ∈ trace, x.1.Timely x.2)) := by
  constructor
  · intro htimely
    have hreviewed := reviewed_of_timely h htimely
    exact ⟨hreviewed, bodies_current hreviewed⟩
  · intro hhonest
    refine ⟨fun ⟨hall, hlast⟩ => timely_of_reviewed h hhonest hall hlast, fun htimely => ?_⟩
    refine ⟨fun x hx => ?_, reviewed_of_timely h htimely⟩
    obtain ⟨before, after, hbefore, -, rfl⟩ := h.split_of_mem hx
    exact reviewed_of_timely hbefore fun y hy => htimely y (List.mem_append_left _ hy)

/-! ## A late answer -/

/-- A whole transaction of so many statements. -/
def inTransaction (first : ExtractionAction Bool) (statements : Nat) :
    List (ExtractionAction Bool) :=
  first :: (List.replicate statements .advance ++ [.commit])

/-- One process begins an extraction; another one starts, recovers it, revises the source and
extracts again; then the answer to the first one is recorded. -/
def lateActions : List (ExtractionAction Bool) :=
  let id := Console.sampleUuid 0
  let user := text "user@example.com"
  let store := { Console.sampleStore with uuid_factory := Console.sampleUuid }
  let schema := text "finance/strategy-edge:1"
  let call p c n := inTransaction (.begin p c store) n
  call false (.store (.create_workflow user (text "momentum") schema) rfl) 2 ++
    call false (.extract id user none) 3 ++
    call true (.store .recover_abandoned_workflows rfl) 2 ++
    call true (.revise_and_extract id user (text "reversal") schema none) 3 ++
    inTransaction (.proceed true store) 3 ++
    [.answer false (.result (.ready Console.sampleProposal))] ++
    inTransaction (.record false store) 3

/-- The console at the end. -/
def lateConsole : Option (Extractors Bool) :=
  follow (fun s e => s.next Console.sampleConsoleLibrary e) initial lateActions

/-- The text of an answered attempt, and the body of its proposal. -/
def answerTexts (a : Answer) : Text × Option Text :=
  (a.attempt.request.text, match a.outcome with
    | .result (.ready proposal) => some proposal.body
    | _ => none)

/-- What is under review at the end, and what was answered. -/
theorem lateConsole_reviewing :
    (lateConsole.map fun s =>
      (s.rows.map fun r => (r.state, r.source_text), s.answers.map answerTexts)) = some
        ([(WorkflowState.reviewing, some (text "reversal"))],
          [(text "momentum", some (text "momentum"))]) := by
  decide +kernel

/-- The backend was honest, and the proposal under review is not one for the source. -/
theorem lateConsole_stale {s : Extractors Bool} (hs : lateConsole = some s) :
    s.Honest ∧ ¬ s.Reviewed := by
  have hlate := lateConsole_reviewing
  rw [hs, Option.map_some, Option.some.injEq, Prod.mk.injEq] at hlate
  obtain ⟨hrows, hanswers⟩ := hlate
  have htexts : ∀ a ∈ s.answers, answerTexts a = (text "momentum", some (text "momentum")) := by
    intro a ha
    have hmem := List.mem_map_of_mem (f := answerTexts) ha
    rw [hanswers] at hmem
    exact List.mem_singleton.mp hmem
  constructor
  · intro a ha proposal houtcome
    have hsame := htexts a ha
    rw [answerTexts, houtcome, Prod.mk.injEq] at hsame
    rw [hsame.1]
    exact Option.some.inj hsame.2
  · intro hreviewed
    have hlast : (WorkflowState.reviewing, some (text "reversal")) ∈
        s.rows.map fun r => (r.state, r.source_text) := by
      rw [hrows]
      exact List.mem_singleton_self _
    obtain ⟨r, hr, heq⟩ := List.mem_map.mp hlast
    obtain ⟨hstate, hsource⟩ := Prod.mk.inj heq
    obtain ⟨a, ha, -, hsent, -⟩ := hreviewed r hr hstate
    rw [hsource, (Prod.mk.inj (htexts a ha)).1] at hsent
    exact absurd hsent (by decide)

theorem late_answer_reviewed :
    ∃ (trace : List (Extractors Bool × ExtractionAction Bool)) (s : Extractors Bool),
      Run (Step Console.sampleConsoleLibrary) initial trace s ∧ s.Honest ∧ ¬ s.Reviewed := by
  obtain ⟨s, hs, -⟩ := Option.map_eq_some_iff.mp lateConsole_reviewing
  obtain ⟨trace, hrun, -⟩ := Run.of_follow hs
  exact ⟨trace, s, hrun, lateConsole_stale hs⟩

theorem reviewed_iff_timely_sample :
    ∃ (trace : List (Extractors Bool × ExtractionAction Bool)) (s : Extractors Bool),
      Run (Step Console.sampleConsoleLibrary) initial trace s ∧
        ∃ x ∈ trace, ¬ x.1.Timely x.2 := by
  obtain ⟨s, hs, -⟩ := Option.map_eq_some_iff.mp lateConsole_reviewing
  obtain ⟨trace, hrun, -⟩ := Run.of_follow hs
  refine ⟨trace, s, hrun, ?_⟩
  by_contra hnone
  push Not at hnone
  exact (lateConsole_stale hs).2 ((reviewed_iff_timely Console.sampleConsoleLibrary hrun).1 hnone).1

end Extractors

end Pine
