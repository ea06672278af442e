import Pine.Ledger.Console.Concluded
import Pine.Ledger.Console.Exchange

/-!
# What the console knows of its calls

Whatever processes die and whichever answers are lost: an outcome that a process holds was received
as the answer to a call of its own workflow, and a concluded workflow says what was received.
-/

namespace Pine

open Workflows

namespace Exchange

variable {π : Type} {D : Deployment} {s t : Exchange π}

/-! ## Outcomes and concluded workflows -/

/-- An outcome that a process holds was received as the answer to a call of its workflow. -/
def Answered (s : Exchange π) (workflow_id : Text) : CaptureOutcome → Prop
  | .response receipt => ∃ i call, (i, some (Reply.receipt receipt)) ∈ s.log ∧
      s.console.calls[i]? = some call ∧ call.workflow_id = workflow_id
  | .domainError code _ => ∃ i call status_code message details,
      (i, some (Reply.error status_code code message details)) ∈ s.log ∧
        s.console.calls[i]? = some call ∧ call.workflow_id = workflow_id
  | _ => True

/-- A concluded workflow says what was received. -/
structure Concluded (s : Exchange π) (r : WorkflowRow) : Prop where
  failed : r.state = .terminal_failure → ∃ code details,
    s.Answered r.workflow_id (.domainError code details) ∧ disposition code = .terminal ∧
      r.error_code = some code
  committed : r.state = .committed → ∃ receipt json,
    s.Answered r.workflow_id (.response receipt) ∧ consoleJson receipt.modelDump = .ok json ∧
      r.capture_response_json = some json

/-- A process that is in a transaction executes the operation of its request, or records what it
received. -/
def Doing (phase : ConsolePhase) (op : StoreOperation) : Prop :=
  (∃ request, phase = .requesting request ∧ request.isOffered = true ∧ op = request.operation) ∨
    ∃ workflow user_id outcome, phase = .recording workflow user_id outcome ∧
      op = outcome.operation workflow.workflow_id user_id

/-- The invariant of the console against its calls. -/
structure Honest (D : Deployment) (s : Exchange π) : Prop where
  writer : ∀ w, s.console.database.writer = some w → ∃ op world,
    w.begun = op.program D.library world ∧ Doing (s.console.phase w.process) op
  tickets : ∀ p workflow user_id, s.console.phase p = .awaiting workflow user_id →
    ∃ i call, s.ticket p = some i ∧ s.console.calls[i]? = some call ∧
      call.workflow_id = workflow.workflow_id
  outcomes : ∀ p workflow user_id outcome,
    s.console.phase p = .classified workflow user_id outcome ∨
      s.console.phase p = .recording workflow user_id outcome →
    s.Answered workflow.workflow_id outcome
  rows : ∀ r ∈ s.console.rows, s.Concluded r

/-- Calls are only sent, and the log only grows. -/
structure Grown (s t : Exchange π) : Prop where
  calls : ∀ (i : Nat) call, s.console.calls[i]? = some call → t.console.calls[i]? = some call
  log : ∀ entry ∈ s.log, entry ∈ t.log

theorem Grown.refl (s : Exchange π) : s.Grown s := ⟨fun _ _ h => h, fun _ h => h⟩

theorem Answered.mono (h : s.Grown t) {workflow_id : Text} {outcome : CaptureOutcome}
    (ha : s.Answered workflow_id outcome) : t.Answered workflow_id outcome := by
  cases outcome with
  | response receipt =>
    obtain ⟨i, call, hlog, hcall, hid⟩ := ha
    exact ⟨i, call, h.log _ hlog, h.calls i call hcall, hid⟩
  | domainError code details =>
    obtain ⟨i, call, status_code, message, sent, hlog, hcall, hid⟩ := ha
    exact ⟨i, call, status_code, message, sent, h.log _ hlog, h.calls i call hcall, hid⟩
  | backendError => trivial
  | exception => trivial

theorem Concluded.mono (h : s.Grown t) {r : WorkflowRow} (hr : s.Concluded r) : t.Concluded r where
  failed hstate := by
    obtain ⟨code, details, hanswered, hrest⟩ := hr.failed hstate
    exact ⟨code, details, hanswered.mono h, hrest⟩
  committed hstate := by
    obtain ⟨receipt, json, hanswered, hrest⟩ := hr.committed hstate
    exact ⟨receipt, json, hanswered.mono h, hrest⟩

/-- What an operation recorded of a row is what its process had received. -/
theorem concluded_of_recorded {op : StoreOperation} {phase : ConsolePhase} (hdoing : Doing phase op)
    (hanswered : ∀ workflow user_id outcome, phase = .recording workflow user_id outcome →
      s.Answered workflow.workflow_id outcome) {r : WorkflowRow} (h : op.Recorded r) :
    s.Concluded r := by
  have hrequested : ∀ request : ServiceRequest, request.isOffered = true →
      request.operation.isOffered = true := by
    intro request hoffered
    cases request with
    | store operation => exact hoffered
    | confirm | retry => rfl
  constructor
  · intro hstate
    obtain ⟨user_id, code, details, hop, hcode⟩ := h.failed hstate
    rcases hdoing with ⟨request, -, hoffered, rfl⟩ | ⟨workflow, user, outcome, hphase, rfl⟩
    · have hnever := hrequested request hoffered
      rw [hop] at hnever
      cases hnever
    · have hknown := hanswered workflow user outcome hphase
      cases outcome with
      | response receipt => cases hop
      | domainError sent details' =>
        simp only [CaptureOutcome.operation, StoreOperation.record_capture_failure.injEq] at hop
        obtain ⟨hid, -, hfailed, rfl, rfl⟩ := hop
        refine ⟨sent, details', hid ▸ hknown, ?_, hcode⟩
        cases hdisposition : disposition sent with
        | terminal => rfl
        | retryable | uncertain =>
          rw [hdisposition] at hfailed
          cases hfailed
      | backendError | exception =>
        simp only [CaptureOutcome.operation, StoreOperation.record_capture_failure.injEq] at hop
        cases hop.2.2.1
  · intro hstate
    obtain ⟨user_id, receipt, json, hop, hjson⟩ := h.committed hstate
    rcases hdoing with ⟨request, -, hoffered, rfl⟩ | ⟨workflow, user, outcome, hphase, rfl⟩
    · have hnever := hrequested request hoffered
      rw [hop] at hnever
      cases hnever
    · have hknown := hanswered workflow user outcome hphase
      cases outcome with
      | response received =>
        simp only [CaptureOutcome.operation, StoreOperation.record_capture_response.injEq] at hop
        obtain ⟨hid, -, rfl⟩ := hop
        exact ⟨received, json, hid ▸ hknown, hjson⟩
      | domainError | backendError | exception => cases hop

/-- What is done beside the console keeps the invariant. -/
theorem Honest.beside (h : s.Honest D) (hconsole : t.console = s.console)
    (hticket : t.ticket = s.ticket) (hlog : ∀ entry ∈ s.log, entry ∈ t.log) : t.Honest D := by
  have hgrown : s.Grown t := ⟨fun i call hcall => hconsole ▸ hcall, hlog⟩
  refine ⟨?_, ?_, ?_, ?_⟩
  · rw [hconsole]
    exact h.writer
  · rw [hconsole, hticket]
    exact h.tickets
  · rw [hconsole]
    exact fun p workflow user_id outcome hphase =>
      (h.outcomes p workflow user_id outcome hphase).mono hgrown
  · rw [hconsole]
    exact fun r hr => (h.rows r hr).mono hgrown

/-- A process outside the transaction goes on. -/
theorem Honest.writer_other (h : s.Honest D) {p : π} {phase : π → ConsolePhase}
    (hother : ∀ q, q ≠ p → phase q = s.console.phase q)
    (hwriter : ∀ w, s.console.database.writer = some w → w.process ≠ p) :
    ∀ w, s.console.database.writer = some w → ∃ op world,
      w.begun = op.program D.library world ∧ Doing (phase w.process) op := by
  intro w hw
  obtain ⟨op, world, hbegun, hdoing⟩ := h.writer w hw
  refine ⟨op, world, hbegun, ?_⟩
  rw [hother _ (hwriter w hw)]
  exact hdoing

/-- A process that submits or waits is in no transaction. -/
theorem Honest.writer_ne (h : s.Honest D) {p : π}
    (hphase : ∀ op, ¬ Doing (s.console.phase p) op) :
    ∀ w, s.console.database.writer = some w → w.process ≠ p := by
  rintro w hw rfl
  obtain ⟨op, -, -, hdoing⟩ := h.writer w hw
  exact hphase op hdoing

/-- The writer executes one statement. -/
theorem Honest.advances (h : s.Honest D)
    {database : Transaction.State π (List WorkflowRow) ConsoleError StoreResult}
    (hstep : Transaction.next s.console.database .advance = some database) :
    Honest D { s with console := { s.console with database } } := by
  have hs := Transaction.step_of_next hstep
  have hcommitted := hs.committed_eq (by rintro ⟨⟩)
  have hgrown : s.Grown { s with console := { s.console with database } } :=
    ⟨fun _ _ hcall => hcall, fun _ hentry => hentry⟩
  refine ⟨?_, h.tickets, fun p workflow user_id outcome hphase =>
    (h.outcomes p workflow user_id outcome hphase).mono hgrown, ?_⟩
  · intro w hw
    have hwriter := h.writer
    generalize s.console.database = before at hs hwriter
    cases hs with
    | advance db process program copy effect rest =>
      cases hw
      exact hwriter ⟨process, program, copy, .next effect rest⟩ rfl
  · intro r hr
    change r ∈ database.committed at hr
    rw [hcommitted] at hr
    exact (h.rows r hr).mono hgrown

theorem honest_initial : (initial : Exchange π).Honest D where
  writer _ hw := by cases hw
  tickets _ _ _ h := by cases h
  outcomes _ _ _ _ h := by rcases h with h | h <;> cases h
  rows _ hr := by cases hr

/-- Where a process stands after its transaction: it waits for nothing, and records nothing that
it received. -/
def Quiet : ConsolePhase → Prop
  | .awaiting _ _ => False
  | .classified _ _ outcome | .recording _ _ outcome => outcome = .exception
  | _ => True

theorem quiet_afterFailure (workflow : ConsoleWorkflow) (user_id : Text)
    (outcome : CaptureOutcome) : Quiet (afterFailure workflow user_id outcome) := by
  cases outcome with
  | response receipt => rfl
  | domainError | backendError | exception => trivial

theorem quiet_afterAbort (phase : ConsolePhase) : Quiet phase.afterAbort := by
  cases phase with
  | recording workflow user_id outcome => exact quiet_afterFailure workflow user_id outcome
  | _ => trivial

theorem quiet_submissionOf (L : ConsoleLibrary) (user_id : Text) (retry : Bool)
    (result : StoreResult) : Quiet (submissionOf L user_id retry result) := by
  unfold submissionOf
  split
  · split
    · split
      · trivial
      · trivial
    · trivial
  · trivial

theorem quiet_afterCommit (L : ConsoleLibrary) (result : StoreResult) (phase : ConsolePhase) :
    Quiet (phase.afterCommit L result) := by
  unfold ConsolePhase.afterCommit
  split
  · exact quiet_submissionOf L _ _ result
  · exact quiet_submissionOf L _ _ result
  · split
    · split
      · trivial
      · exact quiet_afterFailure _ _ _
    · trivial
  · trivial

/-- What the client makes of a received answer was answered. -/
theorem Answered.of_received (h : s.Honest D) {p : π} {workflow : ConsoleWorkflow} {user_id : Text}
    (hphase : s.console.phase p = .awaiting workflow user_id)
    {found : PreregisteredCaptureRequest × Reply} (hfound : s.answered p = some found) :
    s.Answered workflow.workflow_id (clientCapture D.isWord found.1 found.2) := by
  obtain ⟨i, call, hi, hcall, hlog, -⟩ := answered_some hfound
  obtain ⟨j, waited, hj, hwaited, hid⟩ := h.tickets p workflow user_id hphase
  obtain rfl := Option.some.inj (hi.symm.trans hj)
  obtain rfl := Option.some.inj (hcall.symm.trans hwaited)
  obtain ⟨request, reply⟩ := found
  cases reply with
  | receipt response =>
    rw [clientCapture]
    split
    · exact ⟨i, call, hlog, hcall, hid⟩
    · trivial
  | error status_code code message details =>
    rw [clientCapture]
    split
    · exact ⟨i, call, status_code, message, details, hlog, hcall, hid⟩
    · trivial

variable [DecidableEq π]

/-! ## Steps of a process -/

/-- A step of one process keeps the invariant. -/
theorem Honest.process (h : s.Honest D) (hgrown : s.Grown t) (p : π)
    (hother : ∀ q, q ≠ p → t.console.phase q = s.console.phase q ∧ t.ticket q = s.ticket q)
    (hwriter : ∀ w, t.console.database.writer = some w → ∃ op world,
      w.begun = op.program D.library world ∧ Doing (t.console.phase w.process) op)
    (hticket : ∀ workflow user_id, t.console.phase p = .awaiting workflow user_id →
      ∃ i call, t.ticket p = some i ∧ t.console.calls[i]? = some call ∧
        call.workflow_id = workflow.workflow_id)
    (houtcome : ∀ workflow user_id outcome,
      t.console.phase p = .classified workflow user_id outcome ∨
        t.console.phase p = .recording workflow user_id outcome →
      t.Answered workflow.workflow_id outcome)
    (hrows : ∀ r ∈ t.console.rows, t.Concluded r) : t.Honest D where
  writer := hwriter
  tickets q workflow user_id hphase := by
    by_cases hq : q = p
    · subst hq
      exact hticket workflow user_id hphase
    · obtain ⟨hsame, hwaits⟩ := hother q hq
      rw [hsame] at hphase
      obtain ⟨i, call, hi, hcall, hid⟩ := h.tickets q workflow user_id hphase
      exact ⟨i, call, hwaits.trans hi, hgrown.calls i call hcall, hid⟩
  outcomes q workflow user_id outcome hphase := by
    by_cases hq : q = p
    · subst hq
      exact houtcome workflow user_id outcome hphase
    · rw [(hother q hq).1] at hphase
      exact (h.outcomes q workflow user_id outcome hphase).mono hgrown
  rows := hrows

/-- A process that becomes quiet keeps the invariant. -/
theorem Honest.quiet (h : s.Honest D) (hgrown : s.Grown t) (p : π) {phase : ConsolePhase}
    (hphase : t.console.phase = Function.update s.console.phase p phase) (hquiet : Quiet phase)
    (hticket : ∀ q, q ≠ p → t.ticket q = s.ticket q)
    (hwriter : ∀ w, t.console.database.writer = some w → ∃ op world,
      w.begun = op.program D.library world ∧ Doing (t.console.phase w.process) op)
    (hrows : ∀ r ∈ t.console.rows, t.Concluded r) : t.Honest D := by
  have hself : t.console.phase p = phase := by rw [hphase, Function.update_self]
  refine h.process hgrown p (fun q hq => ⟨?_, hticket q hq⟩) hwriter ?_ ?_ hrows
  · rw [hphase, Function.update_of_ne hq]
  · intro workflow user_id heq
    rw [hself] at heq
    rw [heq] at hquiet
    cases hquiet
  · intro workflow user_id outcome heq
    rw [hself] at heq
    obtain rfl : outcome = .exception := by
      rcases heq with heq | heq
      · rw [heq] at hquiet
        exact hquiet
      · rw [heq] at hquiet
        exact hquiet
    trivial

/-- Calls are only appended. -/
theorem calls_prefix {c c' : Console π} {action : ConsoleAction π}
    (h : c.Step D.library D.uuid action c') : c.calls <+: c'.calls := by
  have hbegin : ∀ {p op world phase}, c.begin D.library D.uuid p op world phase = some c' →
      c.calls <+: c'.calls := by
    intro p op world phase hbegin
    obtain ⟨_, -, rfl⟩ := Option.map_eq_some_iff.mp hbegin
    exact List.prefix_rfl
  cases action with
  | begin p request world | record p world =>
    simp only [Console.Step, Console.next] at h
    split at h
    · exact hbegin h
    · cases h
  | advance =>
    obtain ⟨_, -, rfl⟩ := Option.map_eq_some_iff.mp h
    exact List.prefix_rfl
  | commit | abort | settle =>
    simp only [Console.Step, Console.next] at h
    split at h
    · cases h
      exact List.prefix_rfl
    · cases h
  | crash p =>
    simp only [Console.Step, Console.next] at h
    split at h
    · split at h <;> cases h <;> exact List.prefix_rfl
    · cases h
      exact List.prefix_rfl
  | send p =>
    simp only [Console.Step, Console.next] at h
    split at h
    · cases h
      unfold Console.send
      split
      · exact List.prefix_rfl
      · split
        · exact List.prefix_rfl
        · exact List.prefix_append _ _
    · cases h

/-- A step of the console alone only adds calls. -/
theorem grown_console {console : Console π} {action : ConsoleAction π} (ticket : π → Option Nat)
    (h : s.console.Step D.library D.uuid action console) :
    s.Grown { s with console, ticket } := by
  refine ⟨fun i call hcall => ?_, fun entry hentry => hentry⟩
  obtain ⟨more, hmore⟩ := calls_prefix h
  change console.calls[i]? = some call
  rw [← hmore]
  exact List.getElem?_append_left (List.getElem?_eq_some_iff.mp hcall).1 ▸ hcall

/-- A process begins a transaction. -/
theorem Honest.begins (h : s.Honest D) {console : Console π} {p : π} {op : StoreOperation}
    {world : StoreWorld} {phase : ConsolePhase} (hgrown : s.Grown { s with console })
    (hbegin : s.console.begin D.library D.uuid p op world phase = some console)
    (hdoing : Doing phase op)
    (houtcome : ∀ workflow user_id outcome, phase = .recording workflow user_id outcome →
      s.Answered workflow.workflow_id outcome) : Honest D { s with console } := by
  obtain ⟨database, hdatabase, rfl⟩ := Option.map_eq_some_iff.mp hbegin
  have hself : Function.update s.console.phase p phase p = phase := Function.update_self ..
  obtain ⟨hwriter, hcommitted⟩ : (∀ w, database.writer = some w → w.process = p ∧
      w.begun = op.program D.library (world.drawing D.uuid s.console.draws)) ∧
      database.committed = s.console.database.committed := by
    cases hidle : s.console.database.writer with
    | none =>
      simp only [Transaction.next, hidle, Option.some.injEq] at hdatabase
      subst hdatabase
      refine ⟨?_, rfl⟩
      rintro w ⟨⟩
      exact ⟨rfl, rfl⟩
    | some w =>
      simp only [Transaction.next, hidle, reduceCtorEq] at hdatabase
  refine h.process hgrown p (fun q hq => ⟨Function.update_of_ne hq .., rfl⟩) ?_ ?_ ?_ ?_
  · intro w hw
    obtain ⟨rfl, hbegun⟩ := hwriter w hw
    refine ⟨op, _, hbegun, ?_⟩
    change Doing (Function.update s.console.phase w.process phase w.process) op
    rw [hself]
    exact hdoing
  · intro workflow user_id hphase
    change Function.update s.console.phase p phase p = _ at hphase
    rw [hself] at hphase
    rcases hdoing with ⟨request, rfl, -⟩ | ⟨held, user, outcome, rfl, -⟩
    · cases hphase
    · cases hphase
  · intro workflow user_id outcome hphase
    change Function.update s.console.phase p phase p = _ ∨
      Function.update s.console.phase p phase p = _ at hphase
    rw [hself] at hphase
    rcases hphase with hclassified | hrecording
    · rcases hdoing with ⟨request, rfl, -⟩ | ⟨held, user, received, rfl, -⟩
      · cases hclassified
      · cases hclassified
    · exact (houtcome workflow user_id outcome hrecording).mono hgrown
  · intro r hr
    change r ∈ database.committed at hr
    rw [hcommitted] at hr
    exact (h.rows r hr).mono hgrown

/-- The writer commits: what is concluded now was received by its process. -/
theorem Honest.commits (h : s.Honest D) (hserial : Transaction.Serial s.console.database)
    (hkeys : Keys s.console.rows) {p : π} {begun : ConsoleStore StoreResult}
    {copy : List WorkflowRow} {result : StoreResult}
    (hwriter : s.console.database.writer = some ⟨p, begun, copy, .done (.ok result)⟩) :
    Honest D { s with console := ({ s.console with database := ⟨copy, none⟩ }.enter p
      ((s.console.phase p).afterCommit D.library result)) } := by
  have hgrown : s.Grown { s with console := ({ s.console with database := ⟨copy, none⟩ }.enter p
      ((s.console.phase p).afterCommit D.library result)) } :=
    ⟨fun _ _ hcall => hcall, fun _ hentry => hentry⟩
  obtain ⟨op, world, hbegun, hdoing⟩ := h.writer _ hwriter
  obtain rfl : begun = op.program D.library world := hbegun
  have hrun : (op.program D.library world).run s.console.rows = (.ok result, copy) :=
    (hserial _ hwriter).symm
  refine h.quiet hgrown p rfl (quiet_afterCommit D.library result _) (fun _ _ => rfl) ?_ ?_
  · rintro w ⟨⟩
  · intro r hr
    rcases op.concludes hkeys hrun r hr with hold | hrecorded
    · exact (h.rows r hold).mono hgrown
    · exact (concluded_of_recorded hdoing (fun workflow user_id outcome hphase =>
        h.outcomes p workflow user_id outcome (Or.inr hphase)) hrecorded).mono hgrown

/-- The transaction of a process is rolled back, and the process does nothing any more. -/
theorem Honest.rollsBack (h : s.Honest D) (p : π) {phase : ConsolePhase} (hquiet : Quiet phase) :
    Honest D { s with console :=
      ({ s.console with database := ⟨s.console.database.committed, none⟩ }.enter p phase) } := by
  have hgrown : s.Grown { s with console :=
      ({ s.console with database := ⟨s.console.database.committed, none⟩ }.enter p phase) } :=
    ⟨fun _ _ hcall => hcall, fun _ hentry => hentry⟩
  refine h.quiet hgrown p rfl hquiet (fun _ _ => rfl) ?_ fun r hr => (h.rows r hr).mono hgrown
  rintro w ⟨⟩

/-- A process sends its call, and waits for it. -/
theorem Honest.sends (h : s.Honest D) {p : π} {workflow : ConsoleWorkflow} {user_id : Text}
    (hphase : s.console.phase p = .submitting workflow user_id)
    (hgrown : s.Grown { s with
      console := s.console.send D.library p workflow user_id, ticket := s.ticketAfter (.send p) }) :
    Honest D { s with
      console := s.console.send D.library p workflow user_id
      ticket := s.ticketAfter (.send p) } := by
  have hticket : ∀ q, q ≠ p → s.ticketAfter (.send p) q = s.ticket q :=
    fun q hq => Function.update_of_ne hq ..
  have hne := h.writer_ne (p := p) fun op hdoing => by
    rw [hphase] at hdoing
    rcases hdoing with ⟨_, hheld, -⟩ | ⟨_, _, _, hheld, -⟩
    · cases hheld
    · cases hheld
  have hother : ∀ phase q, q ≠ p → Function.update s.console.phase p phase q = s.console.phase q :=
    fun phase q hq => Function.update_of_ne hq ..
  unfold Console.send at hgrown ⊢
  split at hgrown
  · exact h.quiet hgrown p rfl trivial hticket (h.writer_other (hother _) hne)
      fun r hr => (h.rows r hr).mono hgrown
  · split at hgrown
    · exact h.quiet hgrown p rfl rfl hticket (h.writer_other (hother _) hne)
        fun r hr => (h.rows r hr).mono hgrown
    · rename_i request hrequest
      refine h.process hgrown p (fun q hq => ⟨hother _ q hq, hticket q hq⟩)
        (h.writer_other (hother _) hne) ?_ ?_ fun r hr => (h.rows r hr).mono hgrown
      · intro held user hheld
        change Function.update s.console.phase p _ p = _ at hheld
        rw [Function.update_self] at hheld
        cases hheld
        refine ⟨s.console.calls.length, ⟨workflow.workflow_id, request⟩, ?_, ?_, rfl⟩
        · exact Function.update_self ..
        · exact List.getElem?_concat_length ..
      · intro held user outcome hheld
        change Function.update s.console.phase p _ p = _ ∨
          Function.update s.console.phase p _ p = _ at hheld
        rw [Function.update_self] at hheld
        rcases hheld with hheld | hheld
        · cases hheld
        · cases hheld

/-- A process crashes. -/
theorem Honest.crashes (h : s.Honest D) {p : π} {console : Console π}
    (hstep : s.console.Step D.library D.uuid (.crash p) console) : Honest D { s with console } := by
  have hgrown : s.Grown { s with console } := grown_console s.ticket hstep
  have hother : ∀ q, q ≠ p → Function.update s.console.phase p .idle q = s.console.phase q :=
    fun q hq => Function.update_of_ne hq ..
  simp only [Console.Step, Console.next] at hstep
  split at hstep
  · rename_i w hw
    split at hstep
    · cases hstep
      exact h.rollsBack p trivial
    · rename_i hne
      cases hstep
      refine h.quiet hgrown p rfl trivial (fun _ _ => rfl) (h.writer_other hother ?_)
        fun r hr => (h.rows r hr).mono hgrown
      intro w' hw'
      obtain rfl := Option.some.inj (hw.symm.trans hw')
      exact hne
  · rename_i hidle
    cases hstep
    refine h.quiet hgrown p rfl trivial (fun _ _ => rfl) (h.writer_other hother ?_)
      fun r hr => (h.rows r hr).mono hgrown
    intro w hw
    rw [hidle] at hw
    cases hw

/-- What the console does by itself keeps the invariant. -/
theorem Honest.own (h : s.Honest D) (hserial : Transaction.Serial s.console.database)
    (hkeys : Keys s.console.rows) {action : ConsoleAction π} {console : Console π}
    (hown : action.isOwn = true) (hstep : s.console.Step D.library D.uuid action console) :
    Honest D { s with console, ticket := s.ticketAfter action } := by
  have hgrown := grown_console (s.ticketAfter action) hstep
  cases action with
  | begin p request world =>
    simp only [Console.Step, Console.next] at hstep
    split at hstep
    · exact h.begins hgrown hstep (Or.inl ⟨request, rfl, hown, rfl⟩)
        fun _ _ _ hphase => by cases hphase
    · cases hstep
  | record p world =>
    simp only [Console.Step, Console.next] at hstep
    split at hstep
    · rename_i workflow user_id outcome hphase
      refine h.begins hgrown hstep (Or.inr ⟨workflow, user_id, outcome, rfl, rfl⟩) ?_
      rintro held user received ⟨⟩
      exact h.outcomes p workflow user_id outcome (Or.inl hphase)
    · cases hstep
  | advance =>
    obtain ⟨database, hdatabase, rfl⟩ := Option.map_eq_some_iff.mp hstep
    exact h.advances hdatabase
  | commit =>
    simp only [Console.Step, Console.next] at hstep
    split at hstep
    · rename_i hwriter
      cases hstep
      exact h.commits hserial hkeys hwriter
    · cases hstep
  | abort =>
    simp only [Console.Step, Console.next] at hstep
    split at hstep
    · cases hstep
      exact h.rollsBack _ (quiet_afterAbort _)
    · cases hstep
  | send p =>
    simp only [Console.Step, Console.next] at hstep
    split at hstep
    · rename_i hphase
      cases hstep
      exact h.sends hphase hgrown
    · cases hstep
  | settle => cases hown
  | crash p => exact h.crashes hstep

/-- What a process makes of the answer it waits for keeps the invariant. -/
theorem Honest.settles (h : s.Honest D) {p : π} {outcome : CaptureOutcome} {console : Console π}
    (houtcome : ∀ workflow user_id, s.console.phase p = .awaiting workflow user_id →
      s.Answered workflow.workflow_id outcome)
    (hstep : s.console.Step D.library D.uuid (.settle p outcome) console) :
    Honest D { s with console } := by
  have hgrown : s.Grown { s with console } := grown_console s.ticket hstep
  simp only [Console.Step, Console.next] at hstep
  split at hstep
  · rename_i workflow user_id hphase
    cases hstep
    have hother : ∀ phase q, q ≠ p →
        Function.update s.console.phase p phase q = s.console.phase q :=
      fun phase q hq => Function.update_of_ne hq ..
    have hne := h.writer_ne (p := p) fun op hdoing => by
      rw [hphase] at hdoing
      rcases hdoing with ⟨_, hheld, -⟩ | ⟨_, _, _, hheld, -⟩
      · cases hheld
      · cases hheld
    refine h.process hgrown p (fun q hq => ⟨hother _ q hq, rfl⟩)
      (h.writer_other (hother _) hne) ?_ ?_ fun r hr => (h.rows r hr).mono hgrown
    · intro held user hheld
      change Function.update s.console.phase p _ p = _ at hheld
      rw [Function.update_self] at hheld
      cases hheld
    · intro held user received hheld
      change Function.update s.console.phase p _ p = _ ∨
        Function.update s.console.phase p _ p = _ at hheld
      rw [Function.update_self] at hheld
      rcases hheld with hheld | hheld
      · cases hheld
        exact (houtcome workflow user_id hphase).mono hgrown
      · cases hheld
  · cases hstep

/-- Every step keeps the invariant. -/
theorem Honest.step (h : s.Honest D) (hserial : Transaction.Serial s.console.database)
    (hkeys : Keys s.console.rows) {e : ExchangeAction π} (hstep : s.Step D e t) : t.Honest D := by
  cases e with
  | console action =>
    simp only [Step, next, Option.ite_none_right_eq_some] at hstep
    obtain ⟨console, hconsole, rfl⟩ := Option.map_eq_some_iff.mp hstep.2
    exact h.own hserial hkeys hstep.1 hconsole
  | take i fault world details =>
    simp only [Step, next, Option.ite_none_left_eq_some] at hstep
    obtain ⟨call, -, htaken⟩ := Option.bind_eq_some_iff.mp hstep.2
    unfold take at htaken
    split at htaken
    · cases htaken
      exact h.beside rfl rfl fun entry hentry => List.mem_append_left _ hentry
    · obtain ⟨handled, -, rfl⟩ := Option.map_eq_some_iff.mp htaken
      exact h.beside rfl rfl fun entry hentry => List.mem_append_left _ hentry
  | receive p =>
    obtain ⟨found, hfound, hsettled⟩ := Option.bind_eq_some_iff.mp hstep
    obtain ⟨console, hconsole, rfl⟩ := Option.map_eq_some_iff.mp hsettled
    exact h.settles (fun _ _ hphase => .of_received h hphase hfound) hconsole
  | lose p unexpected =>
    obtain ⟨console, hconsole, rfl⟩ := Option.map_eq_some_iff.mp hstep
    refine h.settles (fun _ _ _ => ?_) hconsole
    cases unexpected <;> trivial
  | ledger call =>
    cases hstep
    exact h.beside rfl rfl fun entry hentry => hentry

/-- Every state that the two parties reach is honest. -/
theorem run_honest (huuid : Function.Injective D.uuid)
    {trace : List (Exchange π × ExchangeAction π)} (h : Run (Step D) initial trace s) :
    s.Honest D := by
  induction h with
  | nil => exact honest_initial
  | snoc hrun hstep ih =>
    obtain ⟨trace', hconsole⟩ := run_console hrun
    obtain ⟨last, hsafe⟩ := Console.run_safe huuid hconsole
    exact ih.step hsafe.database.serial hsafe.database.keys hstep

end Exchange

end Pine
