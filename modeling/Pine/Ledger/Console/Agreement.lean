import Pine.Ledger.Console.Honest

/-!
# Agreement of the console and the backend

What a concluded workflow says about the registry, whatever processes die, whichever answers are
lost and however late a call is taken.
-/

namespace Pine

open Workflows

/-! ## Keys of workflows and of calls -/

namespace Console

variable {π : Type} {L : ConsoleLibrary} {uuid : Nat → Text} {s t : Console π}

/-- Every workflow has the identity and the key that were drawn together. -/
structure Issued (L : ConsoleLibrary) (uuid : Nat → Text) (s : Console π) : Prop where
  writer : ∀ w, s.database.writer = some w → ∃ (op : StoreOperation) (world : StoreWorld)
    (drawn : Nat), w.begun = op.program L (world.drawing uuid drawn)
  rows : ∀ r ∈ s.rows, ∃ n, r.workflow_id = uuid n ∧
    r.idempotency_key = text "console-" ++ uuid (n + 1)

theorem issued_initial : (initial : Console π).Issued L uuid where
  writer _ hw := by cases hw
  rows _ hr := by cases hr

/-- A step of the database keeps what was issued. -/
theorem Issued.of_database (h : s.Issued L uuid) (hserial : Transaction.Serial s.database)
    (hkeys : Keys s.rows)
    {e : Transaction.Event π (List WorkflowRow) ConsoleError StoreResult}
    (hbegin : ∀ p program, e = .begin p program → ∃ (op : StoreOperation) (world : StoreWorld)
      (drawn : Nat), program = op.program L (world.drawing uuid drawn))
    (hstep : Transaction.Step s.database e t.database) : t.Issued L uuid := by
  refine ⟨hstep.admitted hbegin h.writer, fun r hr => ?_⟩
  by_cases hcommit : e = .commit
  · subst hcommit
    obtain ⟨w, result, hw, hrun⟩ := hstep.commit_run hserial
    obtain ⟨op, world, drawn, hbegun⟩ := h.writer w hw
    rw [hbegun] at hrun
    rcases op.issues hkeys hrun hr with ⟨old, hold, hid, hkey⟩ | ⟨hid, hkey⟩
    · obtain ⟨n, hn, hdrawn⟩ := h.rows old hold
      exact ⟨n, hid.symm.trans hn, hkey.symm.trans hdrawn⟩
    · exact ⟨drawn, hid, hkey⟩
  · have hrows : t.rows = s.rows := hstep.committed_eq hcommit
    rw [hrows] at hr
    exact h.rows r hr

/-- A step outside the database keeps what was issued. -/
theorem Issued.of_same (h : s.Issued L uuid) (hsame : t.database = s.database) :
    t.Issued L uuid := by
  refine ⟨?_, ?_⟩
  · rw [hsame]
    exact h.writer
  · rw [Console.rows, hsame]
    exact h.rows

variable [DecidableEq π]

/-- A step of the console keeps what was issued. -/
theorem Issued.step (h : s.Issued L uuid) (hserial : Transaction.Serial s.database)
    (hkeys : Keys s.rows) {action : ConsoleAction π} (hstep : s.Step L uuid action t) :
    t.Issued L uuid := by
  have hbegins : ∀ {p op world phase}, s.begin L uuid p op world phase = some t →
      t.Issued L uuid := by
    intro p op world phase hbegin
    obtain ⟨database, hdatabase, rfl⟩ := Option.map_eq_some_iff.mp hbegin
    refine h.of_database hserial hkeys ?_ (Transaction.step_of_next hdatabase)
    rintro q program ⟨⟩
    exact ⟨op, world, s.draws, rfl⟩
  have hrolled : ∀ w, s.database.writer = some w →
      t.database = ⟨s.database.committed, none⟩ → t.Issued L uuid := by
    intro w hw heq
    refine h.of_database hserial hkeys (e := .abort) (by rintro _ _ ⟨⟩)
      (Transaction.step_of_next ?_)
    simp only [Transaction.next, hw, heq]
  cases action with
  | begin p request world | record p world =>
    simp only [Step, next] at hstep
    split at hstep
    · exact hbegins hstep
    · cases hstep
  | advance =>
    obtain ⟨database, hdatabase, rfl⟩ := Option.map_eq_some_iff.mp hstep
    exact h.of_database hserial hkeys (by rintro _ _ ⟨⟩) (Transaction.step_of_next hdatabase)
  | commit =>
    simp only [Step, next] at hstep
    split at hstep
    · rename_i hwriter
      cases hstep
      refine h.of_database hserial hkeys (e := .commit) (by rintro _ _ ⟨⟩)
        (Transaction.step_of_next ?_)
      simp only [Transaction.next, hwriter]
      rfl
    · cases hstep
  | abort =>
    simp only [Step, next] at hstep
    split at hstep
    · rename_i w hw
      cases hstep
      exact hrolled w hw rfl
    · cases hstep
  | send p =>
    simp only [Step, next] at hstep
    split at hstep
    · cases hstep
      refine h.of_same ?_
      unfold send
      split
      · rfl
      · split <;> rfl
    · cases hstep
  | settle =>
    simp only [Step, next] at hstep
    split at hstep
    · cases hstep
      exact h.of_same rfl
    · cases hstep
  | crash p =>
    simp only [Step, next] at hstep
    split at hstep
    · rename_i w hw
      split at hstep
      · cases hstep
        exact hrolled w hw rfl
      · cases hstep
        exact h.of_same rfl
    · cases hstep
      exact h.of_same rfl

/-- Every workflow that was ever there has an identity and a key that were drawn together. -/
theorem run_issued (huuid : Function.Injective uuid) {trace : List (Console π × ConsoleAction π)}
    (h : Run (Step L uuid) initial trace s) :
    ∀ r, Seen trace s r → ∃ n, r.workflow_id = uuid n ∧
      r.idempotency_key = text "console-" ++ uuid (n + 1) := by
  have hissued : ∀ {trace s}, Run (Step L uuid) (initial : Console π) trace s →
      s.Issued L uuid := by
    intro trace s h
    induction h with
    | nil => exact issued_initial
    | snoc hrun hstep ih =>
      obtain ⟨last, hsafe⟩ := run_safe huuid hrun
      exact ih.step hsafe.database.serial hsafe.database.keys hstep
  rintro r (⟨x, hx, hr⟩ | hr)
  · obtain ⟨before, after, hbefore, -, -⟩ := h.split_of_mem hx
    exact (hissued hbefore).rows r hr
  · exact (hissued h).rows r hr

end Console

/-! ## Received requests -/

/-- What the backend reads is the request that was sent. -/
theorem CaptureCall.received_same {L : ConsoleLibrary} {call : CaptureCall}
    {request : PreregisteredCaptureRequest} (h : call.received L = some request) :
    request.Same call.request := by
  have hkeyed := call.request.keyed_modelDump
  unfold received at h
  by_cases hfinite : isFinite call.request.modelDump = true
  · rw [canonicalJson, if_pos hfinite] at h
    dsimp only at h
    rw [Json.loads_canonicalText ((proper_iff _).mpr ⟨hkeyed, hfinite⟩), Option.bind_some] at h
    obtain ⟨q, hq, hsame⟩ := PreregisteredCaptureRequest.modelValidate_reordered (L := L)
      (Reordered.sortKeys hkeyed)
    obtain rfl := Option.some.inj (hq.symm.trans h)
    exact hsame
  · rw [canonicalJson, if_neg hfinite] at h
    cases h

/-- Requests with one canonical text are received as one. -/
theorem CaptureCall.received_of_canonical {L : ConsoleLibrary} {call : CaptureCall} {f : Text}
    (h : canonicalJson call.request.modelDump = .ok f) :
    call.received L = (Json.loads f).bind (PreregisteredCaptureRequest.modelValidate L) := by
  rw [received, h]

/-! ## The registry against the calls -/

namespace Exchange

variable {π : Type} {D : Deployment} {s t : Exchange π}

/-- The key is one that the console may have drawn. -/
def IsDrawn (D : Deployment) (key : Text) : Prop := ∃ n, key = text "console-" ++ D.uuid n

/-- What the console knows of its calls: they carry keys that were drawn, and calls under one key
are of one workflow and are read as one request. -/
structure Keyed (D : Deployment) (s : Exchange π) : Prop where
  drawn : ∀ (i : Nat) call, s.console.calls[i]? = some call →
    IsDrawn D call.request.idempotency_key
  agree : ∀ (i j : Nat) call call', s.console.calls[i]? = some call →
    s.console.calls[j]? = some call' →
    call.request.idempotency_key = call'.request.idempotency_key →
    call.workflow_id = call'.workflow_id ∧ call.received D.library = call'.received D.library

/-- Some logged call under the key was captured, and the key is bound to its request. -/
def Backed (D : Deployment) (s : Exchange π) (key : Text) : Prop :=
  ∃ i answer call request hash row result, (i, answer) ∈ s.log ∧
    s.console.calls[i]? = some call ∧ call.received D.library = some request ∧
    request.idempotency_key = key ∧ requestHash D.sha256 request = .ok hash ∧
    Registry.Bound D.layout s.registry key hash row result

/-- The receipt is that of what the key of its call is bound to. -/
def Receipted (D : Deployment) (s : Exchange π) (i : Nat) (receipt : CaptureResponse) : Prop :=
  ∃ call request hash row result, s.console.calls[i]? = some call ∧
    call.received D.library = some request ∧ requestHash D.sha256 request = .ok hash ∧
    Registry.Bound D.layout s.registry request.idempotency_key hash row result ∧
    captureResponse D.layout result = .ok receipt

/-- No capture is bound to the key. -/
def Unbound (s : Exchange π) (key : Text) : Prop :=
  ∀ bound ∈ s.registry.capture_requests, bound.idempotency_key ≠ key

/-- Some call under the key is among the logged ones. -/
def Retaken (s : Exchange π) (key : Text) (log : List (Nat × Option Reply)) : Prop :=
  ∃ j answer call, (j, answer) ∈ log ∧ s.console.calls[j]? = some call ∧
    call.request.idempotency_key = key

/-- The invariant of the registry against the calls that the backend has taken. -/
structure Sincere (D : Deployment) (s : Exchange π) : Prop where
  keys : s.registry.Keys
  backed : ∀ bound ∈ s.registry.capture_requests, IsDrawn D bound.idempotency_key →
    s.Backed D bound.idempotency_key
  receipts : ∀ i receipt, (i, some (.receipt receipt)) ∈ s.log → s.Receipted D i receipt
  failures : ∀ before after i status_code code message details,
    s.log = before ++ (i, some (.error status_code code message details)) :: after →
    disposition code = .terminal → code ≠ text "integrity_error" →
    ∃ call, s.console.calls[i]? = some call ∧ (s.Unbound call.request.idempotency_key ∨
      s.Retaken call.request.idempotency_key after)

theorem sincere_initial : (initial : Exchange π).Sincere D where
  keys := Registry.keys_empty
  backed _ hbound := by cases hbound
  receipts _ _ hlog := by cases hlog
  failures before after i status_code code message details hlog := by
    cases before <;> cases hlog

/-- The registry of a later state evolved from that of an earlier one. -/
structure Later (s t : Exchange π) : Prop extends s.Grown t where
  evolves : s.registry.Evolves t.registry
  keys : t.registry.Keys

theorem Backed.later (h : s.Later t) {key : Text} (hbacked : s.Backed D key) : t.Backed D key := by
  obtain ⟨i, answer, call, request, hash, row, result, hlog, hcall, hreceived, hkey, hhash,
    hbound⟩ := hbacked
  obtain ⟨row', -, hbound'⟩ := hbound.evolves h.evolves h.keys
  exact ⟨i, answer, call, request, hash, row', result, h.log _ hlog, h.calls i call hcall,
    hreceived, hkey, hhash, hbound'⟩

theorem Receipted.later (h : s.Later t) {i : Nat} {receipt : CaptureResponse}
    (hreceipted : s.Receipted D i receipt) : t.Receipted D i receipt := by
  obtain ⟨call, request, hash, row, result, hcall, hreceived, hhash, hbound, hresponse⟩ :=
    hreceipted
  obtain ⟨row', -, hbound'⟩ := hbound.evolves h.evolves h.keys
  exact ⟨call, request, hash, row', result, h.calls i call hcall, hreceived, hhash, hbound',
    hresponse⟩

theorem Retaken.later (h : s.Grown t) {key : Text} {log log' : List (Nat × Option Reply)}
    (hlog : ∀ entry ∈ log, entry ∈ log') (hretaken : s.Retaken key log) : t.Retaken key log' := by
  obtain ⟨j, answer, call, hentry, hcall, hkey⟩ := hretaken
  exact ⟨j, answer, call, hlog _ hentry, h.calls j call hcall, hkey⟩

/-- What happens beside the backend, and binds no key of the console, keeps the invariant. -/
theorem Sincere.beside (h : s.Sincere D) (hlater : s.Later t) (hlog : t.log = s.log)
    (hspares : ∀ bound ∈ t.registry.capture_requests,
      bound ∈ s.registry.capture_requests ∨ ¬ IsDrawn D bound.idempotency_key)
    (hkeyed : s.Keyed D) : t.Sincere D where
  keys := hlater.keys
  backed bound hbound hdrawn := by
    rcases hspares bound hbound with hold | hforeign
    · exact (h.backed bound hold hdrawn).later hlater
    · exact absurd hdrawn hforeign
  receipts i receipt hentry := by
    rw [hlog] at hentry
    exact (h.receipts i receipt hentry).later hlater
  failures before after i status_code code message details hsplit hterminal hcode := by
    rw [hlog] at hsplit
    obtain ⟨call, hcall, hfailed⟩ :=
      h.failures before after i status_code code message details hsplit hterminal hcode
    refine ⟨call, hlater.calls i call hcall, hfailed.imp (fun hunbound bound hbound => ?_)
      (Retaken.later hlater.toGrown fun _ hentry => hentry)⟩
    rcases hspares bound hbound with hold | hforeign
    · exact hunbound bound hold
    · exact fun heq => hforeign (heq ▸ hkeyed.drawn i call hcall)

/-! ## Taking a call -/

/-- A logged call splits the log where it was logged: before the last entry, or as that entry. -/
theorem snoc_eq_split {α : Type} {log before after : List α} {last x : α}
    (h : log ++ [last] = before ++ x :: after) :
    (after = [] ∧ x = last ∧ log = before) ∨
      ∃ rest, after = rest ++ [last] ∧ log = before ++ x :: rest := by
  rcases List.eq_nil_or_concat after with rfl | ⟨rest, y, rfl⟩
  · obtain ⟨hlog, hx⟩ := List.append_inj' h rfl
    exact Or.inl ⟨rfl, (List.singleton_inj.mp hx).symm, hlog⟩
  · rw [List.concat_eq_append, ← List.cons_append, ← List.append_assoc] at h
    obtain ⟨hlog, hy⟩ := List.append_inj' h rfl
    rw [List.singleton_inj.mp hy]
    exact Or.inr ⟨rest, List.concat_eq_append .., hlog⟩

/-- A call is taken: the registry evolved, at most its own key was bound, and what was answered
is true of the registry. -/
theorem Sincere.takes (h : s.Sincere D) {i : Nat} {call : CaptureCall} {answer : Option Reply}
    {registry : Registry} (hcall : s.console.calls[i]? = some call)
    (hlater : s.Later { s with registry, log := s.log ++ [(i, answer)] })
    (hbinds : ∀ bound ∈ registry.capture_requests, bound ∈ s.registry.capture_requests ∨
      bound.idempotency_key = call.request.idempotency_key ∧
        Backed D { s with registry, log := s.log ++ [(i, answer)] } bound.idempotency_key)
    (hreceipt : ∀ receipt, answer = some (.receipt receipt) →
      Receipted D { s with registry, log := s.log ++ [(i, answer)] } i receipt)
    (hfailure : ∀ status_code code message details,
      answer = some (.error status_code code message details) → disposition code = .terminal →
      code ≠ text "integrity_error" →
      Unbound { s with registry, log := s.log ++ [(i, answer)] } call.request.idempotency_key) :
    Sincere D { s with registry, log := s.log ++ [(i, answer)] } where
  keys := hlater.keys
  backed bound hbound hdrawn := by
    rcases hbinds bound hbound with hold | ⟨-, hbacked⟩
    · exact (h.backed bound hold hdrawn).later hlater
    · exact hbacked
  receipts j receipt hentry := by
    rcases List.mem_append.mp hentry with hold | hnew
    · exact (h.receipts j receipt hold).later hlater
    · obtain ⟨rfl, heq⟩ := Prod.mk.inj (List.mem_singleton.mp hnew)
      exact hreceipt receipt heq.symm
  failures before after j status_code code message details hsplit hterminal hcode := by
    rcases snoc_eq_split hsplit with ⟨rfl, hlast, -⟩ | ⟨rest, rfl, hold⟩
    · obtain ⟨rfl, heq⟩ := Prod.mk.inj hlast
      exact ⟨call, hcall, Or.inl (hfailure status_code code message details heq.symm hterminal hcode)⟩
    · obtain ⟨failed, hfailed, hcases⟩ :=
        h.failures before rest j status_code code message details hold hterminal hcode
      refine ⟨failed, hfailed, ?_⟩
      -- the call that is taken has the key of the failed one, or leaves that key alone
      by_cases hsame : call.request.idempotency_key = failed.request.idempotency_key
      · exact Or.inr ⟨i, answer, call, List.mem_append_right _ (List.mem_singleton_self _), hcall,
          hsame⟩
      · refine hcases.imp (fun hunbound bound hbound => ?_)
          (Retaken.later hlater.toGrown fun entry hentry => List.mem_append_left _ hentry)
        rcases hbinds bound hbound with hbefore | ⟨hown, -⟩
        · exact hunbound bound hbefore
        · exact fun heq => hsame (hown.symm.trans heq)

/-- A failure that ends the workflow of a call: its key is not bound. -/
theorem Sincere.unbound (h : s.Sincere D) (hkeyed : s.Keyed D) {i : Nat} {call : CaptureCall}
    (hcall : s.console.calls[i]? = some call)
    (hnever : ∀ request hash row result, call.received D.library = some request →
      requestHash D.sha256 request = .ok hash →
      ¬ Registry.Bound D.layout s.registry request.idempotency_key hash row result) :
    s.Unbound call.request.idempotency_key := by
  intro bound hbound heq
  obtain ⟨j, answer, other, request, hash, row, result, -, hother, hreceived, hkey, hhash, hrow⟩ :=
    h.backed bound hbound (heq ▸ hkeyed.drawn i call hcall)
  have hsame : call.request.idempotency_key = other.request.idempotency_key := by
    rw [← heq, ← hkey, (CaptureCall.received_same hreceived).idempotency_key]
  rw [← hkey] at hrow
  exact hnever request hash row result
    ((hkeyed.agree i j call other hcall hother hsame).2.trans hreceived) hhash hrow

/-- Logging an answer and committing what evolved. -/
theorem later_of_evolves {i : Nat} {answer : Option Reply} {registry : Registry}
    (hevolves : s.registry.Evolves registry) (hkeys : registry.Keys) :
    s.Later { s with registry, log := s.log ++ [(i, answer)] } :=
  ⟨⟨fun _ _ hcall => hcall, fun _ hentry => List.mem_append_left _ hentry⟩, hevolves, hkeys⟩

/-- A call whose body is no request is refused. -/
theorem Sincere.refuses (h : s.Sincere D) (hkeyed : s.Keyed D) {i : Nat} {call : CaptureCall}
    (hcall : s.console.calls[i]? = some call) (hreceived : call.received D.library = none)
    (details : List Text) (fault : CaptureFault) :
    Sincere D { s with log := s.log ++ [(i, refusal details fault)] } := by
  refine h.takes hcall (later_of_evolves (Registry.Evolves.refl _) h.keys)
    (fun bound hbound => Or.inl hbound) (fun receipt heq => by cases fault <;> cases heq) ?_
  intro status_code code message sent heq hterminal hcode
  exact h.unbound hkeyed hcall fun request hash row result hsome => by
    rw [hreceived] at hsome
    cases hsome

/-- A capture is handled. -/
theorem Sincere.handles (h : s.Sincere D) (hkeyed : s.Keyed D) {i : Nat} {call : CaptureCall}
    {request : PreregisteredCaptureRequest} {fault : CaptureFault} {world : CaptureWorld}
    {registry : Registry} {answer : Option Reply} (hcall : s.console.calls[i]? = some call)
    (hreceived : call.received D.library = some request)
    (hhandled : handleCapture D.layout D.sha256 request fault world s.registry =
      some (registry, answer)) :
    Sincere D { s with registry, log := s.log ++ [(i, answer)] } := by
  have hkey := (CaptureCall.received_same hreceived).idempotency_key
  have hcaptures : ∀ result,
      (Registry.captureResult D.layout D.sha256 request world).run s.registry =
        (.ok result, registry) → s.registry.Evolves registry ∧ registry.Keys := by
    intro result hrun
    have hprogram : ((LedgerCall.capture request world).program D.libraries D.sha256).run
        s.registry = (.ok (), registry) := Registry.captureResult_captures hrun
    have hstep : LedgerCall.Step D.libraries D.sha256 s.registry (.capture request world)
        registry := by
      rw [LedgerCall.Step, LedgerCall.commit, hprogram]
    obtain ⟨hevolves, hkept, -⟩ := LedgerCall.run_evolves (Run.single hstep)
    exact ⟨hevolves, hkept h.keys⟩
  have hlater : s.Later { s with registry, log := s.log ++ [(i, answer)] } := by
    rcases handleCapture_registry hhandled with rfl | ⟨result, hrun⟩
    · exact later_of_evolves (Registry.Evolves.refl _) h.keys
    · exact later_of_evolves (hcaptures result hrun).1 (hcaptures result hrun).2
  refine h.takes hcall hlater ?_ ?_ ?_
  · intro bound hbound
    rcases handleCapture_registry hhandled with rfl | ⟨result, hrun⟩
    · exact Or.inl hbound
    · refine (Registry.captureResult_requests hrun bound hbound).imp_right fun hown => ?_
      obtain ⟨hash, row, hhash, hrow⟩ := Registry.captureResult_bound hlater.keys hrun
      refine ⟨hown.trans hkey, i, answer, call, request, hash, row, result,
        List.mem_append_right _ (List.mem_singleton_self _), hcall, hreceived, hown.symm, hhash, ?_⟩
      rw [hown]
      exact hrow
  · rintro receipt rfl
    obtain ⟨result, hrun, hresponse⟩ := handleCapture_receipt hhandled
    obtain ⟨hash, row, hhash, hrow⟩ := Registry.captureResult_bound hlater.keys hrun
    exact ⟨call, request, hash, row, result, hcall, hreceived, hhash, hrow, hresponse⟩
  · rintro status_code code message details rfl hterminal hcode
    obtain rfl := handleCapture_terminal hhandled hterminal
    refine h.unbound hkeyed hcall fun sent hash row result hsent hhash hrow => hcode ?_
    obtain rfl := Option.some.inj (hreceived.symm.trans hsent)
    exact handleCapture_bound hrow hhash hhandled hterminal

/-! ## What concluded workflows hold -/

/-- The receipt of the workflow is that of the prediction to which the registry binds the request
that was frozen for it. -/
def HoldsReceipt (D : Deployment) (s : Exchange π) (r : WorkflowRow) : Prop :=
  ∃ f request hash row result receipt json, r.frozen_request_json = some f ∧
    (Json.loads f).bind (PreregisteredCaptureRequest.modelValidate D.library) = some request ∧
    request.idempotency_key = r.idempotency_key ∧ requestHash D.sha256 request = .ok hash ∧
    Registry.Bound D.layout s.registry r.idempotency_key hash row result ∧
    captureResponse D.layout result = .ok receipt ∧ consoleJson receipt.modelDump = .ok json ∧
    r.capture_response_json = some json

/-- Another call of the workflow was taken after the one that failed with the code. -/
def Overtaken (s : Exchange π) (r : WorkflowRow) (code : Text) : Prop :=
  ∃ before after i status_code message details call,
    s.log = before ++ (i, some (.error status_code code message details)) :: after ∧
    s.console.calls[i]? = some call ∧ call.workflow_id = r.workflow_id ∧
    ∃ j answer later, (j, answer) ∈ after ∧ s.console.calls[j]? = some later ∧
      later.workflow_id = r.workflow_id

/-- The failure of the workflow ends it, and its key is not bound: but for an integrity error, or
another call of the workflow that was taken after the failure. -/
def HoldsFailure (s : Exchange π) (r : WorkflowRow) : Prop :=
  ∃ code, r.error_code = some code ∧ disposition code = .terminal ∧
    (code = text "integrity_error" ∨ s.Unbound r.idempotency_key ∨ s.Overtaken r code)

/-- The calls of a workflow carry its key, and are read as the request that was frozen for it. -/
def Belongs (D : Deployment) (s : Exchange π) (r : WorkflowRow) : Prop :=
  ∀ (i : Nat) call, s.console.calls[i]? = some call →
    (call.workflow_id = r.workflow_id ↔ call.request.idempotency_key = r.idempotency_key) ∧
      (call.workflow_id = r.workflow_id → ∃ f, r.frozen_request_json = some f ∧
        call.received D.library =
          (Json.loads f).bind (PreregisteredCaptureRequest.modelValidate D.library))

/-- A committed workflow holds its receipt. -/
theorem Concluded.holdsReceipt (hsincere : s.Sincere D) {r : WorkflowRow} (hr : s.Concluded r)
    (hcalls : s.Belongs D r) (hstate : r.state = .committed) : s.HoldsReceipt D r := by
  obtain ⟨receipt, json, ⟨i, call, hlog, hcall, hid⟩, hjson, hstored⟩ := hr.committed hstate
  obtain ⟨call', request, hash, row, result, hcall', hreceived, hhash, hbound, hresponse⟩ :=
    hsincere.receipts i receipt hlog
  obtain rfl := Option.some.inj (hcall.symm.trans hcall')
  obtain ⟨hkey, hfrozen⟩ := hcalls i call hcall
  obtain ⟨f, hf, hread⟩ := hfrozen hid
  have hsame := (CaptureCall.received_same hreceived).idempotency_key.trans (hkey.mp hid)
  rw [hsame] at hbound
  exact ⟨f, request, hash, row, result, receipt, json, hf, hread.symm.trans hreceived, hsame, hhash,
    hbound, hresponse, hjson, hstored⟩

/-- A failed workflow holds its failure. -/
theorem Concluded.holdsFailure (hsincere : s.Sincere D) (hkeyed : s.Keyed D) {r : WorkflowRow}
    (hr : s.Concluded r) (hcalls : s.Belongs D r) (hstate : r.state = .terminal_failure) :
    s.HoldsFailure r := by
  obtain ⟨code, details, ⟨i, call, status_code, message, sent, hlog, hcall, hid⟩, hterminal,
    hcode⟩ := hr.failed hstate
  refine ⟨code, hcode, hterminal, ?_⟩
  by_cases hintegrity : code = text "integrity_error"
  · exact Or.inl hintegrity
  · obtain ⟨before, after, hsplit⟩ := List.append_of_mem hlog
    obtain ⟨failed, hfailed, hcases⟩ := hsincere.failures before after i status_code code message
      sent hsplit hterminal hintegrity
    obtain rfl := Option.some.inj (hcall.symm.trans hfailed)
    refine Or.inr (hcases.imp (fun hunbound => ?_) fun hretaken => ?_)
    · rw [← (hcalls i call hcall).1.mp hid]
      exact hunbound
    · obtain ⟨j, answer, later, hentry, hlater, hkey⟩ := hretaken
      have hof := (hkeyed.agree j i later call hlater hcall hkey).1
      exact ⟨before, after, i, status_code, message, sent, call, hsplit, hcall, hid, j, answer,
        later, hentry, hlater, hof.trans hid⟩

/-- The key of a workflow is bound to nothing but the request that was frozen for it. -/
def BindsFrozen (D : Deployment) (s : Exchange π) (r : WorkflowRow) : Prop :=
  ∀ hash row, s.registry.capture? r.idempotency_key = some (hash, row) →
    ∃ f request, r.frozen_request_json = some f ∧
      (Json.loads f).bind (PreregisteredCaptureRequest.modelValidate D.library) = some request ∧
      requestHash D.sha256 request = .ok hash

/-- What the key of a workflow is bound to was frozen for it. -/
theorem Sincere.bindsFrozen (h : s.Sincere D) {r : WorkflowRow} (hcalls : s.Belongs D r)
    (hdrawn : IsDrawn D r.idempotency_key) : s.BindsFrozen D r := by
  intro hash row hfound
  obtain ⟨found, hbound, -⟩ := Option.bind_eq_some_iff.mp hfound
  obtain ⟨hmem, hkey⟩ := find?_key_some hbound
  obtain ⟨i, answer, call, request, hash', row', result, -, hcall, hreceived, hsent, hhash,
    hrow⟩ := h.backed found hmem (hkey ▸ hdrawn)
  have hown := hrow.bound
  rw [hkey, hfound] at hown
  obtain ⟨rfl, -⟩ := Prod.mk.inj (Option.some.inj hown)
  obtain ⟨hiff, hfrozen⟩ := hcalls i call hcall
  have hsame : call.request.idempotency_key = r.idempotency_key := by
    rw [← (CaptureCall.received_same hreceived).idempotency_key, hsent, hkey]
  obtain ⟨f, hf, hread⟩ := hfrozen (hiff.mpr hsame)
  exact ⟨f, request, hf, hread.symm.trans hreceived, hhash⟩

/-! ## Runs -/

/-- Other clients of the ledger bind no key that the console may draw. -/
def Spares (D : Deployment) (s : Exchange π) : ExchangeAction π → Prop
  | .ledger call => ∀ bound ∈ (call.commit D.libraries D.sha256 s.registry).capture_requests,
      bound ∈ s.registry.capture_requests ∨ ¬ IsDrawn D bound.idempotency_key
  | _ => True

/-- Nothing of another client is served. -/
def isOwn : ExchangeAction π → Bool
  | .ledger _ => false
  | _ => true

theorem spares_of_isOwn {e : ExchangeAction π} (h : isOwn e = true) : s.Spares D e := by
  cases e with
  | ledger => cases h
  | console | take | receive | lose => trivial

/-- The calls of a console carry the keys of their workflows, and what was frozen for them. -/
theorem keyed_of_console [DecidableEq π] (huuid : Function.Injective D.uuid)
    {trace : List (Console π × ConsoleAction π)}
    (h : Run (Console.Step D.library D.uuid) Console.initial trace s.console) : s.Keyed D := by
  obtain ⟨last, hsafe⟩ := Console.run_safe huuid h
  have hissued := Console.run_issued huuid h
  refine ⟨fun i call hcall => ?_, fun i j call call' hcall hcall' hsame => ?_⟩
  · obtain ⟨r, f, hseen, -, -, -, hkey⟩ := hsafe.calls call (List.mem_of_getElem? hcall)
    obtain ⟨n, -, hdrawn⟩ := hissued r hseen
    exact ⟨n + 1, hkey.trans hdrawn⟩
  · obtain ⟨r, f, hseen, hof, hfrozen, htext, hkey⟩ :=
      hsafe.calls call (List.mem_of_getElem? hcall)
    obtain ⟨r', f', hseen', hof', hfrozen', htext', hkey'⟩ :=
      hsafe.calls call' (List.mem_of_getElem? hcall')
    obtain ⟨n, hid, hdrawn⟩ := hissued r hseen
    obtain ⟨n', hid', hdrawn'⟩ := hissued r' hseen'
    have heq : text "console-" ++ D.uuid (n + 1) = text "console-" ++ D.uuid (n' + 1) := by
      rw [← hdrawn, ← hdrawn', ← hkey, ← hkey', hsame]
    obtain rfl : n = n' := Nat.succ.inj (huuid (List.append_cancel_left heq))
    have hone : r.workflow_id = r'.workflow_id := hid.trans hid'.symm
    obtain rfl := (hsafe.agree hseen hseen' hone).2 f f' hfrozen hfrozen'
    refine ⟨hof.symm.trans (hone.trans hof'), ?_⟩
    rw [CaptureCall.received_of_canonical htext, CaptureCall.received_of_canonical htext']

variable [DecidableEq π]

/-- Every step keeps the invariant. -/
theorem Sincere.step (h : s.Sincere D) (hkeyed : s.Keyed D) {e : ExchangeAction π}
    (hspares : s.Spares D e) (hstep : s.Step D e t) : t.Sincere D := by
  have hconsole : ∀ {action console} (ticket : π → Option Nat),
      s.console.Step D.library D.uuid action console →
        Sincere D { s with console, ticket } := by
    intro action console ticket hstep
    exact h.beside ⟨grown_console ticket hstep, Registry.Evolves.refl _, h.keys⟩ rfl
      (fun bound hbound => Or.inl hbound) hkeyed
  cases e with
  | console action =>
    simp only [Step, next, Option.ite_none_right_eq_some] at hstep
    obtain ⟨console, hnext, rfl⟩ := Option.map_eq_some_iff.mp hstep.2
    exact hconsole _ hnext
  | take i fault world details =>
    simp only [Step, next, Option.ite_none_left_eq_some] at hstep
    obtain ⟨call, hcall, htaken⟩ := Option.bind_eq_some_iff.mp hstep.2
    unfold take at htaken
    split at htaken
    · rename_i hreceived
      cases htaken
      exact h.refuses hkeyed hcall hreceived details fault
    · rename_i request hreceived
      obtain ⟨handled, hhandled, rfl⟩ := Option.map_eq_some_iff.mp htaken
      exact h.handles hkeyed hcall hreceived hhandled
  | receive p =>
    obtain ⟨found, -, hsettled⟩ := Option.bind_eq_some_iff.mp hstep
    obtain ⟨console, hnext, rfl⟩ := Option.map_eq_some_iff.mp hsettled
    exact hconsole _ hnext
  | lose p unexpected =>
    obtain ⟨console, hnext, rfl⟩ := Option.map_eq_some_iff.mp hstep
    exact hconsole _ hnext
  | ledger call =>
    cases hstep
    obtain ⟨hevolves, hkept, -⟩ := LedgerCall.run_evolves
      (Run.single (rfl : LedgerCall.Step D.libraries D.sha256 s.registry call _))
    exact h.beside ⟨⟨fun _ _ hcall => hcall, fun _ hentry => hentry⟩, hevolves, hkept h.keys⟩ rfl
      hspares hkeyed

/-- Every state that the two parties reach is sincere. -/
theorem run_sincere (huuid : Function.Injective D.uuid)
    {trace : List (Exchange π × ExchangeAction π)} (h : Run (Step D) initial trace s)
    (hspares : ∀ x ∈ trace, x.1.Spares D x.2) : s.Sincere D := by
  induction h with
  | nil => exact sincere_initial
  | @snoc s t trace e hrun hstep ih =>
    obtain ⟨trace', hconsole⟩ := run_console hrun
    exact (ih fun x hx => hspares x (List.mem_append_left _ hx)).step
      (keyed_of_console huuid hconsole) (hspares (s, e) (by simp)) hstep

/-! ## Agreement -/

/-- The calls of a workflow carry its key and what was frozen for it, and no other calls do. -/
theorem belongs_of_console (huuid : Function.Injective D.uuid)
    {trace : List (Console π × ConsoleAction π)}
    (h : Run (Console.Step D.library D.uuid) Console.initial trace s.console) {r : WorkflowRow}
    (hr : r ∈ s.console.rows) : s.Belongs D r := by
  intro i call hcall
  obtain ⟨last, hsafe⟩ := Console.run_safe huuid h
  have hissued := Console.run_issued huuid h
  obtain ⟨sent, f, hseen, hof, hfrozen, htext, hkey⟩ :=
    hsafe.calls call (List.mem_of_getElem? hcall)
  obtain ⟨n, hid, hdrawn⟩ := hissued r (Or.inr hr)
  obtain ⟨m, hid', hdrawn'⟩ := hissued sent hseen
  refine ⟨⟨fun hsame => ?_, fun hsame => ?_⟩, fun hsame => ?_⟩
  · exact hkey.trans (hsafe.agree hseen (Or.inr hr) (hof.trans hsame)).1
  · rw [hkey, hdrawn, hdrawn'] at hsame
    obtain rfl : m = n := Nat.succ.inj (huuid (List.append_cancel_left hsame))
    exact hof.symm.trans (hid'.trans hid.symm)
  · obtain ⟨now, hnow, hkept⟩ := hsafe.database.history.kept sent hseen
    rw [hof, hsame, hsafe.database.history.current r hr] at hnow
    obtain rfl := Option.some.inj hnow
    exact ⟨f, hkept.request f hfrozen, CaptureCall.received_of_canonical htext⟩

/-- Whatever processes die, whichever answers are lost and however late calls are taken: the key of
a workflow is bound to nothing but the request frozen for it; a committed workflow holds the receipt
of the prediction it is bound to; the key of a workflow that failed for good is not bound, but for
an integrity error or a call that was taken after the one that failed; and no two workflows have one
prediction. -/
theorem agreement (huuid : Function.Injective D.uuid)
    {trace : List (Exchange π × ExchangeAction π)} (h : Run (Step D) initial trace s)
    (hspares : ∀ x ∈ trace, x.1.Spares D x.2) :
    (∀ r ∈ s.console.rows, s.BindsFrozen D r ∧ (r.state = .committed → s.HoldsReceipt D r) ∧
      (r.state = .terminal_failure → s.HoldsFailure r)) ∧
    ∀ r ∈ s.console.rows, ∀ r' ∈ s.console.rows, ∀ hash row hash' row',
      s.registry.capture? r.idempotency_key = some (hash, row) →
      s.registry.capture? r'.idempotency_key = some (hash', row') →
      row.prediction_id = row'.prediction_id → r = r' := by
  obtain ⟨trace', hconsole⟩ := run_console h
  obtain ⟨last, hsafe⟩ := Console.run_safe huuid hconsole
  have hissued := Console.run_issued huuid hconsole
  have hsincere := run_sincere huuid h hspares
  have hhonest := run_honest huuid h
  have hkeyed : s.Keyed D := keyed_of_console huuid hconsole
  refine ⟨fun r hr => ?_, ?_⟩
  · obtain ⟨n, -, hdrawn⟩ := hissued r (Or.inr hr)
    have hcalls := belongs_of_console huuid hconsole hr
    have hconcluded := hhonest.rows r hr
    exact ⟨hsincere.bindsFrozen hcalls ⟨n + 1, hdrawn⟩, hconcluded.holdsReceipt hsincere hcalls,
      hconcluded.holdsFailure hsincere hkeyed hcalls⟩
  · intro r hr r' hr' hash row hash' row' hfound hfound' hprediction
    obtain ⟨n, hid, hkey⟩ := hissued r (Or.inr hr)
    obtain ⟨n', hid', hkey'⟩ := hissued r' (Or.inr hr')
    have hsame := Registry.capture?_unique hsincere.keys hfound hfound' hprediction
    rw [hkey, hkey'] at hsame
    obtain rfl : n = n' := Nat.succ.inj (huuid (List.append_cancel_left hsame))
    exact hsafe.database.keys.eq hr hr' (hid.trans hid'.symm)

/-! ## A call that is taken late -/

/-- One deployment. -/
def sampleDeployment : Deployment where
  library := Console.sampleConsoleLibrary
  uuid := Console.sampleUuid
  isWord := Char.isAlphanum
  layout := sampleLayout
  libraries := Registry.sampleLibraries
  sha256 := fun _ => Registry.sampleDigest

/-- A workflow up to its first call, that no answer comes back to, and the call of its retry. -/
def sampleCalls : List (ExchangeAction Unit) :=
  let id := Console.sampleUuid 0
  let user := text "user@example.com"
  let request r n := Console.transacted (.begin () r Console.sampleStore) n
  (request (.store (.create_workflow user (text "momentum") (text "finance/strategy-edge:1"))) 2 ++
    request (.store (.begin_extraction id user none)) 3 ++
    request (.store (.finish_extraction id user (.ready Console.sampleProposal))) 3 ++
    request (.confirm id user (.input Console.sampleInput) none) 4 ++
    [ConsoleAction.send ()]).map .console ++
  [.lose () false] ++
  (Console.transacted (.record () Console.sampleStore) 3 ++
    request (.retry id user none) 3 ++ [ConsoleAction.send ()]).map .console

/-- The answer to the retry is received and recorded. -/
def sampleAnswered : List (ExchangeAction Unit) :=
  [.receive ()] ++ (Console.transacted (.record () Console.sampleStore) 3).map .console

/-- The schema cannot be loaded for a while. -/
def schemalessWorld : CaptureWorld :=
  { Registry.sampleWorld with
    schemas := ⟨fun _ => .error (.schemaNotFoundError (text "unknown schema")), fun _ _ => []⟩ }

/-- Both calls are taken in order. -/
def committedActions : List (ExchangeAction Unit) :=
  sampleCalls ++ [.take 0 .none Registry.sampleWorld [], .take 1 .none Registry.sampleWorld []] ++
    sampleAnswered

/-- The retry is refused, and the first call is taken after it. -/
def overtakenActions : List (ExchangeAction Unit) :=
  sampleCalls ++ [.take 1 .none schemalessWorld []] ++ sampleAnswered ++
    [.take 0 .none Registry.sampleWorld []]

/-- The two parties after the actions. -/
def sampleExchange (actions : List (ExchangeAction Unit)) : Option (Exchange Unit) :=
  follow (fun s e => s.next sampleDeployment e) initial actions

theorem sampleExchange_run {actions : List (ExchangeAction Unit)} {s : Exchange Unit}
    (hown : actions.all isOwn = true)
    (h : sampleExchange actions = some s) :
    ∃ trace, Run (Step sampleDeployment) initial trace s ∧
      ∀ x ∈ trace, x.1.Spares sampleDeployment x.2 := by
  obtain ⟨trace, hrun, hlabels⟩ := Run.of_follow h
  refine ⟨trace, hrun, fun x hx => spares_of_isOwn ?_⟩
  refine List.all_eq_true.mp hown x.2 ?_
  rw [← hlabels]
  exact List.mem_map_of_mem hx

theorem committedActions_ends : (sampleExchange committedActions).map
    (fun s => s.console.rows.map WorkflowRow.state) = some [.committed] := by
  decide +kernel

theorem overtakenActions_ends : (sampleExchange overtakenActions).map (fun s =>
    ((s.console.rows.map WorkflowRow.state, s.console.rows.map WorkflowRow.error_code),
      s.console.rows.map WorkflowRow.idempotency_key,
      s.registry.capture_requests.map CaptureRequestRow.idempotency_key)) =
    some (([.terminal_failure], [some (text "schema_not_found")]),
      [text "console-" ++ Console.sampleUuid 1], [text "console-" ++ Console.sampleUuid 1]) := by
  decide +kernel

theorem agreement_sample :
    (∃ s r, sampleExchange committedActions = some s ∧ r ∈ s.console.rows ∧
      r.state = .committed ∧ s.HoldsReceipt sampleDeployment r) ∧
    ∃ s r, sampleExchange overtakenActions = some s ∧ r ∈ s.console.rows ∧
      r.state = .terminal_failure ∧ s.Overtaken r (text "schema_not_found") ∧
      ¬ s.Unbound r.idempotency_key := by
  constructor
  · obtain ⟨s, hs, hstates⟩ := Option.map_eq_some_iff.mp committedActions_ends
    obtain ⟨r, hr, hstate⟩ : ∃ r ∈ s.console.rows, r.state = .committed :=
      List.mem_map.mp (hstates ▸ List.mem_singleton_self _)
    obtain ⟨trace, hrun, hspares⟩ := sampleExchange_run rfl hs
    exact ⟨s, r, hs, hr, hstate,
      ((agreement Console.sampleUuid_injective hrun hspares).1 r hr).2.1 hstate⟩
  · obtain ⟨s, hs, hends⟩ := Option.map_eq_some_iff.mp overtakenActions_ends
    obtain ⟨hrows, hkeys⟩ := Prod.mk.inj hends
    obtain ⟨hstates, hcodes⟩ := Prod.mk.inj hrows
    obtain ⟨hdrawn, hbounds⟩ := Prod.mk.inj hkeys
    obtain ⟨r, hrow, hstate⟩ := List.map_eq_singleton_iff.mp hstates
    have hr : r ∈ s.console.rows := hrow ▸ List.mem_singleton_self r
    rw [hrow] at hcodes hdrawn
    have hcode : r.error_code = some (text "schema_not_found") := List.singleton_inj.mp hcodes
    have hkey : r.idempotency_key = text "console-" ++ Console.sampleUuid 1 :=
      List.singleton_inj.mp hdrawn
    obtain ⟨bound, hbound, hsame⟩ := List.map_eq_singleton_iff.mp hbounds
    have hthere : ¬ s.Unbound r.idempotency_key := fun hunbound =>
      hunbound bound (hbound ▸ List.mem_singleton_self bound) (hsame.trans hkey.symm)
    obtain ⟨trace, hrun, hspares⟩ := sampleExchange_run rfl hs
    obtain ⟨code, hfailed, -, hcases⟩ :=
      ((agreement Console.sampleUuid_injective hrun hspares).1 r hr).2.2 hstate
    obtain rfl := Option.some.inj (hcode.symm.trans hfailed)
    rcases hcases with hintegrity | hunbound | hovertaken
    · exact absurd hintegrity (by decide)
    · exact absurd hunbound hthere
    · exact ⟨s, r, hs, hr, hstate, hovertaken, hthere⟩

end Exchange

end Pine
