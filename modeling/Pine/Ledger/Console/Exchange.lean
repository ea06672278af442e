import Pine.Ledger.Console.Backend
import Pine.Ledger.Console.FrozenWorkflow

/-!
# The console and the capture backend

Both parties with the messages between them. A call that was sent may reach the backend at any
later time, once, whatever became of the process that sent it; an answer may be lost. The backend
serves other clients in between, and processes of the console only record what they received.
-/

namespace Pine

open Workflows

/-! ## The two parties -/

/-- What the two parties run with. -/
structure Deployment where
  library : ConsoleLibrary
  uuid : Nat → Text
  isWord : Char → Bool
  layout : Layout
  libraries : Libraries
  sha256 : Text → Text

/-- The console and the registry, the call that each process waits for, and the calls that the
backend has taken, in order, with its answers. -/
structure Exchange (π : Type) where
  console : Console π
  ticket : π → Option Nat
  registry : Registry
  log : List (Nat × Option Reply)

/-- Captures are only recorded by a submission. -/
def StoreOperation.isOffered : StoreOperation → Bool
  | record_capture_response _ _ _ | record_capture_failure _ _ _ _ _ => false
  | _ => true

/-- The requests that the service offers. -/
def ServiceRequest.isOffered : ServiceRequest → Bool
  | store operation => operation.isOffered
  | _ => true

/-- What the console does by itself. -/
def ConsoleAction.isOwn {π : Type} : ConsoleAction π → Bool
  | begin _ request _ => request.isOffered
  | settle _ _ => false
  | _ => true

/-- What can happen to the two parties: a step of the console, the backend takes a call, a process
receives the answer to its call or gives up on it, or another client of the ledger is served. -/
inductive ExchangeAction (π : Type) where
  | console (action : ConsoleAction π)
  | take (call : Nat) (fault : CaptureFault) (world : CaptureWorld) (details : List Text)
  | receive (process : π)
  | lose (process : π) (unexpected : Bool)
  | ledger (call : LedgerCall)

namespace Exchange

variable {π : Type}

/-- An idle console and an empty registry. -/
def initial : Exchange π := ⟨Console.initial, fun _ => none, Registry.empty, []⟩

/-- The request of the call that a process waits for, and its answer. -/
def answered (s : Exchange π) (p : π) : Option (PreregisteredCaptureRequest × Reply) := do
  let i ← s.ticket p
  let call ← s.console.calls[i]?
  let entry ← s.log.find? (·.1 == i)
  let reply ← entry.2
  return (call.request, reply)

/-- The answer that a process receives is that of the call it waits for. -/
theorem answered_some {s : Exchange π} {p : π} {found : PreregisteredCaptureRequest × Reply}
    (h : s.answered p = some found) : ∃ i call, s.ticket p = some i ∧
      s.console.calls[i]? = some call ∧ (i, some found.2) ∈ s.log ∧ found.1 = call.request := by
  obtain ⟨i, hi, hrest⟩ := Option.bind_eq_some_iff.mp h
  obtain ⟨call, hcall, hrest⟩ := Option.bind_eq_some_iff.mp hrest
  obtain ⟨entry, hentry, hrest⟩ := Option.bind_eq_some_iff.mp hrest
  obtain ⟨reply, hreply, hreturn⟩ := Option.bind_eq_some_iff.mp hrest
  cases hreturn
  have hfirst := List.find?_some (p := fun logged : Nat × Option Reply => logged.1 == i) hentry
  refine ⟨i, call, hi, hcall, ?_, rfl⟩
  rw [← beq_iff_eq.mp hfirst, ← hreply]
  exact List.mem_of_find?_eq_some hentry

variable [DecidableEq π]

/-! ## Steps -/

/-- A process that sends a call waits for it. -/
def ticketAfter (s : Exchange π) : ConsoleAction π → π → Option Nat
  | .send p => Function.update s.ticket p (some s.console.calls.length)
  | _ => s.ticket

/-- The backend takes a call: its body is validated, and the capture handled. -/
def take (D : Deployment) (s : Exchange π) (i : Nat) (fault : CaptureFault) (world : CaptureWorld)
    (details : List Text) (call : CaptureCall) : Option (Exchange π) :=
  match call.received D.library with
  | none => some { s with log := s.log ++ [(i, refusal details fault)] }
  | some request =>
    (handleCapture D.layout D.sha256 request fault world s.registry).map fun handled =>
      { s with registry := handled.1, log := s.log ++ [(i, handled.2)] }

/-- The step that an action takes, when it is enabled. -/
def next (D : Deployment) (s : Exchange π) : ExchangeAction π → Option (Exchange π)
  | .console action =>
    if action.isOwn then (s.console.next D.library D.uuid action).map fun console =>
      { s with console, ticket := s.ticketAfter action }
    else none
  | .take i fault world details =>
    if s.log.any (·.1 == i) then none
    else s.console.calls[i]?.bind (s.take D i fault world details)
  | .receive p => (s.answered p).bind fun found =>
    (s.console.next D.library D.uuid
      (.settle p (clientCapture D.isWord found.1 found.2))).map fun console => { s with console }
  | .lose p unexpected =>
    (s.console.next D.library D.uuid
      (.settle p (if unexpected then .exception else .backendError))).map fun console =>
        { s with console }
  | .ledger call => some { s with registry := call.commit D.libraries D.sha256 s.registry }

/-- The two parties as a transition system. -/
def Step (D : Deployment) (s : Exchange π) (e : ExchangeAction π) (t : Exchange π) : Prop :=
  s.next D e = some t

/-! ## The console in it -/

/-- The step of the console behind an action. -/
def consoleAction (D : Deployment) (s : Exchange π) : ExchangeAction π → Option (ConsoleAction π)
  | .console action => some action
  | .receive p => (s.answered p).map fun found =>
    .settle p (clientCapture D.isWord found.1 found.2)
  | .lose p unexpected => some (.settle p (if unexpected then .exception else .backendError))
  | _ => none

variable {D : Deployment} {s t : Exchange π}

theorem Step.console {e : ExchangeAction π} (h : s.Step D e t) :
    (s.consoleAction D e = none ∧ t.console = s.console) ∨
      ∃ action, s.consoleAction D e = some action ∧
        s.console.Step D.library D.uuid action t.console := by
  cases e with
  | console action =>
    simp only [Step, next, Option.ite_none_right_eq_some] at h
    obtain ⟨console, hconsole, rfl⟩ := Option.map_eq_some_iff.mp h.2
    exact Or.inr ⟨action, rfl, hconsole⟩
  | take i fault world details =>
    simp only [Step, next, Option.ite_none_left_eq_some] at h
    obtain ⟨call, -, htaken⟩ := Option.bind_eq_some_iff.mp h.2
    refine Or.inl ⟨rfl, ?_⟩
    unfold take at htaken
    split at htaken
    · cases htaken
      rfl
    · obtain ⟨handled, -, rfl⟩ := Option.map_eq_some_iff.mp htaken
      rfl
  | receive p =>
    obtain ⟨found, hfound, hsettled⟩ := Option.bind_eq_some_iff.mp h
    obtain ⟨console, hconsole, rfl⟩ := Option.map_eq_some_iff.mp hsettled
    refine Or.inr ⟨_, ?_, hconsole⟩
    rw [consoleAction, hfound]
    rfl
  | lose p unexpected =>
    obtain ⟨console, hconsole, rfl⟩ := Option.map_eq_some_iff.mp h
    exact Or.inr ⟨_, rfl, hconsole⟩
  | ledger call =>
    cases h
    exact Or.inl ⟨rfl, rfl⟩

/-- The console of a run runs by itself. -/
theorem run_console {trace : List (Exchange π × ExchangeAction π)}
    (h : Run (Step D) initial trace s) :
    ∃ trace', Run (Console.Step D.library D.uuid) Console.initial trace' s.console :=
  ⟨_, h.simulate Exchange.console (consoleAction D) (fun _ => True) (fun _ _ _ _ _ => trivial)
    (fun _ _ _ _ hstep => hstep.console) trivial⟩

end Exchange

end Pine
