import Pine.Ledger.External.Imports
import Pine.Ledger.Results.Permanence
import Pine.Ledger.Run.Retry

/-!
# Imported runs are never executed

The wrapper processes together with the transactions of all services: requests to the
run service under any key, ingestions, captures and everything else, in any order. No
process ever works on an imported run, and nothing changes one.
-/

namespace Pine

/-- The operations that other services run as they are. -/
def LedgerCall.admitted : LedgerCall → Bool
  | operations ops => ops.all Registry.Operation.isForeign
  | _ => true

/-- What happens in the system. -/
inductive ServiceAction (π : Type) where
  | request (process : π) (call : RunCall) (world : PrepareWorld)
  | move (process : π) (move : Wrappers.Move)
  | serve (call : LedgerCall)

namespace Wrappers

variable {π : Type} [DecidableEq π]

/-- `run_preregistered`, `run_exploratory`: the run that was prepared is executed. -/
def request (sha256 : Text → Text) (s : Wrappers π) (p : π) (call : RunCall)
    (world : PrepareWorld) : Option (Wrappers π) :=
  match s.phase p, (call.prepare sha256 world).run s.registry with
  | .idle, (.ok run_id, registry) => some ((s.commit registry).enter p (.called run_id))
  | .idle, (.error _, _) => some s
  | _, _ => none

/-- One step of the system. A process executes what it prepared and nothing else. -/
def serviceStep (V : Libraries) (sha256 : Text → Text) (s : Wrappers π) :
    ServiceAction π → Option (Wrappers π)
  | .request p call world => s.request sha256 p call world
  | .move _ (.call _) => none
  | .move p m => s.advance sha256 p m (s.phase p)
  | .serve call =>
    if call.admitted then some (s.commit (call.commit V sha256 s.registry)) else none

/-- The step relation. -/
def ServiceStep (V : Libraries) (sha256 : Text → Text) (s : Wrappers π) (a : ServiceAction π)
    (t : Wrappers π) : Prop :=
  s.serviceStep V sha256 a = some t

variable {V : Libraries} {sha256 : Text → Text} {s t : Wrappers π}

/-! ## Moves -/

/-- A phase that returns a result returns that of its run. -/
def ReportsOwn : Phase → Prop
  | .releasing run_id (.ok r) | .returning run_id (.ok r) => r.run_id = run_id
  | _ => True

theorem runResult_run_id {run : RunRow} {binding : RunBindingRow} {executed : Bool} {r : RunResult}
    (h : runResult sha256 run binding executed = .ok r) : r.run_id = run.run_id := by
  obtain ⟨_, -, h⟩ := bind_eq_ok.mp h
  obtain ⟨_, -, h⟩ := bind_eq_ok.mp h
  obtain ⟨_, -, h⟩ := bind_eq_ok.mp h
  obtain ⟨_, -, h⟩ := bind_eq_ok.mp h
  obtain ⟨_, -, h⟩ := bind_eq_ok.mp h
  cases h
  rfl

/-- A settled run reports itself. -/
theorem alreadySettled_run_id {db : Registry} {run_id : Text} {r : RunResult}
    (h : alreadySettled sha256 db run_id = some (.ok r)) : r.run_id = run_id := by
  unfold alreadySettled at h
  split at h
  · rename_i run binding hrun hbinding
    split at h
    · rw [runResult_run_id (Option.some.inj h), (Registry.run?_some hrun).2]
    · cases h
  · cases Option.some.inj h

theorem afterRecorded_run_id {db : Registry} {run_id : Text} {executed : Bool} {r : RunResult}
    (h : afterRecorded sha256 db run_id executed = .ok r) : r.run_id = run_id := by
  unfold afterRecorded at h
  split at h
  · rename_i run binding hrun hbinding
    rw [runResult_run_id h, (Registry.run?_some hrun).2]
  · cases h
  · cases h

/-- What a move of a process does: it commits operations that import nothing, stays with its run,
and invokes the executor for no other. -/
structure Stays (sha256 : Text → Text) (s t : Wrappers π) (p : π) (phase : Phase) : Prop where
  commits : Registry.Commits sha256 Registry.Operation.isNative s.registry t.registry
  next : ∃ next, t.phase = Function.update s.phase p next ∧
    (∀ run_id, next.run? = some run_id → phase.run? = some run_id) ∧
    (ReportsOwn phase → ReportsOwn next)
  invoked : ∀ i ∈ t.invoked, i ∈ s.invoked ∨ phase.run? = some i.run_id

/-- A process enters a phase of its run. -/
theorem Stays.enter (s : Wrappers π) (p : π) {phase next : Phase}
    (hrun : ∀ run_id, next.run? = some run_id → phase.run? = some run_id)
    (hown : ReportsOwn phase → ReportsOwn next) : Stays sha256 s (s.enter p next) p phase where
  commits := .nothing _ _
  next := ⟨next, rfl, hrun, hown⟩
  invoked _ hi := .inl hi

theorem afterInspect_own (db : Registry) (run_id : Text) :
    ReportsOwn (afterInspect sha256 db run_id) := by
  unfold afterInspect
  split
  · rename_i result hsettled
    cases result with
    | ok r => exact alreadySettled_run_id hsettled
    | error e => trivial
  · unfold afterUnsettled
    split
    · trivial
    · split <;> trivial
  · trivial

theorem Stays.of_advance {p : π} {m : Move} {phase : Phase}
    (h : s.advance sha256 p m phase = some t) (hcall : ∀ run_id, m ≠ .call run_id) :
    Stays sha256 s t p phase := by
  unfold Wrappers.advance at h
  split at h
  · exact absurd rfl (hcall _)
  · rename_i run_id
    cases h
    refine .enter s p ?_ fun _ => ?_
    · unfold afterRead
      split <;> exact fun _ hrun => hrun
    · unfold afterRead
      split
      · rename_i result hsettled
        cases result with
        | ok r => exact alreadySettled_run_id hsettled
        | error e => trivial
      · trivial
  · cases h
    unfold Wrappers.acquire
    split
    · exact ⟨.nothing _ _, ⟨_, rfl, fun _ hrun => hrun, fun _ => trivial⟩, fun _ hi => .inl hi⟩
    · exact .enter s p (fun _ hrun => hrun) fun _ => trivial
  · rename_i run_id
    cases h
    refine .enter s p (fun id hrun => ?_) fun _ => afterInspect_own _ _
    rcases (afterInspect_sound sha256 s.registry run_id []).1 with hholds | hidle
    · exact (run?_of_holds hholds).symm.trans hrun
    · rw [hidle] at hrun
      cases hrun
  · rename_i started_at prepared
    cases h
    unfold Wrappers.start
    split
    · rename_i u db hrun
      exact ⟨.one (.start_run prepared.run_id started_at) trivial hrun,
        ⟨_, rfl, fun _ hrun => hrun, fun _ => trivial⟩, fun _ hi => .inl hi⟩
    · exact .enter s p (fun _ hrun => hrun) fun _ => trivial
  · rename_i prepared
    cases h
    unfold Wrappers.invoke
    split
    · refine ⟨.nothing _ _, ⟨_, rfl, fun _ hrun => hrun, fun _ => trivial⟩, fun i hi => ?_⟩
      rcases List.mem_append.mp hi with hi | hi
      · exact .inl hi
      · obtain rfl := List.mem_singleton.mp hi
        exact .inr rfl
    · exact .enter s p (fun _ hrun => hrun) fun _ => trivial
  · split at h
    · cases h
    · cases h
      exact .enter s p (fun _ hrun => hrun) fun _ => trivial
  · rename_i completed_at run_id ending
    cases h
    unfold Wrappers.finish
    split
    · rename_i u db hrun
      refine ⟨.one (.finish_run run_id completed_at _ _) trivial hrun,
        ⟨_, rfl, ?_, fun _ => ?_⟩, fun _ hi => .inl hi⟩
      · split <;> exact fun _ hrun => hrun
      · split <;> trivial
    · exact .enter s p (fun _ hrun => hrun) fun _ => trivial
  · rename_i run_id executed
    cases h
    refine .enter s p (fun _ hrun => hrun) fun _ => ?_
    cases hresult : afterRecorded sha256 s.registry run_id executed with
    | ok r => exact afterRecorded_run_id hresult
    | error e => trivial
  · rename_i run_id result
    cases h
    refine ⟨.nothing _ _, ⟨_, rfl, fun _ hrun => hrun, fun hown => ?_⟩, fun _ hi => .inl hi⟩
    cases result <;> exact hown
  · cases h
    exact .enter s p (fun _ hrun => by cases hrun) fun _ => trivial
  · obtain ⟨next, hnext, rfl⟩ := Option.map_eq_some_iff.mp h
    refine .enter s p (fun id hrun => ?_) fun _ => ?_
    · cases phase <;> cases hnext <;> exact hrun
    · cases phase <;> cases hnext <;> trivial
  · cases h
    exact ⟨.nothing _ _, ⟨_, rfl, (fun _ hrun => by cases hrun), fun _ => trivial⟩,
      fun _ hi => .inl hi⟩
  · cases h

/-! ## The invariant -/

/-- The wrapper processes are apart from the imports. -/
structure Apart (L : EvidenceLibrary) (sha256 : Text → Text) (s : Wrappers π) : Prop where
  imports : s.registry.Imports L sha256
  phases : ∀ p run_id, (s.phase p).run? = some run_id → s.registry.Native run_id
  reports : ∀ p, ReportsOwn (s.phase p)
  invoked : ∀ i ∈ s.invoked, s.registry.Native i.run_id

omit [DecidableEq π] in
theorem apart_initial (L : EvidenceLibrary) : Apart L sha256 (initial : Wrappers π) where
  imports := Registry.imports_empty
  phases _ _ h := by cases h
  reports _ := trivial
  invoked _ h := by cases h

omit [DecidableEq π] in
/-- A transaction that imports no stored run keeps the processes apart from the imports. -/
theorem Apart.commit {L : EvidenceLibrary} {db : Registry} (h : Apart L sha256 s)
    (himports : db.Imports L sha256) (hevolves : s.registry.Evolves db)
    (hnew : ∀ i ∈ db.external_run_imports, i ∈ s.registry.external_run_imports ∨
      i.run_id ∉ s.registry.runs.map RunRow.run_id) : Apart L sha256 (s.commit db) where
  imports := himports
  phases p run_id hrun := (h.phases p run_id hrun).evolves hevolves hnew
  reports := h.reports
  invoked i hi := (h.invoked i hi).evolves hevolves hnew

/-- A move keeps the processes apart from the imports. -/
theorem Apart.stays {L : EvidenceLibrary} {p : π} (h : Apart L sha256 s)
    (hstays : Stays sha256 s t p (s.phase p)) : Apart L sha256 t := by
  obtain ⟨himports, hsame⟩ := h.imports.commits hstays.commits
  have hcommit := h.commit himports hstays.commits.evolves.1 hsame.no_new
  obtain ⟨next, hphase, hrun, hown⟩ := hstays.next
  refine ⟨himports, fun q run_id hq => ?_, fun q => ?_, fun i hi => ?_⟩
  · rw [hphase, Function.update_apply] at hq
    split at hq
    · exact hcommit.phases p run_id (hrun run_id hq)
    · exact hcommit.phases q run_id hq
  · rw [hphase, Function.update_apply]
    split
    · exact hown (h.reports p)
    · exact h.reports q
  · rcases hstays.invoked i hi with hold | hnew
    · exact hcommit.invoked i hold
    · exact hcommit.phases p i.run_id hnew

/-- A request keeps the processes apart from the imports. -/
theorem Apart.request (hsha : Function.Injective sha256) {L : EvidenceLibrary} {p : π}
    {call : RunCall} {world : PrepareWorld} (h : Apart L sha256 s)
    (hstep : s.request sha256 p call world = some t) : Apart L sha256 t := by
  unfold Wrappers.request at hstep
  split at hstep
  · rename_i run_id db hidle hprepare
    cases hstep
    obtain ⟨himports, hsame, hevolves, hnative⟩ := h.imports.prepare hsha hprepare
    have hcommit := h.commit himports hevolves hsame.no_new
    refine ⟨himports, fun q id hq => ?_, fun q => ?_, hcommit.invoked⟩
    · rw [enter_phase] at hq
      split at hq
      · obtain rfl := Option.some.inj hq
        exact hnative
      · exact hcommit.phases q id hq
    · rw [enter_phase]
      split
      · trivial
      · exact h.reports q
  · cases hstep
    exact h
  · cases hstep

end Wrappers

/-- An operation that other services run is no import. -/
theorem Registry.Operation.isNative_of_isForeign {op : Registry.Operation}
    (h : op.isForeign = true) : op.isNative := by
  cases op <;> trivial

/-- A call of a service keeps the imports, and imports no stored run. -/
theorem LedgerCall.commit_imports {V : Libraries} {sha256 : Text → Text} {db : Registry}
    (h : db.Imports V.external sha256) {call : LedgerCall} (hadmitted : call.admitted = true) :
    (call.commit V sha256 db).Imports V.external sha256 ∧
      db.Evolves (call.commit V sha256 db) ∧
      ∀ i ∈ (call.commit V sha256 db).external_run_imports, i ∈ db.external_run_imports ∨
        i.run_id ∉ db.runs.map RunRow.run_id := by
  have hnative {db' : Registry} (hcommits : Registry.Commits sha256 Registry.Operation.isNative
      db db') : db'.Imports V.external sha256 ∧ db.Evolves db' ∧
        ∀ i ∈ db'.external_run_imports, i ∈ db.external_run_imports ∨
          i.run_id ∉ db.runs.map RunRow.run_id := by
    obtain ⟨himports, hsame⟩ := h.commits hcommits
    exact ⟨himports, hcommits.evolves.1, hsame.no_new⟩
  unfold commit
  split
  · rename_i u db' hrun
    cases call with
    | operations ops =>
      refine hnative ⟨ops, fun op hop => ?_, hrun⟩
      exact Registry.Operation.isNative_of_isForeign (List.all_eq_true.mp hadmitted op hop)
    | capture request world => exact hnative ((Registry.captureTransaction_commits hrun).mono fun _ hop => hop.isNative)
    | prepare_run call world =>
      obtain ⟨_, _, hprepare, hreturn⟩ := Program.run_bind_ok.mp hrun
      obtain ⟨-, rfl⟩ := Program.run_pure_ok.mp hreturn
      exact hnative (Registry.prepare_commits hprepare)
    | ingest_external e world =>
      obtain ⟨_, _, hingest, hreturn⟩ := Program.run_bind_ok.mp hrun
      obtain ⟨-, rfl⟩ := Program.run_pure_ok.mp hreturn
      obtain ⟨himports, hnew, -⟩ := h.ingest hingest
      exact ⟨himports, (Registry.ingestExternalRun_commits hingest).evolves.1, hnew⟩
    | ingest_result e now =>
      obtain ⟨_, _, hingest, hreturn⟩ := Program.run_bind_ok.mp hrun
      obtain ⟨-, rfl⟩ := Program.run_pure_ok.mp hreturn
      exact hnative ((Registry.ingestEvidence_commits hingest).mono fun _ hop => hop.isNative)
  · exact ⟨h, Registry.Evolves.refl db, fun _ hi => .inl hi⟩

namespace Wrappers

variable {π : Type} [DecidableEq π] {V : Libraries} {sha256 : Text → Text} {s t : Wrappers π}

/-- Every step keeps the processes apart from the imports. -/
theorem Apart.step (hsha : Function.Injective sha256) {a : ServiceAction π}
    (h : Apart V.external sha256 s) (hstep : ServiceStep V sha256 s a t) :
    Apart V.external sha256 t ∧ s.registry.Evolves t.registry := by
  cases a with
  | request p call world =>
    refine ⟨h.request hsha hstep, ?_⟩
    change s.request sha256 p call world = some t at hstep
    unfold Wrappers.request at hstep
    split at hstep
    · rename_i run_id db hidle hprepare
      cases hstep
      exact (Registry.prepare_commits hprepare).evolves.1
    · cases hstep
      exact Registry.Evolves.refl _
    · cases hstep
  | move p m =>
    have hmove : (∀ run_id, m ≠ .call run_id) ∧ s.advance sha256 p m (s.phase p) = some t := by
      cases m with
      | call run_id => cases hstep
      | _ => exact ⟨nofun, hstep⟩
    have hstays := Stays.of_advance hmove.2 hmove.1
    exact ⟨h.stays hstays, hstays.commits.evolves.1⟩
  | serve call =>
    change (if call.admitted then _ else none) = some t at hstep
    split at hstep
    · rename_i hadmitted
      cases hstep
      obtain ⟨himports, hevolves, hnew⟩ := LedgerCall.commit_imports h.imports hadmitted
      exact ⟨h.commit himports hevolves hnew, hevolves⟩
    · cases hstep

/-- The invariant holds along every run, and the registry evolves. -/
theorem Apart.run (hsha : Function.Injective sha256) {trace : List (Wrappers π × ServiceAction π)}
    (h : Apart V.external sha256 s) (hrun : Run (ServiceStep V sha256) s trace t) :
    Apart V.external sha256 t ∧ s.registry.Evolves t.registry := by
  refine hrun.invariant (fun u => Apart V.external sha256 u ∧ s.registry.Evolves u.registry) ?_
    ⟨h, Registry.Evolves.refl _⟩
  rintro u a v ⟨hu, hevolves⟩ hstep
  obtain ⟨hv, hnext⟩ := hu.step hsha hstep
  exact ⟨hv, hevolves.trans hnext⟩

/-! ## Whole runs -/

/-- In every reachable state a source run has one import at most. An import and its rows never
change: its run is terminal, of no prediction and bound as external; evidence that was ingested
is answered with the same values, and other evidence of its source run is refused, neither
changing anything. No process works on, returns or executes an imported run, and no binding ever
changes its registration status. -/
theorem imports_exclusive (V : Libraries) (hsha : Function.Injective sha256)
    {before after : List (Wrappers π × ServiceAction π)}
    (hbefore : Run (ServiceStep V sha256) initial before s)
    (hafter : Run (ServiceStep V sha256) s after t) :
    (t.registry.external_run_imports.map ExternalRunImportRow.source).Nodup ∧
    (∀ i ∈ s.registry.external_run_imports, i ∈ t.registry.external_run_imports ∧
      ∃ run binding, s.registry.Imported V.external sha256 i run binding ∧
        t.registry.Imported V.external sha256 i run binding ∧
        ∃ e r, (e.source_system, e.source_run_id) = i.source ∧ r.run_id = i.run_id ∧
          Registry.Repeats V.external sha256 t.registry e r) ∧
    (∀ world e r db later, ∀ u : Wrappers π,
      (Registry.ingestExternalRun V.external sha256 world e).run s.registry = (.ok r, db) →
      Run (ServiceStep V sha256) (s.commit db) later u →
      Registry.Repeats V.external sha256 u.registry e r) ∧
    (∀ p run_id, (t.phase p).run? = some run_id →
      run_id ∉ t.registry.external_run_imports.map ExternalRunImportRow.run_id ∧
        ∀ r, t.phase p = .returning run_id (.ok r) → r.run_id = run_id) ∧
    (∀ invocation ∈ t.invoked,
      invocation.run_id ∉ t.registry.external_run_imports.map ExternalRunImportRow.run_id) ∧
    ∀ b ∈ s.registry.run_bindings, ∃ b', t.registry.binding? b.run_id = some b' ∧
      b'.registration_status = b.registration_status := by
  obtain ⟨hs, -⟩ := (apart_initial V.external).run hsha hbefore
  obtain ⟨ht, hevolves⟩ := hs.run hsha hafter
  refine ⟨ht.imports.unique.sources, fun i hi => ?_, ?_, fun p run_id hrun => ?_,
    fun i hi => (ht.invoked i hi).2, fun b hb => ?_⟩
  · obtain ⟨run, binding, himported⟩ := hs.imports.imported i hi
    have hlater := himported.evolves hevolves
    have hi' := hevolves.external_run_imports.subset hi
    obtain ⟨e, hsource, hhash⟩ := himported.evidence
    obtain ⟨r, hresult⟩ := himported.answers
    obtain ⟨-, hid, -, -⟩ := Registry.externalResult_ok hresult
    exact ⟨hi', run, binding, himported, hlater, e, r, hsource, hid.trans himported.run_id,
      hlater.repeats hi' ht.imports.keys ht.imports.unique hsha hsource hhash
        (Registry.externalResult_created hresult)⟩
  · intro world e r db later u hingest hlater
    obtain ⟨himports, hnew, i, hi, run, binding, himported, hsource, hhash, hresult⟩ :=
      hs.imports.ingest hingest
    have hcommit := hs.commit himports
      (Registry.ingestExternalRun_commits hingest).evolves.1 hnew
    obtain ⟨hu, hkept⟩ := hcommit.run hsha hlater
    exact (himported.evolves hkept).repeats (hkept.external_run_imports.subset hi)
      hu.imports.keys hu.imports.unique hsha hsource.symm hhash hresult
  · refine ⟨(ht.phases p run_id hrun).2, fun r hreturns => ?_⟩
    have hown := ht.reports p
    rw [hreturns] at hown
    exact hown
  · exact ⟨b, ht.imports.keys.binding?_of_mem (hevolves.run_bindings.subset hb), rfl⟩

/-! ## One import, asked for under its own key -/

/-- Evidence of one direct run. -/
def sampleEvidence : ExternalRunEvidence where
  source_system := text "msm"
  source_run_id := text "42"
  strategy_id := text "momentum"
  started_at := Registry.sampleTime
  completed_at := Registry.sampleTime
  exit_code := 0
  failure_note := none
  command := [text "msm"]
  working_directory := text "/msm"
  snapshot := Registry.sampleSnapshot
  artifacts := [⟨text "report.json", Registry.sampleVersion, 7⟩]
  metadata := ⟨[], JsonObject.keyed_nil⟩
  started_aware := rfl
  completed_aware := rfl
  ordered := le_refl _
  snapshot_strategy := rfl
  artifacts_nonempty := by simp
  command_nonempty := by simp

/-- What it dumps to. -/
def sampleDump : Document := sampleEvidence.modelDump ⟨Registry.zuluTime, fun _ => none⟩

/-- A library that validates this document. -/
def sampleLibrary : EvidenceLibrary where
  dumpTime := Registry.zuluTime
  validate v := if v.equals sampleDump then some sampleEvidence else none

/-- The text that the key of the import is the hash of. -/
def identityText : Text :=
  Json.canonicalText (F := Binary64) (.obj [(text "source_system", .str (text "msm")),
    (text "source_run_id", .str (text "42"))])

/-- The SHA-256 digest of the evidence. -/
def sampleEvidenceDigest : Text :=
  text "8d147cf3ffa2096db2e8" ++ text "2c378f9ec6bb68b1c5ff" ++ text "4754ee9de4d6f726fded" ++
    text "dcd7"

/-- The canonical envelope of the import. -/
def importEnvelope : Text :=
  Json.canonicalText (sampleEvidence.envelope (text "run_external_0") sampleDump
    (text "sha256:" ++ sampleEvidenceDigest) Registry.sampleTime)

/-- The SHA-256 digest of the envelope. -/
def importDigest : Text :=
  text "c7c4919063b12becc48d" ++ text "e6a187a7a9023cf62397" ++ text "4bfb55d0a33489b5f981" ++
    text "ebad"

/-- The SHA-256 digest of the identity. -/
def identityDigest : Text :=
  text "d42e1ed6d315dd80a173" ++ text "2f09f94d31a0e3ccc56f" ++ text "a9142f4ac2f99a6962c0" ++
    text "a7ad"

/-- A digest that separates texts, and agrees with SHA-256 on the texts of the import. -/
def importSha256 : Text → Text :=
  Registry.digestOf [(Json.canonicalText sampleDump, sampleEvidenceDigest),
    (identityText, identityDigest), (importEnvelope, importDigest)]

/-- The libraries of the import. -/
def importLibraries : Libraries := ⟨sampleLibrary, Registry.sampleResultLibrary⟩

/-- Its clock and identifier. -/
def importWorld : IngestWorld := ⟨Registry.sampleTime, ['0']⟩

/-- A request under the key of the import. -/
def aliasing : RunCall :=
  .exploratory { idempotency_key := text "external:sha256:" ++ identityDigest
                 command := [text "msm"]
                 result_evidence_path := none
                 key_length := by decide
                 command_nonempty := by simp
                 strategy_id := text "momentum"
                 in_sample_window := Registry.sampleWindow
                 out_of_sample_window := Registry.sampleWindow }

/-- The world of the request. -/
def aliasingWorld : PrepareWorld where
  working_directory := .ok (text "/msm")
  now := Registry.sampleTime
  hex := ['1']
  snapshot_source := none
  load _ := .error (.integrityError [])

/-- The run is imported, asked for under its key, and imported again. -/
def sampleActions : List (ServiceAction Unit) :=
  [.serve (.ingest_external sampleEvidence importWorld), .request () aliasing aliasingWorld,
    .serve (.ingest_external sampleEvidence importWorld)]

theorem sample_imports :
    (follow (serviceStep importLibraries importSha256) initial sampleActions).any (fun s =>
      s.registry.external_run_imports.map ExternalRunImportRow.source ==
        [(text "msm", text "42")]) = true := by
  decide +kernel

theorem imports_exclusive_sample :
    ∃ (s : Wrappers Unit) (i : ExternalRunImportRow) (e : ExternalRunEvidence)
      (r : ExternalRunImportResult), i ∈ s.registry.external_run_imports ∧
      i.source = (text "msm", text "42") ∧ r.run_id = i.run_id ∧
      Registry.Repeats sampleLibrary importSha256 s.registry e r := by
  obtain ⟨s, hfollow, hstate⟩ := (Option.any_eq_true _ _).mp sample_imports
  obtain ⟨trace, hrun, -⟩ := Run.of_follow hfollow
  obtain ⟨-, himports, -⟩ :=
    imports_exclusive importLibraries (Registry.digestOf_injective _) hrun (Run.nil s)
  have hmem : (text "msm", text "42") ∈
      s.registry.external_run_imports.map ExternalRunImportRow.source := by
    rw [eq_of_beq hstate]
    exact List.mem_singleton_self _
  obtain ⟨i, hi, hsource⟩ := List.mem_map.mp hmem
  obtain ⟨-, _, _, -, -, e, r, -, hid, hrepeats⟩ := himports i hi
  exact ⟨s, i, e, r, hi, hsource, hid, hrepeats⟩

end Wrappers

end Pine
