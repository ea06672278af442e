import Pine.Ledger.Run.Execution

/-!
# A run is executed at most once

The invariant of the wrapper processes: a phase between acquiring and releasing
holds the lock of its run, a started run that was not yet invoked is running, and
every invoked run has started. A run leaves its first state only in the transaction
that starts it, so no second process gets past it.
-/

namespace Pine

/-- The registry is lawful, and every started run is bound to a verified envelope. -/
structure Registry.Sound (sha256 : Text → Text) (db : Registry) : Prop where
  lawful : db.Lawful
  lifecycle : ∀ run ∈ db.runs, run.Lawful
  verified : ∀ run ∈ db.runs, run.execution_started_at ≠ none → db.Verified sha256 run.run_id

/-- The run is running. -/
def Registry.Running (db : Registry) (run_id : Text) : Prop :=
  ∃ run ∈ db.runs, run.run_id = run_id ∧ run.state = .running

/-- The execution of the run has started. -/
def Registry.Started (db : Registry) (run_id : Text) : Prop :=
  ∃ run ∈ db.runs, run.run_id = run_id ∧ run.execution_started_at ≠ none

namespace Registry

variable {sha256 : Text → Text} {db db' : Registry} {run_id : Text}

theorem sound_empty : empty.Sound sha256 where
  lawful := lawful_empty
  lifecycle := by simp [empty]
  verified := by simp [empty]

/-- A registry that extends a sound one is sound, if the runs it may have started are verified. -/
theorem Sound.extends {claimed : Text → Prop} (hs : db.Sound sha256) (h : db.Extends claimed db')
    (hlawful : db'.Lawful) (hclaimed : ∀ id, claimed id → db'.Verified sha256 id) :
    db'.Sound sha256 := by
  refine ⟨hlawful, h.lifecycle hs.lifecycle, fun run' hrun' hstarted => ?_⟩
  rcases h.started run' hrun' hstarted with hclaim | ⟨run, hrun, hid, hwas⟩
  · exact hclaimed _ hclaim
  · rw [← hid]
    exact (hs.verified run hrun hwas).evolves h.evolves hlawful.keys

theorem Started.evolves (h : db.Started run_id) (hevolves : db.Evolves db') :
    db'.Started run_id := by
  obtain ⟨run, hrun, hid, hstarted⟩ := h
  obtain ⟨run', hrun', hnext⟩ := hevolves.runs.mem hrun
  obtain ⟨t, ht⟩ := Option.ne_none_iff_exists'.mp hstarted
  refine ⟨run', hrun', hnext.run_id.trans hid, ?_⟩
  rw [hnext.execution_started_at t ht]
  simp

theorem Running.spared {ended : Text → Prop} (h : db.Running run_id) (hspares : db.Spares ended db')
    (hnot : ¬ ended run_id) : db'.Running run_id := by
  obtain ⟨run, hrun, rfl, hstate⟩ := h
  exact ⟨run, hspares run hrun hstate hnot, rfl, hstate⟩

/-- A run that has started is no longer registered. -/
theorem Sound.not_registered (hs : db.Sound sha256) (h : db.Started run_id) {run : RunRow}
    (hrun : run ∈ db.runs) (hid : run.run_id = run_id) : run.state ≠ .registered := by
  obtain ⟨row, hrow, hrowid, hstarted⟩ := h
  have hfound := hs.lawful.keys.run?_of_mem hrow
  rw [hrowid, ← hid, hs.lawful.keys.run?_of_mem hrun] at hfound
  obtain rfl := Option.some.inj hfound
  exact (hs.lifecycle run hrun).started_iff.mpr hstarted

/-- A running run has started. -/
theorem Sound.started_of_running (hs : db.Sound sha256) (h : db.Running run_id) :
    db.Started run_id := by
  obtain ⟨run, hrun, hid, hstate⟩ := h
  exact ⟨run, hrun, hid, (hs.lifecycle run hrun).started_iff.mp (by rw [hstate]; decide)⟩

/-! ## Transactions of the run service and of the others -/

/-- Starting a verified run keeps the registry sound. -/
theorem Sound.startRun {started_at : DateTime} {u : Unit} (hs : db.Sound sha256)
    (hverified : db.Verified sha256 run_id)
    (h : (startRun sha256 run_id started_at).run db = (.ok u, db')) : db'.Sound sha256 := by
  have hext := (startRun_keeps sha256 run_id started_at).extends h
  have hlawful : db'.Lawful :=
    Operation.lawful (show (Operation.program sha256 (.start_run run_id started_at)).run db = _ from h)
      hs.lawful
  refine hs.extends hext hlawful ?_
  rintro _ rfl
  exact hverified.evolves hext.evolves hlawful.keys

theorem finishRun_extends (sha256 : Text → Text) {completed_at : DateTime} {exit_code : Int} {note : Option Text}
    {r : Except Error Unit} (h : (finishRun run_id completed_at exit_code note).run db = (r, db')) :
    db.Extends (fun _ => False) db' :=
  (Operation.program_keeps sha256 (.finish_run run_id completed_at exit_code note)).extends h

/-- Finishing a run keeps the registry sound. -/
theorem Sound.finishRun {completed_at : DateTime} {exit_code : Int} {note : Option Text} {u : Unit}
    (hs : db.Sound sha256) (h : (finishRun run_id completed_at exit_code note).run db = (.ok u, db')) :
    db'.Sound sha256 :=
  hs.extends (finishRun_extends sha256 h)
    (Operation.lawful (show (Operation.program sha256
      (.finish_run run_id completed_at exit_code note)).run db = _ from h) hs.lawful)
    fun _ => False.elim

/-- Foreign operations start no run and finish none. -/
theorem sequence_foreign {ops : List Operation} {u : Unit}
    (hforeign : ∀ op ∈ ops, op.isForeign = true)
    (h : (sequence sha256 ops).run db = (.ok u, db')) :
    db.Extends (fun _ => False) db' ∧ db.Spares (fun _ => False) db' := by
  induction ops generalizing db with
  | nil =>
    cases h
    exact ⟨Extends.refl _, Spares.refl _⟩
  | cons op ops ih =>
    obtain ⟨_, db1, hop, hrest⟩ := Program.run_bind_ok.mp h
    obtain ⟨hext, hspares⟩ := ih (fun op hop => hforeign op (List.mem_cons_of_mem _ hop)) hrest
    have hthis := hforeign op (List.mem_cons_self)
    have hclaims : op.claims = fun _ => False := by
      cases op <;> first | rfl | cases hthis
    have hends : op.ends = fun _ => False := by
      cases op <;> first | rfl | cases hthis
    have hkeeps := (op.program_keeps sha256).extends hop
    have hsparing := (op.program_sparing sha256).spares hop
    rw [hclaims] at hkeeps
    rw [hends] at hsparing
    exact ⟨hkeeps.trans hext, hsparing.trans hspares⟩

/-- An ingestion that commits is an import whose binding verifies. -/
theorem ingestExternal_ok {e : ExternalRun} {u : Unit}
    (h : (ingestExternal sha256 e).run db = (.ok u, db')) :
    (createExternalRunImport sha256 e).run db = (.ok (), db') ∧ db'.Verified sha256 e.run_id := by
  obtain ⟨_, db1, himport, hselect⟩ := Program.run_bind_ok.mp h
  obtain ⟨found, db2, hfound, hchecked⟩ := Program.run_bind_ok.mp hselect
  obtain ⟨envelope, db3, hcheck, hdone⟩ := Program.run_bind_ok.mp hchecked
  obtain ⟨hread, rfl⟩ := Program.run_query_ok.mp hfound
  obtain ⟨hverified, rfl⟩ := Program.run_check_ok.mp hcheck
  obtain ⟨binding, hbinding, henvelope⟩ := bind_eq_ok.mp hverified
  cases hdone
  exact ⟨himport, binding, envelope,
    (Except.ok.inj hread).trans (required_ok.mp hbinding), henvelope⟩

end Registry

/-- What a committed transaction of another service keeps. -/
theorem ServiceTransaction.committed {sha256 : Text → Text} {t : ServiceTransaction}
    {db db' : Registry} {u : Unit} (hadmitted : t.admitted = true)
    (h : (t.program sha256).run db = (.ok u, db')) (hs : db.Sound sha256) :
    db'.Sound sha256 ∧ db.Evolves db' ∧ db.Spares (fun _ => False) db' := by
  cases t with
  | operations ops =>
    obtain ⟨hext, hspares⟩ := Registry.sequence_foreign (List.all_eq_true.mp hadmitted) h
    have hlawful := (Registry.sequence_lawful h).2 hs.lawful
    exact ⟨hs.extends hext hlawful fun _ => False.elim, hext.evolves, hspares⟩
  | ingest e =>
    obtain ⟨himport, hverified⟩ := Registry.ingestExternal_ok h
    have hext := (Registry.createExternalRunImport_keeps sha256 e).extends himport
    have hlawful : db'.Lawful := Registry.Operation.lawful
      (show (Registry.Operation.program sha256 (.create_external_run_import e)).run db = _
        from himport) hs.lawful
    refine ⟨hs.extends hext hlawful ?_, hext.evolves,
      (Registry.createExternalRunImport_sparing sha256 e).spares himport⟩
    rintro _ rfl
    exact hverified

namespace Wrappers

variable {π : Type} {sha256 : Text → Text}

/-! ## The invariant -/

/-- What a phase knows of the registry. -/
def PhaseSound (sha256 : Text → Text) (db : Registry) (invoked : List Invocation) : Phase → Prop
  | .verified prepared => db.Verified sha256 prepared.run_id
  | .started prepared => db.Running prepared.run_id ∧
      prepared.run_id ∉ invoked.map Invocation.run_id
  | _ => True

/-- The invariant of the system. -/
structure Safe (sha256 : Text → Text) (s : Wrappers π) : Prop where
  registry : s.registry.Sound sha256
  holds : ∀ p run_id, (s.phase p).holds = some run_id → s.locks (sha256 run_id) = some p
  phases : ∀ p, PhaseSound sha256 s.registry s.invoked (s.phase p)
  once : (s.invoked.map Invocation.run_id).Nodup
  logged : ∀ i ∈ s.invoked, s.registry.Started i.run_id

theorem safe_initial : Safe sha256 (initial : Wrappers π) where
  registry := Registry.sound_empty
  holds := by simp [initial, Phase.holds]
  phases _ := trivial
  once := by simp [initial]
  logged := by simp [initial]

/-- Two processes never hold the lock of one run. -/
theorem Safe.exclusive {s : Wrappers π} (h : Safe sha256 s) {p q : π} {run_id : Text}
    (hp : (s.phase p).holds = some run_id) (hq : (s.phase q).holds = some run_id) : p = q := by
  have hboth := (h.holds p run_id hp).symm.trans (h.holds q run_id hq)
  exact Option.some.inj hboth

/-- A committed transaction keeps the invariant when it finishes no run that is about to be
invoked. -/
theorem Safe.commit {s : Wrappers π} (h : Safe sha256 s) {db : Registry} {ended : Text → Prop}
    (hsound : db.Sound sha256) (hevolves : s.registry.Evolves db)
    (hspares : s.registry.Spares ended db)
    (hended : ∀ q prepared, s.phase q = .started prepared → ¬ ended prepared.run_id) :
    Safe sha256 (s.commit db) where
  registry := hsound
  holds := h.holds
  phases q := by
    have hq := h.phases q
    change PhaseSound sha256 db s.invoked (s.phase q)
    cases hphase : s.phase q with
    | verified prepared =>
      rw [hphase] at hq
      exact Registry.Verified.evolves hq hevolves hsound.lawful.keys
    | started prepared =>
      rw [hphase] at hq
      exact ⟨hq.1.spared hspares (hended q prepared hphase), hq.2⟩
    | _ => trivial
  once := h.once
  logged i hi := (h.logged i hi).evolves hevolves

/-- Releasing a lock that no phase holds keeps the invariant. -/
theorem Safe.unlock {s : Wrappers π} (h : Safe sha256 s) {locks : Text → Option π}
    (hkept : ∀ q run_id, (s.phase q).holds = some run_id → locks (sha256 run_id) = some q) :
    Safe sha256 { s with locks } where
  registry := h.registry
  holds := hkept
  phases := h.phases
  once := h.once
  logged := h.logged

variable [DecidableEq π]

theorem enter_phase (s : Wrappers π) (p q : π) (phase : Phase) :
    (s.enter p phase).phase q = if q = p then phase else s.phase q := by
  simp only [enter, Function.update_apply]

/-- Entering a phase that holds what the process holds and knows what the registry says. -/
theorem Safe.enter {s : Wrappers π} (h : Safe sha256 s) {p : π} {phase : Phase}
    (hholds : ∀ run_id, phase.holds = some run_id → s.locks (sha256 run_id) = some p)
    (hphase : PhaseSound sha256 s.registry s.invoked phase) : Safe sha256 (s.enter p phase) where
  registry := h.registry
  holds q run_id hq := by
    rw [enter_phase] at hq
    split at hq
    · rename_i heq
      exact heq ▸ hholds run_id hq
    · exact h.holds q run_id hq
  phases q := by
    rw [enter_phase]
    split
    · exact hphase
    · exact h.phases q
  once := h.once
  logged := h.logged

/-- A step within the critical section of a run keeps its lock. -/
theorem Safe.enter_held {s : Wrappers π} (h : Safe sha256 s) {p : π} {phase : Phase} {run_id : Text}
    (hp : (s.phase p).holds = some run_id)
    (hholds : phase.holds = some run_id ∨ phase.holds = none)
    (hphase : PhaseSound sha256 s.registry s.invoked phase) : Safe sha256 (s.enter p phase) := by
  refine h.enter (fun id hid => ?_) hphase
  rcases hholds with hsame | hnone
  · obtain rfl := Option.some.inj (hsame.symm.trans hid)
    exact h.holds p _ hp
  · rw [hnone] at hid
    cases hid

/-- A phase outside the critical section needs nothing. -/
theorem Safe.enter_free {s : Wrappers π} (h : Safe sha256 s) {p : π} {phase : Phase}
    (hnone : phase.holds = none) : Safe sha256 (s.enter p phase) := by
  refine h.enter (fun id hid => ?_) ?_
  · rw [hnone] at hid
    cases hid
  · cases phase <;> first | exact True.intro | cases hnone

/-- The read under the lock leads to a phase of the same run, and verifies what it starts. -/
theorem afterInspect_sound (sha256 : Text → Text) (db : Registry) (run_id : Text)
    (invoked : List Invocation) :
    ((afterInspect sha256 db run_id).holds = some run_id ∨
      afterInspect sha256 db run_id = .idle) ∧
    PhaseSound sha256 db invoked (afterInspect sha256 db run_id) := by
  unfold afterInspect
  split
  · exact ⟨Or.inl rfl, trivial⟩
  · rename_i run binding _ hrun hbinding
    obtain ⟨-, hrun_id⟩ := Registry.run?_some hrun
    obtain ⟨-, hbinding_id⟩ := Registry.binding?_some hbinding
    unfold afterUnsettled
    split
    · exact ⟨Or.inl (congrArg some hrun_id), trivial⟩
    · split
      · rename_i prepared hprepare
        obtain ⟨hid, envelope, hverified⟩ := prepare_ok hprepare
        have hsame : prepared.run_id = run_id := hid.trans hbinding_id
        exact ⟨Or.inl (congrArg some hsame), binding, envelope, by rw [hsame]; exact hbinding,
          hverified⟩
      · exact ⟨Or.inl (congrArg some hrun_id), trivial⟩
  · exact ⟨Or.inr rfl, trivial⟩

/-! ## Steps keep the invariant -/

theorem Safe.acquire {s : Wrappers π} (h : Safe sha256 s) (p : π) (run_id : Text) :
    Safe sha256 (s.acquire sha256 p run_id) := by
  unfold Wrappers.acquire
  split
  · rename_i hfree
    refine Safe.enter (h.unlock fun q id hq => ?_) (fun id hid => ?_) trivial
    · rw [Function.update_apply]
      split
      · rename_i heq
        have hheld := h.holds q id hq
        rw [heq, hfree] at hheld
        cases hheld
      · exact h.holds q id hq
    · cases hid
      exact Function.update_self _ _ _
  · exact h.enter_free rfl

theorem Safe.start {s : Wrappers π} (h : Safe sha256 s) {p : π} {prepared : Prepared}
    {started_at : DateTime} (hp : s.phase p = .verified prepared) :
    Safe sha256 (s.start sha256 p prepared started_at) := by
  have hheld : (s.phase p).holds = some prepared.run_id := by rw [hp]; rfl
  have hverified : s.registry.Verified sha256 prepared.run_id := by
    have hsound := h.phases p
    rwa [hp] at hsound
  unfold Wrappers.start
  split
  · rename_i u db hrun
    obtain ⟨⟨before, hbefore, hid, hregistered⟩, hrunning⟩ := Registry.startRun_ok hrun
    have hspares : s.registry.Spares (fun _ => False) db :=
      (Registry.startRun_sparing sha256 _ started_at).spares hrun
    have hcommit := h.commit (h.registry.startRun hverified hrun)
      ((Registry.startRun_keeps sha256 _ started_at).extends hrun).evolves hspares
      fun _ _ _ => not_false
    refine hcommit.enter_held hheld (Or.inl rfl) ⟨hrunning, fun hmem => ?_⟩
    obtain ⟨i, hi, hi_id⟩ := List.mem_map.mp hmem
    exact h.registry.not_registered (h.logged i hi) hbefore (hid.trans hi_id.symm) hregistered
  · exact h.enter_held hheld (Or.inl rfl) trivial

theorem Safe.invoke {s : Wrappers π} (h : Safe sha256 s) {p : π} {prepared : Prepared}
    (hp : s.phase p = .started prepared) : Safe sha256 (s.invoke p prepared) := by
  have hheld : (s.phase p).holds = some prepared.run_id := by rw [hp]; rfl
  have hstarted : s.registry.Running prepared.run_id ∧
      prepared.run_id ∉ s.invoked.map Invocation.run_id := by
    have hsound := h.phases p
    rwa [hp] at hsound
  unfold Wrappers.invoke
  split
  · constructor
    · exact h.registry
    · intro q id hq
      rw [enter_phase] at hq
      split at hq
      · rename_i heq
        cases hq
        exact heq ▸ h.holds p _ hheld
      · exact h.holds q id hq
    · intro q
      rw [enter_phase]
      split
      · trivial
      · rename_i hne
        have hq := h.phases q
        change PhaseSound sha256 s.registry _ (s.phase q)
        cases hphase : s.phase q with
        | verified other =>
          rwa [hphase] at hq
        | started other =>
          rw [hphase] at hq
          refine ⟨hq.1, fun hmem => ?_⟩
          rw [Wrappers.enter, log, List.map_append, List.mem_append] at hmem
          rcases hmem with hmem | hmem
          · exact hq.2 hmem
          · have hsame : other.run_id = prepared.run_id := by simpa using hmem
            refine hne (h.exclusive ?_ hheld)
            rw [hphase, ← hsame]
            rfl
        | _ => trivial
    · exact nodup_append_key h.once hstarted.2
    · intro i hi
      rcases List.mem_append.mp hi with hi | hi
      · exact h.logged i hi
      · obtain rfl := List.mem_singleton.mp hi
        exact h.registry.started_of_running hstarted.1
  · exact h.enter_held hheld (Or.inl rfl) trivial

theorem Safe.finish {s : Wrappers π} (h : Safe sha256 s) {p : π} {run_id : Text} {ending : Ending}
    {completed_at : DateTime} (hp : s.phase p = .ending run_id ending) :
    Safe sha256 (s.finish p run_id ending completed_at) := by
  have hheld : (s.phase p).holds = some run_id := by rw [hp]; rfl
  unfold Wrappers.finish
  split
  · rename_i u db hrun
    have hext := Registry.finishRun_extends sha256 hrun
    have hspares := (Registry.Operation.program_sparing sha256
      (.finish_run run_id completed_at ending.exitCode ending.failureNote)).spares hrun
    have hcommit := h.commit (h.registry.finishRun hrun) hext.evolves hspares ?_
    · refine hcommit.enter_held hheld (Or.inl ?_) ?_
      · split <;> rfl
      · split <;> trivial
    · -- another process about to invoke the run would hold its lock
      intro q prepared hq heq
      have hqheld : (s.phase q).holds = some run_id := by
        rw [hq, ← show prepared.run_id = run_id from heq]
        rfl
      rw [h.exclusive hqheld hheld, hp] at hq
      cases hq
  · exact h.enter_held hheld (Or.inl rfl) trivial

theorem Safe.release {s : Wrappers π} (h : Safe sha256 s) {p : π} {run_id : Text}
    {result : Except Error RunResult} (hp : s.phase p = .releasing run_id result) :
    Safe sha256 ((s.lock (sha256 run_id) none).enter p (.returning run_id result)) := by
  have hheld := h.holds p run_id (by rw [hp]; rfl)
  constructor
  · exact h.registry
  · intro q id hq
    rw [enter_phase] at hq
    split at hq
    · cases hq
    · rename_i hne
      have hq' := h.holds q id hq
      change Function.update s.locks (sha256 run_id) none (sha256 id) = some q
      rw [Function.update_apply]
      split
      · rename_i heq
        rw [heq, hheld] at hq'
        exact absurd (Option.some.inj hq').symm hne
      · exact hq'
  · exact (@Safe.enter_free _ _ _ _ h p (.returning run_id result) rfl).phases
  · exact h.once
  · exact h.logged

theorem Safe.crash {s : Wrappers π} (h : Safe sha256 s) (p : π) :
    Safe sha256 ((s.drop p).enter p .idle) := by
  constructor
  · exact h.registry
  · intro q id hq
    rw [enter_phase] at hq
    split at hq
    · cases hq
    · rename_i hne
      have hq' := h.holds q id hq
      change (if s.locks (sha256 id) = some p then none else s.locks (sha256 id)) = some q
      rw [if_neg, hq']
      intro heq
      exact hne (Option.some.inj (hq'.symm.trans heq))
  · exact (@Safe.enter_free _ _ _ _ h p .idle rfl).phases
  · exact h.once
  · exact h.logged

/-- An error leaves the critical section through the release of the lock. -/
theorem raised_holds {phase next : Phase} {e : Error} (h : phase.raised e = some next) :
    next.holds = phase.holds ∧ ∀ db invoked, PhaseSound sha256 db invoked next := by
  cases phase <;> cases h <;> exact ⟨rfl, fun _ _ => trivial⟩

theorem Safe.advance {s t : Wrappers π} (h : Safe sha256 s) {p : π} {m : Move}
    (hstep : s.advance sha256 p m (s.phase p) = some t) : Safe sha256 t := by
  generalize hp : s.phase p = phase at hstep
  unfold Wrappers.advance at hstep
  split at hstep
  · cases hstep
    exact h.enter_free rfl
  · cases hstep
    refine h.enter_free ?_
    unfold afterRead
    split <;> rfl
  · cases hstep
    exact h.acquire _ _
  · rename_i run_id
    cases hstep
    obtain ⟨hholds, hsound⟩ := afterInspect_sound sha256 s.registry run_id s.invoked
    refine h.enter_held (by rw [hp]; rfl) (hholds.imp id fun hidle => ?_) hsound
    rw [hidle]
    rfl
  · cases hstep
    exact h.start hp
  · cases hstep
    exact h.invoke hp
  · split at hstep
    · cases hstep
    · cases hstep
      exact h.enter_held (by rw [hp]; rfl) (Or.inl rfl) trivial
  · cases hstep
    exact h.finish hp
  · cases hstep
    exact h.enter_held (by rw [hp]; rfl) (Or.inl rfl) trivial
  · cases hstep
    exact h.release hp
  · cases hstep
    exact h.enter_free rfl
  · obtain ⟨next, hnext, rfl⟩ := Option.map_eq_some_iff.mp hstep
    obtain ⟨hholds, hsound⟩ := @raised_holds sha256 _ _ _ hnext
    exact h.enter (fun id hid => h.holds p id (by rw [hp, ← hholds, hid])) (hsound _ _)
  · cases hstep
    exact h.crash p
  · cases hstep

omit [DecidableEq π] in
/-- A step of another service is the commit of an admitted transaction. -/
theorem serve_ok {s t : Wrappers π} {transaction : ServiceTransaction}
    (h : s.serve sha256 transaction = some t) : transaction.admitted = true ∧
      ∃ db, (transaction.program sha256).run s.registry = (.ok (), db) ∧ t = s.commit db := by
  unfold serve at h
  split at h
  · rename_i hadmitted
    split at h
    · rename_i u db hrun
      exact ⟨hadmitted, db, hrun, (Option.some.inj h).symm⟩
    · cases h
  · cases h

/-- Every step keeps the invariant. -/
theorem Safe.step {s t : Wrappers π} (h : Safe sha256 s) {a : Action π} (hstep : Step sha256 s a t) :
    Safe sha256 t := by
  cases a with
  | move p m => exact h.advance hstep
  | service transaction =>
    obtain ⟨hadmitted, db, hrun, rfl⟩ := serve_ok hstep
    obtain ⟨hsound, hevolves, hspares⟩ := transaction.committed hadmitted hrun h.registry
    exact h.commit hsound hevolves hspares fun _ _ _ => not_false

/-- The invariant holds of every reachable state. -/
theorem safe_of_run {s t : Wrappers π} {trace : List (Wrappers π × Action π)}
    (h : Run (Step sha256) s trace t) (hs : Safe sha256 s) : Safe sha256 t :=
  h.invariant (Safe sha256) (fun _ _ _ hs hstep => hs.step hstep) hs

end Wrappers

end Pine
