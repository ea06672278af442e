import Pine.Ledger.Run.AtMostOnce

/-!
# Retries of a terminal run

A terminal run and its binding are permanent, so whoever asks for it reads the same
result before any lock is taken. The theorem on whole runs of the wrappers is
assembled from this and the invariant.
-/

namespace Pine

namespace Wrappers

variable {π : Type} [DecidableEq π] {sha256 : Text → Text}

/-! ## What a move does to its process -/

theorem run?_of_holds {phase : Phase} {run_id : Text} (h : phase.holds = some run_id) :
    phase.run? = some run_id := by
  cases phase <;> first | exact h | cases h

/-- Only an idle process works for no run. -/
theorem run?_eq_none {phase : Phase} (h : phase.run? = none) : phase = .idle := by
  cases phase <;> first | rfl | cases h

/-- How the phase of a process follows from the one before. -/
inductive Next (sha256 : Text → Text) (db : Registry) : Phase → Move → Phase → Prop
  | call (run_id : Text) : Next sha256 db .idle (.call run_id) (.called run_id)
  | read (run_id : Text) : Next sha256 db (.called run_id) .read (afterRead sha256 db run_id)
  | raise (phase next : Phase) (e : Error) : Next sha256 db phase (.raise e) next
  | ended (phase : Phase) (m : Move) : Next sha256 db phase m .idle
  | within (phase : Phase) (m : Move) (next : Phase) : next.run? = phase.run? →
      (∀ run_id, phase ≠ .called run_id) → (∀ run_id result, phase ≠ .returning run_id result) →
      Next sha256 db phase m next

/-- A move changes the phase of its process only, and commits at most one transaction. -/
theorem advance_next {s t : Wrappers π} {p : π} {m : Move} {phase : Phase}
    (h : s.advance sha256 p m phase = some t) :
    s.registry.Evolves t.registry ∧
      ∃ next, t.phase = Function.update s.phase p next ∧ Next sha256 s.registry phase m next := by
  unfold Wrappers.advance at h
  split at h
  · cases h
    exact ⟨Registry.Evolves.refl _, _, rfl, .call _⟩
  · cases h
    exact ⟨Registry.Evolves.refl _, _, rfl, .read _⟩
  · cases h
    unfold Wrappers.acquire
    split <;> exact ⟨Registry.Evolves.refl _, _, rfl, .within _ _ _ rfl nofun nofun⟩
  · rename_i run_id
    cases h
    refine ⟨Registry.Evolves.refl _, _, rfl, ?_⟩
    rcases (afterInspect_sound sha256 s.registry run_id []).1 with hholds | hidle
    · exact .within _ _ _ (run?_of_holds hholds) nofun nofun
    · rw [hidle]
      exact .ended _ _
  · cases h
    unfold Wrappers.start
    split
    · rename_i u db hrun
      exact ⟨((Registry.startRun_keeps sha256 _ _).extends hrun).evolves, _, rfl,
        .within _ _ _ rfl nofun nofun⟩
    · exact ⟨Registry.Evolves.refl _, _, rfl, .within _ _ _ rfl nofun nofun⟩
  · cases h
    unfold Wrappers.invoke
    split <;> exact ⟨Registry.Evolves.refl _, _, rfl, .within _ _ _ rfl nofun nofun⟩
  · split at h
    · cases h
    · cases h
      exact ⟨Registry.Evolves.refl _, _, rfl, .within _ _ _ rfl nofun nofun⟩
  · cases h
    unfold Wrappers.finish
    split
    · rename_i u db hrun
      refine ⟨(Registry.finishRun_extends sha256 hrun).evolves, _, rfl,
        .within _ _ _ ?_ nofun nofun⟩
      split <;> rfl
    · exact ⟨Registry.Evolves.refl _, _, rfl, .within _ _ _ rfl nofun nofun⟩
  · cases h
    exact ⟨Registry.Evolves.refl _, _, rfl, .within _ _ _ rfl nofun nofun⟩
  · cases h
    exact ⟨Registry.Evolves.refl _, _, rfl, .within _ _ _ rfl nofun nofun⟩
  · cases h
    exact ⟨Registry.Evolves.refl _, _, rfl, .ended _ _⟩
  · obtain ⟨next, -, rfl⟩ := Option.map_eq_some_iff.mp h
    exact ⟨Registry.Evolves.refl _, _, rfl, .raise _ _ _⟩
  · cases h
    exact ⟨Registry.Evolves.refl _, _, rfl, .ended _ _⟩
  · cases h

/-! ## Terminal runs are permanent -/

/-- Every step lets the registry evolve. -/
theorem Safe.evolves {s t : Wrappers π} (h : Safe sha256 s) {a : Action π}
    (hstep : Step sha256 s a t) : s.registry.Evolves t.registry := by
  cases a with
  | move p m => exact (advance_next hstep).1
  | service transaction =>
    obtain ⟨hadmitted, db, hrun, rfl⟩ := serve_ok hstep
    exact (transaction.committed hadmitted hrun h.registry).2.1

/-- The run is terminal and reports the given result. -/
structure Settled (sha256 : Text → Text) (run : RunRow) (result : RunResult) (s : Wrappers π) :
    Prop where
  safe : Safe sha256 s
  stored : run ∈ s.registry.runs
  reports : alreadySettled sha256 s.registry run.run_id = some (.ok result)

omit [DecidableEq π] in
/-- A terminal run reports its stored result, not executed. -/
theorem Safe.settled {s : Wrappers π} (h : Safe sha256 s) {run : RunRow}
    (hrun : run ∈ s.registry.runs) (hterminal : run.state.isTerminal = true) :
    ∃ binding, s.registry.binding? run.run_id = some binding ∧
      Settled sha256 run (storedResult run binding false) s := by
  have hlaw := h.registry.lifecycle run hrun
  have hstarted : run.execution_started_at ≠ none := by
    refine hlaw.started_iff.mp fun hregistered => ?_
    rw [hregistered] at hterminal
    cases hterminal
  obtain ⟨binding, envelope, hbinding, hverified⟩ := h.registry.verified run hrun hstarted
  exact ⟨binding, hbinding, h, hrun, alreadySettled_terminal h.registry.lawful.keys hrun hlaw
    hterminal hbinding hverified⟩

/-- A settled run stays settled, with the same result. -/
theorem Settled.step {s t : Wrappers π} {run : RunRow} {result : RunResult}
    (h : Settled sha256 run result s) (hterminal : run.state.isTerminal = true) {a : Action π}
    (hstep : Step sha256 s a t) : Settled sha256 run result t := by
  have hsafe := h.safe.step hstep
  have hevolves := h.safe.evolves hstep
  obtain ⟨run', hrun', hnext⟩ := hevolves.runs.mem h.stored
  obtain rfl := hnext.terminal hterminal
  obtain ⟨binding, hbinding, hsettled⟩ := h.safe.settled h.stored hterminal
  obtain ⟨hmem, hid⟩ := Registry.binding?_some hbinding
  obtain ⟨binding', hbinding', hsettled'⟩ := hsafe.settled hrun' hterminal
  have hfound := hsafe.registry.lawful.keys.binding?_of_mem (hevolves.run_bindings.subset hmem)
  rw [hid, hbinding'] at hfound
  obtain rfl := Option.some.inj hfound
  have hresult := Except.ok.inj (Option.some.inj (h.reports.symm.trans hsettled.reports))
  exact ⟨hsafe, hrun', hresult ▸ hsettled'.reports⟩

/-! ## A retry only reads -/

/-- A process that was called for the run has not looked yet, or returns the result. -/
def Retrying (run_id : Text) (result : RunResult) (phase : Phase) : Prop :=
  phase.run? = some run_id → phase = .called run_id ∨ phase = .returning run_id (.ok result)

/-- A settled run is only read by the processes called for it. -/
theorem Settled.retrying {s t : Wrappers π} {run : RunRow} {result : RunResult}
    (h : Settled sha256 run result s) {p : π} (hp : Retrying run.run_id result (s.phase p))
    {a : Action π} (hraise : ∀ e, a ≠ .move p (.raise e)) (hstep : Step sha256 s a t) :
    Retrying run.run_id result (t.phase p) := by
  cases a with
  | service transaction =>
    obtain ⟨-, db, -, rfl⟩ := serve_ok hstep
    exact hp
  | move q m =>
    obtain ⟨-, next, hphase, hnext⟩ := advance_next hstep
    rw [hphase, Function.update_apply]
    split
    · rename_i heq
      subst heq
      generalize s.phase p = phase at hp hnext
      intro hrun
      cases hnext with
      | call => exact Or.inl (congrArg Phase.called (Option.some.inj hrun))
      | read run_id =>
        have hsame : run_id = run.run_id := by
          unfold afterRead at hrun
          split at hrun <;> exact Option.some.inj hrun
        subst hsame
        exact Or.inr (by rw [afterRead, h.reports])
      | raise _ _ e => exact absurd rfl (hraise e)
      | ended => cases hrun
      | within _ _ _ hrun? hcalled hreturning =>
        rcases hp (hrun?.symm.trans hrun) with hc | hr
        · exact absurd hc (hcalled _)
        · exact absurd hr (hreturning _ _)
    · exact hp

omit [DecidableEq π] in
/-- The run is running and its window touched when its executor is invoked. -/
theorem Safe.invoke_started {s : Wrappers π} (h : Safe sha256 s) {p : π} {prepared : Prepared}
    (hp : s.phase p = .started prepared) :
    ∃ run ∈ s.registry.runs, run.run_id = prepared.run_id ∧ run.state = .running ∧
      s.registry.RunTouched run := by
  have hsound := h.phases p
  rw [hp] at hsound
  obtain ⟨⟨run, hrun, hid, hstate⟩, -⟩ := hsound
  have hstarted := (h.registry.lifecycle run hrun).started_iff.mp (by rw [hstate]; decide)
  exact ⟨run, hrun, hid, hstate, h.registry.lawful.started run hrun hstarted⟩

omit [DecidableEq π] in
/-- No process is about to invoke the executor of a settled run. -/
theorem Settled.not_invoked {s : Wrappers π} {run : RunRow} {result : RunResult}
    (h : Settled sha256 run result s) (hterminal : run.state.isTerminal = true) {p : π}
    {prepared : Prepared} (hp : s.phase p = .started prepared) : prepared.run_id ≠ run.run_id := by
  intro hsame
  obtain ⟨row, hrow, hid, hstate, -⟩ := h.safe.invoke_started hp
  have hfound := h.safe.registry.lawful.keys.run?_of_mem hrow
  rw [hid, hsame, h.safe.registry.lawful.keys.run?_of_mem h.stored] at hfound
  obtain rfl := Option.some.inj hfound
  rw [hstate] at hterminal
  cases hterminal

/-! ## Whole runs -/

/-- In every reachable state each run has been invoked at most once; every invocation followed the
transaction that started the run and touched its window; an orphan is recorded only under the lock
of its run; and from then on a terminal run is never invoked, and every process called for it
returns its stored result, not executed. -/
theorem executed_at_most_once (sha256 : Text → Text) {s t : Wrappers π}
    {before after : List (Wrappers π × Action π)} (hbefore : Run (Step sha256) initial before s)
    (hafter : Run (Step sha256) s after t) :
    (s.invoked.map Invocation.run_id).Nodup ∧
    (∀ x ∈ before, ∀ p prepared, x.2 = .move p .invoke → x.1.phase p = .started prepared →
      ∃ run ∈ x.1.registry.runs, run.run_id = prepared.run_id ∧ run.state = .running ∧
        x.1.registry.RunTouched run) ∧
    (∀ x ∈ before, ∀ p completed_at run_id, x.2 = .move p (.finish completed_at) →
      x.1.phase p = .ending run_id .orphaned → x.1.locks (sha256 run_id) = some p ∧
        ∀ q, (x.1.phase q).holds = some run_id → q = p) ∧
    ∀ run ∈ s.registry.runs, run.state.isTerminal = true →
      ∃ binding, s.registry.binding? run.run_id = some binding ∧
        (∀ x ∈ after, ∀ p prepared, x.2 = .move p .invoke → x.1.phase p = .started prepared →
          prepared.run_id ≠ run.run_id) ∧
        (∀ p, t.phase p = .called run.run_id → Step sha256 t (.move p .read)
          (t.enter p (.returning run.run_id (.ok (storedResult run binding false))))) ∧
        ∀ p, (s.phase p).run? ≠ some run.run_id → (∀ x ∈ after, ∀ e, x.2 ≠ .move p (.raise e)) →
          ∀ x ∈ after, ∀ r, x.2 = .move p .ret → x.1.phase p = .returning run.run_id r →
            r = .ok (storedResult run binding false) := by
  have hsafe : ∀ x ∈ before, Safe sha256 x.1 := by
    intro x hx
    obtain ⟨_, hrun⟩ := hbefore.leads_of_mem hx
    exact safe_of_run hrun safe_initial
  have hs := safe_of_run hbefore safe_initial
  refine ⟨hs.once, ?_, ?_, ?_⟩
  · intro x hx p prepared _ hp
    exact (hsafe x hx).invoke_started hp
  · intro x hx p completed_at run_id _ hp
    have hheld : (x.1.phase p).holds = some run_id := by rw [hp]; rfl
    exact ⟨(hsafe x hx).holds p run_id hheld, fun q hq => (hsafe x hx).exclusive hq hheld⟩
  · intro run hrun hterminal
    obtain ⟨binding, hbinding, hsettled⟩ := hs.settled hrun hterminal
    have hkept : ∀ {u : Wrappers π} {trace}, Run (Step sha256) s trace u →
        Settled sha256 run (storedResult run binding false) u := by
      intro u trace hu
      exact hu.invariant _ (fun _ _ _ h hstep => h.step hterminal hstep) hsettled
    refine ⟨binding, hbinding, ?_, ?_, ?_⟩
    · intro x hx p prepared _ hp
      obtain ⟨_, hx'⟩ := hafter.leads_of_mem hx
      exact (hkept hx').not_invoked hterminal hp
    · intro p hp
      rw [Step, Wrappers.step, hp]
      simp only [advance, afterRead, (hkept hafter).reports]
    · intro p hp hraise x hx r _ hreturns
      obtain ⟨early, late, hearly, -, rfl⟩ := hafter.split_of_mem hx
      have hretrying := hearly.invariant_of
        (fun u => Settled sha256 run (storedResult run binding false) u ∧
          Retrying run.run_id (storedResult run binding false) (u.phase p))
        (fun _ a => ∀ e, a ≠ .move p (.raise e))
        (fun _ a _ hcond h hstep => ⟨h.1.step hterminal hstep, h.1.retrying h.2 hcond hstep⟩)
        (fun y hy => hraise y (List.mem_append_left _ hy)) ⟨hsettled, fun h => absurd h hp⟩
      rcases hretrying.2 (by rw [hreturns]; rfl) with hc | hr
      · rw [hreturns] at hc
        cases hc
      · rw [hreturns] at hr
        cases hr
        rfl

/-! ## One run, executed and asked for again -/

/-- The canonical envelope of an exploratory run with a command. -/
def sampleEnvelope : Text :=
  Json.canonicalText (F := Binary64) (.obj [
    (text "command", .obj [(text "argv", .arr [.str (text "msm")]),
      (text "working_directory", .str (text "/msm"))]),
    (text "registration_status", .str (text "exploratory")),
    (text "run_id", .str (text "run_1")),
    (text "snapshot", .obj [(text "dataset_version", .str (text "v1")),
      (text "out_of_sample_window", .obj [
        (text "end", .str (text "2024-02-01")), (text "start", .str (text "2024-01-01"))])]),
    (text "strategy_id", .str (text "momentum"))])

/-- The SHA-256 digest of the sample envelope. -/
def sampleDigest : Text :=
  text "665db13c3138d57de55d" ++ text "e74f3718fc66fa93f93a" ++ text "1ad3f788d3667e68f095" ++
    text "8c13"

/-- A digest that agrees with SHA-256 on the sample envelope. -/
def sampleSha256 (s : Text) : Text := if s = sampleEnvelope then sampleDigest else s

/-- The run is created, and the first process executes it. -/
def sampleExecution : List (Action Bool) :=
  .service (.operations [.create_exploratory_run (text "run_1") Registry.sampleTime (text "key")
    (text "hash") (text "momentum") (text "v1") sampleEnvelope (text "sha256:" ++ sampleDigest)]) ::
  [.call (text "run_1"), .read, .acquire, .inspect, .start Registry.sampleTime, .invoke,
    .outcome (.exited 0), .finish Registry.sampleTime, .report, .release, .ret].map (.move true)

/-- The run once it is completed. -/
def sampleCompleted : RunRow :=
  ⟨text "run_1", none, Registry.sampleTime.isoformat, .completed,
    some Registry.sampleTime.isoformat, some Registry.sampleTime.isoformat, some 0, none⟩

theorem sample_executes :
    (follow (step sampleSha256) initial sampleExecution).any (fun s =>
      s.registry.runs == [sampleCompleted] &&
        s.invoked.map Invocation.run_id == [text "run_1"] &&
        (s.phase false).run? == none) = true := by
  decide +kernel

theorem executed_at_most_once_sample :
    ∃ (s : Wrappers Bool) (binding : RunBindingRow), s.registry.runs = [sampleCompleted] ∧
      s.invoked.map Invocation.run_id = [text "run_1"] ∧
      ∃ t, Step sampleSha256 s (.move false (.call (text "run_1"))) t ∧
        Step sampleSha256 t (.move false .read) (t.enter false
          (.returning (text "run_1") (.ok (storedResult sampleCompleted binding false)))) := by
  obtain ⟨s, hfollow, hstate⟩ := (Option.any_eq_true _ _).mp sample_executes
  simp only [Bool.and_eq_true, beq_iff_eq] at hstate
  obtain ⟨⟨hruns, hinvoked⟩, hrun?⟩ := hstate
  obtain ⟨before, hbefore, -⟩ := Run.of_follow hfollow
  have hcall : Step sampleSha256 s (.move false (.call (text "run_1")))
      (s.enter false (.called (text "run_1"))) := by
    rw [Step, Wrappers.step, run?_eq_none hrun?, advance]
  obtain ⟨-, -, -, hterminal⟩ := executed_at_most_once sampleSha256 hbefore (Run.single hcall)
  obtain ⟨binding, -, -, hread, -⟩ := hterminal sampleCompleted (by rw [hruns]; simp) rfl
  exact ⟨s, binding, hruns, hinvoked, _, hcall, hread false (by rw [enter_phase, if_pos rfl]; rfl)⟩

end Wrappers

end Pine
