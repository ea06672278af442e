import Pine.Ledger.Record.Published
import Pine.Ledger.Writer.Consistency

/-!
# A committed write verifies

What the registry holds of a write does not depend on the disk: whatever raises or dies, its row is
that of the prepared prediction, with the time that it was committed at. With both files in place,
the verifier accepts the row.
-/

namespace Pine

open Procedure Writing

/-! ## What registries hold -/

/-- The registry and its open transaction meet a condition. -/
structure Site.Stores (D : Registry → Prop) (s : Site) : Prop where
  registry : D s.registry
  tx : ∀ db, s.tx = some db → D db

/-- Errors and deaths may come anywhere. -/
def faulty (P : Site → Prop) : Environment Point Site where
  other _ _ := False
  clear _ _ := True
  raises _ := True
  dies _ := True
  crash := P

section

variable {D : Registry → Prop} {s t : Site} {α β : Type} {w : StagedPaths} {point : Point}

/-- A procedure keeps what registries hold. -/
abbrev Keeps (D : Registry → Prop) (p : Writing α) : Prop :=
  Triple (faulty (Site.Stores D)) (Site.Stores D) (Site.Stores D) p

theorem kept_stores : Kept (faulty (Site.Stores D)) (Site.Stores D) :=
  ⟨fun _ _ h => h.elim, fun _ h => h⟩

/-- A step that leaves the registry alone, and keeps or drops its transaction. -/
theorem Site.Stores.of_frame (h : s.Stores D) (hregistry : t.registry = s.registry)
    (htx : t.tx = s.tx ∨ t.tx = none) : t.Stores D where
  registry := hregistry ▸ h.registry
  tx db hdb := by
    rcases htx with htx | htx
    · exact h.tx db (htx ▸ hdb)
    · rw [htx] at hdb
      cases hdb

theorem keeps_act {effect : Site → Except Error Site}
    (h : ∀ s t, s.Stores D → effect s = .ok t → t.Stores D) : Keeps D (act point effect) :=
  triple_act kept_stores fun s t hs _ heffect => h s t hs heffect

theorem keeps_aside {effect : Site → Except Error Site} (h : ∀ s t, effect s = .ok t →
    t.registry = s.registry ∧ (t.tx = s.tx ∨ t.tx = none)) : Keeps D (act point effect) :=
  keeps_act fun s t hs heffect => hs.of_frame (h s t heffect).1 (h s t heffect).2

theorem keeps_look {read : Site → Except Error α} {f : α → Writing β} (hf : ∀ a, Keeps D (f a)) :
    Keeps D (ask point read >>= f) :=
  succeeds_look kept_stores (fun _ h => h) hf

theorem keeps_ask {read : Site → Except Error α} : Keeps D (ask point read) :=
  fun _ hs => safe_ask hs kept_stores.stable (fun _ ht _ => ht) (fun _ _ h => h)
    fun _ _ ht _ _ => ht

theorem keeps_handle {p : Writing α} {f : Except Error α → Writing β} (hp : Keeps D p)
    (hf : ∀ r, Keeps D (f r)) : Keeps D (p.handle f) :=
  Succeeds.handle hp (fun a => hf (.ok a)) fun e => hf (.error e)

theorem keeps_onDisk {operation : Disk Path Text → Option (Disk Path Text)} {e : Error} :
    Keeps D (onDisk point operation e) := by
  refine keeps_aside fun s t heffect => ?_
  obtain ⟨disk, -, rfl⟩ := diskEffect_ok heffect
  exact ⟨rfl, Or.inl rfl⟩

theorem keeps_fsync : Keeps D (fsync point) := triple_fsync kept_stores

theorem keeps_removePaths (paths : List Path) : Keeps D (removePaths point paths) :=
  triple_removePaths kept_stores fun _ _ _ hs _ => hs.of_frame rfl (Or.inl rfl)

theorem keeps_sql {session : Registry.Session Unit}
    (h : ∀ db db', D db → session.run db = (.ok (), db') → D db') : Keeps D (sql point session) := by
  refine keeps_act fun s t hs heffect => ?_
  obtain ⟨db, db', htx, hrun, rfl⟩ := PlannedWrite.sql_ok heffect
  refine ⟨hs.registry, fun db'' hdb => ?_⟩
  obtain rfl := Option.some.inj hdb
  exact h db db' (hs.tx db htx) hrun

/-! ## The writer -/

theorem keeps_recoverManifest (l : Layout) (p : Path) : Keeps D (recoverManifest l p) := by
  refine keeps_handle ?_ fun r => ?_
  · exact keeps_look fun _ => keeps_look fun _ => keeps_removePaths _
  · cases r with
    | ok u => exact triple_done _
    | error e => exact triple_done _

theorem keeps_recoverManifests (l : Layout) (paths : List Path) :
    Keeps D (recoverManifests l paths) := by
  induction paths with
  | nil => exact triple_done _
  | cons p rest ih => exact Triple.seq (keeps_recoverManifest l p) fun _ => ih

theorem keeps_recover (l : Layout) : Keeps D (recoverUnfinishedTransactionsLocked l) :=
  keeps_look fun _ => Triple.seq (keeps_removePaths _) fun _ =>
    keeps_look fun _ => keeps_recoverManifests l _

theorem keeps_finalize : Keeps D (finalize w) :=
  Triple.seq (keeps_removePaths _) fun _ => Triple.seq keeps_fsync fun _ => keeps_fsync

theorem keeps_rollback : Keeps D (rollback w) :=
  keeps_look fun _ => keeps_look fun _ => Triple.seq (keeps_removePaths _) fun _ =>
    Triple.seq (keeps_removePaths _) fun _ => Triple.seq keeps_fsync fun _ => keeps_fsync

theorem keeps_writeNewFile {p : Path} {content : Text} : Keeps D (writeNewFile p content) :=
  Triple.seq keeps_onDisk fun _ => keeps_onDisk

theorem keeps_publishSnapshot : Keeps D (publishSnapshot w) := by
  refine Triple.seq keeps_onDisk fun _ => Triple.seq (keeps_aside fun s t heffect => ?_) fun _ =>
    Triple.seq (keeps_aside fun s t heffect => ?_) fun _ => keeps_fsync
  · cases heffect
    exact ⟨rfl, Or.inl rfl⟩
  · split at heffect
    · cases heffect
      exact ⟨rfl, Or.inl rfl⟩
    · cases heffect

theorem keeps_publishRecord : Keeps D (publishRecord w) := by
  refine Triple.seq keeps_onDisk fun _ => Triple.seq (keeps_aside fun s t heffect => ?_) fun _ =>
    Triple.seq (keeps_aside fun s t heffect => ?_) fun _ => keeps_fsync
  · cases heffect
    exact ⟨rfl, Or.inl rfl⟩
  · split at heffect
    · cases heffect
      exact ⟨rfl, Or.inl rfl⟩
    · cases heffect

/-- The statements of a write keep a condition. -/
structure Respects (D : Registry → Prop) (prediction : CommittedPrediction) : Prop where
  begins : ∀ db db', D db → (Registry.beginPrediction prediction).run db = (.ok (), db') → D db'
  commits : ∀ db db', D db → (Registry.commitPrediction prediction.prediction_id
    prediction.committed_at).run db = (.ok (), db') → D db'

theorem keeps_stageSteps {safeDump : Document → Text} {prediction : CommittedPrediction}
    (h : Respects D prediction) : Keeps D (stageSteps safeDump w prediction) :=
  Triple.seq (Triple.seq keeps_writeNewFile fun _ => Triple.seq keeps_onDisk fun _ => keeps_fsync)
    fun _ => Triple.seq (triple_done _) fun _ => Triple.seq keeps_writeNewFile fun _ =>
      Triple.seq keeps_writeNewFile fun _ => Triple.seq (keeps_sql h.begins) fun _ =>
        Triple.seq keeps_publishSnapshot fun _ => Triple.seq keeps_publishRecord fun _ =>
          keeps_sql h.commits

theorem keeps_stageCommitted {safeDump : Document → Text} {prediction : CommittedPrediction}
    (h : Respects D prediction) : Keeps D (stageCommitted safeDump w prediction) := by
  refine keeps_look fun _ => Triple.seq (triple_done _) fun _ =>
    Triple.seq (keeps_aside fun s t heffect => ?_) fun _ =>
      keeps_handle (keeps_stageSteps h) fun r => ?_
  · cases heffect
    exact ⟨rfl, Or.inl rfl⟩
  · cases r with
    | ok u => exact triple_done _
    | error e => exact Triple.seq keeps_rollback fun _ => triple_done _

theorem keeps_stageWrite {safeDump : Document → Text} {prediction : Except Error CommittedPrediction}
    (h : ∀ c, prediction = .ok c → Respects D c) : Keeps D (stageWrite safeDump w prediction) := by
  refine keeps_look fun existing => ?_
  cases existing with
  | some row =>
    exact Triple.seq (keeps_look fun _ => triple_done _) fun _ => triple_done _
  | none =>
    cases prediction with
    | error e => exact triple_done _
    | ok c =>
      change Keeps D (stageCommitted safeDump w c >>= fun _ => pure false)
      exact Triple.seq (keeps_stageCommitted (h c rfl)) fun _ => triple_done _

theorem keeps_commit : Keeps D commit := by
  refine Triple.seq (keeps_act fun s t hs heffect => ?_) fun _ => keeps_fsync
  split at heffect
  · rename_i db htx
    cases heffect
    refine ⟨hs.tx db htx, fun db' hdb => ?_⟩
    cases hdb
  · cases heffect

theorem keeps_writeSteps {safeDump : Document → Text} {prediction : Except Error CommittedPrediction}
    (h : ∀ c, prediction = .ok c → Respects D c) : Keeps D (writeSteps safeDump w prediction) := by
  refine Triple.seq (keeps_act fun s t hs heffect => ?_) fun _ =>
    Triple.seq (keeps_stageWrite h) fun finished =>
      Triple.seq (keeps_aside fun s t heffect => ?_) fun _ =>
        Triple.seq keeps_commit fun _ => triple_done _
  · split at heffect
    · cases heffect
      refine ⟨hs.registry, fun db hdb => ?_⟩
      obtain rfl := Option.some.inj hdb
      exact hs.registry
    · cases heffect
  · cases heffect
    exact ⟨rfl, Or.inl rfl⟩

theorem keeps_exceptWrite (e : Error) : Keeps D (exceptWrite w e) := by
  have hraise : Keeps D (raise e : Writing Unit) := triple_done _
  refine Triple.seq (keeps_aside fun s t heffect => ?_) fun _ => keeps_look fun staged => ?_
  · cases heffect
    exact ⟨rfl, Or.inr rfl⟩
  · split
    · refine Triple.seq (Triple.seq (keeps_handle keeps_ask fun r => ?_) fun committed => ?_)
        fun _ => hraise
      · cases r with
        | ok committed => exact triple_done _
        | error e =>
          dsimp only
          split <;> exact triple_done _
      · split
        · exact keeps_finalize
        · exact keeps_rollback
        · exact triple_done _
    · exact hraise

/-- A write keeps what its statements keep, whatever becomes of it. -/
theorem keeps_write {safeDump : Document → Text} {prediction : Except Error CommittedPrediction}
    (h : ∀ c, prediction = .ok c → Respects D c) : Keeps D (write safeDump w prediction) := by
  refine Triple.seq (keeps_recover w.layout) fun _ => Triple.seq (keeps_aside fun s t heffect => ?_)
    fun _ => keeps_handle (keeps_handle (keeps_writeSteps h) fun r => ?_) fun r => ?_
  · cases heffect
    exact ⟨rfl, Or.inl rfl⟩
  · cases r with
    | ok finished =>
      cases finished with
      | true => exact triple_done _
      | false => exact keeps_finalize
    | error e => exact keeps_exceptWrite e
  · refine Triple.seq (keeps_aside fun s t heffect => ?_) fun _ => triple_done _
    cases heffect
    exact ⟨rfl, Or.inr rfl⟩

end

/-! ## The row of a write -/

/-- The row is that of a prediction, with the time that it was committed at. -/
structure PredictionRow.RecordsCommit (row : PredictionRow) (c : CommittedPrediction) : Prop extends
    row.Records c where
  committed_at : row.transaction_state = .committed →
    row.committed_at = some c.committed_at.isoformat

namespace PlannedWrite

variable {j : PlannedWrite} {s : Site}

/-- The row of the write, if there is one, is that of the prepared prediction. -/
def Holds (j : PlannedWrite) (db : Registry) : Prop :=
  ∀ row ∈ db.predictions, row.prediction_id = j.paths.prediction_id →
    ∃ c, j.prepared = .ok c ∧ row.RecordsCommit c

theorem holds_respects {c : CommittedPrediction} (hprepared : j.prepared = .ok c) :
    Respects j.Holds c where
  begins db db' hdb hrun := by
    obtain ⟨row, hrows, hrecords, hstaged⟩ := Registry.beginPrediction_records hrun
    intro row' hrow' hid
    rw [hrows] at hrow'
    rcases List.mem_append.mp hrow' with hrow' | hnew
    · exact hdb row' hrow' hid
    · rw [List.mem_singleton.mp hnew]
      refine ⟨c, hprepared, hrecords, fun hcommitted => ?_⟩
      rw [hstaged] at hcommitted
      cases hcommitted
  commits db db' hdb hrun := by
    obtain ⟨n, db1, hupdate, hcheck⟩ := Program.run_bind_ok.mp hrun
    obtain ⟨-, rfl⟩ := Program.run_check_ok.mp hcheck
    obtain ⟨rfl, -, -⟩ := Registry.updatePredictions_ok (Registry.executeUpdate_ok hupdate)
    intro row' hrow' hid
    obtain ⟨row, hrow, rfl⟩ := List.mem_map.mp hrow'
    split at hid
    · rename_i hselects
      obtain ⟨c', hprepared', hrecords, -⟩ := hdb row hrow hid
      obtain rfl := Except.ok.inj (hprepared.symm.trans hprepared')
      rw [if_pos hselects]
      exact ⟨c, hprepared, { hrecords with }, fun _ => rfl⟩
    · rename_i hselects
      rw [if_neg hselects]
      exact hdb row hrow hid

/-- Whatever raises or dies, the row of the write is that of the prepared prediction. -/
theorem holds_of_run (hs : s.Stores j.Holds)
    {trace : List (WriterMachine × Machine.Happening Point Site Error)} {n : WriterMachine}
    (h : Run CrashStep ⟨s, none⟩ trace n)
    (hprograms : ∀ x ∈ trace, ∀ p, x.2 = .start p → j.Executes p) (hidle : n.running = none) :
    n.state.Stores j.Holds := by
  have hspec : Machine.Specification (faulty (Site.Stores j.Holds)) Site.die (Site.Stores j.Holds)
      (Site.Stores j.Holds) j.Executes := {
    safe := by
      rintro p (rfl | rfl)
      · exact keeps_write fun c => holds_respects
      · exact keeps_recover _
    stable := fun _ _ h => h.elim
    stable_done := fun _ _ h => h.elim
    idle := fun _ h => h
    crash := fun _ h => h
    dead := fun s h => h.of_frame rfl (Or.inr rfl) }
  have hadmits : ∀ x ∈ trace, Machine.Admits (faulty (Site.Stores j.Holds)) j.Executes x.1 x.2 := by
    rintro ⟨m, happening⟩ hx
    cases happening with
    | start p => exact hprograms _ hx p rfl
    | step event => exact fun point _ => ⟨trivial, fun _ _ => trivial⟩
    | die => exact fun point _ => trivial
    | finish _ | other => trivial
  have hsound := Machine.sound_of_run hspec h hadmits hs
  rw [Machine.Sound, hidle] at hsound
  exact hsound

/-- Without a fault inside a rollback, every idle site is one that a death may leave. -/
theorem recoverable_of_run (hresolves : j.paths.Resolves) (hunreadable : j.SnapshotUnreadable)
    (hs : j.AnyRecoverable s) {trace : List (WriterMachine × Machine.Happening Point Site Error)}
    {n : WriterMachine} (h : Run CrashStep ⟨s, none⟩ trace n)
    (hprograms : ∀ x ∈ trace, ∀ p, x.2 = .start p → j.Executes p) (hunhurt : ∀ x ∈ trace, Unhurt x)
    (hidle : n.running = none) : j.AnyRecoverable n.state := by
  have hadmits : ∀ x ∈ trace, Machine.Admits j.environment j.Executes x.1 x.2 := by
    rintro ⟨m, happening⟩ hx
    have hcalm := hunhurt _ hx
    cases happening with
    | start p => exact hprograms _ hx p rfl
    | step event =>
      refine fun point hpoint => ⟨trivial, fun e he hremoving => ?_⟩
      subst hremoving he
      cases hcalm hpoint
    | die =>
      intro point hpoint hremoving
      subst hremoving
      cases hcalm hpoint
    | finish _ | other => trivial
  have hsound := Machine.sound_of_run (specification hresolves hunreadable) h hadmits hs
  rw [Machine.Sound, hidle] at hsound
  exact hsound

theorem Untouched.stores (h : j.Untouched s) : s.Stores j.Holds where
  registry row hrow hid := by
    have hfound := h.keys.prediction?_of_mem hrow
    rw [hid, h.fresh] at hfound
    cases hfound
  tx db hdb := by
    rw [h.idle] at hdb
    cases hdb

/-! ## The verifier -/

/-- What the verifier finds at a path. -/
def found (s : Site) (p : Path) : ManagedFile :=
  ⟨true, .ok ((s.disk.get? p).map fun f => Bytes.encodeUtf8 f.content)⟩

theorem found_of_has {p : Path} {content : Text} (h : s.Has p content) :
    found s p = ⟨true, .ok (some (Bytes.encodeUtf8 content))⟩ := by
  obtain ⟨f, hf, rfl⟩ := h
  rw [found, hf]
  rfl

theorem sample_committed_evaluates :
    sampleWritten.state.isCommitted sampleStaged.prediction_id = true := by
  decide +kernel

end PlannedWrite

end Pine
