import Pine.Ledger.Services

/-!
# Imported runs

What the registry holds of an imported run: a terminal run of no prediction, bound as
external under the hash of its evidence. Nothing changes it, the same evidence is
answered from it, and no request to the run service leads to it.
-/

namespace Pine

open Program (Relates)

namespace Registry

variable {L : EvidenceLibrary} {sha256 : Text → Text} {db db' : Registry}
  {e : ExternalRunEvidence} {i : ExternalRunImportRow} {run : RunRow} {binding : RunBindingRow}
  {row : ExternalRow} {world : IngestWorld}

/-- The rows of an imported run. -/
structure Imported (L : EvidenceLibrary) (sha256 : Text → Text) (db : Registry)
    (i : ExternalRunImportRow) (run : RunRow) (binding : RunBindingRow) : Prop where
  run_stored : run ∈ db.runs
  run_id : run.run_id = i.run_id
  binding_stored : binding ∈ db.run_bindings
  binding_id : binding.run_id = i.run_id
  prediction_id : run.prediction_id = none
  terminal : run.state.isTerminal = true
  registration_status : binding.registration_status = .unregistered_external
  request_hash : binding.request_hash = i.evidence_hash
  evidence : ∃ e : ExternalRunEvidence, (e.source_system, e.source_run_id) = i.source ∧
    sha256Json sha256 (e.modelDump L) = .ok i.evidence_hash
  answers : ∃ r, externalResult L sha256 ⟨run, binding, i⟩ false = .ok r

/-- The invariant of the imports. -/
structure Imports (L : EvidenceLibrary) (sha256 : Text → Text) (db : Registry) : Prop where
  keys : db.Keys
  unique : db.Unique
  imported : ∀ i ∈ db.external_run_imports, ∃ run binding, db.Imported L sha256 i run binding

theorem imports_empty : empty.Imports L sha256 where
  keys := keys_empty
  unique := unique_empty
  imported := by simp [empty]

/-- What is imported stays imported, with the same rows. -/
theorem Imported.evolves (h : db.Imported L sha256 i run binding) (hevolves : db.Evolves db') :
    db'.Imported L sha256 i run binding := by
  obtain ⟨run', hrun', hnext⟩ := hevolves.runs.mem h.run_stored
  obtain rfl := hnext.terminal h.terminal
  exact { h with
    run_stored := hrun'
    binding_stored := hevolves.run_bindings.subset h.binding_stored }

/-- A transaction that imports nothing keeps the invariant. -/
theorem Imports.same (h : db.Imports L sha256) (hevolves : db.Evolves db')
    (hk : db.Keys → db'.Keys) (hu : db.Unique → db'.Unique) (hsame : SameImports db db') :
    db'.Imports L sha256 := by
  refine ⟨hk h.keys, hu h.unique, fun i hi => ?_⟩
  rw [hsame] at hi
  obtain ⟨run, binding, himported⟩ := h.imported i hi
  exact ⟨run, binding, himported.evolves hevolves⟩

/-- Native operations keep the invariant. -/
theorem Imports.commits (h : db.Imports L sha256)
    (hcommits : Commits sha256 Operation.isNative db db') :
    db'.Imports L sha256 ∧ SameImports db db' := by
  obtain ⟨hevolves, hk, hu⟩ := hcommits.evolves
  obtain ⟨ops, hops, hrun⟩ := hcommits
  have hsame : SameImports db db' := by
    have hrelates := sequence_sameImports sha256 hops db
    rwa [hrun] at hrelates
  exact ⟨h.same hevolves hk hu hsame, hsame⟩

/-! ## Rows of an import -/

theorem externalRunImport?_some {source_system source_run_id : Text}
    (h : db.externalRunImport? source_system source_run_id = some row) :
    row.imported ∈ db.external_run_imports ∧
      row.imported.source = (source_system, source_run_id) ∧
      db.run? row.imported.run_id = some row.run ∧
      db.binding? row.imported.run_id = some row.binding := by
  obtain ⟨found, hfound, hjoin⟩ := Option.bind_eq_some_iff.mp h
  have hsource := List.find?_some hfound
  simp only [Bool.and_eq_true, beq_iff_eq] at hsource
  split at hjoin
  · rename_i run binding hrun hbinding
    cases hjoin
    exact ⟨List.mem_of_find?_eq_some hfound, by rw [ExternalRunImportRow.source, hsource.1, hsource.2],
      hrun, hbinding⟩
  · cases hjoin

/-- Imports of one source run are one import. -/
theorem Unique.import_eq (hu : db.Unique) {j : ExternalRunImportRow}
    (hi : i ∈ db.external_run_imports) (hj : j ∈ db.external_run_imports)
    (h : i.source = j.source) : i = j :=
  List.inj_on_of_nodup_map hu.sources hi hj h

/-- The rows of an import are found under its source run. -/
theorem Imported.found (h : db.Imported L sha256 i run binding) (hi : i ∈ db.external_run_imports)
    (hk : db.Keys) (hu : db.Unique) {source_system source_run_id : Text}
    (hsource : (source_system, source_run_id) = i.source) :
    db.externalRunImport? source_system source_run_id = some ⟨run, binding, i⟩ := by
  obtain ⟨rfl, rfl⟩ := Prod.mk.inj hsource
  have hrun := hk.run?_of_mem h.run_stored
  have hbinding := hk.binding?_of_mem h.binding_stored
  rw [h.run_id] at hrun
  rw [h.binding_id] at hbinding
  have hfind : db.external_run_imports.find? (fun r => r.source_system == i.source_system &&
      r.source_run_id == i.source_run_id) = some i := by
    have hsome : (db.external_run_imports.find? (fun r => r.source_system == i.source_system &&
        r.source_run_id == i.source_run_id)).isSome = true :=
      List.find?_isSome.mpr ⟨i, hi, by simp⟩
    obtain ⟨j, hj⟩ := Option.isSome_iff_exists.mp hsome
    have hsame := List.find?_some hj
    simp only [Bool.and_eq_true, beq_iff_eq] at hsame
    rw [hj, hu.import_eq (List.mem_of_find?_eq_some hj) hi (Prod.ext hsame.1 hsame.2)]
  rw [externalRunImport?, hfind, Option.bind_some, hrun, hbinding]

/-- What was answered at the import is answered later, but for `created`. -/
theorem externalResult_created {created : Bool} {r : ExternalRunImportResult}
    (h : externalResult L sha256 row created = .ok r) :
    externalResult L sha256 row false = .ok { r with created := false } := by
  obtain ⟨envelope, henvelope, h⟩ := bind_eq_ok.mp h
  obtain ⟨_, hobject, h⟩ := bind_eq_ok.mp h
  obtain ⟨hash, hhash, h⟩ := bind_eq_ok.mp h
  obtain ⟨_, hsealed, h⟩ := bind_eq_ok.mp h
  obtain ⟨_, hlow, h⟩ := bind_eq_ok.mp h
  obtain ⟨_, hbound, h⟩ := bind_eq_ok.mp h
  obtain ⟨payload, hpayload, h⟩ := bind_eq_ok.mp h
  obtain ⟨digest, hdigest, h⟩ := bind_eq_ok.mp h
  obtain ⟨_, hevidence, h⟩ := bind_eq_ok.mp h
  obtain ⟨evidence, hvalid, h⟩ := bind_eq_ok.mp h
  obtain ⟨key, hkey, h⟩ := bind_eq_ok.mp h
  obtain ⟨_, hinvariants, h⟩ := bind_eq_ok.mp h
  cases h
  refine bind_eq_ok.mpr ⟨envelope, henvelope, bind_eq_ok.mpr ⟨(), hobject, ?_⟩⟩
  refine bind_eq_ok.mpr ⟨hash, hhash, bind_eq_ok.mpr ⟨(), hsealed, ?_⟩⟩
  refine bind_eq_ok.mpr ⟨(), hlow, bind_eq_ok.mpr ⟨(), hbound, ?_⟩⟩
  refine bind_eq_ok.mpr ⟨payload, hpayload, bind_eq_ok.mpr ⟨digest, hdigest, ?_⟩⟩
  refine bind_eq_ok.mpr ⟨(), hevidence, bind_eq_ok.mpr ⟨evidence, hvalid, ?_⟩⟩
  exact bind_eq_ok.mpr ⟨key, hkey, bind_eq_ok.mpr ⟨(), hinvariants, rfl⟩⟩

/-- A row that verifies is bound under the hash of its evidence, and its result names its run. -/
theorem externalResult_ok {created : Bool} {r : ExternalRunImportResult}
    (h : externalResult L sha256 row created = .ok r) :
    row.binding.request_hash = row.imported.evidence_hash ∧ r.run_id = row.run.run_id ∧
      r.registration_status = .unregistered_external ∧ r.created = created := by
  obtain ⟨envelope, -, h⟩ := bind_eq_ok.mp h
  obtain ⟨_, -, h⟩ := bind_eq_ok.mp h
  obtain ⟨_, -, h⟩ := bind_eq_ok.mp h
  obtain ⟨_, -, h⟩ := bind_eq_ok.mp h
  obtain ⟨_, -, h⟩ := bind_eq_ok.mp h
  obtain ⟨_, -, h⟩ := bind_eq_ok.mp h
  obtain ⟨_, -, h⟩ := bind_eq_ok.mp h
  obtain ⟨_, -, h⟩ := bind_eq_ok.mp h
  obtain ⟨_, -, h⟩ := bind_eq_ok.mp h
  obtain ⟨evidence, -, h⟩ := bind_eq_ok.mp h
  obtain ⟨key, -, h⟩ := bind_eq_ok.mp h
  obtain ⟨_, hinvariants, h⟩ := bind_eq_ok.mp h
  cases h
  have hall : ∀ b ∈ externalInvariants key row envelope evidence, b = true :=
    List.all_eq_true.mp (Bool.not_eq_false _ ▸ refuse_ok.mp hinvariants)
  have hhash := hall (row.binding.request_hash == row.imported.evidence_hash)
    (by simp [externalInvariants])
  exact ⟨eq_of_beq hhash, rfl, rfl, rfl⟩

/-! ## A new import -/

/-- An import runs under a new id, ends terminal, and adds one row. -/
theorem createExternalRunImport_ok {columns : ExternalRun} {u : Unit}
    (h : (createExternalRunImport sha256 columns).run db = (.ok u, db')) :
    columns.run_id ∉ db.runs.map RunRow.run_id ∧
      db'.external_run_imports = db.external_run_imports ++
        [⟨columns.run_id, columns.source_system, columns.source_run_id, columns.evidence_hash,
          columns.ingested_at.isoformat⟩] ∧
      db'.isLowIntegrityTerminal columns.run_id = true := by
  obtain ⟨_, db1, hinserted, hbind⟩ := Program.run_bind_ok.mp h
  obtain ⟨_, db2, hbound, hidentity⟩ := Program.run_bind_ok.mp hbind
  obtain ⟨touch, db3, htouch, hclaim⟩ := Program.run_bind_ok.mp hidentity
  obtain ⟨_, db4, hclaimed, hinsert⟩ := Program.run_bind_ok.mp hclaim
  obtain ⟨_, db5, htouched, hfinish⟩ := Program.run_bind_ok.mp hinsert
  obtain ⟨_, db6, hfinished, hlast⟩ := Program.run_bind_ok.mp hfinish
  have hsame {α : Type} {p : Session α} {a b : Registry} {r : Except Error α}
      (hp : Relates SameImports p) (hrun : p.run a = (r, b)) : SameImports a b := by
    have hrelates := hp a
    rwa [hrun] at hrelates
  have hnew := (insertRun_ok (Program.run_update_ok.mp hinserted)).2
  obtain ⟨himport, hterminal, -⟩ := insertExternalRunImport_ok (Program.run_update_ok.mp hlast)
  have h1 := hsame (SameImports.insertRun _) hinserted
  have h2 := hsame (SameImports.bindRun _ _) hbound
  have h3 := hsame (SameImports.bind (SameImports.select _) fun row => by
    cases row <;> exact SameImports.done _) htouch
  have h4 := hsame (SameImports.updateRuns (fun _ => _) _) hclaimed
  have h5 := hsame (SameImports.insertTouched _ _ _ _) htouched
  have h6 := hsame (SameImports.bind (by unfold bindInteger; split <;> exact SameImports.done _)
    fun _ => SameImports.updateRuns (fun _ => _) _) hfinished
  have hkept : db6.external_run_imports = db.external_run_imports :=
    calc db6.external_run_imports
      _ = db5.external_run_imports := h6
      _ = db4.external_run_imports := h5
      _ = db3.external_run_imports := h4
      _ = db2.external_run_imports := h3
      _ = db1.external_run_imports := h2
      _ = db.external_run_imports := h1
  subst himport
  exact ⟨hnew, by rw [← hkept], hterminal⟩

/-- The rows of a terminal low-integrity run. -/
theorem isLowIntegrityTerminal_some {run_id : Text} (h : db.isLowIntegrityTerminal run_id = true) :
    ∃ run binding, db.run? run_id = some run ∧ db.binding? run_id = some binding ∧
      run.prediction_id = none ∧ run.state.isTerminal = true ∧
      binding.registration_status = .unregistered_external := by
  unfold isLowIntegrityTerminal at h
  split at h
  · rename_i run binding hrun hbinding
    simp only [Bool.and_eq_true, Option.isNone_iff_eq_none, beq_iff_eq] at h
    exact ⟨run, binding, hrun, hbinding, h.1.1, h.1.2, h.2⟩
  · cases h

/-- The columns of an import are those of its evidence. -/
theorem externalRun_ok {evidence_hash : Text} {columns : ExternalRun}
    (h : externalRun L sha256 world e evidence_hash = .ok columns) :
    columns.source_system = e.source_system ∧ columns.source_run_id = e.source_run_id ∧
      columns.evidence_hash = evidence_hash := by
  obtain ⟨_, -, h⟩ := bind_eq_ok.mp h
  obtain ⟨_, -, h⟩ := bind_eq_ok.mp h
  obtain ⟨_, -, h⟩ := bind_eq_ok.mp h
  obtain ⟨_, -, h⟩ := bind_eq_ok.mp h
  cases h
  exact ⟨rfl, rfl, rfl⟩

/-- An ingestion leaves an imported run with the hash of its evidence, and adds no import of a
run that was there. -/
theorem Imports.ingest (h : db.Imports L sha256) {r : ExternalRunImportResult}
    (hingest : (ingestExternalRun L sha256 world e).run db = (.ok r, db')) :
    db'.Imports L sha256 ∧
      (∀ i ∈ db'.external_run_imports, i ∈ db.external_run_imports ∨
        i.run_id ∉ db.runs.map RunRow.run_id) ∧
      ∃ i ∈ db'.external_run_imports, ∃ run binding, db'.Imported L sha256 i run binding ∧
        i.source = (e.source_system, e.source_run_id) ∧
        sha256Json sha256 (e.modelDump L) = .ok i.evidence_hash ∧
        externalResult L sha256 ⟨run, binding, i⟩ false = .ok { r with created := false } := by
  obtain ⟨hevolves, hk, hu⟩ := (ingestExternalRun_commits hingest).evolves
  obtain ⟨hash, hdigest, hrepeated | hnew⟩ := ingestExternalRun_ok hingest
  · obtain ⟨⟨run', binding', i⟩, hrow, rfl, hresult, rfl⟩ := hrepeated
    obtain ⟨hmem, hsource, -, -⟩ := externalRunImport?_some hrow
    obtain ⟨run, binding, himported⟩ := h.imported i hmem
    cases hrow.symm.trans (himported.found hmem h.keys h.unique hsource.symm)
    exact ⟨h, fun j hj => .inl hj, i, hmem, _, _, himported, hsource, hdigest,
      externalResult_created hresult⟩
  · obtain ⟨columns, row, -, hcolumns, hcreated, hrow, hresult⟩ := hnew
    obtain ⟨hsystem, hid, hevidence⟩ := externalRun_ok hcolumns
    obtain ⟨hfresh, himports, hterminal⟩ := createExternalRunImport_ok hcreated
    obtain ⟨hmem, hsource, hrun, hbinding⟩ := externalRunImport?_some hrow
    obtain ⟨hrequest, -, -, -⟩ := externalResult_ok hresult
    -- the row that is read back is the one that was added, since sources are unique
    have hadded : row.imported = ⟨columns.run_id, columns.source_system, columns.source_run_id,
        columns.evidence_hash, columns.ingested_at.isoformat⟩ := by
      refine (hu h.unique).import_eq hmem (by rw [himports]; simp) ?_
      rw [hsource, ExternalRunImportRow.source, hsystem, hid]
    obtain ⟨run, binding, hrun', hbinding', hprediction, hstate, hstatus⟩ :=
      isLowIntegrityTerminal_some hterminal
    rw [hadded] at hrun hbinding
    obtain rfl := Option.some.inj (hrun.symm.trans hrun')
    obtain rfl := Option.some.inj (hbinding.symm.trans hbinding')
    have hhash : row.imported.evidence_hash = hash := by rw [hadded]; exact hevidence
    have hnew : db'.Imported L sha256 row.imported row.run row.binding := by
      obtain ⟨hstored, hrun_id⟩ := run?_some hrun
      obtain ⟨hbound, hbinding_id⟩ := binding?_some hbinding
      exact {
        run_stored := hstored
        run_id := by rw [hrun_id, hadded]
        binding_stored := hbound
        binding_id := by rw [hbinding_id, hadded]
        prediction_id := hprediction
        terminal := hstate
        registration_status := hstatus
        request_hash := hrequest
        evidence := ⟨e, hsource.symm, hhash ▸ hdigest⟩
        answers := ⟨_, externalResult_created hresult⟩ }
    refine ⟨⟨hk h.keys, hu h.unique, fun i hi => ?_⟩, fun i hi => ?_,
      row.imported, hmem, row.run, row.binding, hnew, hsource, hhash ▸ hdigest,
      externalResult_created hresult⟩
    · rw [himports] at hi
      rcases List.mem_append.mp hi with hold | hlast
      · obtain ⟨run, binding, himported⟩ := h.imported i hold
        exact ⟨run, binding, himported.evolves hevolves⟩
      · obtain rfl := List.mem_singleton.mp hlast
        exact ⟨row.run, row.binding, hadded ▸ hnew⟩
    · rw [himports] at hi
      rcases List.mem_append.mp hi with hold | hlast
      · exact .inl hold
      · obtain rfl := List.mem_singleton.mp hlast
        exact .inr hfresh

/-! ## Repeated ingestions -/

/-- Evidence of an imported run is answered from its rows, and other evidence is refused; neither
changes anything. -/
structure Repeats (L : EvidenceLibrary) (sha256 : Text → Text) (db : Registry)
    (e : ExternalRunEvidence) (r : ExternalRunImportResult) : Prop where
  same : ∀ world e', Json.sortKeys (e'.modelDump L) = Json.sortKeys (e.modelDump L) →
    (ingestExternalRun L sha256 world e').run db = (.ok { r with created := false }, db)
  different : ∀ world e', e'.source_system = e.source_system →
    e'.source_run_id = e.source_run_id →
    Json.sortKeys (e'.modelDump L) ≠ Json.sortKeys (e.modelDump L) →
    ∃ error, (ingestExternalRun L sha256 world e').run db = (.error error, db)

/-- The dump of evidence repeats no key. -/
theorem keyed_externalEvidence (L : EvidenceLibrary) (e : ExternalRunEvidence) :
    Keyed (e.modelDump L) := by
  have hnote : Keyed (optionalText e.failure_note) := by cases e.failure_note <;> trivial
  have hartifacts : Keyed (.arr (e.artifacts.map ExternalArtifactEvidence.modelDump)) := by
    refine keyed_items (fun a => ?_) _
    exact keyed_obj ["relative_path", "sha256", "size_bytes"] rfl (by decide)
      ⟨trivial, trivial, trivial, trivial⟩
  refine keyed_obj ["evidence_format_version", "source_system", "source_run_id", "strategy_id",
    "started_at", "completed_at", "exit_code", "failure_note", "command", "working_directory",
    "snapshot", "artifacts", "metadata"] rfl (by decide) ?_
  exact ⟨trivial, trivial, trivial, trivial, trivial, trivial, trivial, hnote,
    keyed_strings _, trivial, e.snapshot.modelDump.keyed, hartifacts, e.metadata.keyed, trivial⟩

theorem ingestExternalRun_same {r : ExternalRunImportResult}
    (hrow : db.externalRunImport? e.source_system e.source_run_id = some row)
    (hhash : sha256Json sha256 (e.modelDump L) = .ok row.imported.evidence_hash)
    (hresult : externalResult L sha256 row false = .ok r) :
    (ingestExternalRun L sha256 world e).run db = (.ok r, db) := by
  refine Program.run_bind_ok.mpr ⟨_, db, Program.run_check_ok.mpr ⟨hhash, rfl⟩, ?_⟩
  refine Program.run_bind_ok.mpr ⟨some row, db,
    Program.run_query_ok.mpr ⟨congrArg Except.ok hrow, rfl⟩, ?_⟩
  refine Program.run_bind_ok.mpr ⟨(), db,
    Program.run_check_ok.mpr ⟨refuse_ok.mpr (by simp), rfl⟩, ?_⟩
  exact Program.run_check_ok.mpr ⟨hresult, rfl⟩

theorem ingestExternalRun_different
    (hrow : db.externalRunImport? e.source_system e.source_run_id = some row)
    (hhash : sha256Json sha256 (e.modelDump L) ≠ .ok row.imported.evidence_hash) :
    ∃ error, (ingestExternalRun L sha256 world e).run db = (.error error, db) := by
  unfold ingestExternalRun
  cases hdigest : sha256Json sha256 (e.modelDump L) with
  | error error =>
    exact ⟨error, by rw [Program.run_bind, Program.run_check]⟩
  | ok hash =>
    have hdiffers : row.imported.evidence_hash ≠ hash := fun heq => hhash (heq ▸ hdigest)
    refine ⟨.idempotencyConflictError
      (text "external source run identity is already bound to different evidence"), ?_⟩
    simp only [Program.run_bind, Program.run_check, select, Program.run_query, hrow]
    rw [refuse, if_pos hdiffers]

/-- An imported run repeats its answer, since the digest separates texts. -/
theorem Imported.repeats (h : db.Imported L sha256 i run binding)
    (hi : i ∈ db.external_run_imports) (hk : db.Keys) (hu : db.Unique)
    (hsha : Function.Injective sha256) {r : ExternalRunImportResult}
    (hsource : (e.source_system, e.source_run_id) = i.source)
    (hhash : sha256Json sha256 (e.modelDump L) = .ok i.evidence_hash)
    (hresult : externalResult L sha256 ⟨run, binding, i⟩ false = .ok { r with created := false }) :
    Repeats L sha256 db e r where
  same world e' hsame := by
    have hhash' : sha256Json sha256 (e'.modelDump L) = .ok i.evidence_hash :=
      (sha256Json_congr hsame sha256).trans hhash
    have hfield (key : Text) : ((e'.modelDump L).get? key).map Json.sortKeys =
        ((e.modelDump L).get? key).map Json.sortKeys := by
      rw [← get?_sortKeys (keyed_externalEvidence L e'), hsame,
        get?_sortKeys (keyed_externalEvidence L e)]
    have hsystem : some (Json.Value.str e'.source_system) = some (.str e.source_system) :=
      hfield (text "source_system")
    have hid : some (Json.Value.str e'.source_run_id) = some (.str e.source_run_id) :=
      hfield (text "source_run_id")
    refine ingestExternalRun_same (h.found hi hk hu ?_) hhash' hresult
    rw [Json.Value.str.inj (Option.some.inj hsystem), Json.Value.str.inj (Option.some.inj hid),
      hsource]
  different world e' hsystem hid hdiffers := by
    refine ingestExternalRun_different (h.found hi hk hu (by rw [hsystem, hid, hsource])) ?_
    intro hhash'
    obtain ⟨t, ht, ht'⟩ := sha256Json_injective hsha hhash' hhash
    exact hdiffers (canonicalJson_injective (keyed_externalEvidence L e')
      (keyed_externalEvidence L e) ht ht')

/-! ## Requests to the run service -/

/-- A stored run that is not imported. -/
def Native (db : Registry) (run_id : Text) : Prop :=
  run_id ∈ db.runs.map RunRow.run_id ∧
    run_id ∉ db.external_run_imports.map ExternalRunImportRow.run_id

/-- A native run stays native when no stored run is imported. -/
theorem Native.evolves {run_id : Text} (h : db.Native run_id) (hevolves : db.Evolves db')
    (hnew : ∀ i ∈ db'.external_run_imports, i ∈ db.external_run_imports ∨
      i.run_id ∉ db.runs.map RunRow.run_id) : db'.Native run_id := by
  obtain ⟨hstored, hnot⟩ := h
  constructor
  · obtain ⟨run, hrun, rfl⟩ := List.mem_map.mp hstored
    obtain ⟨run', hrun', hnext⟩ := hevolves.runs.mem hrun
    exact List.mem_map.mpr ⟨run', hrun', hnext.run_id⟩
  · intro himported
    obtain ⟨i, hi, rfl⟩ := List.mem_map.mp himported
    rcases hnew i hi with hold | hfresh
    · exact hnot (List.mem_map_of_mem hold)
    · exact hfresh hstored

theorem SameImports.no_new (h : SameImports db db') : ∀ i ∈ db'.external_run_imports,
    i ∈ db.external_run_imports ∨ i.run_id ∉ db.runs.map RunRow.run_id :=
  fun _ hi => .inl (h ▸ hi)

/-- The identity of a request is an object with a mode. -/
theorem identity_mode (call : RunCall) (directory : Text) :
    Keyed (call.identity directory) ∧ ∃ mode,
      (call.identity directory).get? (text "mode") = some (.str mode) := by
  cases call with
  | preregistered request =>
    exact ⟨keyed_obj_optional ["mode", "prediction_id", "command", "working_directory"] _ _ rfl
      (by decide) ⟨trivial, trivial, keyed_strings _, trivial, trivial⟩, _, rfl⟩
  | exploratory request =>
    exact ⟨keyed_obj_optional ["mode", "strategy_id", "in_sample_window", "out_of_sample_window",
      "command", "working_directory"] _ _ rfl (by decide) ⟨trivial, trivial, keyed_dateWindow _,
      keyed_dateWindow _, keyed_strings _, trivial, trivial⟩, _, rfl⟩

/-- No request has the hash of evidence, since evidence has no mode. -/
theorem identity_ne_modelDump (hsha : Function.Injective sha256) {call : RunCall}
    {directory hash : Text} (h : sha256Json sha256 (call.identity directory) = .ok hash) :
    sha256Json sha256 (e.modelDump L) ≠ .ok hash := by
  intro h'
  obtain ⟨hkeyed, mode, hmode⟩ := identity_mode call directory
  obtain ⟨t, ht, ht'⟩ := sha256Json_injective hsha h h'
  have hsame := canonicalJson_injective hkeyed (keyed_externalEvidence L e) ht ht'
  have hget := get?_sortKeys hkeyed (text "mode")
  have hnone : (e.modelDump L).get? (text "mode") = none := rfl
  rw [hsame, get?_sortKeys (keyed_externalEvidence L e), hmode, hnone] at hget
  cases hget

/-- A preparation never returns an imported run, whatever its key. -/
theorem Imports.prepare (h : db.Imports L sha256) (hsha : Function.Injective sha256)
    {call : RunCall} {world : PrepareWorld} {run_id : Text}
    (hprepare : (call.prepare sha256 world).run db = (.ok run_id, db')) :
    db'.Imports L sha256 ∧ SameImports db db' ∧ db.Evolves db' ∧ db'.Native run_id := by
  have hcommits := prepare_commits hprepare
  have hevolves := hcommits.evolves.1
  obtain ⟨himports, hsame⟩ := h.commits hcommits
  refine ⟨himports, hsame, hevolves, ?_⟩
  obtain ⟨directory, request_hash, hdigest, hfrom⟩ := prepare_ok hprepare
  cases hfrom with
  | retried run binding hfound hhash hid hunchanged =>
    obtain rfl := hid
    rw [hunchanged]
    obtain ⟨b, hkey, hjoin⟩ := Option.bind_eq_some_iff.mp hfound
    obtain ⟨found, hrun, heq⟩ := Option.map_eq_some_iff.mp hjoin
    cases heq
    obtain ⟨hstored, hrun_id⟩ := run?_some hrun
    refine ⟨List.mem_map_of_mem hstored, fun himported => ?_⟩
    -- an imported run is bound under the hash of evidence, which no request has
    obtain ⟨i, hi, hi_id⟩ := List.mem_map.mp himported
    obtain ⟨_, bound, himport⟩ := h.imported i hi
    obtain ⟨e, -, hevidence⟩ := himport.evidence
    have hsame := h.keys.binding?_of_mem himport.binding_stored
    have hbound := h.keys.binding?_of_mem (find?_key_some hkey).1
    rw [himport.binding_id, hi_id, hrun_id, hbound] at hsame
    obtain rfl := Option.some.inj hsame
    rw [← himport.request_hash, hhash] at hevidence
    exact identity_ne_modelDump hsha hdigest hevidence
  | allocated run prediction_id _ _ _ _ _ hstored hallocated hid hbound =>
    obtain rfl := hid
    refine Native.evolves ⟨List.mem_map_of_mem hstored, fun himported => ?_⟩ hevolves hsame.no_new
    -- an imported run belongs to no prediction
    obtain ⟨i, hi, hi_id⟩ := List.mem_map.mp himported
    obtain ⟨row, _, himport⟩ := h.imported i hi
    have hfound := h.keys.run?_of_mem himport.run_stored
    rw [himport.run_id, hi_id, h.keys.run?_of_mem hstored] at hfound
    obtain rfl := Option.some.inj hfound
    rw [himport.prediction_id] at hallocated
    cases hallocated
  | created _ _ _ _ _ hcreated =>
    obtain ⟨_, db1, hinserted, hbind⟩ := Program.run_bind_ok.mp hcreated
    obtain ⟨rfl, hfresh⟩ := insertRun_ok (Program.run_update_ok.mp hinserted)
    have hextends : Extends (fun _ => False) _ db' := (bindRun_keeps run_id _).extends hbind
    have hbound := hextends.evolves
    obtain ⟨run, hrun, hnext⟩ := hbound.runs.mem (List.mem_append_right _ (List.mem_singleton_self _))
    refine ⟨List.mem_map.mpr ⟨run, hrun, hnext.run_id⟩, fun himported => ?_⟩
    -- every import has a run in the table that the new run was not in
    obtain ⟨i, hi, hi_id⟩ := List.mem_map.mp himported
    rw [hsame] at hi
    obtain ⟨row, _, himport⟩ := h.imported i hi
    exact hfresh (List.mem_map.mpr ⟨row, himport.run_stored, himport.run_id.trans hi_id⟩)

end Registry

end Pine
