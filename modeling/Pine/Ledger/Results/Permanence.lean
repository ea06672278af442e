import Pine.Ledger.Services

/-!
# Result evidence is permanent

Once evidence of a run is ingested, its row, its run and the binding of the run never
change, and whatever is derived from them is derived again: the stored row verifies,
the same evidence is answered from it, and other evidence is refused.
-/

namespace Pine

open Json (Value)

namespace Registry

variable {L : ResultLibrary} {sha256 : Text → Text} {db db' : Registry}
  {e : MSMRunResultEvidence} {row : RunResultRow} {run : RunRow} {binding : RunBindingRow}
  {verified : VerifiedStoredRunResult} {now : DateTime}

/-- The row holds the evidence of its run, and verifies. -/
structure Recorded (L : ResultLibrary) (sha256 : Text → Text) (db : Registry)
    (e : MSMRunResultEvidence) (row : RunResultRow) (run : RunRow) (binding : RunBindingRow)
    (verified : VerifiedStoredRunResult) : Prop where
  stored : row ∈ db.run_results
  row_id : row.run_id = e.run_id.val
  run_stored : run ∈ db.runs
  run_id : run.run_id = e.run_id.val
  binding_stored : binding ∈ db.run_bindings
  binding_id : binding.run_id = e.run_id.val
  completed : run.state = .completed
  exit_code : run.exit_code = some 0
  hash : sha256Json sha256 (e.modelDump L) = .ok row.evidence_hash
  verifies : verifyStoredResult L sha256 row (some ⟨run, some binding⟩) none = .ok verified

/-- What the ingestor answers from a verified row. -/
def answer (verified : VerifiedStoredRunResult) (created : Bool) : MSMResultIngestResult where
  run_id := verified.evidence.run_id.val
  prediction_id := verified.evidence.prediction_id.map Subtype.val
  registration_status := verified.evidence.registration_status
  strategy_id := verified.evidence.strategy_id.val
  dataset_version := verified.evidence.dataset_version.val
  envelope_hash := verified.evidence.envelope_hash.val
  evidence_hash := verified.evidence_hash
  source_timestamp := verified.source_timestamp
  ingested_at := verified.ingested_at
  created := created

theorem ingestResult_ok {found : Option BoundRun} {created : Bool}
    {snapshot : Option StrategySnapshot} {r : MSMResultIngestResult} :
    ingestResult L sha256 row found created snapshot = .ok r ↔
      ∃ verified, verifyStoredResult L sha256 row found snapshot = .ok verified ∧
        answer verified created = r := by
  unfold ingestResult
  rw [bind_eq_ok]
  refine exists_congr fun verified => and_congr_right fun _ => ?_
  exact ⟨fun h => Except.ok.inj h, fun h => congrArg Except.ok h⟩

/-! ## Reading stored evidence -/

/-- The evidence of a row that stores canonical evidence is that evidence. -/
theorem storedEvidence_canonical {evidence : MSMRunResultEvidence}
    (hjson : canonicalJson (e.modelDump L) = .ok row.evidence_json)
    (h : storedEvidence L sha256 row = .ok evidence) : evidence = e.sorted := by
  obtain ⟨payload, hpayload, h⟩ := bind_eq_ok.mp h
  obtain ⟨_, -, h⟩ := bind_eq_ok.mp h
  obtain ⟨_, -, h⟩ := bind_eq_ok.mp h
  obtain ⟨_, -, h⟩ := bind_eq_ok.mp h
  obtain ⟨found, hfound, h⟩ := bind_eq_ok.mp h
  obtain ⟨_, -, h⟩ := bind_eq_ok.mp h
  cases h
  unfold canonicalJson at hjson
  split at hjson
  · rename_i hfinite
    have hproper := (proper_iff _).mpr ⟨e.keyed_modelDump L, hfinite⟩
    have hloads := Json.loads_canonicalText hproper
    rw [Except.ok.inj hjson, required_ok.mp hpayload] at hloads
    rw [Option.some.inj hloads] at hfound
    exact Option.some.inj ((required_ok.mp hfound).symm.trans (e.modelValidate_sortKeys L))
  · cases hjson

/-- A row that verifies with the snapshot of its run verifies without it. -/
theorem verify_without_snapshot {found : Option BoundRun} {snapshot : StrategySnapshot}
    (hjson : canonicalJson (e.modelDump L) = .ok row.evidence_json)
    (hbinding : validateRunBinding L sha256 e found = .ok snapshot)
    (h : verifyStoredResult L sha256 row found (some snapshot) = .ok verified) :
    verifyStoredResult L sha256 row found none = .ok verified := by
  obtain ⟨evidence, hevidence, h⟩ := bind_eq_ok.mp h
  obtain ⟨given, hgiven, h⟩ := bind_eq_ok.mp h
  cases hgiven
  -- the binding is checked on fields that the round trip keeps
  have hsame : validateRunBinding L sha256 evidence found = .ok snapshot := by
    rw [storedEvidence_canonical hjson hevidence]
    exact hbinding
  exact bind_eq_ok.mpr ⟨evidence, hevidence, bind_eq_ok.mpr ⟨snapshot, hsame, h⟩⟩

/-- A validated binding is that of a successful run. -/
theorem validateRunBinding_ok {found : Option BoundRun} {snapshot : StrategySnapshot}
    (h : validateRunBinding L sha256 e found = .ok snapshot) :
    ∃ run binding, found = some ⟨run, some binding⟩ ∧ run.state = .completed ∧
      run.exit_code = some 0 := by
  unfold validateRunBinding at h
  split at h
  · rename_i run binding
    obtain ⟨_, hsuccessful, -⟩ := bind_eq_ok.mp h
    have hnot := refuse_ok.mp hsuccessful
    simp only [not_or, not_not] at hnot
    exact ⟨run, binding, rfl, hnot.1, hnot.2.1⟩
  · cases h

/-- A row that verifies belongs to a successful bound run. -/
theorem verifyStoredResult_ok {found : Option BoundRun}
    (h : verifyStoredResult L sha256 row found none = .ok verified) :
    ∃ run binding, found = some ⟨run, some binding⟩ ∧ run.state = .completed ∧
      run.exit_code = some 0 := by
  obtain ⟨evidence, -, h⟩ := bind_eq_ok.mp h
  obtain ⟨snapshot, hsnapshot, -⟩ := bind_eq_ok.mp h
  exact validateRunBinding_ok hsnapshot

theorem getRun_some {run_id : Text} {found : BoundRun} (h : db.getRun run_id = some found) :
    found.run ∈ db.runs ∧ found.run.run_id = run_id ∧ found.binding = db.binding? run_id := by
  obtain ⟨run, hrun, rfl⟩ := Option.map_eq_some_iff.mp h
  obtain ⟨hmem, hid⟩ := run?_some hrun
  exact ⟨hmem, hid, rfl⟩

/-- A row that is there and verifies against its run records the evidence with its hash. -/
theorem recorded_of_verified (hrow : db.runResult? e.run_id.val = some row)
    (hhash : sha256Json sha256 (e.modelDump L) = .ok row.evidence_hash)
    (h : verifyStoredResult L sha256 row (db.getRun e.run_id.val) none = .ok verified) :
    ∃ run binding, Recorded L sha256 db e row run binding verified := by
  obtain ⟨hmem, hid⟩ := find?_key_some hrow
  obtain ⟨run, binding, hfound, hcompleted, hexit⟩ := verifyStoredResult_ok h
  obtain ⟨hrun, hrun_id, hbinding⟩ := getRun_some hfound
  obtain ⟨hbmem, hbid⟩ := binding?_some hbinding.symm
  exact ⟨run, binding, {
    stored := hmem
    row_id := hid
    run_stored := hrun
    run_id := hrun_id
    binding_stored := hbmem
    binding_id := hbid
    completed := hcompleted
    exit_code := hexit
    hash := hhash
    verifies := hfound ▸ h }⟩

/-! ## Ingestions -/

/-- What storing a result does. -/
theorem createRunResult_ok {run_id evidence_hash evidence_json : Text}
    {source_timestamp ingested_at : DateTime} {u : Unit}
    (h : (createRunResult run_id evidence_hash evidence_json source_timestamp ingested_at).run db =
      (.ok u, db')) :
    db' = { db with run_results := db.run_results ++ [⟨run_id, evidence_hash, evidence_json,
      source_timestamp.isoformat, ingested_at.isoformat⟩] } := by
  obtain ⟨n, db1, hinsert, hcounted⟩ := Program.run_bind_ok.mp h
  obtain ⟨hone, rfl⟩ := Program.run_check_ok.mp hcounted
  rw [executeUpdate, Program.run_statement] at hinsert
  split at hinsert
  · rename_i m db2 hstored
    cases hinsert
    split at hstored
    · obtain ⟨db3, hrow, heq⟩ := map_eq_ok.mp hstored
      cases heq
      exact (insertRunResult_ok hrow).1
    · cases hstored
      exact absurd (by decide) (refuse_ok.mp hone)
  · cases hinsert

/-- After an ingestion the evidence is recorded, and the answer is read from its row. -/
theorem ingestEvidence_recorded {r : MSMResultIngestResult}
    (h : (ingestEvidence L sha256 now e).run db = (.ok r, db')) :
    ∃ row run binding verified created, db'.runResult? e.run_id.val = some row ∧
      Recorded L sha256 db' e row run binding verified ∧ r = answer verified created := by
  obtain ⟨hash, _, hhash, hlookup⟩ := Program.run_bind_ok.mp h
  obtain ⟨hdigest, rfl⟩ := Program.run_check_ok.mp hhash
  obtain ⟨existing, _, hexisting, hread⟩ := Program.run_bind_ok.mp hlookup
  obtain ⟨hbefore, rfl⟩ := Program.run_query_ok.mp hexisting
  obtain ⟨found, _, hfound, hrest⟩ := Program.run_bind_ok.mp hread
  obtain ⟨hrun, rfl⟩ := Program.run_query_ok.mp hfound
  obtain rfl := Except.ok.inj hrun
  have hexists := Except.ok.inj hbefore
  cases existing with
  | some row =>
    obtain ⟨_, _, hsame, hresult⟩ := Program.run_bind_ok.mp hrest
    obtain ⟨hequal, rfl⟩ := Program.run_check_ok.mp hsame
    obtain ⟨hreturned, rfl⟩ := Program.run_check_ok.mp hresult
    obtain ⟨verified, hverified, rfl⟩ := ingestResult_ok.mp hreturned
    have hstored := not_not.mp (refuse_ok.mp hequal)
    obtain ⟨run, binding, hrecorded⟩ :=
      recorded_of_verified hexists (hstored ▸ hdigest) hverified
    exact ⟨row, run, binding, verified, false, hexists, hrecorded, rfl⟩
  | none =>
    obtain ⟨checked, _, hchecked, hprint⟩ := Program.run_bind_ok.mp hrest
    obtain ⟨hpassed, rfl⟩ := Program.run_check_ok.mp hchecked
    obtain ⟨json, _, hjson, hcreate⟩ := Program.run_bind_ok.mp hprint
    obtain ⟨hprinted, rfl⟩ := Program.run_check_ok.mp hjson
    obtain ⟨_, db1, hcreated, hselect⟩ := Program.run_bind_ok.mp hcreate
    obtain ⟨stored, _, hstored, hverify⟩ := Program.run_bind_ok.mp hselect
    obtain ⟨hreread, rfl⟩ := Program.run_query_ok.mp hstored
    obtain ⟨row, _, hpresent, hresult⟩ := Program.run_bind_ok.mp hverify
    obtain ⟨hrow, rfl⟩ := Program.run_check_ok.mp hpresent
    obtain ⟨hreturned, rfl⟩ := Program.run_check_ok.mp hresult
    obtain ⟨verified, hverified, rfl⟩ := ingestResult_ok.mp hreturned
    obtain rfl := createRunResult_ok hcreated
    have hfoundrow := (Except.ok.inj hreread).trans (required_ok.mp hrow)
    -- no earlier row is of this run, so the row that is read back is the stored one
    have hnew : row = ⟨e.run_id.val, hash, json, e.source_timestamp.val.isoformat,
        checked.1.isoformat⟩ := by
      have hread := hfoundrow
      change List.find? _ (_ ++ [_]) = some row at hread
      change List.find? _ _ = none at hexists
      rw [List.find?_append, hexists, Option.none_or, List.find?_singleton] at hread
      exact (Option.some.inj ((if_pos (beq_self_eq_true _)).symm.trans hread)).symm
    obtain ⟨_, -, hbound⟩ := bind_eq_ok.mp hpassed
    obtain ⟨snapshot, hsnapshot, htimes⟩ := bind_eq_ok.mp hbound
    obtain ⟨_, -, hdone⟩ := bind_eq_ok.mp htimes
    cases hdone
    have hverified' := verify_without_snapshot (e := e) (by rw [hnew]; exact hprinted)
      hsnapshot hverified
    obtain ⟨run, binding, hrecorded⟩ :=
      recorded_of_verified hfoundrow (by rw [hnew]; exact hdigest) hverified'
    exact ⟨row, run, binding, verified, true, hfoundrow, hrecorded, rfl⟩

/-! ## Later registries -/

/-- What is recorded stays recorded. -/
theorem Recorded.evolves (h : Recorded L sha256 db e row run binding verified)
    (hevolves : db.Evolves db') : Recorded L sha256 db' e row run binding verified := by
  obtain ⟨run', hrun', hnext⟩ := hevolves.runs.mem h.run_stored
  obtain rfl := hnext.terminal (by rw [h.completed]; rfl)
  exact { h with
    stored := hevolves.run_results.subset h.stored
    run_stored := hrun'
    binding_stored := hevolves.run_bindings.subset h.binding_stored }

/-- The recorded rows are the ones that are found. -/
theorem Recorded.found (h : Recorded L sha256 db e row run binding verified) (hk : db.Keys)
    (hu : db.Unique) : db.runResult? e.run_id.val = some row ∧
      db.getRun e.run_id.val = some ⟨run, some binding⟩ := by
  have hrow := find?_key_of_mem hu.results h.stored
  have hrun := hk.run?_of_mem h.run_stored
  have hbinding := hk.binding?_of_mem h.binding_stored
  rw [h.row_id] at hrow
  rw [h.run_id] at hrun
  rw [h.binding_id] at hbinding
  exact ⟨hrow, by rw [getRun, hrun, hbinding]; rfl⟩

/-- An ingestion of recorded evidence answers from its row and changes nothing. -/
theorem Recorded.same (h : Recorded L sha256 db e row run binding verified) (hk : db.Keys)
    (hu : db.Unique) {e' : MSMRunResultEvidence} (hid : e'.run_id.val = e.run_id.val)
    (hhash : sha256Json sha256 (e'.modelDump L) = .ok row.evidence_hash) (now : DateTime) :
    (ingestEvidence L sha256 now e').run db = (.ok (answer verified false), db) := by
  obtain ⟨hrow, hrun⟩ := h.found hk hu
  refine Program.run_bind_ok.mpr ⟨row.evidence_hash, db, by rw [hhash, Program.run_check], ?_⟩
  refine Program.run_bind_ok.mpr ⟨some row, db,
    Program.run_query_ok.mpr ⟨congrArg Except.ok (hid ▸ hrow), rfl⟩, ?_⟩
  refine Program.run_bind_ok.mpr ⟨some ⟨run, some binding⟩, db,
    Program.run_query_ok.mpr ⟨congrArg Except.ok (hid ▸ hrun), rfl⟩, ?_⟩
  refine Program.run_bind_ok.mpr ⟨(), db,
    Program.run_check_ok.mpr ⟨refuse_ok.mpr (by simp), rfl⟩, ?_⟩
  exact Program.run_check_ok.mpr ⟨ingestResult_ok.mpr ⟨verified, h.verifies, rfl⟩, rfl⟩

/-- An ingestion of evidence with another hash is refused and changes nothing. -/
theorem Recorded.different (h : Recorded L sha256 db e row run binding verified) (hk : db.Keys)
    (hu : db.Unique) {e' : MSMRunResultEvidence} (hid : e'.run_id.val = e.run_id.val)
    (hhash : sha256Json sha256 (e'.modelDump L) ≠ .ok row.evidence_hash) (now : DateTime) :
    ∃ error, (ingestEvidence L sha256 now e').run db = (.error error, db) := by
  obtain ⟨hrow, hrun⟩ := h.found hk hu
  unfold ingestEvidence
  cases hdigest : sha256Json sha256 (e'.modelDump L) with
  | error error =>
    exact ⟨error, by rw [Program.run_bind, Program.run_check]⟩
  | ok hash =>
    have hdiffers : row.evidence_hash ≠ hash := fun heq => hhash (heq ▸ hdigest)
    refine ⟨.idempotencyConflictError
      (text "run already has different immutable result evidence"), ?_⟩
    simp only [Program.run_bind, Program.run_check, select, Program.run_query, hid, hrow, hrun]
    rw [refuse, if_pos hdiffers]

/-- Evidence that is the same up to the order of metadata keys has one dump up to key order. -/
theorem sortKeys_modelDump (L : ResultLibrary) (e : MSMRunResultEvidence) :
    Json.sortKeys (e.sorted.modelDump L) = Json.sortKeys (e.modelDump L) := by
  have hmetadata : Json.sortKeys e.metadata.sorted.toDict = Json.sortKeys e.metadata.toDict :=
    Json.sortKeys_sortKeys e.metadata.toDict
  unfold MSMRunResultEvidence.modelDump MSMRunResultEvidence.sorted
  simp only [Json.sortKeys, Json.sortFields, hmetadata]

/-- Evidence has the hash of other evidence exactly when it is the same up to the order of
metadata keys, since the digest separates texts. -/
theorem sha256Json_eq_iff (hsha : Function.Injective sha256) {e' : MSMRunResultEvidence}
    {hash : Text} (h : sha256Json sha256 (e.modelDump L) = .ok hash) :
    sha256Json sha256 (e'.modelDump L) = .ok hash ↔ e'.sorted = e.sorted := by
  constructor
  · intro h'
    obtain ⟨t, ht, ht'⟩ := sha256Json_injective hsha h h'
    have hsort := canonicalJson_injective (e.keyed_modelDump L) (e'.keyed_modelDump L) ht ht'
    have hread := e.modelValidate_sortKeys L
    rw [hsort, e'.modelValidate_sortKeys L] at hread
    exact Option.some.inj hread
  · intro hsorted
    have hsort : Json.sortKeys (e'.modelDump L) = Json.sortKeys (e.modelDump L) := by
      rw [← sortKeys_modelDump, hsorted, sortKeys_modelDump]
    rw [sha256Json_congr hsort, h]

/-! ## Runs -/

/-- What an ingestion of evidence has made permanent: its row, the success of its run, and
the answers to whoever ingests or verifies evidence of the run. -/
structure Permanent (L : ResultLibrary) (sha256 : Text → Text) (db : Registry)
    (e : MSMRunResultEvidence) (r : MSMResultIngestResult) (row : RunResultRow) : Prop where
  stored : db.runResult? e.run_id.val = some row
  successful : ∃ found, db.getRun e.run_id.val = some found ∧ found.run.state = .completed ∧
    found.run.exit_code = some 0
  verifies : ∃ verified,
    verifyStoredResult L sha256 row (db.getRun e.run_id.val) none = .ok verified
  same : ∀ now e', e'.sorted = e.sorted →
    (ingestEvidence L sha256 now e').run db = (.ok { r with created := false }, db)
  different : ∀ now e', e'.run_id = e.run_id → e'.sorted ≠ e.sorted →
    ∃ error, (ingestEvidence L sha256 now e').run db = (.error error, db)

/-- What is recorded is permanent. -/
theorem Recorded.permanent (h : Recorded L sha256 db e row run binding verified)
    (hsha : Function.Injective sha256) (hk : db.Keys) (hu : db.Unique) (created : Bool) :
    Permanent L sha256 db e (answer verified created) row := by
  obtain ⟨hrow, hrun⟩ := h.found hk hu
  refine {
    stored := hrow
    successful := ⟨_, hrun, h.completed, h.exit_code⟩
    verifies := ⟨verified, hrun ▸ h.verifies⟩
    same := ?_
    different := ?_ }
  · intro now e' hsorted
    have hid : e'.run_id.val = e.run_id.val := by
      change e'.sorted.run_id.val = e.sorted.run_id.val
      rw [hsorted]
    exact h.same hk hu hid ((sha256Json_eq_iff hsha h.hash).mpr hsorted) now
  · intro now e' hid hsorted
    have hhash := mt (sha256Json_eq_iff hsha h.hash).mp hsorted
    exact h.different hk hu (congrArg Subtype.val hid) hhash now

/-- After a successful ingestion its row never changes, its run stays successful, the row
verifies, the same evidence is answered from it and other evidence of the run is refused;
and a run has one result at most. -/
theorem result_permanent (V : Libraries) {before after : List (Registry × LedgerCall)}
    {later : Registry} {r : MSMResultIngestResult} (hsha : Function.Injective sha256)
    (hbefore : Run (LedgerCall.Step V sha256) empty before db)
    (h : (ingestEvidence V.result sha256 now e).run db = (.ok r, db'))
    (hafter : Run (LedgerCall.Step V sha256) db' after later) :
    ∃ row, db'.runResult? e.run_id.val = some row ∧ Permanent V.result sha256 later e r row ∧
      (later.run_results.map RunResultRow.run_id).Nodup := by
  obtain ⟨row, run, binding, verified, created, hrow, hrecorded, rfl⟩ := ingestEvidence_recorded h
  obtain ⟨-, hkeys, hunique⟩ := LedgerCall.run_evolves hbefore
  obtain ⟨-, hkeys', hunique'⟩ := (ingestEvidence_commits h).evolves
  obtain ⟨hevolves, hkeys'', hunique''⟩ := LedgerCall.run_evolves hafter
  have hk := hkeys'' (hkeys' (hkeys keys_empty))
  have hu := hunique'' (hunique' (hunique unique_empty))
  exact ⟨row, hrow, (hrecorded.evolves hevolves).permanent hsha hk hu created, hu.results⟩

/-! ## A result of a completed run -/

/-- The library writes a UTC time with `Z`. -/
def zuluTime (t : DateTime) : Text := { t with offset := none }.isoformat ++ ['Z']

/-- A text with `Z` is read as a UTC time. -/
def readZulu : Document → Option DateTime
  | .str s =>
    match s.getLast? with
    | some 'Z' => (DateTime.fromisoformat s.dropLast).map
        fun t => { t with offset := some ⟨0, zero_lt_day⟩ }
    | _ => DateTime.fromisoformat s
  | _ => none

theorem readZulu_zuluTime (t : DateTime) (h : t.offset.map Subtype.val = some 0) :
    readZulu (.str (zuluTime t)) = some t := by
  have hlast : (zuluTime t).getLast? = some 'Z' := by simp [zuluTime]
  have hfront : (zuluTime t).dropLast = { t with offset := none }.isoformat := by
    simp [zuluTime]
  obtain ⟨offset, hoffset, hzero⟩ := Option.map_eq_some_iff.mp h
  obtain rfl : offset = ⟨0, zero_lt_day⟩ := Subtype.ext hzero
  rw [readZulu, hlast, hfront]
  simp only [DateTime.fromisoformat_isoformat, Option.map_some, ← hoffset]

theorem january_isDate : IsDate 2024 1 1 := by decide

theorem february_isDate : IsDate 2024 2 1 := by decide

/-- January 2024. -/
def sampleWindow : DateWindow :=
  ⟨⟨2024, 1, 1, january_isDate⟩, ⟨2024, 2, 1, february_isDate⟩, by decide⟩

/-- The version of its data set. -/
def sampleVersion : Sha256Text := ⟨text "sha256:" ++ sampleDigest, by decide +kernel⟩

/-- What its snapshot dumps to. -/
def sampleSnapshotDump : JsonObject where
  fields := [(text "strategy_id", .str (text "momentum")),
    (text "out_of_sample_window", sampleWindow.modelDump)]
  keyed := by decide

/-- The snapshot of the run. -/
def sampleSnapshot : StrategySnapshot where
  strategy_id := text "momentum"
  git_commit := List.replicate 40 'a'
  data_as_of_version := sampleTime
  dataset_version := sampleVersion
  in_sample_window := sampleWindow
  out_of_sample_window := sampleWindow
  metric_definition_version := text "metrics-1"
  modelDump := sampleSnapshotDump

def sampleResultLibrary : ResultLibrary where
  dumpTime := zuluTime
  parseTime := readZulu
  parseDate
    | .str s => Date.fromisoformat s
    | _ => none
  validateSnapshot v := if v.equals sampleSnapshotDump.toDict then some sampleSnapshot else none
  parseTime_dumpTime := readZulu_zuluTime
  parseDate_isoformat := Date.fromisoformat_isoformat

def sampleLibraries : Libraries := ⟨⟨zuluTime, fun _ => none⟩, sampleResultLibrary⟩

/-- One half. -/
def sampleFloat : FiniteFloat := ⟨Binary64.ofRatio false 1 2, by decide +kernel⟩

/-- Metrics of the run. -/
def sampleMetrics : MSMResultMetrics :=
  ⟨sampleFloat, sampleFloat, sampleFloat, sampleFloat, sampleFloat, 3, by decide +kernel⟩

/-- The canonical envelope of the run. -/
def completedEnvelope : Text :=
  Json.canonicalText (F := Binary64) (.obj [
    (text "prediction_id", .null),
    (text "registration_status", .str (text "exploratory")),
    (text "run_id", .str (text "run_1")),
    (text "snapshot", sampleSnapshotDump.toDict),
    (text "strategy_id", .str (text "momentum"))])

/-- The SHA-256 digest of the envelope. -/
def completedDigest : Text :=
  text "81af8f570a9cb10b5da2" ++ text "0bdd24ff6565031cc1a9" ++ text "9d0c9b5a5fb30510ebc7" ++
    text "085a"

def completedHash : Sha256Text := ⟨text "sha256:" ++ completedDigest, by decide +kernel⟩

/-- Evidence of the run. -/
def sampleEvidence : MSMRunResultEvidence where
  run_id := ⟨text "run_1", by decide +kernel⟩
  prediction_id := none
  registration_status := .exploratory
  strategy_id := ⟨text "momentum", by decide +kernel⟩
  envelope_hash := completedHash
  dataset_version := sampleVersion
  git_commit := ⟨List.replicate 40 'a', by decide +kernel⟩
  metric_definition_version := ⟨text "metrics-1", by decide +kernel⟩
  source_timestamp := ⟨sampleTime, rfl⟩
  in_sample_window := sampleWindow
  out_of_sample_window := sampleWindow
  in_sample_metrics := sampleMetrics
  out_of_sample_metrics := sampleMetrics
  regime_breakdown := []
  artifacts := [⟨⟨text "report.json", by decide +kernel⟩, sampleVersion, 7⟩]
  metadata := ⟨[], by decide⟩
  canonical := by decide +kernel

/-- The canonical JSON of the sample evidence. -/
def evidenceText : Text := Json.canonicalText (sampleEvidence.modelDump sampleResultLibrary)

/-- Its SHA-256 digest. -/
def evidenceDigest : Text :=
  text "f5ae6b8cf430e4bb7a5e" ++ text "3b8d909a8c5b5d5e09e2" ++ text "c51a31da9619d5951e42" ++
    text "875d"

/-- A digest that separates texts and has the given digests. -/
def digestOf (digests : List (Text × Text)) (s : Text) : Text :=
  digests.foldl (fun s d => Equiv.swap d.1 d.2 s) s

theorem digestOf_injective (digests : List (Text × Text)) :
    Function.Injective (digestOf digests) := by
  induction digests with
  | nil => exact fun _ _ h => h
  | cons d digests ih => exact fun _ _ h => (Equiv.swap d.1 d.2).injective (ih h)

/-- A digest that separates texts, and agrees with SHA-256 on the envelope and the evidence. -/
def separatingSha256 : Text → Text :=
  digestOf [(completedEnvelope, completedDigest), (evidenceText, evidenceDigest)]

/-- Create the run, start it and finish it. -/
def completedOperations : LedgerCall :=
  .operations
    [.create_exploratory_run (text "run_1") sampleTime (text "key") (text "hash") (text "momentum")
      sampleVersion completedEnvelope completedHash,
     .start_run (text "run_1") sampleTime,
     .finish_run (text "run_1") sampleTime 0 none]

/-- The registry after the run. -/
def completedRegistry : Registry :=
  completedOperations.commit sampleLibraries separatingSha256 empty

/-- The registry after the evidence is ingested. -/
def ingestedRegistry : Registry :=
  ((ingestEvidence sampleResultLibrary separatingSha256 sampleTime sampleEvidence).run
    completedRegistry).2

theorem sampleEvidence_ingested :
    ((ingestEvidence sampleResultLibrary separatingSha256 sampleTime sampleEvidence).run
      completedRegistry).1.isOk = true := by
  decide +kernel

theorem result_permanent_sample : ∃ r row,
    (completedOperations.commit sampleLibraries separatingSha256 ingestedRegistry).runResult?
      (text "run_1") = some row ∧
    Permanent sampleResultLibrary separatingSha256
      (completedOperations.commit sampleLibraries separatingSha256 ingestedRegistry)
      sampleEvidence r row := by
  obtain ⟨r, hingested⟩ := Program.run_of_isOk sampleEvidence_ingested
  have hbefore : Run (LedgerCall.Step sampleLibraries separatingSha256) empty
      [(empty, completedOperations)] completedRegistry := Run.snoc (Run.nil _) rfl
  have hafter : Run (LedgerCall.Step sampleLibraries separatingSha256) ingestedRegistry
      [(ingestedRegistry, completedOperations)]
      (completedOperations.commit sampleLibraries separatingSha256 ingestedRegistry) :=
    Run.snoc (Run.nil _) rfl
  obtain ⟨row, -, hpermanent, -⟩ :=
    result_permanent sampleLibraries (digestOf_injective _) hbefore hingested hafter
  exact ⟨r, row, hpermanent.stored, hpermanent⟩

end Registry
end Pine
