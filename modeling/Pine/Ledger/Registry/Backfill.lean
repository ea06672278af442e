import Pine.Core.Strip
import Pine.Ledger.Registry.StartedTouched

/-!
# The backfill of touched windows

Migration 6 touches the windows of all runs that had started before, with a rule of
its own in SQL. It agrees with the derivation that the registry uses at run time
except for one function: `TRIM` removes spaces and nothing else.
-/

namespace Pine

open Json (Value)

/-- `TRIM(x)` -/
def sqlTrim (s : Text) : Text := stripOf (· == ' ') s

/-- The element of a JSON document at a path. -/
def elementAt (path : List String) (value : Document) : Option Document :=
  path.foldl (fun v key => v.bind (·.get? (text key))) (some value)

/-- The element of a JSON text at a path, as `json_type` and `json_extract` see it. -/
def jsonAt (json : Text) (path : List String) : Except Error (Option Document) :=
  match Json.loads json with
  | none => .error (.sqliteError (text "malformed JSON"))
  | some value => .ok (elementAt path value)

/-- The text of an element whose `json_type` is `'text'`. -/
def jsonText (element : Option Document) : Option Text := element.bind Value.asText?

/-- A started run with its binding and its prediction. -/
structure StartedRun where
  execution_started_at : Text
  binding : RunBindingRow
  prediction : Option PredictionRow

/-- What a row records. -/
def TouchedWindowRow.touch (row : TouchedWindowRow) : Text × Text × Text :=
  (row.family_id, row.window_start, row.window_end)

namespace Registry

/-- `runs JOIN run_bindings USING (run_id) LEFT JOIN predictions USING (prediction_id)`, of a run
with `execution_started_at IS NOT NULL`. -/
def startedRun? (db : Registry) (run : RunRow) : Option StartedRun :=
  run.execution_started_at.bind fun started => (db.binding? run.run_id).map fun binding =>
    ⟨started, binding, run.prediction_id.bind db.prediction?⟩

/-- The rows that migration 6 selects from. -/
def startedRuns (db : Registry) : List StartedRun := db.runs.filterMap db.startedRun?

end Registry

namespace StartedRun

variable (r : StartedRun)

/-- `json_extract(predictions.lineage_json, '$.family_id')` -/
def lineageElement : Except Error (Option Document) :=
  match r.prediction with
  | none => .ok none
  | some p => jsonAt p.lineage_json ["family_id"]

/-- One row of `migration_6_preregistered_guard`. -/
def guardRow : Except Error Unit := do
  let family ← r.lineageElement
  Registry.enforce [
    (r.prediction.isNone,
      "NOT NULL constraint failed: migration_6_preregistered_guard.transaction_state"),
    (family.isNone, "NOT NULL constraint failed: migration_6_preregistered_guard.family_type"),
    (family.any fun v => match v with | .null => true | _ => false,
      "NOT NULL constraint failed: migration_6_preregistered_guard.family_id"),
    (r.prediction.any (·.transaction_state ≠ .committed),
      "CHECK constraint failed: transaction_state = 'committed'"),
    ((jsonText family).isNone, "CHECK constraint failed: family_type = 'text'"),
    ((jsonText family).any fun s => sqlLength (sqlTrim s) < 1 || 256 < sqlLength (sqlTrim s) ||
      s.contains '\x00', "CHECK constraint failed: LENGTH(TRIM(family_id)) BETWEEN 1 AND 256")]

/-- `CASE WHEN registration_status = 'preregistered' THEN ... ELSE ... END`; the guard has let only
texts through. -/
def backfillFamily : Except Error (Option Text) :=
  if r.binding.registration_status = .preregistered then
    r.lineageElement.map fun family => (jsonText family).map sqlTrim
  else .ok (some (sqlTrim r.binding.strategy_id))

/-- A bound of the window in an envelope, when it is a text. -/
def windowText (envelope : Document) (key : String) : Option Text :=
  jsonText (elementAt ["snapshot", "out_of_sample_window", key] envelope)

/-- The row that the run contributes, when the window of its envelope is one of texts. -/
def backfillRow : Except Error (Option TouchedWindowRow) :=
  match Json.loads (F := Binary64) r.binding.envelope_json with
  | none => .ok none
  | some envelope => r.backfillFamily.map fun family => do
    let family ← family
    let start ← windowText envelope "start"
    let stop ← windowText envelope "end"
    return ⟨family, start, stop, r.execution_started_at⟩

end StartedRun

namespace Registry

/-- `INSERT INTO migration_6_preregistered_guard ... WHERE registration_status = 'preregistered'` -/
def guardRows : List StartedRun → Except Error Unit
  | [] => .ok ()
  | r :: rest =>
    if r.binding.registration_status = .preregistered then do
      r.guardRow
      guardRows rest
    else guardRows rest

/-- `INSERT OR IGNORE INTO touched_windows ... SELECT ...` -/
def backfillRows : List StartedRun → Registry → Except Error Registry
  | [], db => .ok db
  | r :: rest, db => do
    let row ← r.backfillRow
    backfillRows rest (row.elim db (insertTouchedWindow · db))

/-- `_MIGRATION_6`, of its rows. -/
def migration6 (db : Registry) : Except Error Registry := do
  guardRows db.startedRuns
  backfillRows db.startedRuns db

/-- `_touch_identity_for_run` of a run in any state. -/
def touchIdentityOfRun (sha256 : Text → Text) (db : Registry) (run : RunRow) :
    Except Error (Text × Text × Text) :=
  match db.binding? run.run_id with
  | none => .error (.integrityError (text "run has no registered immutable binding: " ++ run.run_id))
  | some binding => touchIdentity sha256 binding (run.prediction_id.bind db.prediction?)

/-- The triple is recorded. -/
def Touched (db : Registry) (touch : Text × Text × Text) : Prop :=
  ∃ row ∈ db.touched_windows, row.touch = touch

end Registry

open Registry

/-- The window of the stored envelope was dumped from two dates, as every request model does. -/
def RunBindingRow.DatesDumped (binding : RunBindingRow) : Prop :=
  ∀ envelope window, Json.loads binding.envelope_json = some envelope →
    outOfSampleWindow? envelope = some window → ∃ start stop : Date,
      window.get? (text "start") = some (.str start.isoformat) ∧
      window.get? (text "end") = some (.str stop.isoformat)

/-! ## One run -/

namespace StartedRun

variable {r : StartedRun} {sha256 : Text → Text}

/-- The family of the run begins and ends with no blank but spaces. -/
def FamilyTrimmed (r : StartedRun) : Prop :=
  ∀ family_id, r.binding.HasFamily r.prediction family_id → sqlTrim family_id = strip family_id

theorem hasFamily_unique {f g : Text} (hf : r.binding.HasFamily r.prediction f)
    (hg : r.binding.HasFamily r.prediction g) : f = g := by
  unfold RunBindingRow.HasFamily at hf hg
  split at hf
  · rename_i hpre
    rw [if_pos hpre] at hg
    obtain ⟨p, hp, -, lineage, hloads, hget⟩ := hf
    obtain ⟨p', hp', -, lineage', hloads', hget'⟩ := hg
    obtain rfl := Option.some.inj (hp.symm.trans hp')
    obtain rfl := Option.some.inj (hloads.symm.trans hloads')
    simpa using hget.symm.trans hget'
  · rename_i hpre
    rw [if_neg hpre] at hg
    exact hf.trans hg.symm

theorem normalizeFamilyId_str {family_id family : Text}
    (h : normalizeFamilyId (.str family_id) = .ok family) :
    family = strip family_id ∧ strip family_id ≠ [] ∧ (strip family_id).length ≤ 256 ∧
      '\x00' ∉ strip family_id := by
  simp only [normalizeFamilyId] at h
  split at h
  · cases h
  · rename_i hnot
    simp only [not_or, not_lt] at hnot
    exact ⟨(Except.ok.inj h).symm, hnot.1, hnot.2.1, hnot.2.2⟩

/-- The row that a derivable run contributes: the derived window, under the family without spaces
around it. -/
theorem backfillRow_ok {touch : Text × Text × Text} (hdates : r.binding.DatesDumped)
    (h : touchIdentity sha256 r.binding r.prediction = .ok touch) :
    ∃ family_id, r.binding.HasFamily r.prediction family_id ∧
      normalizeFamilyId (.str family_id) = .ok touch.1 ∧
      r.backfillRow = .ok (some ⟨sqlTrim family_id, touch.2.1, touch.2.2, r.execution_started_at⟩) := by
  obtain ⟨w, family_id, hwindow, hfamily, hnormal, hstart, hstop⟩ := touchIdentity_ok h
  refine ⟨family_id, hfamily, hnormal, ?_⟩
  obtain ⟨envelope, window, start, stop, hloads, hout, hs, he, hsd, hed⟩ := hwindow
  obtain ⟨d, d', hd, hd'⟩ := hdates envelope window hloads hout
  have hstart' : start = touch.2.1 := by
    obtain rfl : start = d.isoformat := by simpa using hs.symm.trans hd
    rw [hstart, ← Option.some.inj (hsd.symm.trans (Date.fromisoformat_isoformat d)).symm]
  have hstop' : stop = touch.2.2 := by
    obtain rfl : stop = d'.isoformat := by simpa using he.symm.trans hd'
    rw [hstop, ← Option.some.inj (hed.symm.trans (Date.fromisoformat_isoformat d')).symm]
  have hbackfill : r.backfillFamily = .ok (some (sqlTrim family_id)) := by
    unfold backfillFamily
    unfold RunBindingRow.HasFamily at hfamily
    split at hfamily
    · rename_i hpre
      obtain ⟨p, hp, -, lineage, hlineage, hget⟩ := hfamily
      have hjson : jsonAt p.lineage_json ["family_id"] = .ok (some (.str family_id)) := by
        simp [jsonAt, hlineage, elementAt, hget]
      simp [hpre, lineageElement, hp, hjson, Except.map, jsonText, Value.asText?]
    · rename_i hpre
      rw [if_neg hpre, hfamily]
  have hbound : ∀ (key : String) (s : Text), window.get? (text key) = some (.str s) →
      windowText envelope key = some s := by
    intro key s hkey
    obtain ⟨hsome, -⟩ := Option.filter_eq_some_iff.mp hout
    simp [windowText, elementAt, hsome, hkey, jsonText, Value.asText?]
  simp only [backfillRow, hloads, hbackfill, hbound "start" start hs, hbound "end" stop he, hstart',
    hstop']
  rfl

theorem sqlLength_eq {s : Text} (h : '\x00' ∉ s) : sqlLength s = s.length := by
  rw [sqlLength, List.takeWhile_eq_self_iff.mpr]
  intro c hc
  have hne : c ≠ '\x00' := fun heq => h (heq ▸ hc)
  simpa using hne

/-- The guard lets a derivable run through when its family is trimmed. -/
theorem guardRow_ok {touch : Text × Text × Text} (hpre : r.binding.registration_status = .preregistered)
    (h : touchIdentity sha256 r.binding r.prediction = .ok touch) (htrim : r.FamilyTrimmed) :
    r.guardRow = .ok () := by
  obtain ⟨w, family_id, -, hfamily, hnormal, -, -⟩ := touchIdentity_ok h
  have htrimmed := htrim family_id hfamily
  rw [RunBindingRow.HasFamily, if_pos hpre] at hfamily
  obtain ⟨p, hp, hcommitted, lineage, hlineage, hget⟩ := hfamily
  obtain ⟨-, hne, hlength, hnul⟩ := normalizeFamilyId_str hnormal
  have hraw : '\x00' ∉ family_id := fun hmem => hnul (mem_stripOf hmem (by decide))
  have hjson : jsonAt p.lineage_json ["family_id"] = .ok (some (.str family_id)) := by
    simp [jsonAt, hlineage, elementAt, hget]
  simp only [guardRow, lineageElement, hp, hjson, Bind.bind, Except.bind]
  rw [enforce_ok]
  simp [jsonText, Value.asText?, htrimmed, sqlLength_eq hnul, hcommitted, hraw, hne, hlength]

end StartedRun

/-! ## The whole migration -/

namespace Registry

variable {sha256 : Text → Text} {db db' : Registry}

theorem guardRows_ok {rows : List StartedRun} :
    guardRows rows = .ok () ↔ ∀ r ∈ rows,
      r.binding.registration_status = .preregistered → r.guardRow = .ok () := by
  induction rows with
  | nil => simp [guardRows]
  | cons r rest ih =>
    rw [guardRows, List.forall_mem_cons]
    split
    · rename_i hpre
      rw [bind_eq_ok]
      constructor
      · rintro ⟨_, hguard, hrest⟩
        exact ⟨fun _ => hguard, ih.mp hrest⟩
      · rintro ⟨hguard, hrest⟩
        exact ⟨(), hguard hpre, ih.mpr hrest⟩
    · rename_i hpre
      rw [ih]
      simp [hpre]

theorem touched_insert (row : TouchedWindowRow) (db : Registry) (touch : Text × Text × Text) :
    (db.insertTouchedWindow row).Touched touch ↔
      db.Touched touch ∨ row.touch = touch := by
  unfold insertTouchedWindow
  split
  · rename_i hthere
    constructor
    · exact Or.inl
    · rintro (h | rfl)
      · exact h
      · obtain ⟨other, hother, heq⟩ := List.any_eq_true.mp hthere
        simp only [Bool.and_eq_true, beq_iff_eq] at heq
        exact ⟨other, hother, by simp only [TouchedWindowRow.touch, heq]⟩
  · simp [Touched, or_and_right, exists_or]

/-- What inserting the rows of the runs records. -/
theorem backfillRows_ok {rows : List StartedRun}
    (h : ∀ r ∈ rows, ∃ row, r.backfillRow = .ok (some row)) (db : Registry) :
    ∃ db', backfillRows rows db = .ok db' ∧ ∀ touch, db'.Touched touch ↔ db.Touched touch ∨
      ∃ r ∈ rows, ∃ row, r.backfillRow = .ok (some row) ∧ row.touch = touch := by
  induction rows generalizing db with
  | nil => exact ⟨db, rfl, by simp⟩
  | cons r rest ih =>
    obtain ⟨row, hrow⟩ := h r List.mem_cons_self
    obtain ⟨db', hrest, htouched⟩ := ih (fun r' hr' => h r' (List.mem_cons_of_mem _ hr'))
      (insertTouchedWindow row db)
    refine ⟨db', ?_, fun touch => ?_⟩
    · rw [backfillRows, hrow]
      exact hrest
    · rw [htouched, touched_insert, List.exists_mem_cons_iff, or_assoc]
      simp [hrow]

theorem startedRun?_some {run : RunRow} {r : StartedRun} (h : db.startedRun? run = some r) :
    run.execution_started_at ≠ none ∧
      db.touchIdentityOfRun sha256 run = touchIdentity sha256 r.binding r.prediction := by
  obtain ⟨started, hstarted, h⟩ := Option.bind_eq_some_iff.mp h
  obtain ⟨binding, hbinding, rfl⟩ := Option.map_eq_some_iff.mp h
  exact ⟨by simp [hstarted], by simp [touchIdentityOfRun, hbinding]⟩

/-- A started run whose derivation succeeds is one of the rows of the migration. -/
theorem startedRun?_of_derived {run : RunRow} {touch : Text × Text × Text}
    (hstarted : run.execution_started_at ≠ none)
    (h : db.touchIdentityOfRun sha256 run = .ok touch) :
    ∃ r, db.startedRun? run = some r ∧ touchIdentity sha256 r.binding r.prediction = .ok touch := by
  obtain ⟨started, hstarted⟩ := Option.ne_none_iff_exists'.mp hstarted
  unfold touchIdentityOfRun at h
  split at h
  · cases h
  · rename_i binding hbinding
    exact ⟨⟨started, binding, run.prediction_id.bind db.prediction?⟩,
      by simp [startedRun?, hstarted, hbinding], h⟩

/-- A version 5 registry: recorded families were normalized when they were recorded, and the windows
of the bindings come from the request models. -/
structure VersionFive (db : Registry) : Prop where
  results : db.run_results = []
  families : ∀ row ∈ db.touched_windows, strip row.family_id = row.family_id
  dates : ∀ r ∈ db.startedRuns, r.binding.DatesDumped

/-- Migration 6 succeeds and adds exactly the triples that the derivation gives for the started
runs. -/
def BackfillAgrees (sha256 : Text → Text) (db : Registry) : Prop :=
  ∃ db', db.migration6 = .ok db' ∧ ∀ touch, db'.Touched touch ↔ db.Touched touch ∨
    ∃ run ∈ db.runs, run.execution_started_at ≠ none ∧ db.touchIdentityOfRun sha256 run = .ok touch

theorem strip_sqlTrim (s : Text) : strip (sqlTrim s) = strip s :=
  stripOf_of_coarse (fun c hc => by rw [beq_iff_eq.mp hc]; decide) s

theorem strip_strip (s : Text) : strip (strip s) = strip s := stripOf_stripOf isSpace s

/-- A derived family is stripped. -/
theorem derived_stripped {run : RunRow} {touch : Text × Text × Text}
    (h : db.touchIdentityOfRun sha256 run = .ok touch) : ∃ g, touch.1 = strip g := by
  unfold touchIdentityOfRun at h
  split at h
  · cases h
  · obtain ⟨w, g, -, -, hnormal, -, -⟩ := touchIdentity_ok h
    exact ⟨g, (StartedRun.normalizeFamilyId_str hnormal).1⟩

/-- The backfill agrees with the runtime rule exactly when no started run has a family that begins or
ends with a blank other than a space. -/
theorem backfill_agrees_iff (h5 : db.VersionFive)
    (hderives : ∀ run ∈ db.runs, run.execution_started_at ≠ none →
      ∃ touch, db.touchIdentityOfRun sha256 run = .ok touch) :
    db.BackfillAgrees sha256 ↔ ∀ r ∈ db.startedRuns, r.FamilyTrimmed := by
  have hderived : ∀ r ∈ db.startedRuns, ∃ touch,
      touchIdentity sha256 r.binding r.prediction = .ok touch := by
    intro r hr
    obtain ⟨run, hrun, hstarted⟩ := List.mem_filterMap.mp hr
    obtain ⟨hne, heq⟩ := @startedRun?_some sha256 _ _ _ hstarted
    obtain ⟨touch, htouch⟩ := hderives run hrun hne
    exact ⟨touch, heq ▸ htouch⟩
  obtain ⟨db', hrows, htouched⟩ := @backfillRows_ok db.startedRuns (fun r hr => by
    obtain ⟨touch, htouch⟩ := hderived r hr
    obtain ⟨_, -, -, hrow⟩ := StartedRun.backfillRow_ok (h5.dates r hr) htouch
    exact ⟨_, hrow⟩) db
  constructor
  · rintro ⟨db'', hmigrated, hagrees⟩ r hr family_id hfamily
    obtain ⟨_, -, hrows'⟩ := bind_eq_ok.mp hmigrated
    obtain rfl := Except.ok.inj (hrows.symm.trans hrows')
    obtain ⟨touch, htouch⟩ := hderived r hr
    obtain ⟨family_id', hfamily', -, hrow⟩ := StartedRun.backfillRow_ok (h5.dates r hr) htouch
    obtain rfl := StartedRun.hasFamily_unique hfamily hfamily'
    -- every family that is recorded or derived is stripped
    suffices hstripped : strip (sqlTrim family_id) = sqlTrim family_id by
      rw [← hstripped, strip_sqlTrim]
    have hadded := (hagrees _).mp ((htouched _).mpr (Or.inr ⟨r, hr, _, hrow, rfl⟩))
    rcases hadded with ⟨row, hmem, heq⟩ | ⟨run, -, -, hrun⟩
    · have hid : row.family_id = sqlTrim family_id := congrArg Prod.fst heq
      rw [← hid, h5.families row hmem]
    · obtain ⟨g, hg⟩ := derived_stripped hrun
      have hid : sqlTrim family_id = strip g := hg
      rw [hid, strip_strip]
  · intro htrimmed
    have hguard : guardRows db.startedRuns = .ok () := guardRows_ok.mpr fun r hr hpre => by
      obtain ⟨touch, htouch⟩ := hderived r hr
      exact StartedRun.guardRow_ok hpre htouch (htrimmed r hr)
    refine ⟨db', bind_eq_ok.mpr ⟨(), hguard, hrows⟩, fun touch => (htouched touch).trans
      (or_congr Iff.rfl ?_)⟩
    have hsame : ∀ r ∈ db.startedRuns, ∀ t, touchIdentity sha256 r.binding r.prediction = .ok t →
        ∃ row, r.backfillRow = .ok (some row) ∧ row.touch = t := by
      intro r hr t ht
      obtain ⟨family_id, hfamily, hnormal, hrow⟩ := StartedRun.backfillRow_ok (h5.dates r hr) ht
      refine ⟨_, hrow, ?_⟩
      rw [TouchedWindowRow.touch, htrimmed r hr family_id hfamily,
        ← (StartedRun.normalizeFamilyId_str hnormal).1]
    constructor
    · rintro ⟨r, hr, row, hrow, rfl⟩
      obtain ⟨run, hrun, hstarted⟩ := List.mem_filterMap.mp hr
      obtain ⟨hne, heq⟩ := @startedRun?_some sha256 _ _ _ hstarted
      obtain ⟨t, ht⟩ := hderives run hrun hne
      obtain ⟨row', hrow', rfl⟩ := hsame r hr t (heq ▸ ht)
      obtain rfl := Option.some.inj (Except.ok.inj (hrow.symm.trans hrow'))
      exact ⟨run, hrun, hne, ht⟩
    · rintro ⟨run, hrun, hne, ht⟩
      obtain ⟨r, hr, hr'⟩ := startedRun?_of_derived hne ht
      have hmem := List.mem_filterMap.mpr ⟨run, hrun, hr⟩
      obtain ⟨row, hrow, rfl⟩ := hsame r hmem touch hr'
      exact ⟨r, hmem, row, hrow, rfl⟩

/-! ## A strategy that begins with a tab -/

/-- The bound envelope of a strategy that begins with a tab. -/
def tabEnvelope : Document :=
  .obj [(text "registration_status", .str (text "exploratory")),
    (text "snapshot", .obj [(text "out_of_sample_window", .obj [
      (text "end", .str (text "2024-02-01")), (text "start", .str (text "2024-01-01"))])]),
    (text "strategy_id", .str (text "\tmomentum"))]

/-- The SHA-256 digest of that envelope. -/
def tabDigest : Text :=
  text "3eb759c0c97ee747" ++ text "ebe78a62e40394b9" ++ text "499c49b38609e46b" ++ text "d7ac884c87067ca0"

/-- A digest that agrees with SHA-256 on that envelope. -/
def tabSha256 (s : Text) : Text := if s = Json.canonicalText tabEnvelope then tabDigest else s

/-- A registry with one started run of the strategy, from before the windows were recorded. -/
def unrecorded (strategy_id envelope_json digest : Text) : Registry :=
  { empty with
    runs := [sampleRun]
    run_bindings := [⟨text "run_1", text "key", text "hash", .exploratory, strategy_id, text "v1",
      envelope_json, text "sha256:" ++ digest, sampleTime.isoformat⟩] }

/-- The registry with the strategy that begins with a tab. -/
def tabRegistry : Registry :=
  unrecorded (text "\tmomentum") (Json.canonicalText tabEnvelope) tabDigest

/-- An envelope whose window was dumped from two dates. -/
theorem datesDumped_of_envelope {binding : RunBindingRow} {envelope : Document} {start stop : Date}
    (hloads : Json.loads binding.envelope_json = some envelope)
    (hstart : ((outOfSampleWindow? envelope).bind (·.get? (text "start"))).bind Value.asText? =
      some start.isoformat)
    (hstop : ((outOfSampleWindow? envelope).bind (·.get? (text "end"))).bind Value.asText? =
      some stop.isoformat) : binding.DatesDumped := by
  intro envelope' window hloads' hout
  obtain rfl := Option.some.inj (hloads.symm.trans hloads')
  rw [hout, Option.bind_some] at hstart hstop
  obtain ⟨v, hv, hs⟩ := Option.bind_eq_some_iff.mp hstart
  obtain ⟨v', hv', hs'⟩ := Option.bind_eq_some_iff.mp hstop
  rw [Value.asText?_eq_some.mp hs] at hv
  rw [Value.asText?_eq_some.mp hs'] at hv'
  exact ⟨start, stop, hv, hv'⟩

theorem tab_evaluates :
    tabRegistry.migration6.map (fun db => db.touched_windows.map TouchedWindowRow.touch) =
        .ok [(text "\tmomentum", text "2024-01-01", text "2024-02-01")] ∧
      tabRegistry.touchIdentityOfRun tabSha256 sampleRun =
        .ok (text "momentum", text "2024-01-01", text "2024-02-01") := by
  decide +kernel

/-- Such a registry is one of version 5, when its envelope was dumped. -/
theorem unrecorded_versionFive {strategy_id digest : Text} {envelope : Document} {start stop : Date}
    (hproper : envelope.Proper)
    (hstart : ((outOfSampleWindow? (Json.sortKeys envelope)).bind (·.get? (text "start"))).bind
      Value.asText? = some start.isoformat)
    (hstop : ((outOfSampleWindow? (Json.sortKeys envelope)).bind (·.get? (text "end"))).bind
      Value.asText? = some stop.isoformat) :
    (unrecorded strategy_id (Json.canonicalText envelope) digest).VersionFive where
  results := rfl
  families := by simp [unrecorded, empty]
  dates r hr := by
    obtain ⟨run, -, hstarted⟩ := List.mem_filterMap.mp hr
    obtain ⟨_, -, h⟩ := Option.bind_eq_some_iff.mp hstarted
    obtain ⟨binding, hbinding, rfl⟩ := Option.map_eq_some_iff.mp h
    obtain rfl := List.mem_singleton.mp (binding?_some hbinding).1
    exact datesDumped_of_envelope (Json.loads_canonicalText hproper) hstart hstop

/-- Migration 6 records the window under a family that nothing looks up. -/
theorem backfill_keeps_tab :
    tabRegistry.VersionFive ∧
      (∀ run ∈ tabRegistry.runs, run.execution_started_at ≠ none →
        ∃ touch, tabRegistry.touchIdentityOfRun tabSha256 run = .ok touch) ∧
      ¬ tabRegistry.BackfillAgrees tabSha256 := by
  obtain ⟨hmigrates, hderives⟩ := tab_evaluates
  refine ⟨?_, fun run hrun _ => ?_, ?_⟩
  · refine @unrecorded_versionFive _ _ _ ⟨2024, 1, 1, by decide⟩ ⟨2024, 2, 1, by decide⟩
      ((proper_iff _).mpr ⟨?_, by decide +kernel⟩) (by decide +kernel) (by decide +kernel)
    simp only [tabEnvelope, Keyed, FieldsKeyed, List.map_cons, List.map_nil]
    decide
  · rw [List.mem_singleton.mp hrun]
    exact ⟨_, hderives⟩
  · rintro ⟨db', hmigrated, hagrees⟩
    rw [hmigrated, Except.map, Except.ok.injEq] at hmigrates
    have hadded : db'.Touched (text "\tmomentum", text "2024-01-01", text "2024-02-01") :=
      List.mem_map.mp (by rw [hmigrates]; exact List.mem_singleton.mpr rfl)
    rcases (hagrees _).mp hadded with ⟨row, hrow, -⟩ | ⟨run, hrun, -, hderived⟩
    · cases hrow
    · rw [List.mem_singleton.mp hrun, hderives] at hderived
      exact absurd (congrArg Prod.fst (Except.ok.inj hderived)) (by decide)

/-- The registry of a started run whose window was not recorded. -/
def plainRegistry : Registry := unrecorded (text "momentum") sampleEnvelope sampleDigest

theorem plain_derives : plainRegistry.touchIdentityOfRun sampleSha256 sampleRun =
    .ok (text "momentum", text "2024-01-01", text "2024-02-01") := by
  decide +kernel

theorem backfill_agrees_iff_sample :
    plainRegistry.BackfillAgrees sampleSha256 ↔ ∀ r ∈ plainRegistry.startedRuns, r.FamilyTrimmed := by
  refine backfill_agrees_iff ?_ fun run hrun _ => ?_
  · refine @unrecorded_versionFive _ _ _ ⟨2024, 1, 1, by decide⟩ ⟨2024, 2, 1, by decide⟩
      ((proper_iff _).mpr ⟨?_, by decide +kernel⟩) (by decide +kernel) (by decide +kernel)
    simp only [Keyed, FieldsKeyed, List.map_cons, List.map_nil]
    decide
  · rw [List.mem_singleton.mp hrun]
    exact ⟨_, plain_derives⟩

end Registry

end Pine
