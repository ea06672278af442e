import Pine.Ledger.Record.Published

/-!
# Verified evidence is committed evidence

Whatever bytes lie at the two paths of a prediction, evidence that the verifier returns for its
row is what was committed with the row. The hash of the row covers the canonical text of the whole
payload, and no canonical text of an object with these keys has two readings.
-/

namespace Pine

open Json (Value)

/-! ## The text that is hashed -/

/-- What is written of an observed payload. -/
theorem sorted?_observedPayload {registration_status snapshot_ref schema_hash : Text}
    {forecast : StrategyEdgeForecast} {decision lineage : YamlValue} {snapshot d : Document}
    (h : (observedPayload registration_status snapshot_ref schema_hash forecast decision lineage
      snapshot).sorted? = some d) :
    ∃ D L, decision.sorted? = some D ∧ lineage.sorted? = some L ∧
      d = .obj (payloadFields registration_status snapshot_ref schema_hash
        (Json.sortKeys forecast.modelDump) D L (Json.sortKeys snapshot)) := by
  cases hdecision : decision.sorted? with
  | none => simp [observedPayload, YamlValue.sorted?, YamlValue.sortedFields, hdecision] at h
  | some D =>
    cases hlineage : lineage.sorted? with
    | none => simp [observedPayload, YamlValue.sorted?, YamlValue.sortedFields, hlineage] at h
    | some L =>
      have hfields := YamlValue.sortEntries_texts [(text "registration_status", .str registration_status),
        (text "forecast", Json.sortKeys forecast.modelDump), (text "decision", D),
        (text "snapshot", Json.sortKeys snapshot), (text "snapshot_ref", .str snapshot_ref),
        (text "schema_hash", .str schema_hash), (text "lineage", L)]
      simp only [List.map_cons, List.map_nil] at hfields
      simp only [observedPayload, YamlValue.sorted?, YamlValue.sortedFields, hdecision, hlineage,
        YamlValue.sorted?_ofDocument, Option.bind_eq_bind, Option.bind_some, Option.pure_def, hfields,
        Option.map_some, Option.some.injEq] at h
      exact ⟨D, L, rfl, rfl, h.symm⟩

/-- Payloads with one text have parts with one text. -/
theorem payloadFields_injective {s s' r r' h h' : Text}
    {forecast forecast' decision decision' lineage lineage' snapshot snapshot' : Document}
    (hf : isFinite (.obj (payloadFields s r h forecast decision lineage snapshot)) = true)
    (hf' : isFinite (.obj (payloadFields s' r' h' forecast' decision' lineage' snapshot')) = true)
    (heq : Json.print Json.compactStyle 0
        (.obj (payloadFields s r h forecast decision lineage snapshot)) =
      Json.print Json.compactStyle 0
        (.obj (payloadFields s' r' h' forecast' decision' lineage' snapshot'))) :
    Json.print Json.compactStyle 0 decision = Json.print Json.compactStyle 0 decision' ∧
      Json.print Json.compactStyle 0 forecast = Json.print Json.compactStyle 0 forecast' ∧
      Json.print Json.compactStyle 0 lineage = Json.print Json.compactStyle 0 lineage' ∧
      Json.print Json.compactStyle 0 snapshot = Json.print Json.compactStyle 0 snapshot' := by
  have hparts := Json.print_obj_injective Json.compactStyle_valid ((finite_iff _).mpr hf)
    ((finite_iff _).mpr hf') rfl heq
  simp only [payloadFields, List.forall₂_cons, Json.print_compact _ (0 + 1)] at hparts
  exact ⟨hparts.1, hparts.2.1, hparts.2.2.1, hparts.2.2.2.2.2.1⟩

/-! ## Forecasts -/

/-- A window is determined by its dump. -/
theorem DateWindow.sortKeys_modelDump_injective {v w : DateWindow}
    (h : Json.sortKeys v.modelDump = Json.sortKeys w.modelDump) : v = w := by
  obtain ⟨start, stop, _⟩ := v
  obtain ⟨start', stop', _⟩ := w
  change Value.obj [(text "end", .str stop.isoformat), (text "start", .str start.isoformat)] =
    Value.obj [(text "end", .str stop'.isoformat), (text "start", .str start'.isoformat)] at h
  simp only [Value.obj.injEq, List.cons.injEq, Prod.mk.injEq, Value.str.injEq, true_and,
    and_true] at h
  obtain rfl := Date.isoformat_injective h.1
  obtain rfl := Date.isoformat_injective h.2
  rfl

/-- Metrics are determined by their dump. -/
theorem ExpectedMetrics.sortKeys_modelDump_injective {m n : ExpectedMetrics}
    (h : Json.sortKeys m.modelDump = Json.sortKeys n.modelDump) : m = n := by
  obtain ⟨⟨sharpe, _⟩, ⟨win_rate, _⟩, ⟨max_drawdown, _⟩, ⟨expectancy, _⟩, _⟩ := m
  obtain ⟨⟨sharpe', _⟩, ⟨win_rate', _⟩, ⟨max_drawdown', _⟩, ⟨expectancy', _⟩, _⟩ := n
  change Value.obj [(text "expectancy", .float expectancy), (text "max_drawdown", .float max_drawdown),
      (text "sharpe", .float sharpe), (text "win_rate", .float win_rate)] =
    Value.obj [(text "expectancy", .float expectancy'),
      (text "max_drawdown", .float max_drawdown'), (text "sharpe", .float sharpe'),
      (text "win_rate", .float win_rate')] at h
  simp only [Value.obj.injEq, List.cons.injEq, Prod.mk.injEq, Value.float.injEq, true_and,
    and_true] at h
  obtain ⟨rfl, rfl, rfl, rfl⟩ := h
  rfl

/-- A forecast is determined by its dump. -/
theorem StrategyEdgeForecast.sortKeys_modelDump_injective {f g : StrategyEdgeForecast}
    (h : Json.sortKeys f.modelDump = Json.sortKeys g.modelDump) : f = g := by
  obtain ⟨strategy_id, metrics, in_sample, out_of_sample, invalidation, edge_source, _⟩ := f
  obtain ⟨strategy_id', metrics', in_sample', out_of_sample', invalidation', edge_source', _⟩ := g
  change Value.obj [(text "edge_source", .str edge_source),
      (text "expected_metrics", Json.sortKeys metrics.modelDump),
      (text "in_sample_window", Json.sortKeys in_sample.modelDump),
      (text "invalidation", .str invalidation),
      (text "out_of_sample_window", Json.sortKeys out_of_sample.modelDump),
      (text "strategy_id", .str strategy_id)] =
    Value.obj [(text "edge_source", .str edge_source'),
      (text "expected_metrics", Json.sortKeys metrics'.modelDump),
      (text "in_sample_window", Json.sortKeys in_sample'.modelDump),
      (text "invalidation", .str invalidation'),
      (text "out_of_sample_window", Json.sortKeys out_of_sample'.modelDump),
      (text "strategy_id", .str strategy_id')] at h
  simp only [Value.obj.injEq, List.cons.injEq, Prod.mk.injEq, Value.str.injEq, true_and,
    and_true] at h
  obtain ⟨rfl, hmetrics, hin, rfl, hout, rfl⟩ := h
  obtain rfl := ExpectedMetrics.sortKeys_modelDump_injective hmetrics
  obtain rfl := DateWindow.sortKeys_modelDump_injective hin
  obtain rfl := DateWindow.sortKeys_modelDump_injective hout
  rfl

/-- The dump of a forecast repeats no key. -/
theorem StrategyEdgeForecast.keyed_modelDump (f : StrategyEdgeForecast) : Keyed f.modelDump :=
  keyed_obj ["strategy_id", "expected_metrics", "in_sample_window", "out_of_sample_window",
    "invalidation", "edge_source"] rfl (by decide)
    ⟨trivial, keyed_obj ["sharpe", "win_rate", "max_drawdown", "expectancy"] rfl (by decide)
      ⟨trivial, trivial, trivial, trivial, trivial⟩, keyed_dateWindow _, keyed_dateWindow _, trivial,
      trivial, trivial⟩

/-- Forecasts whose dumps have one text are one forecast. -/
theorem StrategyEdgeForecast.eq_of_print {f g : StrategyEdgeForecast}
    (hf : isFinite f.modelDump = true) (hg : isFinite g.modelDump = true)
    (h : Json.print Json.compactStyle 0 (Json.sortKeys f.modelDump) =
      Json.print Json.compactStyle 0 (Json.sortKeys g.modelDump)) : f = g :=
  sortKeys_modelDump_injective ((Json.canonicalText_eq_iff
    ((proper_iff _).mpr ⟨f.keyed_modelDump, hf⟩) ((proper_iff _).mpr ⟨g.keyed_modelDump, hg⟩)).mp h)

/-! ## Payloads -/

/-- The fields of a finite payload are finite. -/
theorem isFinite_payloadFields {s r h : Text} {forecast decision lineage snapshot : Document} :
    isFinite (.obj (payloadFields s r h forecast decision lineage snapshot)) = true ↔
      isFinite decision = true ∧ isFinite forecast = true ∧ isFinite lineage = true ∧
        isFinite snapshot = true := by
  simp [payloadFields, isFinite, fieldsFinite]

/-- What a text commits to: an observed payload with the canonical text of a committed prediction has
its parts. -/
theorem observedPayload_committed {c : CommittedPrediction}
    (hc : canonicalJson c.payload = .ok (Json.canonicalText c.payload))
    {registration_status snapshot_ref schema_hash : Text} {forecast : StrategyEdgeForecast}
    {decision lineage : YamlValue} {snapshot : Document}
    (h : (observedPayload registration_status snapshot_ref schema_hash forecast decision lineage
      snapshot).canonicalJson = .ok (Json.canonicalText c.payload)) :
    forecast = c.forecast ∧ decision = .str c.decision ∧
      (∃ s, canonicalJson snapshot = .ok s ∧ canonicalJson c.snapshot.toDict = .ok s) ∧
      ∃ s, lineage.canonicalJson = .ok s ∧ canonicalJson c.lineage.toDict = .ok s := by
  obtain ⟨d, hd, hfinite, htexts⟩ := YamlValue.canonicalJson_eq_ok.mp h
  obtain ⟨D, L, hD, hL, rfl⟩ := sorted?_observedPayload hd
  obtain ⟨hfinite', -⟩ := canonicalJson_ok hc
  rw [Json.canonicalText, sortKeys_payload] at htexts
  rw [← isFinite_sortKeys, sortKeys_payload] at hfinite'
  obtain ⟨hdecision, hforecast, hlineage, hsnapshot⟩ :=
    payloadFields_injective hfinite hfinite' htexts.symm
  obtain ⟨hDf, hFf, hLf, hSf⟩ := isFinite_payloadFields.mp hfinite
  obtain ⟨-, hFf', hLf', hSf'⟩ := isFinite_payloadFields.mp hfinite'
  rw [isFinite_sortKeys] at hFf hSf hFf' hLf' hSf'
  refine ⟨StrategyEdgeForecast.eq_of_print hFf hFf' hforecast, ?_,
    ⟨Json.print Json.compactStyle 0 (Json.sortKeys snapshot), ?_, ?_⟩,
    ⟨Json.print Json.compactStyle 0 L, ?_, ?_⟩⟩
  · have hstr := Json.eq_str_of_print Json.compactStyle_valid ((finite_iff D).mpr hDf) hdecision
    rw [hstr] at hD
    exact YamlValue.eq_str_of_sorted? hD
  · rw [canonicalJson, if_pos hSf]
    rfl
  · rw [canonicalJson, if_pos hSf', Json.canonicalText, ← hsnapshot]
  · exact YamlValue.canonicalJson_eq_ok.mpr ⟨L, hL, hLf, rfl⟩
  · rw [canonicalJson, if_pos hLf', Json.canonicalText, ← hlineage]

/-- The payload has the digest of a prediction, but not its canonical text. -/
def PayloadCollides (sha256 : Text → Text) (c : CommittedPrediction) (payload : YamlValue) : Prop :=
  ∃ s, payload.canonicalJson = .ok s ∧ s ≠ Json.canonicalText c.payload ∧
    sha256 s = sha256 (Json.canonicalText c.payload)

/-- A payload with the hash of a row is the one that the row was committed with, or collides. -/
theorem payload_committed {sha256 : Text → Text} {row : PredictionRow} {c : CommittedPrediction}
    (hc : c.Prepared sha256) (hrow : row.Records c) {forecast : StrategyEdgeForecast}
    {decision lineage : YamlValue} {snapshot : Document}
    (h : (observedPayload row.registration_status.value row.snapshot_ref row.schema_hash forecast
      decision lineage snapshot).sha256Json sha256 = .ok row.immutable_hash) :
    (forecast = c.forecast ∧ decision = .str c.decision ∧
      (∃ s, canonicalJson snapshot = .ok s ∧ canonicalJson c.snapshot.toDict = .ok s) ∧
      ∃ s, lineage.canonicalJson = .ok s ∧ canonicalJson c.lineage.toDict = .ok s) ∨
    PayloadCollides sha256 c (observedPayload c.registration_status.value c.snapshot_ref
      c.schema_hash forecast decision lineage snapshot) := by
  rw [hrow.immutable_hash, hrow.registration_status, hrow.snapshot_ref, hrow.schema_hash] at h
  obtain ⟨s, hs, hdigest⟩ := YamlValue.sha256Json_eq_ok.mp h
  obtain ⟨t, ht, hcommitted⟩ := bind_eq_ok.mp hc.hash
  obtain ⟨-, rfl⟩ := canonicalJson_ok ht
  have hsame : sha256 s = sha256 (Json.canonicalText c.payload) :=
    List.append_cancel_left (hdigest.symm.trans (Except.ok.inj hcommitted).symm)
  by_cases heq : s = Json.canonicalText c.payload
  · subst heq
    exact Or.inl (observedPayload_committed ht hs)
  · exact Or.inr ⟨s, hs, heq, hsame⟩

/-! ## The verifier -/

section

variable {R : EvidenceReader} {sha256 : Text → Text} {row : PredictionRow}
  {record snapshot : ManagedFile} {frontmatter : YamlValue} {e : VerifiedRecordEvidence}

/-- The evidence is what a prediction was committed with, and so are the fields of the record that
the verifier binds. -/
structure CommittedEvidence (c : CommittedPrediction) (frontmatter : YamlValue)
    (e : VerifiedRecordEvidence) : Prop where
  forecast : e.forecast = c.forecast
  decision : e.decision = c.decision
  snapshot : ∃ s, canonicalJson e.snapshot = .ok s ∧ canonicalJson c.snapshot.toDict = .ok s
  lineage : ∃ s, e.lineage.canonicalJson = .ok s ∧ canonicalJson c.lineage.toDict = .ok s
  registration_status :
    frontmatter.get? "registration_status" = some (.str c.registration_status.value)
  snapshot_ref : frontmatter.get? "snapshot_ref" = some (.str c.snapshot_ref)
  schema_hash : frontmatter.get? "schema_hash" = some (.str c.schema_hash)

theorem eq_str_of_fieldIs {field : String} {expected : Text}
    (h : frontmatter.fieldIs field expected = true) :
    frontmatter.get? field = some (.str expected) := by
  obtain ⟨value, hvalue, htext⟩ := Option.bind_eq_some_iff.mp (asText?_of_fieldIs h)
  cases value with
  | str s =>
    obtain rfl := Option.some.inj htext
    exact hvalue
  | _ => cases htext

/-- The evidence has the digest of a prediction, but not its canonical text. -/
def Collides (sha256 : Text → Text) (c : CommittedPrediction) (e : VerifiedRecordEvidence) : Prop :=
  PayloadCollides sha256 c (observedPayload c.registration_status.value c.snapshot_ref c.schema_hash
    e.forecast (.str e.decision) e.lineage e.snapshot)

/-- What a verification found is what the row was committed with, or its text collides with it. -/
theorem Verifies.committed {c : CommittedPrediction} (hc : c.Prepared sha256) (hrow : row.Records c)
    (h : Verifies R sha256 row record snapshot frontmatter e) :
    CommittedEvidence c frontmatter e ∨ Collides sha256 c e := by
  have hscalars := h.scalars
  simp only [PredictionRow.expectedScalars, List.forall_mem_cons] at hscalars
  obtain ⟨-, -, -, -, hhash, hstatus, href, -⟩ := hscalars
  rcases payload_committed hc hrow h.payload with
    ⟨hforecast, hdecision, hsnapshot, hlineage⟩ | hcollides
  · exact Or.inl ⟨hforecast, YamlValue.str.inj hdecision, hsnapshot, hlineage,
      hrow.registration_status ▸ eq_str_of_fieldIs hstatus,
      hrow.snapshot_ref ▸ eq_str_of_fieldIs href, hrow.schema_hash ▸ eq_str_of_fieldIs hhash⟩
  · exact Or.inr hcollides

end

/-- Every prediction that calls lead to was staged by one of them, and whatever bytes lie at its two
paths: evidence that the verifier returns without a violation is what was staged, unless its canonical
text is another one with the same digest. -/
theorem verified_evidence_committed {sha256 : Text → Text} (R : EvidenceReader) {V : Libraries}
    {trace : List (Registry × LedgerCall)} {db : Registry}
    (hrun : Run (LedgerCall.Step V sha256) Registry.empty trace db)
    (hwritten : ∀ x ∈ trace, x.2.Written sha256) {row : PredictionRow} (hrow : row ∈ db.predictions) :
    ∃ c, (∃ x ∈ trace, x.2.Stages sha256 c) ∧ row.Records c ∧
      ∀ record snapshot r, verify R sha256 row record snapshot = .ok r → r.violations = [] →
        ∃ frontmatter e, r.evidence = some e ∧
          (∃ raw, record.read = .ok (some raw) ∧
            loadRecord R.toRecordLibrary raw = some (frontmatter, e.body)) ∧
          (CommittedEvidence c frontmatter e ∨ Collides sha256 c e) := by
  obtain ⟨c, ⟨x, hx, hstages⟩, hrecords⟩ := LedgerCall.run_records hrun row hrow
  refine ⟨c, ⟨x, hx, hstages⟩, hrecords, fun record snapshot r hverify hclean => ?_⟩
  obtain ⟨frontmatter, e, hverifies, rfl⟩ := verify_clean.mp ⟨hverify, hclean⟩
  exact ⟨frontmatter, e, rfl, hverifies.loaded, hverifies.committed (hwritten x hx c hstages) hrecords⟩

/-! ## A staged prediction -/

/-- Stage a prediction, and commit it. -/
def stagingCall (c : CommittedPrediction) : LedgerCall :=
  .operations [.begin_prediction c, .commit_prediction c.prediction_id c.committed_at]

/-- The registry after that. -/
def stagedRegistry (c : CommittedPrediction) : Registry :=
  (stagingCall c).commit Registry.sampleLibraries id Registry.empty

theorem staged_evaluates : samplePrepared.toOption.any (fun c => (snapshotBytes c).isOk &&
    ((stagedRegistry c).predictions.map PredictionRow.committed_at ==
      [some c.committed_at.isoformat])) = true := by
  decide +kernel

theorem verified_evidence_committed_sample : ∃ c row record snapshot frontmatter,
    samplePrepared = .ok c ∧ row ∈ (stagedRegistry c).predictions ∧
      verify sampleReader id row record snapshot = .ok ⟨some (publishedEvidence c), []⟩ ∧
      CommittedEvidence c frontmatter (publishedEvidence c) := by
  obtain ⟨c, hc, hchecks⟩ := (Option.any_eq_true _ _).mp staged_evaluates
  simp only [Bool.and_eq_true, beq_iff_eq] at hchecks
  obtain ⟨hsnapshot, hrows⟩ := hchecks
  have hprepared : samplePrepared = .ok c := by
    cases h : samplePrepared with
    | error e =>
      rw [h] at hc
      cases hc
    | ok d =>
      rw [h] at hc
      exact congrArg Except.ok (Option.some.inj hc)
  obtain ⟨content, hbytes⟩ : ∃ content, snapshotBytes c = .ok content := by
    cases h : snapshotBytes c with
    | error e =>
      rw [h] at hsnapshot
      cases hsnapshot
    | ok content => exact ⟨content, rfl⟩
  obtain ⟨hwriter, hreadable⟩ := sample_readable c hprepared
  obtain ⟨row, hrow, hcommitted⟩ : ∃ row ∈ (stagedRegistry c).predictions,
      row.committed_at = some c.committed_at.isoformat := by
    refine List.mem_map.mp ?_
    rw [hrows]
    exact List.mem_singleton_self _
  have hstages : ∀ x ∈ [(Registry.empty, stagingCall c)], ∀ c', x.2.Stages id c' → c' = c := by
    intro x hx c' hstages
    rw [List.mem_singleton.mp hx] at hstages
    rcases List.mem_cons.mp hstages with heq | hother
    · exact Registry.Operation.begin_prediction.inj heq
    · cases List.mem_singleton.mp hother
  obtain ⟨c', ⟨x, hx, hstaged⟩, hrecords, hverified⟩ := verified_evidence_committed sampleReader
    (Run.single (show LedgerCall.Step Registry.sampleLibraries id Registry.empty (stagingCall c)
      (stagedRegistry c) from rfl))
    (fun x hx c' hstaged => hstages x hx c' hstaged ▸ hwriter) hrow
  obtain rfl := hstages x hx c' hstaged
  have hverify := verify_published hwriter hreadable hrecords hcommitted hbytes
  obtain ⟨frontmatter, e, heq, -, hevidence | ⟨s, -, hne, hsame⟩⟩ := hverified _ _ _ hverify rfl
  · cases heq
    exact ⟨c', row, _, _, frontmatter, hprepared, hrow, hverify, hevidence⟩
  · exact absurd hsame hne

end Pine
