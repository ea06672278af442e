import Pine.Core.DayNumber
import Pine.Ledger.Record.Committed
import Pine.Ledger.Record.Verify
import Pine.Ledger.Results.Permanence
import Pine.Ledger.Writer.Ownership

/-!
# Published records verify

The files that the writer publishes are read back as what was committed, as long as they keep
within the limits of the verifier, the times can be expressed in UTC, and the front matter does
not close itself: YAML text in which a line ends with three dashes does.
-/

namespace Pine

open Json (Value)

/-- What the ledger relies on in the libraries: a dumped document is loaded again, without carriage
returns in its text, and a dumped forecast is validated again. -/
structure EvidenceReader.ReadsBack (R : EvidenceReader) (safeDump : Document → Text)
    (c : CommittedPrediction) : Prop where
  load : R.safeLoad (safeDump (frontmatter c)) = some (.ofDocument (frontmatter c))
  lines : '\r' ∉ safeDump (frontmatter c)
  forecast : R.validateForecast (.ofDocument c.forecast.modelDump) = some c.forecast

/-- The first line of three dashes in the front matter is the one that closes it. -/
def Closed (front : Text) : Prop :=
  splitOnce (text "---\n") (front ++ text "---\n") = some (front, [])

instance (front : Text) : Decidable (Closed front) := inferInstanceAs (Decidable (_ = _))

/-- A time is aware and can be expressed in UTC. -/
def DateTime.Universal (t : DateTime) : Prop := t.isAware = true ∧ t.astimezoneUtc ≠ none

instance (t : DateTime) : Decidable t.Universal := inferInstanceAs (Decidable (_ ∧ _))

variable {R : EvidenceReader} {sha256 : Text → Text} {safeDump : Document → Text}
  {c : CommittedPrediction} {row : PredictionRow}

/-! ## The record -/

/-- The body of a published record, as it is read back. -/
def publishedBody (c : CommittedPrediction) : Text := replaceCrLf (rstrip c.body)

theorem rstrip_getLast_ne (s : Text) : (rstrip s).getLast? ≠ some '\r' := by
  intro h
  exact absurd (getLast?_rstrip s '\r' h) (by decide)

theorem trimBody_published (c : CommittedPrediction) :
    trimBody ('\n' :: (publishedBody c ++ ['\n'])) = publishedBody c := by
  have hstrip : stripPrefix ['\n'] ('\n' :: (publishedBody c ++ ['\n'])) =
      some (publishedBody c ++ ['\n']) := rfl
  rw [trimBody, hstrip, Option.getD_some]
  simp only [List.getLast?_concat, if_true, List.dropLast_concat]

/-- A published record is read as its front matter and its body. -/
theorem loadRecord_published (hreads : R.ReadsBack safeDump c)
    (hclosed : Closed (safeDump (frontmatter c)))
    (hlength : utf8Length (recordBytes safeDump c) ≤ maxRecordBytes) :
    loadRecord R.toRecordLibrary (Bytes.encodeUtf8 (recordBytes safeDump c)) =
      some (.ofDocument (frontmatter c), publishedBody c) := by
  have hsize : ¬ maxRecordBytes < (Bytes.encodeUtf8 (recordBytes safeDump c)).length := by
    rw [Bytes.length_encodeUtf8]
    exact Nat.not_lt.mpr hlength
  have htext : recordBytes safeDump c = (text "---\n" ++ (safeDump (frontmatter c) ++ text "---\n\n")) ++
      (rstrip c.body ++ ['\n']) := by
    simp only [recordBytes, List.append_assoc]
  have hfixed : '\r' ∉ text "---\n" ++ (safeDump (frontmatter c) ++ text "---\n\n") := by
    simp only [List.mem_append, not_or]
    exact ⟨by decide, hreads.lines, by decide⟩
  have hlines : replaceCrLf (recordBytes safeDump c) = text "---\n" ++ (safeDump (frontmatter c) ++
      (text "---\n" ++ '\n' :: (publishedBody c ++ ['\n']))) := by
    rw [htext, replaceCrLf_append _ hfixed, replaceCrLf_concat (rstrip_getLast_ne c.body),
      List.append_assoc, List.append_assoc]
    rfl
  simp only [loadRecord, if_neg hsize, Bytes.decodeUtf8_encodeUtf8, hlines, stripPrefix_append,
    splitOnce_closed _ hclosed, Option.bind_eq_bind, Option.bind_some, hreads.load,
    trimBody_published]
  rfl

/-! ## The snapshot -/

/-- A published snapshot is loaded with its keys in order. -/
theorem loadSnapshot_published {content : Text} (hbytes : snapshotBytes c = .ok content)
    (hlength : utf8Length content ≤ maxSnapshotBytes) :
    R.loadSnapshot ⟨true, .ok (some (Bytes.encodeUtf8 content))⟩ =
      .ok (.ok (Json.sortKeys c.snapshot.toDict)) := by
  unfold snapshotBytes at hbytes
  split at hbytes
  · rename_i hfinite
    obtain rfl := Except.ok.inj hbytes
    have hproper : c.snapshot.toDict.Proper := (proper_iff _).mpr ⟨c.snapshot.keyed, hfinite⟩
    have hblank : Json.Blank ['\n'] := by
      intro x hx
      rw [List.mem_singleton.mp hx]
      decide
    have hload := Json.loads_print (Json.indentStyle_valid 2) hproper.sortKeys hblank
    have hsize : ¬ maxSnapshotBytes < (Bytes.encodeUtf8 (Json.print (Json.indentStyle 2) 0
        (Json.sortKeys c.snapshot.toDict) ++ ['\n'])).length := by
      rw [Bytes.length_encodeUtf8]
      exact Nat.not_lt.mpr hlength
    have hjson : R.jsonLoads (Bytes.encodeUtf8 (Json.print (Json.indentStyle 2) 0
        (Json.sortKeys c.snapshot.toDict) ++ ['\n'])) = some (Json.sortKeys c.snapshot.toDict) := by
      rw [EvidenceReader.jsonLoads, Bytes.decodeUtf8_encodeUtf8, Option.bind_some, hload, Option.some_or]
    have hobject : (Json.sortKeys c.snapshot.toDict).isObject = true := rfl
    simp only [EvidenceReader.loadSnapshot, refuse, Bool.true_eq_false, if_false, Bind.bind,
      Except.bind, if_neg hsize, hjson, hobject, isFinite_sortKeys, hfinite, if_true]
    rfl
  · cases hbytes

/-! ## The payload -/

/-- `immutable_payload` of a committed prediction. -/
def CommittedPrediction.payload (c : CommittedPrediction) : Document :=
  .obj [(text "registration_status", .str c.registration_status.value),
    (text "forecast", c.forecast.modelDump),
    (text "decision", .str c.decision),
    (text "snapshot", c.snapshot.toDict),
    (text "snapshot_ref", .str c.snapshot_ref),
    (text "schema_hash", .str c.schema_hash),
    (text "lineage", c.lineage.toDict)]

/-- The hash of a prepared prediction is that of its payload. -/
theorem CommittedPrediction.Prepared.hash {sha256 : Text → Text} {c : CommittedPrediction}
    (h : c.Prepared sha256) : sha256Json sha256 c.payload = .ok c.immutable_hash := by
  obtain ⟨_, _, _, _, hprepared⟩ := h
  obtain ⟨_, _, hhash, -, -, rfl⟩ := prepareCommitted_ok hprepared
  exact hhash

/-- A payload with its keys in order. -/
def payloadFields (registration_status snapshot_ref schema_hash : Text)
    (forecast decision lineage snapshot : Document) : List (Text × Document) :=
  [(text "decision", decision), (text "forecast", forecast), (text "lineage", lineage),
    (text "registration_status", .str registration_status), (text "schema_hash", .str schema_hash),
    (text "snapshot", snapshot), (text "snapshot_ref", .str snapshot_ref)]

theorem sortKeys_payload (c : CommittedPrediction) : Json.sortKeys c.payload =
    .obj (payloadFields c.registration_status.value c.snapshot_ref c.schema_hash
      (Json.sortKeys c.forecast.modelDump) (.str c.decision) (Json.sortKeys c.lineage.toDict)
      (Json.sortKeys c.snapshot.toDict)) := rfl

/-- The payload that is read back has the hash that was committed. -/
theorem payload_published (hc : c.Prepared sha256) :
    (observedPayload c.registration_status.value c.snapshot_ref c.schema_hash c.forecast
      (.str c.decision) (.ofDocument c.lineage.toDict) (Json.sortKeys c.snapshot.toDict)).sha256Json
        sha256 = .ok c.immutable_hash := by
  obtain ⟨t, ht, hhash⟩ := bind_eq_ok.mp hc.hash
  obtain ⟨hfinite, rfl⟩ := canonicalJson_ok ht
  have hsorted : (observedPayload c.registration_status.value c.snapshot_ref c.schema_hash c.forecast
      (.str c.decision) (.ofDocument c.lineage.toDict) (Json.sortKeys c.snapshot.toDict)).sorted? =
        some (Json.sortKeys c.payload) := by
    have hpayload := YamlValue.sorted?_ofDocument (.obj
      [(text "registration_status", .str c.registration_status.value),
        (text "forecast", c.forecast.modelDump), (text "decision", .str c.decision),
        (text "snapshot", Json.sortKeys c.snapshot.toDict), (text "snapshot_ref", .str c.snapshot_ref),
        (text "schema_hash", .str c.schema_hash), (text "lineage", c.lineage.toDict)])
    refine hpayload.trans (congrArg some ?_)
    rw [sortKeys_payload]
    exact congrArg (fun s => Value.obj (payloadFields _ _ _ _ _ _ s)) (Json.sortKeys_sortKeys _)
  refine YamlValue.sha256Json_eq_ok.mpr ⟨Json.canonicalText c.payload,
    YamlValue.canonicalJson_eq_ok.mpr ⟨_, hsorted, ?_, rfl⟩, (Except.ok.inj hhash).symm⟩
  rw [isFinite_sortKeys]
  exact hfinite

/-! ## The comparison -/

theorem timestampsMatch_published {t : DateTime} (h : t.Universal) :
    timestampsMatch (some (.str t.isoformat)) (some t.isoformat) = .ok true := by
  obtain ⟨utc, hutc⟩ := Option.ne_none_iff_exists'.mp h.2
  simp only [timestampsMatch, observedTime, Option.bind_some, DateTime.fromisoformat_isoformat, h.1,
    Bool.and_self, if_true, hutc, required, Bind.bind, Except.bind]
  simp [Pure.pure, Except.pure]

/-- A field of a mapping that is the expected text. -/
theorem fieldIs_of_get? {value : YamlValue} {field : String} {expected : Text}
    (h : value.get? field = some (.str expected)) : value.fieldIs field expected = true := by
  rw [YamlValue.fieldIs, h]
  exact beq_self_eq_true (some expected)

/-- The scalars of a front matter are those of the row. -/
theorem scalars_published (hrow : row.Records c) : ∀ field ∈ row.expectedScalars,
    (YamlValue.ofDocument (frontmatter c)).fieldIs field.1 field.2 = true := by
  simp only [PredictionRow.expectedScalars, List.forall_mem_cons, hrow.prediction_id, hrow.run_id,
    hrow.schema_id, hrow.schema_hash, hrow.registration_status, hrow.snapshot_ref,
    hrow.immutable_hash]
  refine ⟨fieldIs_of_get? rfl, fieldIs_of_get? rfl, fieldIs_of_get? rfl, fieldIs_of_get? rfl,
    fieldIs_of_get? rfl, fieldIs_of_get? rfl, fieldIs_of_get? rfl, fieldIs_of_get? rfl, ?_⟩
  intro field hfield
  cases hfield

/-- A lineage with the canonical text of the row is that of the row. -/
theorem compareLineage_eq (hrow : row.Records c) {frontmatter lineage : YamlValue}
    (hfield : frontmatter.get? "lineage" = some lineage) (hmapping : lineage.isMapping = true)
    (hlineage : lineage.canonicalJson = .ok row.lineage_json) :
    compareLineage frontmatter row = (some lineage, []) := by
  obtain ⟨hfinite, htext⟩ := canonicalJson_ok hrow.lineage_json
  have hloads : Json.loads row.lineage_json = some (Json.sortKeys c.lineage.toDict) := by
    rw [htext]
    exact Json.loads_canonicalText ((proper_iff _).mpr ⟨c.lineage.keyed, hfinite⟩)
  have hsorted : canonicalJson (Json.sortKeys c.lineage.toDict) = .ok row.lineage_json := by
    rw [canonicalJson, isFinite_sortKeys, if_pos hfinite, Json.canonicalText_sortKeys, htext]
  have hobject : (Json.sortKeys c.lineage.toDict).isObject = true := rfl
  have hmatches : lineageMatches lineage (Json.sortKeys c.lineage.toDict) = true := by
    rw [lineageMatches, hlineage, hsorted]
    exact beq_self_eq_true row.lineage_json
  simp only [compareLineage, hloads, hfield, Option.filter_some, hmapping, hobject, hmatches, if_true,
    Bool.true_eq_false, if_false]

/-- The lineage of a front matter is that of the row. -/
theorem compareLineage_published (hrow : row.Records c) :
    compareLineage (.ofDocument (frontmatter c)) row = (some (.ofDocument c.lineage.toDict), []) :=
  compareLineage_eq hrow rfl rfl ((YamlValue.canonicalJson_ofDocument _).trans hrow.lineage_json)

/-- The evidence that a published record shows. -/
def publishedEvidence (c : CommittedPrediction) : VerifiedRecordEvidence :=
  ⟨c.forecast, c.decision, Json.sortKeys c.snapshot.toDict, .ofDocument c.lineage.toDict,
    publishedBody c⟩

/-- What the verifier needs of a prediction that was published. -/
structure EvidenceReader.Readable (R : EvidenceReader) (safeDump : Document → Text)
    (c : CommittedPrediction) : Prop where
  reads : R.ReadsBack safeDump c
  closed : Closed (safeDump (frontmatter c))
  record_size : utf8Length (recordBytes safeDump c) ≤ maxRecordBytes
  snapshot_size : ∀ content, snapshotBytes c = .ok content → utf8Length content ≤ maxSnapshotBytes
  created_at : c.created_at.Universal
  committed_at : c.committed_at.Universal

/-- The two files that the writer publishes verify against the row of the prediction. -/
theorem verify_published (hc : c.Prepared sha256) (hreadable : R.Readable safeDump c)
    (hrow : row.Records c) (hcommitted : row.committed_at = some c.committed_at.isoformat)
    {content : Text} (hbytes : snapshotBytes c = .ok content) :
    verify R sha256 row ⟨true, .ok (some (Bytes.encodeUtf8 (recordBytes safeDump c)))⟩
      ⟨true, .ok (some (Bytes.encodeUtf8 content))⟩ = .ok ⟨some (publishedEvidence c), []⟩ := by
  refine (verify_clean.mpr ⟨.ofDocument (frontmatter c), publishedEvidence c, ?_, rfl⟩).1
  exact {
    managed := rfl
    loaded := ⟨_, rfl, loadRecord_published hreadable.reads hreadable.closed hreadable.record_size⟩
    scalars := scalars_published hrow
    created_at := by
      rw [hrow.created_at]
      exact timestampsMatch_published hreadable.created_at
    committed_at := by
      rw [hcommitted]
      exact timestampsMatch_published hreadable.committed_at
    lineage := compareLineage_published hrow
    forecast := hreadable.reads.forecast
    decision := by
      obtain ⟨_, draft, _, _, hprepared⟩ := hc
      obtain ⟨_, _, -, -, -, rfl⟩ := prepareCommitted_ok hprepared
      exact Option.filter_eq_some_iff.mpr ⟨rfl, decide_eq_true draft.decision_nonempty⟩
    snapshot := loadSnapshot_published hbytes (hreadable.snapshot_size content hbytes)
    payload := by
      rw [hrow.registration_status, hrow.snapshot_ref, hrow.schema_hash, hrow.immutable_hash]
      exact payload_published hc }

/-! ## A record -/

/-- A reader of front matter that is written as JSON. -/
def sampleReader : EvidenceReader where
  toResultLibrary := Registry.sampleResultLibrary
  safeLoad s := (Json.loads s).map YamlValue.ofDocument
  validateForecast v :=
    if lineageMatches v Registry.sampleForecast.modelDump then some Registry.sampleForecast else none
  loadsOther _ := none

/-- What has to be computed of a prediction to know that it is readable. -/
def readableChecks (safeDump : Document → Text) (c : CommittedPrediction) : Bool :=
  decide (Closed (safeDump (frontmatter c))) && decide ('\r' ∉ safeDump (frontmatter c)) &&
    decide (utf8Length (recordBytes safeDump c) ≤ maxRecordBytes) &&
    (snapshotBytes c).toOption.all (fun content => decide (utf8Length content ≤ maxSnapshotBytes)) &&
    decide (c.created_at.Universal ∧ c.committed_at.Universal) &&
    decide (Keyed (frontmatter c)) && isFinite (frontmatter c)

theorem sample_checks_evaluate :
    samplePrepared.toOption.all (readableChecks (Json.print Json.compactStyle 0)) = true := by
  decide +kernel

theorem sample_readable (c : CommittedPrediction) (hprepared : samplePrepared = .ok c) :
    c.Prepared id ∧ sampleReader.Readable (Json.print Json.compactStyle 0) c := by
  have hchecks := sample_checks_evaluate
  rw [hprepared] at hchecks
  simp only [Except.toOption, Option.all_some, readableChecks, Bool.and_eq_true,
    decide_eq_true_eq] at hchecks
  obtain ⟨⟨⟨⟨⟨⟨hclosed, hlines⟩, hrecord⟩, hsnapshot⟩, htimes⟩, hkeyed⟩, hfinite⟩ := hchecks
  have hforecast : c.forecast = Registry.sampleForecast := by
    obtain ⟨_, _, -, -, -, rfl⟩ := prepareCommitted_ok hprepared
    rfl
  refine ⟨⟨_, _, _, _, hprepared⟩, ⟨?_, hlines, ?_⟩, hclosed, hrecord, fun content hcontent => ?_,
    htimes.1, htimes.2⟩
  · have hloads := Json.loads_print Json.compactStyle_valid ((proper_iff _).mpr ⟨hkeyed, hfinite⟩)
      Json.blank_nil
    rw [List.append_nil] at hloads
    simp only [sampleReader, hloads, Option.map_some]
  · have hmatches : lineageMatches (.ofDocument Registry.sampleForecast.modelDump)
        Registry.sampleForecast.modelDump = true := by
      rw [lineageMatches, YamlValue.canonicalJson_ofDocument]
      decide +kernel
    rw [hforecast]
    simp only [sampleReader, hmatches, if_true]
  · rw [hcontent] at hsnapshot
    exact of_decide_eq_true hsnapshot

end Pine
