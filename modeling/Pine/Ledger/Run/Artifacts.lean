import Pine.Ledger.Reading.Acceptance
import Pine.Ledger.Record.Soundness

/-!
# Artifacts of a run

The run service reads the two files of a prediction with code of its own before it binds a run.
Whatever lies there, what it accepts is what was committed, and on files with ordinary line ends it
accepts what the verifier accepts, when the times are spelled alike and the snapshot belongs to
the forecast.
-/

namespace Pine

open Json (Value)

/-! ## What a load found -/

/-- What is known of artifacts that were loaded. -/
structure Loads (L : RecordLibrary) (sha256 : Text → Text) (row : PredictionRow)
    (artifacts : Artifacts) (frontmatter decision lineage : YamlValue) (value : Document)
    (loaded : StrategyEdgeForecast × StrategySnapshot) : Prop where
  snapshot : ∃ content, readUtf8 artifacts.snapshot = .ok content ∧ Json.loads content = some value
  validated : L.validateSnapshot value = some loaded.2
  record : readFrontmatter L artifacts.record = .ok frontmatter
  forecast : (frontmatter.get? "forecast").bind L.validateForecast = some loaded.1
  repeated : ∀ field ∈ row.repeated, frontmatter.fieldIs field.1 field.2 = true
  created_at : isoformatField (frontmatter.get? "created_at") = some row.created_at
  committed_at : isoformatField (frontmatter.get? "committed_at") = row.committed_at
  decided : frontmatter.get? "decision" = some decision
  descends : frontmatter.get? "lineage" = some lineage
  payload : (observedPayload row.registration_status.value row.snapshot_ref row.schema_hash loaded.1
    decision lineage value).sha256Json sha256 = .ok row.immutable_hash
  binding : ∃ decision_at, DateTime.fromisoformat row.created_at = some decision_at ∧
    verifySnapshotBinding loaded.2 loaded.1.strategy_id loaded.1.in_sample_window
      loaded.1.out_of_sample_window decision_at = .ok ()

section

variable {L : RecordLibrary} {sha256 : Text → Text} {row : PredictionRow} {artifacts : Artifacts}
  {frontmatter : YamlValue} {loaded : StrategyEdgeForecast × StrategySnapshot}

theorem checkRepeated_ok {fields : List (String × Text)} : checkRepeated frontmatter fields = .ok () ↔
    ∀ field ∈ fields, frontmatter.fieldIs field.1 field.2 = true := by
  induction fields with
  | nil => simp [checkRepeated]
  | cons field fields ih =>
    rw [checkRepeated, bind_eq_ok, List.forall_mem_cons, ← ih]
    constructor
    · rintro ⟨_, hfield, hrest⟩
      exact ⟨Bool.eq_true_of_not_eq_false (refuse_ok.mp hfield), hrest⟩
    · rintro ⟨hfield, hrest⟩
      exact ⟨(), refuse_ok.mpr (by simp [hfield]), hrest⟩

/-- Artifacts are loaded exactly when everything that is compared was found. -/
theorem loadArtifacts_ok : loadArtifacts L sha256 row artifacts = .ok loaded ↔
    ∃ frontmatter decision lineage value,
      Loads L sha256 row artifacts frontmatter decision lineage value loaded := by
  constructor
  · intro h
    obtain ⟨content, hcontent, h⟩ := bind_eq_ok.mp h
    obtain ⟨value, hvalue, h⟩ := bind_eq_ok.mp h
    obtain ⟨snapshot, hsnapshot, h⟩ := bind_eq_ok.mp h
    obtain ⟨frontmatter, hrecord, h⟩ := bind_eq_ok.mp h
    obtain ⟨field, hfield, h⟩ := bind_eq_ok.mp h
    obtain ⟨forecast, hforecast, h⟩ := bind_eq_ok.mp h
    obtain ⟨_, hrepeated, h⟩ := bind_eq_ok.mp h
    obtain ⟨_, hcreated, h⟩ := bind_eq_ok.mp h
    obtain ⟨_, hcommitted, h⟩ := bind_eq_ok.mp h
    obtain ⟨decision, hdecision, h⟩ := bind_eq_ok.mp h
    obtain ⟨lineage, hlineage, h⟩ := bind_eq_ok.mp h
    obtain ⟨hash, hhash, h⟩ := bind_eq_ok.mp h
    obtain ⟨_, hsame, h⟩ := bind_eq_ok.mp h
    obtain ⟨decision_at, hdecision_at, h⟩ := bind_eq_ok.mp h
    obtain ⟨_, hbinding, h⟩ := bind_eq_ok.mp h
    obtain rfl := Except.ok.inj h
    refine ⟨frontmatter, decision, lineage, value, {
      snapshot := ⟨content, hcontent, required_ok.mp hvalue⟩
      validated := required_ok.mp hsnapshot
      record := hrecord
      forecast := by rw [required_ok.mp hfield, Option.bind_some, required_ok.mp hforecast]
      repeated := checkRepeated_ok.mp hrepeated
      created_at := not_not.mp (refuse_ok.mp hcreated)
      committed_at := not_not.mp (refuse_ok.mp hcommitted)
      decided := required_ok.mp hdecision
      descends := required_ok.mp hlineage
      payload := ?_
      binding := ⟨decision_at, required_ok.mp hdecision_at, hbinding⟩ }⟩
    rw [← not_not.mp (refuse_ok.mp hsame)]
    exact hhash
  · rintro ⟨frontmatter, decision, lineage, value, h⟩
    obtain ⟨content, hcontent, hvalue⟩ := h.snapshot
    obtain ⟨field, hfield, hforecast⟩ := Option.bind_eq_some_iff.mp h.forecast
    obtain ⟨decision_at, hdecision_at, hbinding⟩ := h.binding
    refine bind_eq_ok.mpr ⟨content, hcontent, bind_eq_ok.mpr ⟨value, required_ok.mpr hvalue,
      bind_eq_ok.mpr ⟨loaded.2, required_ok.mpr h.validated, bind_eq_ok.mpr ⟨frontmatter, h.record,
      bind_eq_ok.mpr ⟨field, required_ok.mpr hfield, bind_eq_ok.mpr ⟨loaded.1,
      required_ok.mpr hforecast, bind_eq_ok.mpr ⟨(), checkRepeated_ok.mpr h.repeated,
      bind_eq_ok.mpr ⟨(), refuse_ok.mpr (not_not.mpr h.created_at), bind_eq_ok.mpr ⟨(),
      refuse_ok.mpr (not_not.mpr h.committed_at), bind_eq_ok.mpr ⟨decision,
      required_ok.mpr h.decided, bind_eq_ok.mpr ⟨lineage, required_ok.mpr h.descends,
      bind_eq_ok.mpr ⟨row.immutable_hash, h.payload, bind_eq_ok.mpr ⟨(),
      refuse_ok.mpr (not_not.mpr rfl), bind_eq_ok.mpr ⟨decision_at, required_ok.mpr hdecision_at,
      bind_eq_ok.mpr ⟨(), hbinding, rfl⟩⟩⟩⟩⟩⟩⟩⟩⟩⟩⟩⟩⟩⟩⟩

/-- A committed row with both files in place is loaded exactly when its artifacts are. -/
theorem loadPreregisteredSnapshot_iff {vault : PredictionRow → Artifacts} :
    loadPreregisteredSnapshot L sha256 vault row = .ok loaded ↔
      (row.transaction_state = .committed ∧ (vault row).is_file = true) ∧
        loadArtifacts L sha256 row (vault row) = .ok loaded := by
  constructor
  · intro h
    obtain ⟨_, hresult, hload⟩ := bind_eq_ok.mp h
    obtain ⟨_, hcommitted, hfiles⟩ := bind_eq_ok.mp hresult
    exact ⟨⟨not_not.mp (refuse_ok.mp hcommitted), Bool.eq_true_of_not_eq_false (refuse_ok.mp hfiles)⟩,
      rethrow_ok.mp hload⟩
  · rintro ⟨⟨hcommitted, hfiles⟩, hload⟩
    exact bind_eq_ok.mpr ⟨(), bind_eq_ok.mpr ⟨(), refuse_ok.mpr (not_not.mpr hcommitted),
      refuse_ok.mpr (by simp [hfiles])⟩, rethrow_ok.mpr hload⟩

end

/-! ## Files that both readers decode alike -/

/-- Files within the limits of the verifier, whose line ends both readers see alike: the run service
also takes a lone carriage return for one. The snapshot is in UTF-8. -/
structure Ordinary (R : EvidenceReader) (record snapshot : Bytes) : Prop where
  record_size : record.length ≤ maxRecordBytes
  record_lines : ∀ content, record.decodeUtf8 = some content →
    universalNewlines content = replaceCrLf content
  snapshot_size : snapshot.length ≤ maxSnapshotBytes
  snapshot_lines : ∀ content, snapshot.decodeUtf8 = some content → '\r' ∉ content
  snapshot_utf8 : R.loadsOther snapshot = none

theorem universalNewlines_of_not_mem {s : Text} (h : '\r' ∉ s) : universalNewlines s = s := by
  fun_induction universalNewlines s with
  | case1 s ih => exact absurd List.mem_cons_self h
  | case2 s _ ih => exact absurd List.mem_cons_self h
  | case3 c s _ _ ih => rw [ih fun hmem => h (List.mem_cons_of_mem _ hmem)]
  | case4 => rfl

section

variable {R : EvidenceReader} {record snapshot : Bytes} {frontmatter : YamlValue} {value : Document}

/-- Both readers find the same front matter. -/
theorem Ordinary.readFrontmatter_iff (h : Ordinary R record snapshot) :
    readFrontmatter R.toRecordLibrary (.ok record) = .ok frontmatter ↔
      ∃ body, loadRecord R.toRecordLibrary record = some (frontmatter, body) := by
  constructor
  · intro hread
    obtain ⟨content, hcontent, hread⟩ := bind_eq_ok.mp hread
    obtain ⟨rest, hrest, hread⟩ := bind_eq_ok.mp hread
    obtain ⟨parts, hparts, hread⟩ := bind_eq_ok.mp hread
    obtain ⟨found, hfound, hread⟩ := bind_eq_ok.mp hread
    obtain ⟨_, hmapping, hread⟩ := bind_eq_ok.mp hread
    obtain rfl := Except.ok.inj hread
    obtain ⟨_, hraw, hcontent⟩ := bind_eq_ok.mp hcontent
    obtain rfl := Except.ok.inj hraw
    obtain ⟨decoded, hdecoded, hcontent⟩ := bind_eq_ok.mp hcontent
    obtain rfl := Except.ok.inj hcontent
    have hdecode := required_ok.mp hdecoded
    have hstart := required_ok.mp hrest
    rw [h.record_lines decoded hdecode] at hstart
    refine ⟨trimBody parts.2, ?_⟩
    simp only [loadRecord, if_neg (Nat.not_lt.mpr h.record_size), hdecode, Option.bind_eq_bind,
      Option.bind_some, hstart, required_ok.mp hparts, required_ok.mp hfound,
      Bool.eq_true_of_not_eq_false (refuse_ok.mp hmapping), if_true]
  · rintro ⟨body, hload⟩
    simp only [loadRecord, if_neg (Nat.not_lt.mpr h.record_size), Option.bind_eq_bind,
      Option.bind_eq_some_iff] at hload
    obtain ⟨decoded, hdecode, rest, hrest, parts, hparts, found, hfound, hload⟩ := hload
    split at hload
    · rename_i hmapping
      obtain ⟨rfl, -⟩ := Prod.mk.inj (Option.some.inj hload)
      refine bind_eq_ok.mpr ⟨universalNewlines decoded, bind_eq_ok.mpr ⟨record, rfl, bind_eq_ok.mpr
        ⟨decoded, required_ok.mpr hdecode, rfl⟩⟩, bind_eq_ok.mpr ⟨rest, required_ok.mpr ?_,
        bind_eq_ok.mpr ⟨parts, required_ok.mpr hparts, bind_eq_ok.mpr ⟨found, required_ok.mpr hfound,
        bind_eq_ok.mpr ⟨(), refuse_ok.mpr (by simp [hmapping]), rfl⟩⟩⟩⟩⟩
      rw [h.record_lines decoded hdecode]
      exact hrest
    · cases hload

/-- Both readers find the same snapshot. -/
theorem Ordinary.loads_iff (h : Ordinary R record snapshot) :
    (∃ content, readUtf8 (.ok snapshot) = .ok content ∧ Json.loads content = some value) ↔
      R.jsonLoads snapshot = some value := by
  rw [EvidenceReader.jsonLoads, h.snapshot_utf8, Option.or_none, Option.bind_eq_some_iff]
  constructor
  · rintro ⟨content, hcontent, hloads⟩
    obtain ⟨_, hraw, hcontent⟩ := bind_eq_ok.mp hcontent
    obtain rfl := Except.ok.inj hraw
    obtain ⟨decoded, hdecoded, hcontent⟩ := bind_eq_ok.mp hcontent
    obtain rfl := Except.ok.inj hcontent
    have hdecode := required_ok.mp hdecoded
    rw [universalNewlines_of_not_mem (h.snapshot_lines decoded hdecode)] at hloads
    exact ⟨decoded, hdecode, hloads⟩
  · rintro ⟨decoded, hdecode, hloads⟩
    refine ⟨universalNewlines decoded, bind_eq_ok.mpr ⟨snapshot, rfl, bind_eq_ok.mpr ⟨decoded,
      required_ok.mpr hdecode, rfl⟩⟩, ?_⟩
    rw [universalNewlines_of_not_mem (h.snapshot_lines decoded hdecode)]
    exact hloads

/-- The verifier takes the snapshot, when it is an object of finite numbers. -/
theorem loadSnapshot_eq_ok (hsize : snapshot.length ≤ maxSnapshotBytes) :
    R.loadSnapshot ⟨true, .ok (some snapshot)⟩ = .ok (.ok value) ↔
      R.jsonLoads snapshot = some value ∧ value.isObject = true ∧ isFinite value = true := by
  simp only [EvidenceReader.loadSnapshot, refuse, Bool.true_eq_false, if_false, Bind.bind, Except.bind,
    if_neg (Nat.not_lt.mpr hsize)]
  cases hloads : R.jsonLoads snapshot with
  | none => simp [Pure.pure, Except.pure]
  | some found =>
    rw [Option.some.injEq]
    by_cases hobject : found.isObject = true
    · by_cases hfinite : isFinite found = true
      · simp only [hobject, hfinite, if_true, Bool.true_eq_false, if_false, Pure.pure, Except.pure,
          Except.ok.injEq]
        exact ⟨fun h => ⟨h, h ▸ hobject, h ▸ hfinite⟩, And.left⟩
      · simp only [hobject, hfinite, if_false, Bool.true_eq_false, Pure.pure, Except.pure,
          Except.ok.injEq, reduceCtorEq, false_iff]
        exact fun h => hfinite (h.1 ▸ h.2.2)
    · simp only [Bool.eq_false_of_not_eq_true hobject, if_true, Pure.pure, Except.pure, Except.ok.injEq,
        reduceCtorEq, false_iff]
      exact fun h => hobject (h.1 ▸ h.2.1)

end

/-! ## Times -/

/-- A field that spells a time is taken for this time. -/
theorem timestampsMatch_of_isoformat {field : Option YamlValue} {t : DateTime} (ht : t.Universal)
    (h : isoformatField field = some t.isoformat) :
    timestampsMatch field (some t.isoformat) = .ok true := by
  have hobserved : observedTime field = some t := by
    unfold isoformatField at h
    split at h
    · rename_i observed
      have hsame := congrArg DateTime.fromisoformat (Option.some.inj h)
      rw [DateTime.fromisoformat_isoformat, DateTime.fromisoformat_isoformat] at hsame
      exact hsame
    · rw [Option.some.inj h]
      exact DateTime.fromisoformat_isoformat t
    · cases h
  have hpublished := timestampsMatch_published ht
  have hspelled : observedTime (some (.str t.isoformat)) = some t := DateTime.fromisoformat_isoformat t
  rw [timestampsMatch, hspelled] at hpublished
  rw [timestampsMatch, hobserved]
  exact hpublished

/-! ## Objects -/

/-- A document that is printed as an object is one. -/
theorem isObject_of_print {d : Document} {fields : List (Text × Document)} (hd : isFinite d = true)
    (hfields : isFinite (.obj fields) = true) (h : Json.print Json.compactStyle 0 d =
      Json.print Json.compactStyle 0 (.obj fields)) : d.isObject = true := by
  have hbuilt := Json.built_eq_of_print Json.compactStyle_valid ((finite_iff _).mpr hd)
    ((finite_iff _).mpr hfields) h
  cases d with
  | obj fields => rfl
  | _ => cases hbuilt

/-- Only an object has the canonical text of one. -/
theorem isObject_of_canonicalJson {d : Document} {o : JsonObject} {s : Text}
    (h : canonicalJson d = .ok s) (ho : canonicalJson o.toDict = .ok s) : d.isObject = true := by
  obtain ⟨hfinite, rfl⟩ := canonicalJson_ok h
  obtain ⟨hfinite', heq⟩ := canonicalJson_ok ho
  rw [← isFinite_sortKeys] at hfinite hfinite'
  have hsorted := isObject_of_print hfinite hfinite' heq
  cases d with
  | obj fields => rfl
  | _ => cases hsorted

/-- Only a mapping has the canonical text of an object. -/
theorem isMapping_of_canonicalJson {lineage : YamlValue} {o : JsonObject} {s : Text}
    (h : lineage.canonicalJson = .ok s) (ho : canonicalJson o.toDict = .ok s) :
    lineage.isMapping = true := by
  obtain ⟨d, hd, hfinite, rfl⟩ := YamlValue.canonicalJson_eq_ok.mp h
  obtain ⟨hfinite', heq⟩ := canonicalJson_ok ho
  rw [← isFinite_sortKeys] at hfinite'
  have hobject := isObject_of_print hfinite hfinite' heq
  cases lineage with
  | map fields => rfl
  | seq items =>
    obtain ⟨_, -, rfl⟩ := Option.map_eq_some_iff.mp hd
    cases hobject
  | date | time | other => cases hd
  | _ =>
    obtain rfl := Option.some.inj hd
    cases hobject

/-! ## Two readers -/

section

variable {R : EvidenceReader} {sha256 : Text → Text} {row : PredictionRow} {record snapshot : Bytes}
  {frontmatter decision lineage : YamlValue} {value : Document} {e : VerifiedRecordEvidence}
  {loaded : StrategyEdgeForecast × StrategySnapshot} {c : CommittedPrediction} {committed : DateTime}

/-- The two files spell a payload with the digest of the prediction, but not its canonical text. -/
def Forged (R : EvidenceReader) (sha256 : Text → Text) (c : CommittedPrediction)
    (record snapshot : Bytes) : Prop :=
  ∃ frontmatter body forecast decision lineage value,
    loadRecord R.toRecordLibrary record = some (frontmatter, body) ∧
    (frontmatter.get? "forecast").bind R.validateForecast = some forecast ∧
    frontmatter.get? "decision" = some decision ∧ frontmatter.get? "lineage" = some lineage ∧
    R.jsonLoads snapshot = some value ∧
    PayloadCollides sha256 c (observedPayload c.registration_status.value c.snapshot_ref
      c.schema_hash forecast decision lineage value)

/-- The record is one of a prediction. -/
def Typed (R : EvidenceReader) (record : Bytes) : Prop :=
  ∃ frontmatter body, loadRecord R.toRecordLibrary record = some (frontmatter, body) ∧
    frontmatter.fieldIs "type" (text "prediction") = true

/-- What the run service asks of evidence beyond that it verifies. -/
structure Executable (R : EvidenceReader) (row : PredictionRow) (record : Bytes)
    (e : VerifiedRecordEvidence) (snapshot : StrategySnapshot) : Prop where
  validated : R.validateSnapshot e.snapshot = some snapshot
  times : ∃ frontmatter body, loadRecord R.toRecordLibrary record = some (frontmatter, body) ∧
    isoformatField (frontmatter.get? "created_at") = some row.created_at ∧
    isoformatField (frontmatter.get? "committed_at") = row.committed_at
  binding : ∃ decision_at, DateTime.fromisoformat row.created_at = some decision_at ∧
    verifySnapshotBinding snapshot e.forecast.strategy_id e.forecast.in_sample_window
      e.forecast.out_of_sample_window decision_at = .ok ()

/-- The decision time of a snapshot that belongs to a forecast can be expressed in UTC. -/
theorem universal_of_binding (hc : c.Prepared sha256) (hrow : row.Records c)
    {snapshot : StrategySnapshot} {strategy_id : Text} {in_sample out_of_sample : DateWindow}
    (h : ∃ decision_at, DateTime.fromisoformat row.created_at = some decision_at ∧
      verifySnapshotBinding snapshot strategy_id in_sample out_of_sample decision_at = .ok ()) :
    c.created_at.Universal := by
  obtain ⟨decision_at, hparsed, hbinding⟩ := h
  rw [hrow.created_at, DateTime.fromisoformat_isoformat, Option.some.injEq] at hparsed
  subst hparsed
  obtain ⟨_, -, hbinding⟩ := bind_eq_ok.mp hbinding
  obtain ⟨_, -, hbinding⟩ := bind_eq_ok.mp hbinding
  obtain ⟨_, -, hbinding⟩ := bind_eq_ok.mp hbinding
  obtain ⟨_, -, hbinding⟩ := bind_eq_ok.mp hbinding
  obtain ⟨instant, hinstant, -⟩ := bind_eq_ok.mp hbinding
  refine ⟨?_, DateTime.astimezoneUtc_ne_none (required_ok.mp hinstant)⟩
  obtain ⟨_, draft, _, _, hprepared⟩ := hc
  obtain ⟨_, _, -, -, -, rfl⟩ := prepareCommitted_ok hprepared
  exact draft.created_at_aware

/-- What the run service loads, the verifier verifies, unless the type of the record differs. -/
theorem Loads.verifies (hc : c.Prepared sha256) (hrow : row.Records c)
    (hcommitted : row.committed_at = some committed.isoformat) (huniversal : committed.Universal)
    (hfiles : Ordinary R record snapshot) (hgenuine : ¬ Forged R sha256 c record snapshot)
    (h : Loads R.toRecordLibrary sha256 row ⟨true, .ok record, .ok snapshot⟩ frontmatter decision
      lineage value loaded) (htype : frontmatter.fieldIs "type" (text "prediction") = true) :
    ∃ body, Verifies R sha256 row ⟨true, .ok (some record)⟩ ⟨true, .ok (some snapshot)⟩ frontmatter
      ⟨loaded.1, c.decision, value, lineage, body⟩ := by
  obtain ⟨body, hload⟩ := hfiles.readFrontmatter_iff.mp h.record
  obtain ⟨-, rfl, ⟨s, hvalue, hsnapshot⟩, t, hlineage, hdescends⟩ :=
    (payload_committed hc hrow h.payload).resolve_right fun hcollides => hgenuine
      ⟨_, body, _, _, _, _, hload, h.forecast, h.decided, h.descends, hfiles.loads_iff.mp h.snapshot,
        hcollides⟩
  have hrepeated := h.repeated
  simp only [PredictionRow.repeated, List.forall_mem_cons] at hrepeated
  obtain ⟨hid, hrun, hschema, hhash, hstatus, href, himmutable, -⟩ := hrepeated
  exact ⟨body, {
    managed := rfl
    loaded := ⟨record, rfl, hload⟩
    scalars := by
      simp only [PredictionRow.expectedScalars, List.forall_mem_cons]
      exact ⟨hid, hrun, htype, hschema, hhash, hstatus, href, himmutable, by simp⟩
    created_at := by
      have hcreated := h.created_at
      rw [hrow.created_at] at hcreated ⊢
      exact timestampsMatch_of_isoformat (universal_of_binding hc hrow h.binding) hcreated
    committed_at := by
      have htime := h.committed_at
      rw [hcommitted] at htime ⊢
      exact timestampsMatch_of_isoformat huniversal htime
    lineage := by
      refine compareLineage_eq hrow h.descends (isMapping_of_canonicalJson hlineage hdescends) ?_
      rw [hlineage, ← hdescends, hrow.lineage_json]
    forecast := by
      obtain ⟨field, hfield, hforecast⟩ := Option.bind_eq_some_iff.mp h.forecast
      rw [hfield, Option.getD_some]
      exact hforecast
    decision := by
      obtain ⟨_, draft, _, _, hprepared⟩ := hc
      obtain ⟨_, _, -, -, -, rfl⟩ := prepareCommitted_ok hprepared
      rw [observedDecision, h.decided]
      exact Option.filter_eq_some_iff.mpr ⟨rfl, decide_eq_true draft.decision_nonempty⟩
    snapshot := (loadSnapshot_eq_ok hfiles.snapshot_size).mpr ⟨hfiles.loads_iff.mp h.snapshot,
      isObject_of_canonicalJson hvalue hsnapshot, (canonicalJson_ok hvalue).1⟩
    payload := h.payload }⟩

/-- The lineage that a comparison found is that of the record. -/
theorem compareLineage_some {violations : List (Text × Text)}
    (h : compareLineage frontmatter row = (some lineage, violations)) :
    frontmatter.get? "lineage" = some lineage := by
  unfold compareLineage at h
  split at h
  · cases h
  · split at h
    · cases h
    · rename_i found hfound
      split at h
      · cases h
      · obtain rfl := Option.some.inj (congrArg Prod.fst h)
        exact (Option.filter_eq_some_iff.mp hfound).1

/-- What the verifier verifies, the run service loads, when it finds it executable. -/
theorem Verifies.loads (hnull : R.validateForecast .null = none)
    (hfiles : Ordinary R record snapshot)
    (h : Verifies R sha256 row ⟨true, .ok (some record)⟩ ⟨true, .ok (some snapshot)⟩ frontmatter e)
    {validated : StrategySnapshot} (hexecutable : Executable R row record e validated) :
    Loads R.toRecordLibrary sha256 row ⟨true, .ok record, .ok snapshot⟩ frontmatter (.str e.decision)
      e.lineage e.snapshot (e.forecast, validated) := by
  obtain ⟨raw, hraw, hload⟩ := h.loaded
  obtain rfl := Option.some.inj (Except.ok.inj hraw)
  obtain ⟨found, body, hfound, hcreated, hcommitted⟩ := hexecutable.times
  obtain ⟨rfl, -⟩ := Prod.mk.inj (Option.some.inj (hfound.symm.trans hload))
  have hscalars := h.scalars
  simp only [PredictionRow.expectedScalars, List.forall_mem_cons] at hscalars
  obtain ⟨hid, hrun, -, hschema, hhash, hstatus, href, himmutable, -⟩ := hscalars
  exact {
    snapshot := hfiles.loads_iff.mpr ((loadSnapshot_eq_ok hfiles.snapshot_size).mp h.snapshot).1
    validated := hexecutable.validated
    record := hfiles.readFrontmatter_iff.mpr ⟨_, hload⟩
    forecast := by
      have hforecast := h.forecast
      cases hfield : found.get? "forecast" with
      | none =>
        rw [hfield, Option.getD_none, hnull] at hforecast
        cases hforecast
      | some field =>
        rw [hfield, Option.getD_some] at hforecast
        exact hforecast
    repeated := by
      simp only [PredictionRow.repeated, List.forall_mem_cons]
      exact ⟨hid, hrun, hschema, hhash, hstatus, href, himmutable, by simp⟩
    created_at := hcreated
    committed_at := hcommitted
    decided := by
      obtain ⟨hdecision, -⟩ := Option.filter_eq_some_iff.mp h.decision
      obtain ⟨field, hfield, htext⟩ := Option.bind_eq_some_iff.mp hdecision
      cases field with
      | str s =>
        obtain rfl := Option.some.inj htext
        exact hfield
      | _ => cases htext
    descends := compareLineage_some h.lineage
    payload := h.payload
    binding := hexecutable.binding }

end

/-! ## A captured prediction -/

/-- A reader of front matter that is written as JSON, and of the snapshot of the capture. -/
def agreeingReader : EvidenceReader where
  toResultLibrary := readerLibrary.toResultLibrary
  safeLoad := sampleReader.safeLoad
  validateForecast := sampleReader.validateForecast
  loadsOther _ := none

/-- The record of the capture. -/
def capturedRecord (c : CommittedPrediction) : Text :=
  recordBytes (fun d => Json.canonicalText d ++ ['\n']) c

/-- The snapshot of the capture. -/
def capturedSnapshot : Text := Json.canonicalText readerDump.toDict

/-- The two files of the capture. -/
def capturedArtifacts (c : CommittedPrediction) (_ : PredictionRow) : Artifacts :=
  ⟨true, .ok (Bytes.encodeUtf8 (capturedRecord c)), .ok (Bytes.encodeUtf8 capturedSnapshot)⟩

theorem captured_checks : readerPrepared.toOption.any (fun c =>
    readerCaptured.predictions.any (fun row =>
      (loadPreregisteredSnapshot agreeingReader.toRecordLibrary id (capturedArtifacts c) row).isOk &&
      row.transaction_state == .committed &&
      row.committed_at == some Registry.sampleTime.isoformat) &&
    (loadRecord agreeingReader.toRecordLibrary (Bytes.encodeUtf8 (capturedRecord c))).any
      (fun parts => parts.1.fieldIs "type" (text "prediction")) &&
    decide (utf8Length (capturedRecord c) ≤ maxRecordBytes) &&
    decide (universalNewlines (capturedRecord c) = replaceCrLf (capturedRecord c)) &&
    decide (utf8Length capturedSnapshot ≤ maxSnapshotBytes) &&
    decide ('\r' ∉ capturedSnapshot)) = true := by
  decide +kernel

end Pine
