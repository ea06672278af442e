import Pine.Ledger.Results.Evidence

/-!
# Evidence reads back

The document that evidence dumps to, with sorted keys as canonical JSON stores it, is
read back as the same evidence; only the keys of its metadata come back sorted.
-/

namespace Pine

open Json (Value sortKeys)

/-! ## Fields -/

theorem readText_self {admits : Text → Bool} (s : {s : Text // admits s = true}) :
    readText admits (.str s.val) = some s := by
  rw [readText, dif_pos s.property]

theorem readFloat_self (x : FiniteFloat) : readFloat (.float x.val) = some x := by
  rw [readFloat, dif_pos x.property]

theorem readNat_self (n : Nat) : readNat (.int n) = some n := by
  rw [readNat, if_pos (Int.natCast_nonneg n), Int.toNat_natCast]

theorem readLiteral_int (z : Int) : readLiteral (.int z) (.int z) = some () := by
  simp [readLiteral, Value.equals, Value.equalsAtom, Value.units?]

theorem readLiteral_str (s : Text) : readLiteral (.str s) (.str s) = some () := by
  simp [readLiteral, Value.equals]

theorem readItems_self {α : Type} {read : Document → Option α} {dump : α → Document}
    (h : ∀ x, read (sortKeys (dump x)) = some x) (xs : List α) :
    readItems read (sortKeys (.arr (xs.map dump))) = some xs := by
  rw [sortKeys, Json.sortItems_eq_map, readItems, List.map_map]
  induction xs with
  | nil => rfl
  | cons x xs ih =>
    simp only [List.map_cons, List.mapM_cons, Function.comp_apply, h, ih, Option.bind_eq_bind,
      Option.bind_some, Option.pure_def]

theorem readUtc_self (L : ResultLibrary) (t : UtcTime) :
    readUtc L (.str (L.dumpTime t)) = some t := by
  have haware : t.val.isAware = true := by
    obtain ⟨offset, hoffset, -⟩ := Option.map_eq_some_iff.mp t.property
    rw [DateTime.isAware, hoffset]
    rfl
  have hkept : t.val.astimezoneUtc = some t.val := by
    rw [DateTime.astimezoneUtc, if_pos t.property]
  rw [readUtc, L.parseTime_dumpTime t.val t.property, Option.filter_some, if_pos haware,
    Option.bind_some, hkept, Option.bind_some, dif_pos t.property]

/-- The object with sorted keys, at every depth. -/
def JsonObject.sorted (o : JsonObject) : JsonObject :=
  ⟨(Json.sortFields o.fields).insertionSort Json.fieldLe, keyed_sortKeys o.keyed⟩

theorem readObject_sorted (o : JsonObject) : readObject (sortKeys o.toDict) = some o.sorted := by
  have hkeyed : Keyed (sortKeys o.toDict) := keyed_sortKeys o.keyed
  rw [JsonObject.toDict, sortKeys] at hkeyed ⊢
  rw [readObject, dif_pos hkeyed]
  rfl

theorem registrationStatus_self (status : RegistrationStatus) :
    RegistrationStatus.modelValidate (.str status.value) = some status := by
  cases status <;> decide

theorem resultSample_self (sample : ResultSample) :
    ResultSample.modelValidate (.str sample.value) = some sample := by
  cases sample <;> decide

/-! ## Objects with sorted keys -/

theorem readField_sortKeys {α : Type} {v w : Document} {key : String} (hv : Keyed v)
    (h : v.get? (text key) = some w) (read : Document → Option α) :
    readField (sortKeys v) key read = read (sortKeys w) := by
  rw [readField, get?_sortKeys hv, h, Option.map_some, Option.bind_some]

theorem readDefault_sortKeys {α : Type} {v w : Document} {key : String} (hv : Keyed v)
    (h : v.get? (text key) = some w) (read : Document → Option α) (default : α) :
    readDefault (sortKeys v) key read default = read (sortKeys w) := by
  rw [readDefault, get?_sortKeys hv, h, Option.map_some]

theorem closedObject_sortKeys (keys : List String) (v : Document) :
    closedObject keys (sortKeys v) = closedObject keys v := by
  cases v with
  | obj fs =>
    have hperm := List.perm_insertionSort Json.fieldLe (Json.sortFields fs)
    rw [sortKeys, closedObject, closedObject, hperm.all_eq, Json.sortFields_eq_map, List.all_map]
    rfl
  | _ => rfl

/-! ## Models -/

theorem dateWindow_self (L : ResultLibrary) (w : DateWindow) :
    DateWindow.modelValidate L (sortKeys w.modelDump) = some w := by
  have hstart : readField (sortKeys w.modelDump) "start" L.parseDate = some w.start :=
    L.parseDate_isoformat w.start
  have hstop : readField (sortKeys w.modelDump) "end" L.parseDate = some w.stop :=
    L.parseDate_isoformat w.stop
  have hclosed : closedObject ["start", "end"] (sortKeys w.modelDump) = true := rfl
  simp only [DateWindow.modelValidate, hstart, hstop, hclosed, Option.bind_eq_bind,
    Option.bind_some, true_and, dif_pos w.ordered]

theorem resultMetrics_self (m : MSMResultMetrics) :
    MSMResultMetrics.modelValidate (sortKeys m.modelDump) = some m := by
  have hsharpe : readField (sortKeys m.modelDump) "sharpe" readFloat = some m.sharpe :=
    readFloat_self m.sharpe
  have hwin : readField (sortKeys m.modelDump) "win_rate" readFloat = some m.win_rate :=
    readFloat_self m.win_rate
  have hdrawdown : readField (sortKeys m.modelDump) "max_drawdown" readFloat =
      some m.max_drawdown := readFloat_self m.max_drawdown
  have hexpectancy : readField (sortKeys m.modelDump) "expectancy" readFloat =
      some m.expectancy := readFloat_self m.expectancy
  have htotal : readField (sortKeys m.modelDump) "total_return" readFloat =
      some m.total_return := readFloat_self m.total_return
  have hcount : readField (sortKeys m.modelDump) "trade_count" readNat = some m.trade_count :=
    readNat_self m.trade_count
  have hclosed : closedObject ["sharpe", "win_rate", "max_drawdown", "expectancy",
      "total_return", "trade_count"] (sortKeys m.modelDump) = true := rfl
  simp only [MSMResultMetrics.modelValidate, hsharpe, hwin, hdrawdown, hexpectancy, htotal, hcount,
    hclosed, Option.bind_eq_bind, Option.bind_some, true_and, dif_pos m.bounds]

theorem regimeResult_self (r : MSMRegimeResult) :
    MSMRegimeResult.modelValidate (sortKeys r.modelDump) = some r := by
  have hsample : readField (sortKeys r.modelDump) "sample" ResultSample.modelValidate =
      some r.sample := resultSample_self r.sample
  have hregime : readField (sortKeys r.modelDump) "regime_id" (readText (isNormalizedText 256)) =
      some r.regime_id := readText_self r.regime_id
  have hmetrics : readField (sortKeys r.modelDump) "metrics" MSMResultMetrics.modelValidate =
      some r.metrics := resultMetrics_self r.metrics
  have hclosed : closedObject ["sample", "regime_id", "metrics"] (sortKeys r.modelDump) = true :=
    rfl
  simp only [MSMRegimeResult.modelValidate, hsample, hregime, hmetrics, hclosed,
    Option.bind_eq_bind, Option.bind_some, if_true]

theorem artifactEvidence_self (a : MSMResultArtifactEvidence) :
    MSMResultArtifactEvidence.modelValidate (sortKeys a.modelDump) = some a := by
  have hpath : readField (sortKeys a.modelDump) "relative_path" (readText isArtifactPath) =
      some a.relative_path := readText_self a.relative_path
  have hhash : readField (sortKeys a.modelDump) "sha256" (readText isSha256Text) =
      some a.sha256 := readText_self a.sha256
  have hsize : readField (sortKeys a.modelDump) "size_bytes" readNat = some a.size_bytes :=
    readNat_self a.size_bytes
  have hclosed : closedObject ["relative_path", "sha256", "size_bytes"] (sortKeys a.modelDump) =
      true := rfl
  simp only [MSMResultArtifactEvidence.modelValidate, hpath, hhash, hsize, hclosed,
    Option.bind_eq_bind, Option.bind_some, if_true]

namespace MSMRunResultEvidence

/-- The evidence with the keys of its metadata sorted. -/
def sorted (e : MSMRunResultEvidence) : MSMRunResultEvidence := { e with metadata := e.metadata.sorted }

theorem predictionId_self (id : Option (NormalizedText 128)) :
    readOptional (readText (isNormalizedText 128))
      (sortKeys ((id.map fun id => Value.str id.val).getD .null)) = some id := by
  cases id with
  | none => rfl
  | some id => exact congrArg (Option.map some) (readText_self id)

theorem keyed_resultMetrics (m : MSMResultMetrics) : Keyed m.modelDump :=
  keyed_obj ["sharpe", "win_rate", "max_drawdown", "expectancy", "total_return", "trade_count"] rfl
    (by decide) ⟨trivial, trivial, trivial, trivial, trivial, trivial, trivial⟩

theorem keyed_regimeResult (r : MSMRegimeResult) : Keyed r.modelDump :=
  keyed_obj ["sample", "regime_id", "metrics"] rfl (by decide)
    ⟨trivial, trivial, keyed_resultMetrics r.metrics, trivial⟩

theorem keyed_artifactEvidence (a : MSMResultArtifactEvidence) : Keyed a.modelDump :=
  keyed_obj ["relative_path", "sha256", "size_bytes"] rfl (by decide)
    ⟨trivial, trivial, trivial, trivial⟩

/-- The dump of evidence repeats no key. -/
theorem keyed_modelDump (L : ResultLibrary) (e : MSMRunResultEvidence) : Keyed (e.modelDump L) := by
  have hid : Keyed ((e.prediction_id.map fun id => Value.str id.val).getD .null) := by
    cases e.prediction_id <;> trivial
  exact keyed_obj resultKeys rfl (by decide) ⟨trivial, trivial, trivial, trivial, hid, trivial,
    trivial, trivial, trivial, trivial, trivial, trivial, keyed_dateWindow _, keyed_dateWindow _,
    keyed_resultMetrics _, keyed_resultMetrics _, keyed_items keyed_regimeResult _,
    keyed_items keyed_artifactEvidence _, e.metadata.keyed, trivial⟩

/-- Evidence reads back from its sorted dump. -/
theorem modelValidate_sortKeys (L : ResultLibrary) (e : MSMRunResultEvidence) :
    modelValidate L (sortKeys (e.modelDump L)) = some e.sorted := by
  have hkeyed := e.keyed_modelDump L
  have hfield {α : Type} (key : String) {w : Document} {read : Document → Option α} {a : α}
      (hget : (e.modelDump L).get? (text key) = some w) (hread : read (sortKeys w) = some a) :
      readField (sortKeys (e.modelDump L)) key read = some a :=
    (readField_sortKeys hkeyed hget read).trans hread
  have hdefault {α : Type} (key : String) {w : Document} {read : Document → Option α} {a : α}
      (hget : (e.modelDump L).get? (text key) = some w) (hread : read (sortKeys w) = some a)
      (default : α) : readDefault (sortKeys (e.modelDump L)) key read default = some a :=
    (readDefault_sortKeys hkeyed hget read default).trans hread
  have hclosed : closedObject resultKeys (sortKeys (e.modelDump L)) = true :=
    (closedObject_sortKeys resultKeys _).trans rfl
  unfold modelValidate
  rw [hfield "result_format_version" rfl (readLiteral_int 1),
    hdefault "source_system" rfl (readLiteral_str (text "msm")),
    hfield "metric_units" rfl (readLiteral_str (text "finance/strategy-edge:decimal-v1")),
    hfield "run_id" rfl (readText_self e.run_id),
    hdefault "prediction_id" rfl (predictionId_self e.prediction_id),
    hfield "registration_status" rfl (registrationStatus_self e.registration_status),
    hfield "strategy_id" rfl (readText_self e.strategy_id),
    hfield "envelope_hash" rfl (readText_self e.envelope_hash),
    hfield "dataset_version" rfl (readText_self e.dataset_version),
    hfield "git_commit" rfl (readText_self e.git_commit),
    hfield "metric_definition_version" rfl (readText_self e.metric_definition_version),
    hfield "source_timestamp" rfl (readUtc_self L e.source_timestamp),
    hfield "in_sample_window" rfl (dateWindow_self L e.in_sample_window),
    hfield "out_of_sample_window" rfl (dateWindow_self L e.out_of_sample_window),
    hfield "in_sample_metrics" rfl (resultMetrics_self e.in_sample_metrics),
    hfield "out_of_sample_metrics" rfl (resultMetrics_self e.out_of_sample_metrics),
    hdefault "regime_breakdown" rfl (readItems_self regimeResult_self e.regime_breakdown),
    hfield "artifacts" rfl (readItems_self artifactEvidence_self e.artifacts),
    hdefault "metadata" rfl (readObject_sorted e.metadata)]
  simp only [Option.bind_eq_bind, Option.bind_some, hclosed, true_and, dif_pos e.canonical]
  rfl

end MSMRunResultEvidence

end Pine
