import Pine.Core.Json.RoundTrip
import Pine.Ledger.Writer.Write

/-!
# The manifest of a write

The paths of one write are told apart by how their names end, and recovery reads from
the text of its manifest exactly the paths that the write was to use.
-/

namespace Pine

namespace StagedPaths

variable (w : StagedPaths)

/-! ## How names end -/

theorem record_path_last : w.record_path.name.getLast? = some 'd' := by
  simp only [record_path, Layout.recordPath, List.getLast?_append]
  rfl

theorem snapshot_path_last : w.snapshot_path.name.getLast? = some 'n' := by
  simp only [snapshot_path, Layout.snapshotPath, List.getLast?_append]
  rfl

theorem tempName_last : w.tempName.getLast? = some 'p' := by
  have h : w.tempName = (['.'] ++ (w.prediction_id ++ (['.'] ++ w.nonce))) ++ text ".tmp" := by
    simp [tempName]
  rw [h, List.getLast?_append]
  rfl

theorem manifest_path_last : w.manifest_path.name.getLast? = some 'n' := by
  simp only [manifest_path, List.getLast?_append]
  rfl

theorem manifest_temp_last : w.manifest_temp.name.getLast? = some 'p' := by
  simp only [manifest_temp, List.getLast?_append]
  rfl

/-- Paths whose names end differently are different. -/
theorem ne_of_last {p q : Path} {c d : Char} (hp : p.name.getLast? = some c)
    (hq : q.name.getLast? = some d) (h : c ≠ d) : p ≠ q := by
  rintro rfl
  exact h (Option.some.inj (hp.symm.trans hq))

theorem record_path_ne_snapshot_path : w.record_path ≠ w.snapshot_path :=
  ne_of_last w.record_path_last w.snapshot_path_last (by decide)

theorem manifest_path_ne_snapshot_path : w.manifest_path ≠ w.snapshot_path := by
  intro h
  have hname := congrArg (fun p => p.name.length) h
  simp only [manifest_path, manifestStem, snapshot_path, Layout.snapshotPath,
    List.length_append, List.length_cons] at hname
  have hprefix : (text ".txn-").length = 5 := rfl
  omega

/-- The manifest's temporary name is no temporary name of an artifact. -/
theorem manifest_temp_name_ne : w.manifest_temp.name ≠ w.tempName := by
  intro h
  have htemp : w.tempName = (['.'] ++ (w.prediction_id ++ (['.'] ++ w.nonce))) ++ text ".tmp" := by
    simp [tempName]
  have hreverse := congrArg (fun s => s.reverse[3]?) h
  simp only [manifest_temp, htemp, @List.reverse_append _ _ (text ".tmp"),
    @List.reverse_append _ _ (text ".manifest-tmp")] at hreverse
  have hne : some '-' = some '.' := hreverse
  cases hne

/-- The final paths of a write. -/
def IsFinal (p : Path) : Prop := p = w.record_path ∨ p = w.snapshot_path

instance (p : Path) : Decidable (w.IsFinal p) := inferInstanceAs (Decidable (_ ∨ _))

theorem not_final_of_last {p : Path} (h : p.name.getLast? = some 'p') : ¬ w.IsFinal p := by
  rintro (rfl | rfl)
  · exact ne_of_last h w.record_path_last (by decide) rfl
  · exact ne_of_last h w.snapshot_path_last (by decide) rfl

theorem record_temp_not_final : ¬ w.IsFinal w.record_temp := w.not_final_of_last w.tempName_last

theorem snapshot_temp_not_final : ¬ w.IsFinal w.snapshot_temp :=
  w.not_final_of_last w.tempName_last

theorem manifest_temp_not_final : ¬ w.IsFinal w.manifest_temp :=
  w.not_final_of_last w.manifest_temp_last

theorem manifest_path_not_final : ¬ w.IsFinal w.manifest_path := by
  rintro (h | h)
  · exact ne_of_last w.manifest_path_last w.record_path_last (by decide) h
  · exact w.manifest_path_ne_snapshot_path h

theorem isManifestTemp_last {l : Layout} {p : Path} (h : l.isManifestTemp p = true) :
    p.name.getLast? = some 'p' := by
  simp only [Layout.isManifestTemp, Bool.and_eq_true, List.isSuffixOf_iff_suffix] at h
  obtain ⟨start, hstart⟩ := h.2
  rw [← hstart, List.getLast?_append]
  rfl

/-- A path that recovery lists as an unfinished manifest is no final path. -/
theorem isManifestTemp_not_final {p : Path} (h : w.layout.isManifestTemp p = true) :
    ¬ w.IsFinal p :=
  w.not_final_of_last (isManifestTemp_last h)

theorem isManifest_last {l : Layout} {p : Path} (h : l.isManifest p = true) :
    p.name.getLast? = some 'n' := by
  simp only [Layout.isManifest, Bool.and_eq_true, List.isSuffixOf_iff_suffix] at h
  obtain ⟨start, hstart⟩ := h.2
  rw [← hstart, List.getLast?_append]
  rfl

/-- A path that recovery lists as a manifest is no record. -/
theorem isManifest_ne_record {p : Path} (h : w.layout.isManifest p = true) : p ≠ w.record_path :=
  ne_of_last (isManifest_last h) w.record_path_last (by decide)

/-- A temporary name is not listed as a manifest. -/
theorem not_isManifest_of_last {l : Layout} {p : Path} (h : p.name.getLast? = some 'p') :
    ¬ l.isManifest p = true :=
  fun hm => ne_of_last h (isManifest_last hm) (by decide) rfl

/-- Recovery lists the manifest of the write. -/
theorem isManifest_manifest_path : w.layout.isManifest w.manifest_path = true := by
  have hprefix : text ".txn-" <+: w.manifest_path.name :=
    ⟨w.prediction_id ++ '-' :: w.nonce ++ text ".json", by simp [manifest_path, manifestStem]⟩
  have hsuffix : text ".json" <:+ w.manifest_path.name := ⟨w.manifestStem, rfl⟩
  have hlength : 10 ≤ w.manifest_path.name.length := by
    have hstart : (text ".txn-").length = 5 := rfl
    have hstop : (text ".json").length = 5 := rfl
    simp only [manifest_path, manifestStem, List.length_append, List.length_cons]
    omega
  simp only [Layout.isManifest, Bool.and_eq_true, beq_iff_eq, decide_eq_true_eq,
    List.isPrefixOf_iff_prefix, List.isSuffixOf_iff_suffix]
  exact ⟨⟨⟨rfl, hlength⟩, hprefix⟩, hsuffix⟩

/-- Recovery lists the unfinished manifest of the write. -/
theorem isManifestTemp_manifest_temp : w.layout.isManifestTemp w.manifest_temp = true := by
  have hprefix : text ".txn-" <+: w.manifest_temp.name :=
    ⟨w.prediction_id ++ '-' :: w.nonce ++ text ".manifest-tmp", by simp [manifest_temp, manifestStem]⟩
  have hsuffix : text ".manifest-tmp" <:+ w.manifest_temp.name := ⟨w.manifestStem, rfl⟩
  have hlength : 18 ≤ w.manifest_temp.name.length := by
    have hstart : (text ".txn-").length = 5 := rfl
    have hstop : (text ".manifest-tmp").length = 13 := rfl
    simp only [manifest_temp, manifestStem, List.length_append, List.length_cons]
    omega
  simp only [Layout.isManifestTemp, Bool.and_eq_true, beq_iff_eq, decide_eq_true_eq,
    List.isPrefixOf_iff_prefix, List.isSuffixOf_iff_suffix]
  exact ⟨⟨⟨rfl, hlength⟩, hprefix⟩, hsuffix⟩

/-! ## What the manifest names -/

/-- The paths of the write resolve to themselves: none is a link. -/
structure Resolves : Prop where
  record_path : w.layout.resolve w.record_path.str = .ok w.record_path
  snapshot_path : w.layout.resolve w.snapshot_path.str = .ok w.snapshot_path
  record_temp : w.layout.resolve w.record_temp.str = .ok w.record_temp
  snapshot_temp : w.layout.resolve w.snapshot_temp.str = .ok w.snapshot_temp

theorem snapshots_dir_inside (l : Layout) : IsRelativeTo l.snapshots_dir l.vault_root := by
  right
  rw [List.isPrefixOf_iff_prefix]
  exact ⟨text ".ledger/snapshots", by simp [Layout.snapshots_dir, text]⟩

theorem managedPath_of_resolves {l : Layout} {p : Path} (h : l.resolve p.str = .ok p)
    (hinside : IsRelativeTo p.dir l.vault_root) : l.managedPath (.str p.str) = .ok p := by
  simp [Layout.managedPath, h, refuse, hinside, Bind.bind, Except.bind, Pure.pure, Except.pure]

/-- The manifest text reads back as the manifest. -/
theorem loads_manifestText : Json.loads (F := Binary64) w.manifestText = some w.manifest := by
  have hkeyed : Keyed w.manifest := by
    refine ⟨?_, by simp [FieldsKeyed, Keyed]⟩
    simp only [List.map_cons, List.map_nil]
    decide
  have hfinite : isFinite w.manifest = true := by simp [manifest, isFinite, fieldsFinite]
  have hproper : w.manifest.Proper := (proper_iff _).mpr ⟨hkeyed, hfinite⟩
  exact Json.loads_print Json.defaultStyle_valid hproper (by simp [Json.Blank, Json.isBlank])

/-- What a manifest of the write lets recovery remove. -/
def managedPaths (committed : Bool) : List Path :=
  [w.record_temp, w.snapshot_temp] ++ if committed then [] else [w.record_path, w.snapshot_path]

theorem item_of_get? {fields : List (Text × Document)} {key : String} {value : Document}
    (h : (Json.Value.obj fields).get? (text key) = some value) :
    item (.obj fields) key = .ok value := by
  simp [item, Json.Value.isObject, h, required]

/-- Recovery reads from the manifest the paths of the write. -/
theorem recoveryPaths_manifestText (h : w.Resolves) (isCommitted : Text → Bool) :
    w.layout.recoveryPaths isCommitted w.manifestText =
      .ok (w.managedPaths (isCommitted w.prediction_id)) := by
  have hrecords := w.layout.records_inside
  have hsnapshots := snapshots_dir_inside w.layout
  have hid : item w.manifest "prediction_id" = .ok (.str w.prediction_id) := item_of_get? rfl
  have hrecord_path : (item w.manifest "record_path").bind w.layout.managedPath = .ok w.record_path := by
    rw [show item w.manifest "record_path" = .ok (.str w.record_path.str) from item_of_get? rfl]
    exact managedPath_of_resolves h.record_path hrecords
  have hrecord_temp : (item w.manifest "record_temp").bind w.layout.managedPath = .ok w.record_temp := by
    rw [show item w.manifest "record_temp" = .ok (.str w.record_temp.str) from item_of_get? rfl]
    exact managedPath_of_resolves h.record_temp hrecords
  have hsnapshot_path :
      (item w.manifest "snapshot_path").bind w.layout.managedPath = .ok w.snapshot_path := by
    rw [show item w.manifest "snapshot_path" = .ok (.str w.snapshot_path.str) from item_of_get? rfl]
    exact managedPath_of_resolves h.snapshot_path hsnapshots
  have hsnapshot_temp :
      (item w.manifest "snapshot_temp").bind w.layout.managedPath = .ok w.snapshot_temp := by
    rw [show item w.manifest "snapshot_temp" = .ok (.str w.snapshot_temp.str) from item_of_get? rfl]
    exact managedPath_of_resolves h.snapshot_temp hsnapshots
  have hbind : ∀ {α β : Type} (a : α) (f : α → Except Error β), (Except.ok a >>= f) = f a :=
    fun _ _ => rfl
  simp only [Layout.recoveryPaths, w.loads_manifestText, required, hid, hrecord_path, hrecord_temp,
    hsnapshot_path, hsnapshot_temp, w.layout.strOf_str, hbind, managedPaths]
  split <;> rfl

end StagedPaths

end Pine
