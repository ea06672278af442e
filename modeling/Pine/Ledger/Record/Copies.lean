import Pine.Ledger.Record.Checker

/-!
# Copies of a record

Which prediction a settled Markdown file stands for: its stem is tried first, then the id in
its front matter. The file that is verified is the one that settled, wherever it lies, so a file
that names a healthy prediction and does not verify quarantines it.
-/

namespace Pine

/-- `path.stem` -/
def Path.stem (p : Path) : Text :=
  let suffix := p.name.reverse.takeWhile (· ≠ '.')
  let rest := (p.name.reverse.dropWhile (· ≠ '.')).tail.reverse
  if suffix = [] ∨ rest = [] then p.name else rest

/-- How the watcher reads front matter: for some texts the loader raises a `ValueError`, which the
watcher does not expect. -/
structure RecordWatch extends EvidenceReader where
  raises : Text → Bool

namespace RecordWatch

variable (W : RecordWatch)

/-- The text between the delimiters of a record. -/
def frontmatterText (raw : Bytes) : Option Text := do
  if maxRecordBytes < raw.length then none
  let content ← raw.decodeUtf8
  let rest ← stripPrefix (text "---\n") (replaceCrLf content)
  let parts ← splitOnce (text "---\n") rest
  return parts.1

/-- `_frontmatter_prediction_id`, unless it raises. -/
def frontmatterPredictionId (raw : Option Bytes) : Option Text :=
  (raw.bind (loadRecord W.toRecordLibrary)).bind fun parts =>
    if parts.1.fieldIs "type" (text "prediction") then
      ((parts.1.get? "id").bind YamlValue.asText?).filter fun id => !(strip id).isEmpty
    else none

/-- `_registered_prediction_id` -/
def registeredPredictionId (db : Registry) (filename_id : Text) (frontmatter_id : Option Text) :
    Option Text :=
  (filename_id :: frontmatter_id.toList).find? fun id => (db.committedRow id).isSome

/-- `_dispatch_record`: the prediction of the event that it emits. -/
def dispatchRecord (db : Registry) (path : Path) (raw : Option Bytes) : Option Text :=
  if (raw.bind frontmatterText).any W.raises then none
  else (registeredPredictionId db path.stem (W.frontmatterPredictionId raw)).or
    (W.frontmatterPredictionId raw)

variable {W : RecordWatch} {db : Registry} {path : Path} {raw : Option Bytes} {id : Text}

/-- A file stands for a prediction that its name or its front matter names. -/
theorem dispatchRecord_names (h : W.dispatchRecord db path raw = some id) :
    path.stem = id ∨ W.frontmatterPredictionId raw = some id := by
  unfold dispatchRecord at h
  split at h
  · cases h
  · rcases Option.or_eq_some_iff.mp h with hregistered | ⟨-, hcandidate⟩
    · rcases List.mem_cons.mp (List.mem_of_find?_eq_some hregistered) with hstem | hmem
      · exact Or.inl hstem.symm
      · exact Or.inr (Option.mem_toList.mp hmem)
    · exact Or.inr hcandidate

/-- A file that bears the id of a committed prediction stands for it, whatever it holds, unless the
loader raises the unexpected error. -/
theorem dispatchRecord_stem (hcommitted : (db.committedRow path.stem).isSome = true)
    (hraises : (raw.bind frontmatterText).any W.raises = false) :
    W.dispatchRecord db path raw = some path.stem := by
  have hregistered : registeredPredictionId db path.stem (W.frontmatterPredictionId raw) =
      some path.stem := List.find?_cons_of_pos hcommitted
  rw [dispatchRecord, if_neg (by simp [hraises]), hregistered]
  rfl

end RecordWatch

namespace CheckedVault

variable {R : EvidenceReader} {V : Libraries} {sha256 : Text → Text} {s : CheckedVault}
  {files : VaultFiles} {trace : List (CheckedVault × CheckEvent)} {id : Text} {canonical : Path}
  {record snapshot : ManagedFile}

/-- From its commit on, the record of a prediction at its path and its snapshot are those that verify
against its row. -/
def IntactAt (R : EvidenceReader) (sha256 : Text → Text) (canonical : Path) (id : Text)
    (record snapshot : ManagedFile) (s : CheckedVault) : Prop :=
  ∀ row ∈ s.registry.predictions, row.prediction_id = id → row.transaction_state = .committed →
    s.files.record canonical = record ∧ s.files.snapshot row.snapshot_ref = snapshot ∧
      ∃ e, verify R sha256 row record snapshot = .ok ⟨some e, []⟩

/-- The watcher emitted the event for the file that it found at the path. -/
def DispatchedAt (W : RecordWatch) (s : CheckedVault) (event : LedgerRecordEvent) : Prop :=
  W.dispatchRecord s.registry event.path ((s.files.record event.path).read.toOption.join) =
    some event.prediction_id

/-- The row that a check in flight has read. -/
theorem row_of_pending (hs : s.Watched id) {check : PendingCheck} {event : LedgerRecordEvent}
    {row : PredictionRow} (hcheck : check ∈ s.pending)
    (hreads : check = .read event row ∨ ∃ record, check = .opened event row record) :
    ∃ row' ∈ s.registry.predictions, row.Evolves row' := by
  have hcurrent := hs.current check hcheck
  rcases hreads with rfl | ⟨record, rfl⟩
  · exact hcurrent.2
  · exact hcurrent.2

/-- The step of a check in flight. -/
theorem pending_of_advance {t : CheckedVault} {check : PendingCheck}
    (h : Step R V sha256 s (.advance check) t) : check ∈ s.pending := by
  cases h with
  | advance check before after hpending =>
    rw [hpending]
    exact List.mem_append_right _ List.mem_cons_self

/-- What the checker records of a record that is malformed. -/
def malformedRecord : List (Text × Text) :=
  [(text "record", text "committed Markdown record is malformed")]

/-- The watcher of a vault whose loader raises nothing unexpected. -/
def sampleWatch : RecordWatch := { sampleReader with raises := fun _ => false }

theorem sampleWatch_raises (o : Option Text) : o.any sampleWatch.raises = false := by
  cases o <;> rfl

/-- Where the ledger publishes the record of the prediction. -/
def publishedPath (c : CommittedPrediction) : Path :=
  ⟨text "predictions", c.prediction_id ++ text ".md"⟩

/-- A file of the same name, elsewhere. -/
def copiedPath (c : CommittedPrediction) : Path := ⟨[], c.prediction_id ++ text ".md"⟩

/-- A vault with the published record, and with an empty file wherever else one looks. -/
def copiedFiles (record snapshot : ManagedFile) : VaultFiles where
  inside _ := true
  record path := if path.dir = text "predictions" then record else ⟨true, .ok (some [])⟩
  snapshot _ := snapshot

theorem copied_checks : samplePrepared.toOption.any (fun c =>
    (copiedPath c).stem == c.prediction_id.val &&
    (stagedRegistry c).predictions.all (fun row =>
      row.committed_at == some c.committed_at.isoformat) &&
    reportsQuarantine (settle (stagedRegistry c) c.prediction_id malformedRecord
      Registry.sampleTime).1) = true := by
  decide +kernel

/-- A copy bears the id of the prediction, and a check of it may quarantine the prediction. -/
theorem copied_sample {c : CommittedPrediction} (hprepared : samplePrepared = .ok c) :
    (copiedPath c).stem = c.prediction_id ∧
      (∀ row ∈ (stagedRegistry c).predictions, row.committed_at = some c.committed_at.isoformat) ∧
      reportsQuarantine (settle (stagedRegistry c) c.prediction_id malformedRecord
        Registry.sampleTime).1 = true := by
  have hchecks := copied_checks
  rw [hprepared] at hchecks
  simp only [Except.toOption, Option.any_some, Bool.and_eq_true, beq_iff_eq, List.all_eq_true]
    at hchecks
  exact ⟨hchecks.1.1, hchecks.1.2, hchecks.2⟩

/-- The staged prediction is intact in a vault with its two published files. -/
theorem intact_published {c : CommittedPrediction} {content : Text} {s : CheckedVault}
    (hprepared : samplePrepared = .ok c) (hbytes : snapshotBytes c = .ok content)
    (hregistry : s.registry = Registry.empty ∨ s.registry = stagedRegistry c)
    {record snapshot : ManagedFile} (hfiles : s.files = copiedFiles record snapshot)
    (hrecord : record =
      ⟨true, .ok (some (Bytes.encodeUtf8 (recordBytes (Json.print Json.compactStyle 0) c)))⟩)
    (hsnapshot : snapshot = ⟨true, .ok (some (Bytes.encodeUtf8 content))⟩) :
    IntactAt sampleWatch.toEvidenceReader (fun s => s) (publishedPath c) c.prediction_id record
      snapshot s := by
  intro row hrow _ _
  rcases hregistry with hempty | hregistry
  · rw [hempty] at hrow
    cases hrow
  · rw [hregistry] at hrow
    obtain ⟨hwriter, hreadable⟩ := sample_readable c hprepared
    refine ⟨?_, ?_, publishedEvidence c, ?_⟩
    · rw [hfiles]
      simp only [copiedFiles, publishedPath, if_true]
    · rw [hfiles]
      rfl
    · rw [hrecord, hsnapshot]
      exact verify_published hwriter hreadable (staged_records c hrow)
        ((copied_sample hprepared).2.1 row hrow) hbytes

/-- The prediction is staged, and a check of its copy quarantines it. -/
theorem copied_run {c : CommittedPrediction} {row : PredictionRow} (hprepared : samplePrepared = .ok c)
    (hrow : (stagedRegistry c).committedRow c.prediction_id = some row)
    (record snapshot : ManagedFile) :
    ∃ trace t, Run (Step sampleReader Registry.sampleLibraries (fun s => s))
        (initial (copiedFiles record snapshot)) trace t ∧ t.Reported c.prediction_id ∧
      ∀ x ∈ trace, x.1.files = copiedFiles record snapshot ∧
        ((x.1.registry = Registry.empty ∧ x.2 = .call (stagingCall c)) ∨
          (x.1.registry = stagedRegistry c ∧ (x.2 = .record (sampleEvent c (copiedPath c)) ∨
            ∃ check, x.2 = .advance check))) := by
  have hopened := staged_opens c hrow (copiedFiles record snapshot) (copiedPath c) rfl
  have hjudge : Step sampleReader Registry.sampleLibraries (fun s => s)
      (stagedVault c (copiedFiles record snapshot) [.opened (sampleEvent c (copiedPath c)) row
        ((copiedFiles record snapshot).record (copiedPath c))])
      (.advance (.opened (sampleEvent c (copiedPath c)) row
        ((copiedFiles record snapshot).record (copiedPath c))))
      (stagedVault c (copiedFiles record snapshot)
        [.judged c.prediction_id malformedRecord Registry.sampleTime]) :=
    .advance (stagedVault c (copiedFiles record snapshot) [_]) _ [] [] rfl
  obtain ⟨changed, houtcome⟩ := reportsQuarantine_settle (copied_sample hprepared).2.2
  obtain ⟨t, hsettle, hreported⟩ := @Step.ends sampleReader Registry.sampleLibraries (fun s => s)
    (stagedVault c (copiedFiles record snapshot)
      [.judged c.prediction_id malformedRecord Registry.sampleTime]) _ _ rfl houtcome
  refine ⟨_, t, (hopened.snoc hjudge).snoc hsettle, ⟨_, hreported, rfl, rfl⟩, fun x hx => ?_⟩
  simp only [List.mem_append, List.mem_cons, List.not_mem_nil, or_false] at hx
  rcases hx with ((rfl | rfl | rfl) | rfl) | rfl
  · exact ⟨rfl, Or.inl ⟨rfl, rfl⟩⟩
  · exact ⟨rfl, Or.inr ⟨rfl, Or.inl rfl⟩⟩
  all_goals exact ⟨rfl, Or.inr ⟨rfl, Or.inr ⟨_, rfl⟩⟩⟩

end CheckedVault

end Pine
