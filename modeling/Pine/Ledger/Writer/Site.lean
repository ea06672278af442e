import Pine.Core.Disk
import Pine.Core.Procedure
import Pine.Ledger.Capture.Capture

/-!
# The site of a write

The directories of a vault, the paths of one write, its manifest and its two files,
and the state that the writer works on: the registry and its open transaction, the
disk, and what the process remembers of its staged write.
-/

namespace Pine

open Json (Value)

/-- A path: its directory and its name. -/
structure Path where
  dir : Text
  name : Text
  deriving DecidableEq

/-- `str(path)` -/
def Path.str (p : Path) : Text := p.dir ++ '/' :: p.name

/-- The directory is the root or lies below it. -/
def IsRelativeTo (dir root : Text) : Prop := dir = root ∨ (root ++ ['/']).isPrefixOf dir = true

instance (dir root : Text) : Decidable (IsRelativeTo dir root) :=
  inferInstanceAs (Decidable (_ ∨ _))

/-- The directories of a writer, and the two functions of the language that recovery relies on:
`Path(raw).resolve()` and `str(value)`. -/
structure Layout where
  vault_root : Text
  records_dir : Text
  records_inside : IsRelativeTo records_dir vault_root
  resolve : Text → Except Error Path
  strOf : Document → Text
  strOf_str : ∀ s, strOf (.str s) = s

namespace Layout

variable (l : Layout)

/-- `self.snapshots_dir` -/
def snapshots_dir : Text := l.vault_root ++ text "/.ledger/snapshots"

/-- `records_dir / f"{prediction_id}.md"` -/
def recordPath (prediction_id : Text) : Path := ⟨l.records_dir, prediction_id ++ text ".md"⟩

/-- `snapshots_dir / f"{prediction_id}.json"` -/
def snapshotPath (prediction_id : Text) : Path := ⟨l.snapshots_dir, prediction_id ++ text ".json"⟩

/-- `_managed_path` -/
def managedPath (raw : Document) : Except Error Path :=
  match raw with
  | .str raw => do
    let path ← l.resolve raw
    refuse (¬ IsRelativeTo path.dir l.vault_root)
      (.valueError (text "transaction manifest references a path outside the vault"))
    return path
  | _ => .error (.typeError (text "expected str, bytes or os.PathLike object"))

/-- `glob(".txn-*.json")` lists the path. -/
def isManifest (p : Path) : Bool :=
  p.dir == l.snapshots_dir && 10 ≤ p.name.length && (text ".txn-").isPrefixOf p.name &&
    (text ".json").isSuffixOf p.name

/-- `glob(".txn-*.manifest-tmp")` lists the path. -/
def isManifestTemp (p : Path) : Bool :=
  p.dir == l.snapshots_dir && 18 ≤ p.name.length && (text ".txn-").isPrefixOf p.name &&
    (text ".manifest-tmp").isSuffixOf p.name

/-- The paths that recovering a manifest removes before the manifest itself. -/
def recoveryPaths (isCommitted : Text → Bool) (content : Text) : Except Error (List Path) := do
  let manifest ← required (Json.loads content) (.valueError (text "invalid JSON"))
  let prediction_id ← item manifest "prediction_id"
  let record_temp ← (item manifest "record_temp").bind l.managedPath
  let snapshot_temp ← (item manifest "snapshot_temp").bind l.managedPath
  if isCommitted (l.strOf prediction_id) then return [record_temp, snapshot_temp]
  else
    let record_path ← (item manifest "record_path").bind l.managedPath
    let snapshot_path ← (item manifest "snapshot_path").bind l.managedPath
    return [record_temp, snapshot_temp, record_path, snapshot_path]

end Layout

/-! ## One write -/

/-- The paths of one staged write are named after its prediction and a nonce. -/
structure StagedPaths where
  layout : Layout
  prediction_id : Text
  nonce : Text

namespace StagedPaths

variable (w : StagedPaths)

def record_path : Path := w.layout.recordPath w.prediction_id

def snapshot_path : Path := w.layout.snapshotPath w.prediction_id

/-- `f".{prediction_id}.{nonce}.tmp"` -/
def tempName : Text := '.' :: (w.prediction_id ++ '.' :: (w.nonce ++ text ".tmp"))

def record_temp : Path := ⟨w.layout.records_dir, w.tempName⟩

def snapshot_temp : Path := ⟨w.layout.snapshots_dir, w.tempName⟩

/-- `f".txn-{prediction_id}-{nonce}"` -/
def manifestStem : Text := text ".txn-" ++ (w.prediction_id ++ '-' :: w.nonce)

def manifest_path : Path := ⟨w.layout.snapshots_dir, w.manifestStem ++ text ".json"⟩

/-- `path.with_suffix(".manifest-tmp")` -/
def manifest_temp : Path := ⟨w.layout.snapshots_dir, w.manifestStem ++ text ".manifest-tmp"⟩

/-- The manifest. -/
def manifest : Document :=
  .obj [(text "prediction_id", .str w.prediction_id),
    (text "record_path", .str w.record_path.str),
    (text "record_temp", .str w.record_temp.str),
    (text "snapshot_path", .str w.snapshot_path.str),
    (text "snapshot_temp", .str w.snapshot_temp.str)]

/-- The text of the manifest file; its keys are sorted. -/
def manifestText : Text := Json.print Json.defaultStyle 0 w.manifest ++ ['\n']

end StagedPaths

/-- `_snapshot_bytes` -/
def snapshotBytes (prediction : CommittedPrediction) : Except Error Text :=
  if isFinite prediction.snapshot.toDict then
    .ok (Json.print (Json.indentStyle 2) 0 (Json.sortKeys prediction.snapshot.toDict) ++ ['\n'])
  else .error (.valueError (text "Out of range float values are not JSON compliant"))

/-- The fields of a document, when it is an object. -/
def objectField (value : Document) (key : String) : Document := (value.get? (text key)).getD .null

/-- The digest of the snapshot that the front matter shows. -/
def snapshotDigest (prediction : CommittedPrediction) : Document :=
  let forecast := prediction.forecast.modelDump
  let parameter_count := objectField prediction.snapshot.toDict "parameter_count"
  .obj ([(text "in_sample_window", objectField forecast "in_sample_window"),
    (text "out_of_sample_window", objectField forecast "out_of_sample_window"),
    (text "expected_metrics", objectField forecast "expected_metrics")] ++
    match parameter_count with
    | .null => []
    | value => [(text "parameter_count", value)])

/-- The front matter of a record. -/
def frontmatter (prediction : CommittedPrediction) : Document :=
  .obj [(text "id", .str prediction.prediction_id),
    (text "run_id", .str prediction.run_id),
    (text "type", .str (text "prediction")),
    (text "domain", .str (prediction.schema_id.takeWhile (· ≠ '/'))),
    (text "schema_id", .str prediction.schema_id),
    (text "schema_hash", .str prediction.schema_hash),
    (text "registration_status", .str prediction.registration_status.value),
    (text "created_at", .str prediction.created_at.isoformat),
    (text "committed_at", .str prediction.committed_at.isoformat),
    (text "forecast", prediction.forecast.modelDump),
    (text "decision", .str prediction.decision),
    (text "snapshot_ref", .str prediction.snapshot_ref),
    (text "snapshot_digest", snapshotDigest prediction),
    (text "lineage", prediction.lineage.toDict),
    (text "immutable_hash", .str prediction.immutable_hash),
    (text "status", .str prediction.status.value),
    (text "outcome", .null), (text "grade", .null), (text "resolution_metadata", .null)]

/-- `_record_bytes`, over `yaml.safe_dump`. -/
def recordBytes (safeDump : Document → Text) (prediction : CommittedPrediction) : Text :=
  text "---\n" ++ safeDump (frontmatter prediction) ++ text "---\n\n" ++ rstrip prediction.body ++
    ['\n']

/-! ## The state -/

/-- The registry, the open write transaction, the disk, and the memory of the writing process:
whether its staged write was returned (and is finished), and what it has published. No step reads
the history of the files that another program created. -/
structure Site where
  registry : Registry
  tx : Option Registry
  disk : Disk Path Text
  staged : Option Bool
  record_published : Bool
  snapshot_published : Bool
  foreign : List (Path × File Text)

namespace Site

/-- `is_committed` -/
def isCommitted (s : Site) (prediction_id : Text) : Bool :=
  (s.registry.prediction? prediction_id).any (·.transaction_state == .committed)

/-- Remove a path, if it is there. -/
def unlink (s : Site) (p : Path) : Site := { s with disk := s.disk.unlink p }

/-- A new `StagedWrite`: nothing is published yet. -/
def restage (s : Site) : Site := { s with record_published := false, snapshot_published := false }

/-- A dead process leaves no transaction and remembers nothing. -/
def die (s : Site) : Site :=
  { s with tx := none, staged := none, record_published := false, snapshot_published := false }

end Site

/-- Another program creates a file at a final path of the write. -/
inductive CreatesForeign (w : StagedPaths) : Site → Site → Prop
  | create (s : Site) (p : Path) (content : Text) (disk : Disk Path Text) :
      p = w.record_path ∨ p = w.snapshot_path → s.disk.create p content = some disk →
      CreatesForeign w s { s with disk, foreign := s.foreign ++ [(p, ⟨s.disk.next, content⟩)] }

end Pine
