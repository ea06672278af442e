import Pine.Ledger.Capture.Capture
import Pine.Ledger.Registry.StartedTouched

/-!
# Out-of-sample freshness

The overlap query of a capture reads the same copy that its commit publishes, so no
window that another transaction records can slip between the two. Whatever order the
transactions take, a prediction is committed through a capture only when no recorded
window of its family shares a day with its own.
-/

namespace Pine

namespace Registry

/-- Some recorded window of the family shares a calendar day with the window. -/
def Overlaps (db : Registry) (family : Text) (w : DateWindow) : Prop :=
  ∃ r ∈ db.touched_windows, ∃ v, r.Records family v ∧ (v.days ∩ w.days).Nonempty

/-- The query of normalized bounds finds a row exactly when some window overlaps. -/
theorem findTouchedWindowOverlap_ok {db : Registry} (hdb : db.WindowsNormal) {family_id family : Text}
    {window_start window_end : WindowBound} {w : DateWindow}
    (hfamily : normalizeFamilyId (.str family_id) = .ok family)
    (hstart : window_start.toDate = .ok w.start) (hstop : window_end.toDate = .ok w.stop) :
    ∃ found, findTouchedWindowOverlap family_id window_start window_end db = .ok found ∧
      (found.isSome = true ↔ db.Overlaps family w) := by
  have hwindow : normalizeWindow window_start window_end =
      .ok (w.start.isoformat, w.stop.isoformat) :=
    normalizeWindow_ok.mpr ⟨w, hstart, hstop, rfl, rfl⟩
  obtain ⟨hsome, hnone⟩ := overlapping_head hdb family w
  refine ⟨_, bind_eq_ok.mpr ⟨family, hfamily, bind_eq_ok.mpr ⟨_, hwindow, rfl⟩⟩, ?_⟩
  cases hhead : ((db.overlapping family w.start.isoformat w.stop.isoformat).insertionSort
      touchLe).head? with
  | none =>
    have hfree := hnone hhead
    simp only [Option.isSome_none, Bool.false_eq_true, false_iff]
    rintro ⟨r, hr, v, hv, hshare⟩
    exact hfree r hr v hv hshare
  | some r =>
    obtain ⟨hr, v, hv, hshare⟩ := hsome r hhead
    simp only [Option.isSome_some, true_iff]
    exact ⟨r, hr, v, hv, hshare⟩

/-- A capture that passes the fresh-window check overlaps no recorded window. -/
theorem refuseOverlap_ok {db : Registry} (hdb : db.WindowsNormal)
    {request : PreregisteredCaptureRequest} {u : Unit} (h : refuseOverlap request db = .ok u)
    {family : Text} (hfamily : normalizeFamilyId (.str request.family_id) = .ok family) :
    ¬ db.Overlaps family request.forecast.out_of_sample_window := by
  obtain ⟨overlap, hoverlap, hnone⟩ := bind_eq_ok.mp h
  have hstart : (WindowBound.date request.forecast.out_of_sample_window.start).toDate =
      .ok request.forecast.out_of_sample_window.start := rfl
  have hstop : (WindowBound.date request.forecast.out_of_sample_window.stop).toDate =
      .ok request.forecast.out_of_sample_window.stop := rfl
  obtain ⟨found, hfound, hiff⟩ := findTouchedWindowOverlap_ok hdb hfamily hstart hstop
  obtain rfl := Except.ok.inj (hfound.symm.trans hoverlap)
  cases found with
  | none => simpa using hiff
  | some row => cases hnone

/-! ## What a capture does to the registry -/

variable {claimed : Text → Prop}

theorem stageInTransaction_keeps (sha256 : Text → Text) (world : CaptureWorld)
    (draft : PredictionDraft) (expected : Option Text) (committed_at : DateTime) :
    Keeps claimed (stageInTransaction sha256 world draft expected committed_at) := by
  refine keeps_bind (keeps_select _) fun existing => ?_
  cases existing with
  | some row => exact keeps_done _
  | none => exact keeps_bind (keeps_done _) fun prediction =>
      keeps_bind (beginPrediction_keeps _) fun _ => commitPrediction_keeps _ _

theorem captureTransaction_keeps (sha256 : Text → Text) (request : PreregisteredCaptureRequest)
    (world : CaptureWorld) : Keeps claimed (captureTransaction sha256 request world) := by
  refine keeps_bind (keeps_done _) fun request_hash =>
    keeps_bind (Program.Relates.query Extends.refl _) fun existing => ?_
  cases existing with
  | some row => exact keeps_done _
  | none =>
    exact keeps_bind (Program.Relates.query Extends.refl _) fun schema_hash =>
      keeps_bind (keeps_done _) fun inputs =>
        keeps_bind (stageInTransaction_keeps _ _ _ _ _) fun _ =>
          keeps_execute fun _ _ => insertCaptureRequest_extends

/-- The touched windows stay as they are. -/
def SameTouches (db db' : Registry) : Prop := db'.touched_windows = db.touched_windows

theorem stageInTransaction_touches (sha256 : Text → Text) (world : CaptureWorld)
    (draft : PredictionDraft) (expected : Option Text) (committed_at : DateTime) :
    Program.Relates SameTouches (stageInTransaction sha256 world draft expected committed_at) := by
  have hrefl : ∀ db, SameTouches db db := fun _ => rfl
  have htrans : ∀ a b c, SameTouches a b → SameTouches b c → SameTouches a c :=
    fun a b c hab hbc => Eq.trans hbc hab
  refine .bind (.query hrefl _) (fun _ existing _ _ => ?_) htrans
  cases existing with
  | some row => exact .done hrefl _
  | none =>
    refine .bind (.done hrefl _) (fun _ prediction _ _ => ?_) htrans
    refine .bind ?_ (fun _ _ _ _ => ?_) htrans
    · refine .bind (.done hrefl _) (fun _ _ _ _ => ?_) htrans
      refine .bind (.update hrefl fun db db' h => ?_) (fun _ _ _ _ => .update hrefl fun db db' h => ?_)
        htrans
      · obtain ⟨rfl, -⟩ := insertPrediction_ok h
        rfl
      · obtain ⟨rfl, -⟩ := insertRun_ok h
        rfl
    · refine .bind (.statement hrefl fun db n db' h => ?_) (fun _ _ _ _ => .done hrefl _) htrans
      obtain ⟨rfl, -, -⟩ := updatePredictions_ok h
      rfl

/-- A capture that adds a prediction found no recorded window of its family that overlaps, and
leaves none behind. -/
theorem captureTransaction_fresh {sha256 : Text → Text} {request : PreregisteredCaptureRequest}
    {world : CaptureWorld} {db db' : Registry} {u : Unit} (hdb : db.WindowsNormal)
    (h : (captureTransaction sha256 request world).run db = (.ok u, db')) {p : PredictionRow}
    (hp : p ∈ db'.predictions) (hnew : p ∉ db.predictions) {family : Text}
    (hfamily : normalizeFamilyId (.str request.family_id) = .ok family) :
    ¬ db'.Overlaps family request.forecast.out_of_sample_window := by
  obtain ⟨request_hash, db1, hhash, hlooked⟩ := Program.run_bind_ok.mp h
  obtain ⟨existing, db2, hlookup, hrest⟩ := Program.run_bind_ok.mp hlooked
  obtain ⟨-, rfl⟩ := Program.run_check_ok.mp hhash
  obtain ⟨-, rfl⟩ := Program.run_query_ok.mp hlookup
  cases existing with
  | some row =>
    obtain ⟨-, rfl⟩ := Program.run_check_ok.mp hrest
    exact absurd hp hnew
  | none =>
    obtain ⟨schema_hash, db3, hchecked, hprepared⟩ := Program.run_bind_ok.mp hrest
    obtain ⟨inputs, db4, hinputs, hstaged⟩ := Program.run_bind_ok.mp hprepared
    obtain ⟨_, db5, hstage, hregister⟩ := Program.run_bind_ok.mp hstaged
    obtain ⟨hchecks, rfl⟩ := Program.run_query_ok.mp hchecked
    obtain ⟨-, rfl⟩ := Program.run_check_ok.mp hinputs
    obtain ⟨_, -, hfresh⟩ := bind_eq_ok.mp hchecks
    obtain ⟨_, -, hoverlap⟩ := bind_eq_ok.mp hfresh
    obtain ⟨_, hfree, -⟩ := bind_eq_ok.mp hoverlap
    have hstaged : db5.touched_windows = db4.touched_windows := by
      have hsame := stageInTransaction_touches sha256 world inputs.1 (some schema_hash) inputs.2 db4
      rwa [hstage] at hsame
    obtain ⟨hregistered, -⟩ := insertCaptureRequest_ok (Program.run_update_ok.mp hregister)
    have htouches : db'.touched_windows = db4.touched_windows := by
      rw [hregistered, ← hstaged]
    intro hshare
    rw [Overlaps, htouches] at hshare
    exact refuseOverlap_ok hdb hfree hfamily hshare

/-! ## Interleaved transactions -/

variable {π : Type}

/-- A transaction of a capture, or of registry operations in any order. -/
def CaptureOrOperations (sha256 : Text → Text) (p : Session Unit) : Prop :=
  (∃ request world, p = captureTransaction sha256 request world) ∨ ∃ ops, p = sequence sha256 ops

theorem CaptureOrOperations.committed {sha256 : Text → Text} {p : Session Unit}
    (hp : CaptureOrOperations sha256 p) {db db' : Registry} {u : Unit}
    (h : p.run db = (.ok u, db')) :
    db.Evolves db' ∧ (db.WindowsNormal → db'.WindowsNormal) := by
  rcases hp with ⟨request, world, rfl⟩ | ⟨ops, rfl⟩
  · have hext : db.Extends (fun _ => False) db' :=
      (captureTransaction_keeps sha256 request world).extends h
    exact ⟨hext.evolves, hext.windows⟩
  · induction ops generalizing db with
    | nil =>
      cases h
      exact ⟨Evolves.refl _, id⟩
    | cons op ops ih =>
      obtain ⟨_, db1, hop, hrest⟩ := Program.run_bind_ok.mp h
      have hext := (op.program_keeps sha256).extends hop
      obtain ⟨hevolves, hwindows⟩ := ih hrest
      exact ⟨hext.evolves.trans hevolves, hwindows ∘ hext.windows⟩

/-- In every interleaving of captures with the operations that record windows, a commit that adds
a prediction through a capture leaves no window of its family, recorded at any time up to it, that
shares a day with its own; and the overlap query finds a row exactly when one does. -/
theorem captured_windows_fresh (sha256 : Text → Text) {s t : System π}
    {trace : List (System π × Transaction.Event π Registry Error Unit)}
    (h : Run Transaction.Step ⟨empty, none⟩ trace s)
    (hadmitted : ∀ x ∈ trace, ∀ process p, x.2 = .begin process p → CaptureOrOperations sha256 p) :
    (∀ w request world, s.writer = some w → w.begun = captureTransaction sha256 request world →
      Transaction.Step s .commit t → ∀ p ∈ t.committed.predictions, p ∉ s.committed.predictions →
      ∀ family, normalizeFamilyId (.str request.family_id) = .ok family →
        ¬ t.committed.Overlaps family request.forecast.out_of_sample_window ∧
        ∀ x ∈ trace, ¬ x.1.committed.Overlaps family request.forecast.out_of_sample_window) ∧
    ∀ family_id family window_start window_end (w : DateWindow),
      normalizeFamilyId (.str family_id) = .ok family → window_start.toDate = .ok w.start →
      window_end.toDate = .ok w.stop →
      ∃ found, findTouchedWindowOverlap family_id window_start window_end s.committed = .ok found ∧
        (found.isSome = true ↔ s.committed.Overlaps family w) := by
  have hlawful : ∀ {u : System π} {before}, Run Transaction.Step ⟨empty, none⟩ before u →
      (∀ x ∈ before, ∀ process p, x.2 = .begin process p → CaptureOrOperations sha256 p) →
      u.committed.WindowsNormal ∧ Transaction.Serial u ∧
        ∀ w, u.writer = some w → CaptureOrOperations sha256 w.begun := by
    intro u before hrun hadm
    refine Transaction.invariant ?_ hrun rfl hadm (by simp [WindowsNormal, empty])
    intro p db a db' hp hdb hr
    exact (hp.committed hr).2 hdb
  obtain ⟨hnormal, hserial, -⟩ := hlawful h hadmitted
  refine ⟨?_, ?_⟩
  · intro w request world hw hbegun hcommit p hp hnew family hfamily
    obtain ⟨w', u, hw', hrun⟩ := hcommit.commit_run hserial
    obtain rfl := Option.some.inj (hw.symm.trans hw')
    rw [hbegun] at hrun
    have hfree := captureTransaction_fresh hnormal hrun hp hnew hfamily
    refine ⟨hfree, fun x hx hshare => ?_⟩
    obtain ⟨before, after, hbefore, hafter, rfl⟩ := h.split_of_mem hx
    obtain ⟨-, hserial', hwriter⟩ := hlawful hbefore fun y hy =>
      hadmitted y (List.mem_append_left _ hy)
    have hevolves : x.1.committed.Evolves s.committed :=
      Transaction.relates Evolves.refl (fun _ _ _ => Evolves.trans)
        (fun p db a db' hp hr => (CaptureOrOperations.committed hp hr).1) hafter hserial' hwriter
        fun y hy => hadmitted y (List.mem_append_right _ hy)
    have hcommitted : s.committed.Evolves t.committed :=
      (show s.committed.Extends (fun _ => False) t.committed from
        (captureTransaction_keeps sha256 request world).extends hrun).evolves
    obtain ⟨r, hr, v, hv, hdays⟩ := hshare
    exact hfree ⟨r, (hevolves.trans hcommitted).touched_windows.subset hr, v, hv, hdays⟩
  · intro family_id family window_start window_end w hfamily hstart hstop
    exact findTouchedWindowOverlap_ok hnormal hfamily hstart hstop

/-! ## A capture after a touch -/

/-- January 2024. -/
def sampleJanuary : DateWindow := ⟨⟨2024, 1, 1, by decide⟩, ⟨2024, 1, 31, by decide⟩, by decide⟩

/-- February 2024. -/
def sampleFebruary : DateWindow := ⟨⟨2024, 2, 1, by decide⟩, ⟨2024, 2, 29, by decide⟩, by decide⟩

/-- The number zero. -/
def sampleZero : FiniteFloat := ⟨.fin false ⟨0, by decide +kernel⟩, rfl⟩

/-- A forecast that was fitted in January and predicts February. -/
def sampleForecast : StrategyEdgeForecast where
  strategy_id := text "momentum"
  expected_metrics := ⟨sampleZero, sampleZero, sampleZero, sampleZero, by decide +kernel⟩
  in_sample_window := sampleJanuary
  out_of_sample_window := sampleFebruary
  invalidation := text "decay"
  edge_source := text "flow"
  nonempty := by decide

/-- The lineage of the momentum family. -/
def sampleLineage : JsonObject := ⟨[(text "family_id", .str (text "momentum"))], by simp [Keyed, FieldsKeyed]⟩

/-- A capture request for the sample forecast. -/
def sampleRequest : PreregisteredCaptureRequest where
  idempotency_key := text "key"
  schema_id := text "finance/strategy-edge:1"
  expected_schema_hash := none
  forecast := sampleForecast
  decision := text "deploy"
  lineage := sampleLineage
  body := []
  family_id := text "momentum"
  key_length := by decide
  hash_pattern := by simp
  decision_nonempty := by decide
  lineage_family := ⟨rfl, by decide⟩

/-- A draft of the sample forecast. -/
def sampleDraft : PredictionDraft where
  prediction_id := ⟨text "pred_1", by decide +kernel⟩
  run_id := ⟨text "run_1", by decide +kernel⟩
  schema_id := text "finance/strategy-edge:1"
  registration_status := .preregistered
  forecast := sampleForecast
  decision := text "deploy"
  snapshot := sampleLineage
  lineage := sampleLineage
  body := []
  status := .open
  created_at := sampleTime
  decision_nonempty := by decide
  snapshot_nonempty := by decide
  created_at_aware := by decide

/-- A schema registry with one schema that admits everything. -/
def sampleSchemas : Schemas := ⟨fun _ => .ok ⟨[], by simp [Keyed, FieldsKeyed]⟩, fun _ _ => []⟩

/-- What the sample capture reads. -/
def sampleWorld : CaptureWorld where
  schemas := sampleSchemas
  schemasAtWrite := sampleSchemas
  decision_at := sampleTime
  committed_at := sampleTime
  prediction_id := ⟨text "pred_1", by decide +kernel⟩
  run_id := ⟨text "run_1", by decide +kernel⟩
  snapshot := .ok sampleLineage
  artifacts := fun _ => true

/-- January was observed. -/
def sampleTouch : List Operation :=
  [.mark_window_touched (text "momentum") (.isoText (text "20240101")) (.isoText (text "2024-01-31"))
    sampleTime]

/-- The registry after the touch. -/
def sampleTouched : Registry := ((sequence id sampleTouch).run empty).2

/-- The registry after the capture. -/
def sampleCaptured : Registry := ((captureTransaction id sampleRequest sampleWorld).run sampleTouched).2

theorem sample_captures :
    ((sequence id sampleTouch).run empty).1.isOk = true ∧
      ((captureTransaction id sampleRequest sampleWorld).run sampleTouched).1.isOk = true ∧
      sampleTouched.predictions = [] ∧
      sampleCaptured.predictions.map PredictionRow.prediction_id = [text "pred_1"] ∧
      sampleCaptured.touched_windows.map TouchedWindowRow.window_end = [text "2024-01-31"] := by
  decide +kernel

theorem captured_windows_fresh_sample :
    ∃ s t : System Unit, Transaction.Step s .commit t ∧
      t.committed.predictions.map PredictionRow.prediction_id = [text "pred_1"] ∧
      t.committed.touched_windows.map TouchedWindowRow.window_end = [text "2024-01-31"] ∧
      ¬ t.committed.Overlaps (text "momentum") sampleFebruary := by
  obtain ⟨htouch, hcapture, hnone, hone, hwindows⟩ := sample_captures
  obtain ⟨_, htouched⟩ : ∃ u, (sequence id sampleTouch).run empty = (.ok u, sampleTouched) :=
    Program.run_of_isOk htouch
  obtain ⟨u, hcaptured⟩ : ∃ u, (captureTransaction id sampleRequest sampleWorld).run sampleTouched =
      (.ok u, sampleCaptured) := Program.run_of_isOk hcapture
  obtain ⟨before, hbefore, hfirst⟩ := Transaction.whole () htouched
  obtain ⟨after, hafter, hsecond⟩ := Transaction.ready () hcaptured
  have hadmitted : ∀ x ∈ before ++ after, ∀ process p, x.2 = .begin process p →
      CaptureOrOperations id p := by
    intro x hx process p hp
    rcases List.mem_append.mp hx with hx | hx
    · exact Or.inr ⟨sampleTouch, hfirst x hx process p hp⟩
    · exact Or.inl ⟨sampleRequest, sampleWorld, hsecond x hx process p hp⟩
  have hcommit := Transaction.Step.commit sampleTouched ()
    (captureTransaction id sampleRequest sampleWorld) sampleCaptured u
  obtain ⟨p, hp⟩ := List.exists_mem_of_ne_nil sampleCaptured.predictions fun hnil => by
    rw [hnil] at hone
    cases hone
  have hfresh := (captured_windows_fresh id (t := ⟨sampleCaptured, none⟩)
    (hbefore.append hafter) hadmitted).1 _ sampleRequest sampleWorld rfl rfl hcommit p hp
    (by rw [hnone]; simp) (text "momentum") (by rfl)
  exact ⟨_, _, hcommit, hone, hwindows, hfresh.1⟩

end Registry

end Pine
