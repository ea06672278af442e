import Pine.Ledger.Registry.Tables
import Mathlib.Order.Interval.Set.Basic

/-!
# Touched windows

Windows and families are normalized before they are stored or queried, so stored
windows are the fixed-width texts of ordered dates. On such rows the text query for
an overlap answers the question it is meant for: whether two closed intervals of
calendar days share a day.
-/

namespace Pine

open Json (Value)

/-- A window bound as its caller gives it. -/
inductive WindowBound where
  | date (d : Date)
  | isoText (s : Text)
  deriving DecidableEq

/-- The date of a bound; `date.fromisoformat` raises on any other text. -/
def WindowBound.toDate : WindowBound → Except Error Date
  | date d => .ok d
  | isoText s => match Date.fromisoformat s with
    | some d => .ok d
    | none => .error (.valueError (text "Invalid isoformat string"))

/-- `_normalize_window` -/
def normalizeWindow (window_start window_end : WindowBound) : Except Error (Text × Text) := do
  let start ← window_start.toDate
  let stop ← window_end.toDate
  if stop < start then .error (.valueError (text "window_end must be on or after window_start"))
  else .ok (start.isoformat, stop.isoformat)

/-- `_normalize_family_id` -/
def normalizeFamilyId : Document → Except Error Text
  | .str family_id =>
    let normalized := strip family_id
    if normalized = [] ∨ 256 < normalized.length ∨ '\x00' ∈ normalized then
      .error (.valueError (text "family_id must be 1 to 256 non-NUL characters"))
    else .ok normalized
  | _ => .error (.typeError (text "family_id must be a string"))

/-- The order of the overlap query: first touch first. -/
def touchLe (a b : TouchedWindowRow) : Prop :=
  textLe a.touched_at b.touched_at = true ∧ (textLe b.touched_at a.touched_at = true →
    textLe a.window_start b.window_start = true ∧ (textLe b.window_start a.window_start = true →
      textLe a.window_end b.window_end = true))

instance : DecidableRel touchLe := fun _ _ => inferInstanceAs (Decidable (_ ∧ _))

namespace Registry

/-- The rows of a family that the overlap query selects for a normalized window. -/
def overlapping (db : Registry) (family start stop : Text) : List TouchedWindowRow :=
  db.touched_windows.filter fun r =>
    r.family_id == family && textLe r.window_start stop && textLe start r.window_end

/-- `find_touched_window_overlap` -/
def findTouchedWindowOverlap (family_id : Text) (window_start window_end : WindowBound)
    (db : Registry) : Except Error (Option TouchedWindowRow) := do
  let family ← normalizeFamilyId (.str family_id)
  let (start, stop) ← normalizeWindow window_start window_end
  return ((db.overlapping family start stop).insertionSort touchLe).head?

/-- `is_window_touched` -/
def isWindowTouched (family_id : Text) (window_start window_end : WindowBound) (db : Registry) :
    Except Error Bool := do
  let family ← normalizeFamilyId (.str family_id)
  let (start, stop) ← normalizeWindow window_start window_end
  return db.touched_windows.any fun r =>
    r.family_id == family && r.window_start == start && r.window_end == stop

end Registry

/-! ## Normalized windows -/

/-- The days of a window. -/
def DateWindow.days (w : DateWindow) : Set Date := Set.Icc w.start w.stop

/-- The row stores a family and a window. -/
def TouchedWindowRow.Records (r : TouchedWindowRow) (family : Text) (w : DateWindow) : Prop :=
  r.family_id = family ∧ r.window_start = w.start.isoformat ∧ r.window_end = w.stop.isoformat

/-- Every stored window is the text of a window of dates. -/
def Registry.WindowsNormal (db : Registry) : Prop :=
  ∀ r ∈ db.touched_windows, ∃ w : DateWindow, r.Records r.family_id w

/-- Two windows share a day exactly when each begins before the other ends. -/
theorem DateWindow.days_inter_nonempty (v w : DateWindow) :
    (v.days ∩ w.days).Nonempty ↔ v.start ≤ w.stop ∧ w.start ≤ v.stop := by
  constructor
  · rintro ⟨day, hv, hw⟩
    exact ⟨hv.1.trans hw.2, hw.1.trans hv.2⟩
  · rintro ⟨hvw, hwv⟩
    refine ⟨max v.start w.start, ?_, ?_⟩
    · exact ⟨le_max_left _ _, max_le v.ordered hwv⟩
    · exact ⟨le_max_right _ _, max_le hvw w.ordered⟩

/-- A normalized window is the text of the dates that its bounds spell. -/
theorem normalizeWindow_ok {window_start window_end : WindowBound} {start stop : Text} :
    normalizeWindow window_start window_end = .ok (start, stop) ↔
      ∃ w : DateWindow, window_start.toDate = .ok w.start ∧ window_end.toDate = .ok w.stop ∧
        start = w.start.isoformat ∧ stop = w.stop.isoformat := by
  unfold normalizeWindow
  cases hs : window_start.toDate with
  | error e => simp [Bind.bind, Except.bind]
  | ok s =>
    cases he : window_end.toDate with
    | error e => simp [Bind.bind, Except.bind]
    | ok e =>
      simp only [Bind.bind, Except.bind, Except.ok.injEq]
      constructor
      · intro h
        split at h
        · cases h
        · rename_i hle
          cases h
          exact ⟨⟨s, e, not_lt.mp hle⟩, rfl, rfl, rfl, rfl⟩
      · rintro ⟨w, rfl, rfl, rfl, rfl⟩
        rw [if_neg (not_lt.mpr w.ordered)]

/-- A row that records a window is selected for another exactly when they share a day. -/
theorem TouchedWindowRow.Records.overlap_iff {r : TouchedWindowRow} {family : Text}
    {v : DateWindow} (h : r.Records family v) (w : DateWindow) :
    (textLe r.window_start w.stop.isoformat = true ∧ textLe w.start.isoformat r.window_end = true) ↔
      (v.days ∩ w.days).Nonempty := by
  obtain ⟨-, hstart, hstop⟩ := h
  rw [hstart, hstop, Date.isoformat_le_iff, Date.isoformat_le_iff, DateWindow.days_inter_nonempty]

theorem Registry.mem_overlapping {db : Registry} {family start stop : Text}
    {r : TouchedWindowRow} :
    r ∈ db.overlapping family start stop ↔ r ∈ db.touched_windows ∧ r.family_id = family ∧
      textLe r.window_start stop = true ∧ textLe start r.window_end = true := by
  simp [Registry.overlapping, and_assoc]

/-- On normalized rows the overlap query returns a row of the family that shares a day with the
window, if any row does. -/
theorem Registry.overlapping_head {db : Registry} (hdb : db.WindowsNormal) (family : Text)
    (w : DateWindow) :
    (∀ r, ((db.overlapping family w.start.isoformat w.stop.isoformat).insertionSort touchLe).head? =
        some r → r ∈ db.touched_windows ∧
          ∃ v, r.Records family v ∧ (v.days ∩ w.days).Nonempty) ∧
      (((db.overlapping family w.start.isoformat w.stop.isoformat).insertionSort touchLe).head? =
        none → ∀ r ∈ db.touched_windows, ∀ v, r.Records family v →
          ¬ (v.days ∩ w.days).Nonempty) := by
  constructor
  · intro r hr
    have hmem : r ∈ db.overlapping family w.start.isoformat w.stop.isoformat := by
      have hsorted := List.mem_of_mem_head? (Option.mem_def.mpr hr)
      exact (List.perm_insertionSort touchLe _).subset hsorted
    obtain ⟨hstored, hfamily, hleft, hright⟩ := mem_overlapping.mp hmem
    obtain ⟨v, hv⟩ := hdb r hstored
    rw [hfamily] at hv
    exact ⟨hstored, v, hv, (hv.overlap_iff w).mp ⟨hleft, hright⟩⟩
  · intro hnone r hr v hv hshare
    have hempty : db.overlapping family w.start.isoformat w.stop.isoformat = [] := by
      have hsorted := List.head?_eq_none_iff.mp hnone
      have hperm := List.perm_insertionSort touchLe
        (db.overlapping family w.start.isoformat w.stop.isoformat)
      rw [hsorted] at hperm
      exact List.nil_perm.mp hperm
    obtain ⟨hleft, hright⟩ := (hv.overlap_iff w).mpr hshare
    have hmem : r ∈ db.overlapping family w.start.isoformat w.stop.isoformat :=
      mem_overlapping.mpr ⟨hr, hv.1, hleft, hright⟩
    rw [hempty] at hmem
    cases hmem

end Pine
