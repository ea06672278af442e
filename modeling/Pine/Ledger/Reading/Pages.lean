import Mathlib.Data.Set.Finite.Basic
import Pine.Core.Run
import Pine.Ledger.Reading.Pagination
import Pine.Ledger.Registry.Quarantine

/-!
# What a client of the prediction list gets

A client follows the cursors while transactions of the ledger are committed between any two of the
things it does. It gets the list in order and without repetitions, and when it ends it has every
prediction that matched throughout. It ends unless a selected prediction has a time that UTC cannot
express, which raises an error on every page that reaches it.
-/

namespace Pine

open Keyset (Scan)

namespace Registry

/-- The predictions are under identifiers. -/
def Identified (db : Registry) : Prop :=
  ∀ row ∈ db.predictions, validateIdentifier row.prediction_id = .ok row.prediction_id

/-- Every statement of the ledger leaves predictions under identifiers. -/
theorem identified_law : Law (fun id _ => validateIdentifier id = .ok id) (fun _ => True)
    (fun db db' => db.Identified → db'.Identified) where
  refl _ := id
  trans _ _ _ h k := k ∘ h
  insertRun row db db' h := by
    obtain ⟨-, rfl⟩ := enforced_ok h
    exact id
  insertPrediction row db db' hdrafted h := by
    obtain ⟨-, rfl⟩ := enforced_ok h
    intro hdb found hfound
    rcases List.mem_append.mp hfound with hfound | hnew
    · exact hdb found hfound
    · rw [List.mem_singleton.mp hnew]
      exact hdrafted
  insertRunBinding row db db' h := by
    obtain ⟨-, rfl⟩ := enforced_ok h
    exact id
  insertCaptureRequest row db db' h := by
    obtain ⟨-, rfl⟩ := enforced_ok h
    exact id
  insertIntegrityViolation row db db' _ h := by
    obtain ⟨-, rfl⟩ := enforced_ok h
    exact id
  insertExternalRunImport row db db' h := by
    obtain ⟨-, rfl⟩ := enforced_ok h
    exact id
  insertRunResult row db db' h := by
    obtain ⟨-, rfl⟩ := enforced_ok h
    exact id
  insertTouchedWindow row db hdb := by
    rw [Identified, (insertTouchedWindow_same row db).1]
    exact hdb
  updateRuns selects u db n db' h := by
    obtain ⟨rfl, -⟩ := updateRuns_ok h
    exact id
  updatePredictions selects u db n db' h hdb := by
    obtain ⟨rfl, -, hall⟩ := updatePredictions_ok h
    intro found hfound
    obtain ⟨row, hrow, rfl⟩ := List.mem_map.mp hfound
    split
    · rename_i hselects
      rw [(predictionTriggers_ok (hall row hrow hselects)).1]
      exact hdb row hrow
    · exact hdb row hrow

/-- A transaction of the ledger leaves the registry as the list relies on it. -/
theorem Stored.sequence {sha256 : Text → Text} {ops : List Operation} {db db' : Registry} {u : Unit}
    (hdb : db.Stored) (h : (sequence sha256 ops).run db = (.ok u, db')) : db'.Stored where
  keys := sequence_keys h hdb.keys
  identified := by
    have hdrafts : ∀ op ∈ ops, ∀ id status, op.drafts id status → validateIdentifier id = .ok id := by
      intro op _ id status hdrafts
      cases op with
      | begin_prediction prediction =>
        obtain ⟨rfl, -⟩ := hdrafts
        exact prediction.prediction_id.property
      | _ => exact hdrafts.elim
    have hrelates := identified_law.sequence sha256 hdrafts (fun _ _ _ _ => trivial) db
    rw [h] at hrelates
    exact hrelates hdb.identified

/-- The times of every selected prediction can be expressed in UTC. -/
def Dated (db : Registry) (filters : PredictionListFilters) : Prop :=
  ∀ row ∈ db.predictions, db.Selected filters row → row.Dated

variable {db db' : Registry} {filters : PredictionListFilters} {key : SortKey}

theorem holds_of_key (h : key ∈ db.keys filters) : db.Holds key := by
  obtain ⟨row, hrow, hselected, hkey⟩ := h
  exact ⟨row, hrow, hselected.committed, hkey⟩

/-- There are finitely many keys. -/
theorem finite_keys (db : Registry) (filters : PredictionListFilters) :
    (db.keys filters).Finite := by
  have hfinite := List.finite_toSet (db.predictions.filterMap fun row =>
    (row.committed_at.bind canonicalUtcTimestamp).map fun key => SortKey.mk key row.prediction_id)
  refine hfinite.subset ?_
  rintro ⟨committed_at, prediction_id⟩ ⟨row, hrow, -, hid, hkey⟩
  refine List.mem_filterMap.mpr ⟨row, hrow, ?_⟩
  rw [hkey, Option.map_some]
  exact congrArg (fun id => some (SortKey.mk committed_at id)) hid

end Registry

namespace Listing

variable {S : ReadService} {limit : Nat} {filters : PredictionListFilters} {db db' : Registry}
  {s : Listing} {scan : Scan SortKey}

/-- A committed prediction matches the filters, its strategy by its verified summary. -/
def Matches (S : ReadService) (filters : PredictionListFilters) (db : Registry) (id : Text) : Prop :=
  ∃ row ∈ db.predictions, row.prediction_id = id ∧ db.Selected filters row ∧ Wanted S filters db id

/-- The key of a matching prediction is in the table of the scan, which does not pass it over. -/
theorem Matches.key (hdb : db.Keys) {key : SortKey} (h : Matches S filters db key.prediction_id)
    (hholds : db.Holds key) : key ∈ db.keys filters ∧ key ∉ skips S filters db := by
  obtain ⟨row, hrow, hid, hselected, hwanted⟩ := h
  obtain ⟨row', hrow', -, hkey⟩ := hholds
  have hfound := hdb.prediction?_of_mem hrow
  rw [hid, ← hkey.1, hdb.prediction?_of_mem hrow'] at hfound
  obtain rfl := Option.some.inj hfound
  exact ⟨⟨row', hrow', hselected, hkey⟩, fun hskip => hskip.1 hwanted⟩

/-! ## A registry that stays as it is -/

/-- The client of an unchanged registry ends when every selected prediction is dated. -/
theorem exists_finished (hdb : db.Stored) (hlimit : 1 ≤ limit ∧ limit ≤ 100)
    (hdated : db.Dated filters) (h : View S limit filters db s scan) (hordered : scan.Ordered)
    (hsound : scan.Sound (db.keys filters) (takes S filters db)) (hready : Ready s) :
    ∃ n scan', View S limit filters db ((advance S limit filters db)^[n] s) scan' ∧
      ((advance S limit filters db)^[n] s).phase = .finished ∧
      Relation.ReflTransGen (Scan.Step (db.keys filters) (takes S filters db) (skips S filters db))
        scan scan' := by
  obtain ⟨rows, hrows⟩ : ∃ rows : Finset SortKey, ↑rows = db.keys filters :=
    ⟨(db.finite_keys filters).toFinset, Set.Finite.coe_toFinset _⟩
  rw [← hrows] at hsound ⊢
  obtain ⟨m, hm⟩ : ∃ m : (ℕ ×ₗ ℕ) ×ₗ ℕ, m = toLex (Scan.measure rows scan, s.phase.rank) := ⟨_, rfl⟩
  induction m using WellFoundedLT.induction generalizing s scan with
  | ind m ih =>
    by_cases hfinished : s.phase = .finished
    · exact ⟨0, scan, h, hfinished, .refl⟩
    · have hquiet := advance_quiet hdb.keys hlimit h hready hdated
      obtain ⟨scan', hview, hmoves⟩ := follows_advance hdb hlimit h hfinished hquiet
      rw [← hrows] at hmoves
      have hready' : Ready (advance S limit filters db s) := ready_advance hdb.keys hready hdated
      have hreach : Relation.ReflTransGen (Scan.Step ↑rows (takes S filters db) (skips S filters db))
          scan scan' := by
        rcases hmoves with hsteps | ⟨rfl, -⟩
        · exact hsteps.to_reflTransGen
        · exact .refl
      have hless : toLex (Scan.measure rows scan', (advance S limit filters db s).phase.rank) < m := by
        rw [hm]
        rcases hmoves with hsteps | ⟨rfl, hrank⟩
        · exact Prod.Lex.toLex_lt_toLex.mpr (Or.inl (Scan.measure_reach hordered hsound hsteps))
        · exact Prod.Lex.toLex_lt_toLex.mpr (Or.inr ⟨rfl, hrank⟩)
      obtain ⟨n, scan'', hend, hphase, hrest⟩ := ih _ hless hview (hordered.reach hreach)
        hready' (hsound.reach hreach) rfl
      exact ⟨n + 1, scan'', hend, hphase, hreach.trans hrest⟩

/-! ## A registry that changes -/

/-- What happens between two states of a client: it does its next thing, or a transaction of the
ledger is committed. -/
inductive Event where
  | advance
  | commit (ops : List Registry.Operation)

/-- A client and the transactions of the ledger, in any order. -/
inductive Step (S : ReadService) (limit : Nat) (filters : PredictionListFilters)
    (sha256 : Text → Text) : Registry × Listing → Event → Registry × Listing → Prop
  | advance (db : Registry) (s : Listing) :
      Step S limit filters sha256 (db, s) .advance (db, s.advance S limit filters db)
  | commit (db db' : Registry) (s : Listing) (ops : List Registry.Operation) (u : Unit) :
      (Registry.sequence sha256 ops).run db = (.ok u, db') →
        Step S limit filters sha256 (db, s) (.commit ops) (db', s)

variable {sha256 : Text → Text} {trace : List ((Registry × Listing) × Event)}
  {t : Registry × Listing}

/-- The registry only evolves, and stays as the list relies on it. -/
theorem run_registry (h : Run (Step S limit filters sha256) (db, s) trace t) (hdb : db.Stored) :
    db.Evolves t.1 ∧ t.1.Stored := by
  induction h with
  | nil =>
    exact ⟨.refl db, hdb⟩
  | snoc _ hstep ih =>
    obtain ⟨hevolves, hstored⟩ := ih
    cases hstep with
    | advance => exact ⟨hevolves, hstored⟩
    | commit db1 db2 s1 ops u hrun =>
      exact ⟨hevolves.trans (Registry.sequence_lawful hrun).1, hstored.sequence hrun⟩

/-- An error is the end of a client. -/
theorem advance_raised {e : Error ⊕ ReadCursorError} (h : s.phase = .raised e) :
    advance S limit filters db s = s := by
  obtain ⟨pages, phase⟩ := s
  obtain rfl : phase = .raised e := h
  rfl

theorem advance_finished (h : s.phase = .finished) : advance S limit filters db s = s := by
  obtain ⟨pages, phase⟩ := s
  obtain rfl : phase = .finished := h
  rfl

/-- In every run the client makes one scan. It covers the keys that stay in the table and are never
passed over, and what it takes could be taken. -/
theorem run_view (hlimit : 1 ≤ limit ∧ limit ≤ 100) (hdb : db.Stored)
    (h : Run (Step S limit filters sha256) (db, initial) trace t) {keys table takes' : Set SortKey}
    (hkeys : ∀ x ∈ trace, keys ⊆ x.1.1.keys filters ∧ ∀ key ∈ keys, key ∉ skips S filters x.1.1)
    (htable : ∀ x ∈ trace, x.1.1.keys filters ⊆ table ∧ takes S filters x.1.1 ⊆ takes')
    (hraised : ∀ e, t.2.phase ≠ .raised e) :
    ∃ scan, View S limit filters t.1 t.2 scan ∧ scan.Ordered ∧ scan.Covers keys ∧
      scan.Sound table takes' := by
  induction h with
  | nil =>
    exact ⟨Scan.initial, view_initial S limit filters db, Scan.ordered_initial,
      Scan.covers_initial keys, Scan.sound_initial table takes'⟩
  | @snoc u v trace e hrun hstep ih =>
    have hstored := (run_registry hrun hdb).2
    have hbefore := fun hquiet => ih (fun x hx => hkeys x (List.mem_append_left _ hx))
      (fun x hx => htable x (List.mem_append_left _ hx)) hquiet
    cases hstep with
    | commit db1 db2 s1 ops u hcommit =>
      obtain ⟨scan, hview, hrest⟩ := hbefore hraised
      exact ⟨scan, hview.evolves (Registry.sequence_lawful hcommit).1, hrest⟩
    | advance db1 s1 =>
      have hquiet : ∀ e, s1.phase ≠ .raised e := by
        intro e he
        exact hraised e (by rw [advance_raised he]; exact he)
      obtain ⟨scan, hview, hordered, hcovers, hsound⟩ := hbefore hquiet
      obtain ⟨hin, hkept⟩ := hkeys _ (List.mem_append_right _ (List.mem_singleton_self _))
      obtain ⟨hbound, hallowed⟩ := htable _ (List.mem_append_right _ (List.mem_singleton_self _))
      by_cases hfinished : s1.phase = .finished
      · refine ⟨scan, ?_, hordered, hcovers, hsound⟩
        change View S limit filters db1 (s1.advance S limit filters db1) scan
        rw [advance_finished hfinished]
        exact hview
      · obtain ⟨scan', hview', hmoves⟩ := follows_advance hstored hlimit hview hfinished hraised
        have hreach : Relation.ReflTransGen (Scan.Step (db1.keys filters) (takes S filters db1)
            (skips S filters db1)) scan scan' := by
          rcases hmoves with hsteps | ⟨rfl, -⟩
          · exact hsteps.to_reflTransGen
          · exact .refl
        exact ⟨scan', hview', hordered.reach hreach, hcovers.reach hordered hreach hin hkept,
          hsound.reach_mono hreach hbound hallowed⟩

/-- Before its first query, a client does not know whether every selected prediction has a key. -/
def Unasked (s : Listing) : Prop := s.phase = .call none ∨ s.phase = .batch [] none

/-- Asking raises an error unless every selected prediction has a key. -/
theorem asked_advance (hdb : db.Keys) (hlimit : 1 ≤ limit ∧ limit ≤ 100)
    (hraised : ∀ e, (advance S limit filters db s).phase ≠ .raised e)
    (h : Unasked s) : Unasked (advance S limit filters db s) ∨
      ∀ row ∈ db.predictions, db.Selected filters row → ∃ key, row.HasKey key := by
  obtain ⟨pages, phase⟩ := s
  rcases h with h | h
  · obtain rfl : phase = .call none := h
    left
    have hadvance : advance S limit filters db ⟨pages, .call none⟩ = ⟨pages, .batch [] none⟩ :=
      if_neg (not_not.mpr hlimit)
    rw [hadvance]
    exact Or.inr rfl
  · obtain rfl : phase = .batch [] none := h
    right
    cases hlist : db.listCommittedPredictions (min 100 (max 25 ((limit + 1 - 0) * 2)))
        filters.registration_status filters.status filters.result_state none with
    | error e =>
      refine absurd ?_ (hraised (.inl e))
      simp only [advance, List.length_nil, hlist]
    | ok rows => exact (Registry.listCommittedPredictions_ok hdb hlist).2.2

/-- A client that has asked knows a key of every prediction that was selected throughout. -/
theorem run_asked (hlimit : 1 ≤ limit ∧ limit ≤ 100) (hdb : db.Stored)
    (h : Run (Step S limit filters sha256) (db, initial) trace t) {id : Text}
    (hid : ∀ x ∈ trace, ∃ row ∈ x.1.1.predictions, row.prediction_id = id ∧
      x.1.1.Selected filters row) (hraised : ∀ e, t.2.phase ≠ .raised e) :
    Unasked t.2 ∨ ∃ key, t.1.Holds key ∧ key.prediction_id = id := by
  induction h with
  | nil =>
    exact Or.inl (Or.inl rfl)
  | @snoc u v trace e hrun hstep ih =>
    have hstored := (run_registry hrun hdb).2
    have hbefore := fun hquiet => ih (fun x hx => hid x (List.mem_append_left _ hx)) hquiet
    cases hstep with
    | commit db1 db2 s1 ops u hcommit =>
      rcases hbefore hraised with hunasked | ⟨key, hholds, hkey⟩
      · exact Or.inl hunasked
      · exact Or.inr ⟨key, hholds.evolves (Registry.sequence_lawful hcommit).1, hkey⟩
    | advance db1 s1 =>
      have hquiet : ∀ e, s1.phase ≠ .raised e := by
        intro e he
        exact hraised e (by rw [advance_raised he]; exact he)
      rcases hbefore hquiet with hunasked | hknown
      · rcases asked_advance hstored.keys hlimit hraised hunasked with hunasked | hall
        · exact Or.inl hunasked
        · obtain ⟨row, hrow, hrowId, hselected⟩ :=
            hid _ (List.mem_append_right _ (List.mem_singleton_self _))
          obtain ⟨key, hkey⟩ := hall row hrow hselected
          exact Or.inr ⟨key, ⟨row, hrow, hselected.committed, hkey⟩, hkey.1.symm.trans hrowId⟩
      · exact Or.inr hknown

/-- Nothing is raised in a run through registries with dated predictions. -/
theorem run_quiet (hlimit : 1 ≤ limit ∧ limit ≤ 100) (hdb : db.Stored)
    (h : Run (Step S limit filters sha256) (db, initial) trace t)
    (hdated : ∀ x ∈ trace, x.1.1.Dated filters) :
    Ready t.2 ∧ ∀ e, t.2.phase ≠ .raised e := by
  induction h with
  | nil =>
    exact ⟨ready_initial, fun e he => by cases he⟩
  | @snoc u v trace e hrun hstep ih =>
    have hstored := (run_registry hrun hdb).2
    obtain ⟨hready, hquiet⟩ := ih (fun x hx => hdated x (List.mem_append_left _ hx))
    cases hstep with
    | commit db1 db2 s1 ops u hcommit => exact ⟨hready, hquiet⟩
    | advance db1 s1 =>
      have hnow := hdated _ (List.mem_append_right _ (List.mem_singleton_self _))
      obtain ⟨scan, hview, -⟩ := @run_view S limit filters db sha256 trace _ hlimit hdb hrun
        ∅ Set.univ Set.univ (fun _ _ => ⟨Set.empty_subset _, fun _ hkey => hkey.elim⟩)
        (fun _ _ => ⟨Set.subset_univ _, Set.subset_univ _⟩) hquiet
      exact ⟨ready_advance hstored.keys hready hnow,
        advance_quiet hstored.keys hlimit hview hready hnow⟩

/-! ## The pages -/

/-- The pages of an unchanged registry are the matching predictions, each once and in the order of
the list. -/
def Enumerates (S : ReadService) (limit : Nat) (filters : PredictionListFilters) (db : Registry) :
    Prop :=
  ∃ n, ((advance S limit filters db)^[n] initial).phase = .finished ∧
    ((advance S limit filters db)^[n] initial).ids.Pairwise db.Precedes ∧
    ((advance S limit filters db)^[n] initial).ids.Nodup ∧
    ∀ id, id ∈ ((advance S limit filters db)^[n] initial).ids ↔ Matches S filters db id

/-- What a client does on an unchanged registry is a run. -/
theorem iterate_run (S : ReadService) (limit : Nat) (filters : PredictionListFilters)
    (sha256 : Text → Text) (db : Registry) (n : Nat) :
    ∃ trace, Run (Step S limit filters sha256) (db, initial) trace
        (db, (advance S limit filters db)^[n] initial) ∧ ∀ x ∈ trace, x.1.1 = db := by
  induction n with
  | zero => exact ⟨[], .nil _, fun x hx => by cases hx⟩
  | succ n ih =>
    obtain ⟨trace, hrun, hsame⟩ := ih
    rw [Function.iterate_succ_apply']
    refine ⟨_, hrun.snoc (.advance db _), fun x hx => ?_⟩
    rcases List.mem_append.mp hx with hx | hx
    · exact hsame x hx
    · rw [List.mem_singleton.mp hx]

/-- A client that has finished asked its first query. -/
theorem not_unasked (h : s.phase = .finished) : ¬ Unasked s := by
  rintro (hcall | hbatch)
  · rw [h] at hcall
    cases hcall
  · rw [h] at hbatch
    cases hbatch

/-- A client of an unchanged registry that has finished has the list, and every selected prediction
is dated. -/
theorem finished_exact (hlimit : 1 ≤ limit ∧ limit ≤ 100) (hdb : db.Stored) {n : Nat}
    (h : ((advance S limit filters db)^[n] initial).phase = .finished) :
    db.Dated filters ∧ ((advance S limit filters db)^[n] initial).ids.Pairwise db.Precedes ∧
      ∀ id, id ∈ ((advance S limit filters db)^[n] initial).ids ↔ Matches S filters db id := by
  obtain ⟨trace, hrun, hsame⟩ := iterate_run S limit filters id db n
  have hquiet : ∀ e, ((advance S limit filters db)^[n] initial).phase ≠ .raised e := by
    intro e he
    rw [h] at he
    cases he
  obtain ⟨scan, hview, hordered, hcovers, hsound⟩ :=
    @run_view S limit filters db id trace _ hlimit hdb hrun
      { key | key ∈ db.keys filters ∧ key ∉ skips S filters db } (db.keys filters)
      (takes S filters db)
      (fun x hx => by
        rw [hsame x hx]
        exact ⟨fun key hkey => hkey.1, fun key hkey => hkey.2⟩)
      (fun x hx => by
        rw [hsame x hx]
        exact ⟨subset_rfl, subset_rfl⟩) hquiet
  obtain ⟨hseen, hmore, hids⟩ := hview.finished h
  have htaken : ∀ key ∈ scan.seen, key ∈ takes S filters db := hseen ▸ hsound.taken
  have hall := hcovers.all hmore
  have hkeyed : ∀ row ∈ db.predictions, db.Selected filters row → ∃ key, row.HasKey key ∧
      key.prediction_id = row.prediction_id := by
    intro row hrow hselected
    have hknown := run_asked hlimit hdb hrun (fun x hx => by
      rw [hsame x hx]
      exact ⟨row, hrow, rfl, hselected⟩) hquiet
    obtain ⟨key, ⟨row', hrow', -, hkey⟩, hid⟩ := hknown.resolve_left (not_unasked h)
    have hfound := hdb.keys.prediction?_of_mem hrow
    rw [← hid, ← hkey.1, hdb.keys.prediction?_of_mem hrow'] at hfound
    obtain rfl := Option.some.inj hfound
    exact ⟨key, hkey, hid⟩
  refine ⟨fun row hrow hselected => ?_, hview.precedes hdb.keys hordered, fun prediction_id => ?_⟩
  · obtain ⟨key, hkey, hid⟩ := hkeyed row hrow hselected
    have hshown : key ∈ shown db := by
      by_cases hskip : key ∈ skips S filters db
      · exact hskip.2
      · exact (htaken key (hall key ⟨⟨row, hrow, hselected, hkey⟩, hskip⟩)).2
    obtain ⟨row', hrow', hid', hcreated⟩ := hshown
    have hfound := hdb.keys.prediction?_of_mem hrow
    rw [← hid, ← hid', hdb.keys.prediction?_of_mem hrow'] at hfound
    obtain rfl := Option.some.inj hfound
    exact ⟨⟨key.committed_at, hkey.2⟩, hcreated⟩
  · rw [hids, List.mem_map]
    constructor
    · rintro ⟨key, hkey, rfl⟩
      obtain ⟨row, hrow, hselected, hrowKey⟩ := hsound.seen key hkey
      exact ⟨row, hrow, hrowKey.1, hselected, (htaken key hkey).1⟩
    · intro hmatches
      obtain ⟨row, hrow, hrowId, hselected, hwanted⟩ := hmatches
      obtain ⟨key, hkey, hid⟩ := hkeyed row hrow hselected
      have hkeyId : key.prediction_id = prediction_id := hid.trans hrowId
      refine ⟨key, hall key ?_, hkeyId⟩
      rw [← hkeyId] at hrowId hwanted
      exact Matches.key hdb.keys ⟨row, hrow, hrowId, hselected, hwanted⟩
        ⟨row, hrow, hselected.committed, hkey⟩

/-- In a run through dated registries, a client has what matched throughout when it has finished. -/
theorem run_matches (hlimit : 1 ≤ limit ∧ limit ≤ 100) (hdb : db.Stored)
    (h : Run (Step S limit filters sha256) (db, initial) trace t)
    (hdated : ∀ x ∈ trace, x.1.1.Dated filters) (hfinished : t.2.phase = .finished) {id : Text}
    (hid : ∀ x ∈ trace, Matches S filters x.1.1 id) : id ∈ t.2.ids := by
  have hfirst : ∃ x ∈ trace, x.1 = (db, initial) := by
    rcases h.start_visited with hstart | hvisited
    · rw [← hstart] at hfinished
      cases hfinished
    · exact hvisited
  obtain ⟨x, hx, hstart⟩ := hfirst
  obtain ⟨row, hrow, hrowId, hselected, -⟩ := hid x hx
  obtain ⟨committed_at, hkey⟩ := (hdated x hx row hrow hselected).committed_at
  rw [hstart] at hrow
  have hholds : db.Holds ⟨committed_at, id⟩ := ⟨row, hrow, hselected.committed, hrowId, hkey⟩
  have hthrough : ∀ x ∈ trace, {(⟨committed_at, id⟩ : SortKey)} ⊆ x.1.1.keys filters ∧
      ∀ key ∈ ({⟨committed_at, id⟩} : Set SortKey), key ∉ skips S filters x.1.1 := by
    intro x hx
    obtain ⟨before, after, hbefore, -, -⟩ := h.split_of_mem hx
    obtain ⟨hevolves, hstored⟩ := run_registry hbefore hdb
    obtain ⟨hin, hkept⟩ := @Matches.key S filters x.1.1 hstored.keys ⟨committed_at, id⟩ (hid x hx)
      (hholds.evolves hevolves)
    refine ⟨Set.singleton_subset_iff.mpr hin, fun key hkey => ?_⟩
    rw [Set.mem_singleton_iff.mp hkey]
    exact hkept
  obtain ⟨scan, hview, -, hcovers, -⟩ := @run_view S limit filters db sha256 trace t hlimit hdb h
    _ Set.univ Set.univ hthrough (fun _ _ => ⟨Set.subset_univ _, Set.subset_univ _⟩)
    (run_quiet hlimit hdb h hdated).2
  obtain ⟨-, hmore, hids⟩ := hview.finished hfinished
  rw [hids]
  exact List.mem_map.mpr ⟨_, hcovers.all hmore _ (Set.mem_singleton _), rfl⟩

open Registry (sampleDraft sampleSchemas sampleTime)

/-- The first midnight of the calendar in a zone five hours ahead, which UTC cannot express. -/
def earlyTime : DateTime where
  date := ⟨1, 1, 1, by decide⟩
  hour := 0
  minute := 0
  second := 0
  microsecond := 0
  offset := some ⟨18000000000, by decide⟩
  valid := by decide

/-- A valid draft that was created then. -/
def earlyDraft : PredictionDraft :=
  { sampleDraft with created_at := earlyTime, created_at_aware := by decide }

/-- What the writer does with a draft. -/
def writeOf (draft : PredictionDraft) : List Registry.Operation :=
  match prepareCommitted id sampleSchemas draft none sampleTime with
  | .ok committed =>
    [.begin_prediction committed, .commit_prediction committed.prediction_id committed.committed_at]
  | .error _ => []

/-- The registry after the write of one draft. -/
def writtenOf (draft : PredictionDraft) : Registry :=
  ((Registry.sequence id (writeOf draft)).run Registry.empty).2

/-- A reader whose verifier accepts no record. -/
def sampleReader : ReadService :=
  ⟨CursorCodec.sampleMac, fun _ => none, fun _ _ => .error .record_unverified⟩

/-- Every committed prediction that is not quarantined. -/
def everyPrediction : PredictionListFilters where
  registration_status := none
  status := none
  strategy_id := none
  result_state := none
  normalized := by
    intro s h
    cases h

theorem writes_evaluate :
    ((Registry.sequence id (writeOf sampleDraft)).run Registry.empty).1.isOk = true ∧
      ((Registry.sequence id (writeOf earlyDraft)).run Registry.empty).1.isOk = true := by
  decide +kernel

theorem written_evaluates (draft : PredictionDraft) (h : draft = sampleDraft ∨ draft = earlyDraft) :
    ((writtenOf draft).predictions.all fun row => row.prediction_id == text "pred_1" &&
      (writtenOf draft).selects none none none row && row.created_at == draft.created_at.isoformat &&
      row.committed_at == some sampleTime.isoformat) = true ∧ (writtenOf draft).predictions ≠ [] := by
  rcases h with rfl | rfl <;> decide +kernel

theorem stored_empty : Registry.empty.Stored where
  keys := Registry.keys_empty
  identified _ hrow := by cases hrow

/-- A registry that one draft was written to is as the list relies on it. -/
theorem stored_written {draft : PredictionDraft}
    (h : ((Registry.sequence id (writeOf draft)).run Registry.empty).1.isOk = true) :
    (writtenOf draft).Stored := by
  obtain ⟨_, hreturns⟩ := Program.run_of_isOk h
  exact stored_empty.sequence hreturns

theorem dated_written : (writtenOf sampleDraft).Dated everyPrediction := by
  intro row hrow _
  have hfacts := List.all_eq_true.mp (written_evaluates sampleDraft (.inl rfl)).1 row hrow
  simp only [Bool.and_eq_true, beq_iff_eq] at hfacts
  obtain ⟨⟨-, hcreated⟩, hcommitted⟩ := hfacts
  have hkey : (canonicalUtcTimestamp sampleTime.isoformat).isSome = true := by decide +kernel
  have hshown : (optionalTime (some sampleDraft.created_at.isoformat)).isOk = true := by
    decide +kernel
  constructor
  · rw [hcommitted]
    exact Option.isSome_iff_exists.mp hkey
  · rw [hcreated]
    refine optionalTime_ok.mp ?_
    cases htime : optionalTime (some sampleDraft.created_at.isoformat) with
    | ok time => exact ⟨time, rfl⟩
    | error e =>
      rw [htime] at hshown
      cases hshown

end Listing

end Pine
