import Pine.Ledger.Reading.Listing
import Pine.Ledger.Reading.Legible
import Pine.Ledger.Registry.Statements

/-!
# Pages of the prediction list

Following the cursors of the prediction list is a scan by key of the selected predictions, whose
key orders as the UTC commit instant and the id do. The registry may change before every batch and
every row.
-/

namespace Pine

open Keyset (Below IsBatch Scan)

/-! ## Times -/

/-- A stored time is no aware time that UTC cannot express. -/
def Representable (value : Text) : Prop :=
  ∀ t, DateTime.fromisoformat value = some t → t.isAware = true → t.astimezoneUtc ≠ none

/-- The commit time of a row has a sort key, and both its times can be expressed in UTC. -/
structure PredictionRow.Dated (row : PredictionRow) : Prop where
  committed_at : ∃ key, row.committed_at.bind canonicalUtcTimestamp = some key
  created_at : Representable row.created_at

/-- Only a time that UTC cannot express is an error. -/
theorem optionalTime_ok {value : Text} :
    (∃ time, optionalTime (some value) = .ok time) ↔ Representable value := by
  simp only [optionalTime]
  constructor
  · rintro ⟨time, h⟩ t hread haware hnone
    have hraised : readTime "timestamp" value =
        .error (.overflowError (text "date value out of range")) := by
      simp only [readTime, hread, required, Bind.bind, Except.bind, refuse, haware, hnone,
        Bool.true_eq_false, if_false]
    rw [hraised] at h
    cases h
  · intro h
    cases hread : DateTime.fromisoformat value with
    | none =>
      refine ⟨none, ?_⟩
      simp only [readTime, hread, required, Bind.bind, Except.bind, Error.isIntegrityError, if_true]
    | some t =>
      cases haware : t.isAware with
      | false =>
        refine ⟨none, ?_⟩
        simp only [readTime, hread, required, Bind.bind, Except.bind, refuse, haware, if_true,
          Error.isIntegrityError]
      | true =>
        obtain ⟨utc, hutc⟩ := Option.ne_none_iff_exists'.mp (h t hread haware)
        refine ⟨some utc, ?_⟩
        simp only [readTime, hread, required, Bind.bind, Except.bind, refuse, haware, hutc,
          Bool.true_eq_false, if_false]

theorem canonicalUtcTimestamp_some {value key : Text} (h : canonicalUtcTimestamp value = some key) :
    ∃ t instant, DateTime.fromisoformat value = some t ∧ t.isAware = true ∧
      t.utcInstant = some instant ∧ key = timestamp instant := by
  obtain ⟨t, hread, ht⟩ := Option.bind_eq_some_iff.mp h
  split at ht
  · rename_i haware
    obtain ⟨instant, hinstant, rfl⟩ := Option.map_eq_some_iff.mp ht
    exact ⟨t, instant, hread, haware, hinstant, rfl⟩
  · cases ht

/-- A commit time with a sort key is shown in UTC. -/
theorem optionalTime_of_key {value : Option Text} {key : Text}
    (h : value.bind canonicalUtcTimestamp = some key) : ∃ time, optionalTime value = .ok time := by
  obtain ⟨value, rfl, hvalue⟩ := Option.bind_eq_some_iff.mp h
  obtain ⟨t, instant, hread, -, hinstant, -⟩ := canonicalUtcTimestamp_some hvalue
  refine optionalTime_ok.mpr fun t' hread' _ => ?_
  obtain rfl := Option.some.inj (hread.symm.trans hread')
  exact DateTime.astimezoneUtc_ne_none hinstant

/-! ## The query -/

/-- The clause of the query is the bound of the scan. -/
theorem afterCursor_iff {after : Option SortKey} {key : SortKey} :
    Registry.afterCursor after key = true ↔ Below after key := by
  cases after with
  | none => simp [Registry.afterCursor, Keyset.below_none]
  | some cursor =>
    rw [Keyset.below_some, ← not_le]
    change _ ↔ ¬ SortKey.le cursor key = true
    rw [SortKey.le_iff]
    simp only [Registry.afterCursor, Bool.or_eq_true, Bool.not_eq_true', Bool.and_eq_true,
      beq_iff_eq, not_or, Bool.not_eq_false, not_and, Bool.not_eq_true]
    have htotal := textLe_total key.committed_at cursor.committed_at
    constructor
    · rintro (hless | ⟨heq, hid⟩)
      · refine ⟨htotal.resolve_right (by simp [hless]), fun heq => ?_⟩
        rw [heq, textLe_self] at hless
        cases hless
      · exact ⟨by rw [heq, textLe_self], fun _ => hid⟩
    · rintro ⟨hle, hid⟩
      by_cases hback : textLe cursor.committed_at key.committed_at = true
      · have heq := textLe_antisymm hle hback
        exact Or.inr ⟨heq, hid heq.symm⟩
      · exact Or.inl (Bool.eq_false_iff.mpr hback)

/-- The key that a row has in the list. -/
def PredictionRow.HasKey (row : PredictionRow) (key : SortKey) : Prop :=
  row.prediction_id = key.prediction_id ∧
    row.committed_at.bind canonicalUtcTimestamp = some key.committed_at

theorem PredictionRow.HasKey.unique {row : PredictionRow} {key key' : SortKey}
    (h : row.HasKey key) (h' : row.HasKey key') : key = key' := by
  obtain ⟨committed_at, prediction_id⟩ := key
  obtain ⟨committed_at', prediction_id'⟩ := key'
  obtain rfl : prediction_id = prediction_id' := h.1.symm.trans h'.1
  obtain rfl : committed_at = committed_at' := Option.some.inj (h.2.symm.trans h'.2)
  rfl

namespace Registry

variable {db db' : Registry} {filters : PredictionListFilters}

/-- The clauses that the filters of a list add to the query. -/
def Selected (db : Registry) (filters : PredictionListFilters) (row : PredictionRow) : Prop :=
  db.selects filters.registration_status filters.status filters.result_state row = true

/-- The keys that the query can return. -/
def keys (db : Registry) (filters : PredictionListFilters) : Set SortKey :=
  { key | ∃ row ∈ db.predictions, db.Selected filters row ∧ row.HasKey key }

theorem Selected.committed {row : PredictionRow} (h : db.Selected filters row) :
    row.transaction_state = .committed := by
  unfold Selected selects at h
  rw [Bool.and_assoc, Bool.and_assoc, Bool.and_eq_true, beq_iff_eq] at h
  exact h.1

theorem listedRow_ok {row : PredictionRow} {listed : ListedRow}
    (h : db.listedRow row = .ok listed) : listed.prediction = row ∧ row.HasKey listed.key := by
  obtain ⟨key, hkey, heq⟩ := bind_eq_ok.mp h
  cases heq
  exact ⟨rfl, rfl, required_ok.mp hkey⟩

/-- What a batch of the query holds. -/
theorem listCommittedPredictions_ok (hdb : db.Keys) {n : Nat} {after : Option SortKey}
    {rows : List ListedRow} (h : db.listCommittedPredictions n filters.registration_status
      filters.status filters.result_state after = .ok rows) :
    IsBatch (db.keys filters) after n (rows.map ListedRow.key) ∧
      (∀ row ∈ rows, row.prediction ∈ db.predictions ∧ db.Selected filters row.prediction ∧
        row.prediction.HasKey row.key) ∧
      ∀ row ∈ db.predictions, db.Selected filters row → ∃ key, row.HasKey key := by
  obtain ⟨_, -, h⟩ := bind_eq_ok.mp h
  obtain ⟨listed, hlisted, heq⟩ := bind_eq_ok.mp h
  obtain rfl := Except.ok.inj heq
  have hforall := mapM_eq_ok.mp hlisted
  have hrows : ∀ row ∈ listed, row.prediction ∈ db.predictions ∧
      db.Selected filters row.prediction ∧ row.prediction.HasKey row.key := by
    intro row hrow
    obtain ⟨p, hp, hread⟩ := forall₂_right hforall hrow
    obtain ⟨rfl, hkey⟩ := listedRow_ok hread
    obtain ⟨hmem, hselects⟩ := List.mem_filter.mp hp
    exact ⟨hmem, hselects, hkey⟩
  have hall : ∀ row ∈ db.predictions, db.Selected filters row →
      ∃ found ∈ listed, found.prediction = row ∧ row.HasKey found.key := by
    intro row hrow hselected
    obtain ⟨found, hfound, hread⟩ := forall₂_left hforall (List.mem_filter.mpr ⟨hrow, hselected⟩)
    exact ⟨found, hfound, listedRow_ok hread⟩
  have hnodup : (listed.map ListedRow.key).Nodup := by
    have hpredictions : List.Forall₂ Eq (listed.map ListedRow.prediction) (db.predictions.filter
        (db.selects filters.registration_status filters.status filters.result_state)) := by
      rw [List.forall₂_map_left_iff]
      exact hforall.flip.imp fun _ _ hread => (listedRow_ok hread).1
    rw [List.forall₂_eq_eq_eq] at hpredictions
    have hids : ((db.predictions.filter (db.selects filters.registration_status filters.status
        filters.result_state)).map PredictionRow.prediction_id).Nodup :=
      hdb.predictions.sublist (List.filter_sublist.map _)
    rw [← hpredictions, List.map_map] at hids
    exact List.Nodup.of_map SortKey.prediction_id (by rwa [List.map_map])
  have hperm := List.mergeSort_perm (listed.filter fun row => afterCursor after row.key)
    fun row next => SortKey.le next.key row.key
  refine ⟨?_, fun row hrow => ?_, fun row hrow hselected => ?_⟩
  · rw [List.map_take]
    refine Keyset.isBatch_take n ?_ fun key => ?_
    · have htotal : ∀ a b : ListedRow, (SortKey.le b.key a.key || SortKey.le a.key b.key) = true := by
        intro a b
        rw [Bool.or_eq_true]
        exact SortKey.le_total b.key a.key
      have hsorted := @List.pairwise_mergeSort ListedRow
        (fun row next => SortKey.le next.key row.key)
        (fun a b c hab hbc => SortKey.le_trans hbc hab) htotal
        (listed.filter fun row => afterCursor after row.key)
      have hdistinct := ((hnodup.sublist (List.filter_sublist.map ListedRow.key)).perm
        (hperm.map ListedRow.key).symm)
      rw [List.Nodup, List.pairwise_map] at hdistinct
      rw [List.pairwise_map]
      exact hsorted.imp₂ (fun _ _ hle hne => lt_of_le_of_ne hle hne.symm) hdistinct
    · simp only [List.mem_map, hperm.mem_iff, List.mem_filter, afterCursor_iff]
      constructor
      · rintro ⟨row, ⟨hrow, hbelow⟩, rfl⟩
        exact ⟨⟨row.prediction, hrows row hrow⟩, hbelow⟩
      · rintro ⟨⟨row, hrow, hselected, hkey⟩, hbelow⟩
        obtain ⟨found, hfound, rfl, hfoundKey⟩ := hall row hrow hselected
        obtain rfl := hkey.unique hfoundKey
        exact ⟨found, ⟨hfound, hbelow⟩, rfl⟩
  · exact hrows row (List.mem_filter.mp (hperm.mem_iff.mp (List.mem_of_mem_take hrow))).1
  · obtain ⟨found, -, -, hkey⟩ := hall row hrow hselected
    exact ⟨found.key, hkey⟩

/-- The query returns when every selected row has a key. -/
theorem exists_listCommittedPredictions {n : Nat} (hn : 1 ≤ n ∧ n ≤ 100) (after : Option SortKey)
    (hdated : ∀ row ∈ db.predictions, db.Selected filters row → row.Dated) :
    ∃ rows, db.listCommittedPredictions n filters.registration_status filters.status
      filters.result_state after = .ok rows := by
  have hlisted : ∃ listed, (db.predictions.filter (db.selects filters.registration_status
      filters.status filters.result_state)).mapM db.listedRow = .ok listed := by
    have hall : ∀ row ∈ db.predictions.filter (db.selects filters.registration_status
        filters.status filters.result_state), ∃ listed, db.listedRow row = .ok listed := by
      intro row hrow
      obtain ⟨hmem, hselects⟩ := List.mem_filter.mp hrow
      obtain ⟨key, hkey⟩ := (hdated row hmem hselects).committed_at
      exact ⟨_, bind_eq_ok.mpr ⟨key, required_ok.mpr hkey, rfl⟩⟩
    exact exists_mapM hall
  obtain ⟨listed, hlisted⟩ := hlisted
  exact ⟨_, bind_eq_ok.mpr ⟨(), refuse_ok.mpr (not_not.mpr hn),
    bind_eq_ok.mpr ⟨listed, hlisted, rfl⟩⟩⟩

end Registry

/-! ## Summaries -/

/-- The strategy that the verified evidence of a prediction names. -/
def verifiedStrategy (V : EvidenceVerifier) (db : Registry) (prediction_id : Text) : Option Text :=
  match verifyBundle V db prediction_id with
  | .ok (_, evidence) => some evidence.strategy_id
  | .error _ => none

/-- A row of the query whose prediction the registry still has. -/
structure ListedRow.Current (row : ListedRow) (db : Registry) : Prop where
  evolves : ∃ p ∈ db.predictions, row.prediction.Evolves p
  committed : row.prediction.transaction_state = .committed
  hasKey : row.prediction.HasKey row.key

section Summaries

variable {V : EvidenceVerifier} {db : Registry} {row : ListedRow}

/-- A verified bundle is about the prediction it was asked for. -/
theorem verifyBundle_ok {prediction_id : Text} {prediction : PredictionRow}
    {evidence : VerifiedEvidence} (h : verifyBundle V db prediction_id = .ok (prediction, evidence)) :
    prediction ∈ db.predictions ∧ prediction.prediction_id = prediction_id := by
  unfold verifyBundle at h
  split at h
  · cases h
  · rename_i found hfound
    split at h
    · cases h
    · obtain ⟨_, -, heq⟩ := map_eq_ok.mp h
      cases heq
      exact Registry.prediction?_some hfound

/-- The bundle of a listed row is about what its prediction has become. -/
theorem verifyBundle_evolves (hdb : db.Keys) (hrow : row.Current db) {prediction : PredictionRow}
    {evidence : VerifiedEvidence}
    (h : verifyBundle V db row.prediction.prediction_id = .ok (prediction, evidence)) :
    row.prediction.Evolves prediction := by
  obtain ⟨hmem, hid⟩ := verifyBundle_ok h
  obtain ⟨p, hp, hevolves⟩ := hrow.evolves
  have hfirst := hdb.prediction?_of_mem hmem
  have hsecond := hdb.prediction?_of_mem hp
  rw [hid] at hfirst
  rw [hevolves.prediction_id, hfirst] at hsecond
  obtain rfl := Option.some.inj hsecond
  exact hevolves

theorem failedSummary_ok {reason : IntegrityReason} {found : PredictionSummary}
    (h : failedSummary row reason = .ok found) :
    found.prediction_id = row.prediction.prediction_id ∧ found.strategy_id = none ∧
      Representable row.prediction.created_at := by
  obtain ⟨created_at, hcreated, h⟩ := bind_eq_ok.mp h
  obtain ⟨committed_at, -, heq⟩ := bind_eq_ok.mp h
  cases heq
  exact ⟨rfl, rfl, optionalTime_ok.mp ⟨created_at, hcreated⟩⟩

/-- A summary shows its prediction and the strategy that was verified. -/
theorem summary_ok (hdb : db.Keys) (hrow : row.Current db) {found : PredictionSummary}
    (h : summary V db row = .ok found) :
    found.prediction_id = row.prediction.prediction_id ∧
      found.strategy_id = verifiedStrategy V db row.prediction.prediction_id ∧
      Representable row.prediction.created_at := by
  unfold summary at h
  cases hbundle : verifyBundle V db row.prediction.prediction_id with
  | error reason =>
    rw [hbundle] at h
    obtain ⟨hfound, hstrategy, hcreated⟩ := failedSummary_ok h
    exact ⟨hfound, by rw [hstrategy, verifiedStrategy, hbundle], hcreated⟩
  | ok bundle =>
    obtain ⟨prediction, evidence⟩ := bundle
    rw [hbundle] at h
    obtain ⟨created_at, hcreated, h⟩ := bind_eq_ok.mp h
    obtain ⟨committed_at, -, heq⟩ := bind_eq_ok.mp h
    cases heq
    have hevolves := verifyBundle_evolves hdb hrow hbundle
    refine ⟨hevolves.prediction_id, by rw [verifiedStrategy, hbundle], ?_⟩
    rw [← hevolves.created_at]
    exact optionalTime_ok.mp ⟨created_at, hcreated⟩

/-- A row whose creation time can be expressed in UTC has a summary. -/
theorem exists_summary (hdb : db.Keys) (hrow : row.Current db)
    (hcreated : Representable row.prediction.created_at) :
    ∃ found, summary V db row = .ok found := by
  obtain ⟨created_at, hcreated_at⟩ := optionalTime_ok.mpr hcreated
  obtain ⟨committed_at, hcommitted_at⟩ := optionalTime_of_key hrow.hasKey.2
  unfold summary
  cases hbundle : verifyBundle V db row.prediction.prediction_id with
  | error reason =>
    exact ⟨_, bind_eq_ok.mpr ⟨created_at, hcreated_at,
      bind_eq_ok.mpr ⟨committed_at, hcommitted_at, rfl⟩⟩⟩
  | ok bundle =>
    obtain ⟨prediction, evidence⟩ := bundle
    have hevolves := verifyBundle_evolves hdb hrow hbundle
    obtain ⟨key, hkey, -⟩ := Option.bind_eq_some_iff.mp hrow.hasKey.2
    have hcommit : prediction.committed_at = row.prediction.committed_at := by
      rw [hkey]
      exact hevolves.committed_at key hkey
    rw [← hevolves.created_at] at hcreated_at
    rw [← hcommit] at hcommitted_at
    exact ⟨_, bind_eq_ok.mpr ⟨created_at, hcreated_at,
      bind_eq_ok.mpr ⟨committed_at, hcommitted_at, rfl⟩⟩⟩

end Summaries

/-! ## The scan behind the pages -/

/-- The keys of the registry are distinct, and its predictions are under identifiers. -/
structure Registry.Stored (db : Registry) : Prop where
  keys : db.Keys
  identified : ∀ row ∈ db.predictions, validateIdentifier row.prediction_id = .ok row.prediction_id

/-- A key of a committed prediction. -/
def Registry.Holds (db : Registry) (key : SortKey) : Prop :=
  ∃ row ∈ db.predictions, row.transaction_state = .committed ∧ row.HasKey key

/-- The keys of committed predictions stay. -/
theorem Registry.Holds.evolves {db db' : Registry} {key : SortKey} (h : db.Holds key) (hevolves : db.Evolves db') : db'.Holds key := by
  obtain ⟨row, hrow, hcommitted, hkey⟩ := h
  obtain ⟨row', hrow', hnext⟩ := hevolves.predictions.mem hrow
  obtain ⟨value, hvalue, -⟩ := Option.bind_eq_some_iff.mp hkey.2
  refine ⟨row', hrow', hnext.committed hcommitted, hnext.prediction_id.trans hkey.1, ?_⟩
  rw [hnext.committed_at value hvalue, ← hvalue]
  exact hkey.2

/-- The order of the things that a client does without a step of its scan. -/
def ListPhase.rank : ListPhase → Nat
  | .call _ | .row _ _ _ _ => 2
  | .batch _ _ => 1
  | .finished | .raised _ => 0

namespace Listing

variable (S : ReadService) (limit : Nat) (filters : PredictionListFilters)

/-- The strategy filter matches the verified strategy of a prediction. -/
def Wanted (db : Registry) (prediction_id : Text) : Prop :=
  filters.strategy_id.all (verifiedStrategy S.verifier db prediction_id == some ·) = true

/-- The keys of predictions with a creation time that can be shown. -/
def shown (db : Registry) : Set SortKey :=
  { key | ∃ row ∈ db.predictions, row.prediction_id = key.prediction_id ∧
      Representable row.created_at }

/-- The keys that are taken into a page when their rows are read. -/
def takes (db : Registry) : Set SortKey :=
  { key | Wanted S filters db key.prediction_id ∧ key ∈ shown db }

/-- The keys that are passed over when their rows are read. -/
def skips (db : Registry) : Set SortKey :=
  { key | ¬ Wanted S filters db key.prediction_id ∧ key ∈ shown db }

/-- The matches that a call has found so far are those of the scan. -/
structure Fills (matched : List Match) (scan : Scan SortKey) : Prop where
  taken : scan.matched = matched.map Prod.snd
  short : matched.length ≤ limit
  ids : ∀ m ∈ matched, m.1.prediction_id = m.2.prediction_id

/-- Where the scan stands when a client does. -/
def PhaseView (db : Registry) (ids : List Text) : ListPhase → Scan SortKey → Prop
  | .call none, scan => scan = Scan.initial ∧ ids = []
  | .call (some cursor), scan => ids = scan.given.map SortKey.prediction_id ∧ scan.matched = [] ∧
      scan.pending = [] ∧ scan.more = true ∧ ∃ key, scan.position = some key ∧
        CursorCodec.decode S.mac S.loadsOther cursor filters =
          .ok (key.committed_at, key.prediction_id)
  | .batch matched after, scan => ids = scan.given.map SortKey.prediction_id ∧
      Fills limit matched scan ∧ scan.pending = [] ∧ scan.more = true ∧ scan.position = after
  | .row matched batch_size rows rest, scan => ids = scan.given.map SortKey.prediction_id ∧
      Fills limit matched scan ∧ scan.pending = rest.map ListedRow.key ∧
      scan.more = decide (rows.length = batch_size) ∧ rows.length ≤ batch_size ∧ rows ≠ [] ∧
      scan.position = rows.getLast?.map ListedRow.key ∧ ∀ row ∈ rest, row.Current db
  | .finished, scan => ids = (scan.given ++ scan.matched).map SortKey.prediction_id ∧
      scan.pending = [] ∧ scan.more = false
  | .raised _, _ => False

/-- The scan that a client is making. -/
structure View (db : Registry) (s : Listing) (scan : Scan SortKey) : Prop where
  holds : ∀ key ∈ scan.seen, db.Holds key
  phase : PhaseView S limit filters db (s.items.map PredictionSummary.prediction_id) s.phase scan

theorem view_initial (db : Registry) : View S limit filters db initial Scan.initial where
  holds _ hkey := by cases hkey
  phase := ⟨rfl, rfl⟩

variable {S limit filters} {db db' : Registry} {s : Listing} {scan : Scan SortKey}
  {pages : List PredictionPage}

/-- The scan is about the registry that the other transactions leave. -/
theorem View.evolves (h : View S limit filters db s scan) (hevolves : db.Evolves db') :
    View S limit filters db' s scan where
  holds key hkey := (h.holds key hkey).evolves hevolves
  phase := by
    have hphase := h.phase
    cases hs : s.phase with
    | call cursor =>
      rw [hs] at hphase
      cases cursor <;> exact hphase
    | row matched batch_size rows rest =>
      rw [hs] at hphase
      obtain ⟨hids, hfills, hpending, hmore, hle, hne, hposition, hcurrent⟩ := hphase
      refine ⟨hids, hfills, hpending, hmore, hle, hne, hposition, fun row hrow => ?_⟩
      obtain ⟨p, hp, hfirst⟩ := (hcurrent row hrow).evolves
      obtain ⟨p', hp', hnext⟩ := hevolves.predictions.mem hp
      exact ⟨⟨p', hp', hfirst.trans hnext⟩, (hcurrent row hrow).committed, (hcurrent row hrow).hasKey⟩
    | batch | finished | raised =>
      rw [hs] at hphase
      exact hphase

theorem items_finishPage (pages : List PredictionPage) (matched : List Match) :
    (finishPage S limit filters pages matched).items =
      (⟨pages, s.phase⟩ : Listing).items ++ (matched.take limit).map Prod.fst := by
  simp [items, finishPage]

/-- The summaries of matches are under the ids of their keys. -/
theorem map_ids {matched : List Match} (h : ∀ m ∈ matched, m.1.prediction_id = m.2.prediction_id) :
    (matched.map Prod.fst).map PredictionSummary.prediction_id =
      (matched.map Prod.snd).map SortKey.prediction_id := by
  rw [List.map_map, List.map_map]
  exact List.map_congr_left h

/-- A page without a further match is the last. -/
theorem phase_finishPage {matched : List Match} (h : matched.length ≤ limit) :
    (finishPage S limit filters pages matched).phase = .finished := by
  simp only [finishPage, if_neg (Nat.not_lt.mpr h)]

/-- The last page holds what the scan has taken. -/
theorem view_finished {matched : List Match} (hholds : ∀ key ∈ scan.seen, db.Holds key)
    (hids : s.items.map PredictionSummary.prediction_id = scan.given.map SortKey.prediction_id)
    (hfills : Fills limit matched scan) (hpending : scan.pending = []) (hmore : scan.more = false) :
    View S limit filters db (finishPage S limit filters s.pages matched) scan := by
  refine ⟨hholds, ?_⟩
  rw [phase_finishPage hfills.short, @items_finishPage S limit filters s]
  refine ⟨?_, hpending, hmore⟩
  rw [List.take_of_length_le hfills.short, hfills.taken]
  change (s.items ++ matched.map Prod.fst).map PredictionSummary.prediction_id = _
  rw [List.map_append, hids, map_ids hfills.ids, ← List.map_append]

/-- A page that is cut ends with a cursor to its last prediction. -/
theorem view_cut (hdb : db.Stored) (hlimit : 1 ≤ limit) {matched : List Match}
    (hholds : ∀ key ∈ scan.seen, db.Holds key)
    (hids : s.items.map PredictionSummary.prediction_id = scan.given.map SortKey.prediction_id)
    (htaken : scan.matched = matched.map Prod.snd) (hlength : matched.length = limit + 1)
    (hmatched : ∀ m ∈ matched, m.1.prediction_id = m.2.prediction_id)
    {table takes skips : Set SortKey} :
    ∃ scan', Scan.Step table takes skips scan scan' ∧
      View S limit filters db (finishPage S limit filters s.pages matched) scan' := by
  obtain rfl | ⟨shown, next, rfl⟩ := List.eq_nil_or_concat matched
  · cases hlength
  rw [List.concat_eq_append] at *
  obtain rfl | ⟨page, last, rfl⟩ := List.eq_nil_or_concat shown
  · simp only [List.nil_append, List.length_singleton] at hlength
    omega
  rw [List.concat_eq_append] at *
  have hshort : (page ++ [last]).length = limit := by simpa using hlength
  have htake : (page ++ [last] ++ [next]).take limit = page ++ [last] := by
    rw [← hshort, List.take_left]
  have hmem : last.2 ∈ scan.seen := by
    rw [Scan.seen, htaken]
    simp
  obtain ⟨row, hrow, -, hkey⟩ := hholds last.2 hmem
  obtain ⟨value, -, hvalue⟩ := Option.bind_eq_some_iff.mp hkey.2
  have hid : validateIdentifier last.2.prediction_id = .ok last.2.prediction_id :=
    hkey.1 ▸ hdb.identified row hrow
  have hdecode := CursorCodec.decode_encode S.mac S.loadsOther
    ⟨last.2.committed_at, ⟨last.2.prediction_id, hid⟩, value, hvalue⟩ filters
  have hphase : (finishPage S limit filters s.pages (page ++ [last] ++ [next])).phase =
      .call (some (CursorCodec.encode S.mac last.2.committed_at last.2.prediction_id filters)) := by
    simp only [finishPage, htake, if_pos (show limit < (page ++ [last] ++ [next]).length by omega),
      List.getLast?_append, List.getLast?_singleton, Option.some_or, Option.map_some]
  refine ⟨_, .cut scan (page.map Prod.snd) last.2 next.2 (by rw [htaken]; simp), ?_, ?_⟩
  · intro key hkey
    change key ∈ scan.given ++ (page.map Prod.snd ++ [last.2]) ++ [] ++ [] at hkey
    rw [List.append_nil, List.append_nil] at hkey
    refine hholds key (List.mem_append_left _ ?_)
    rcases List.mem_append.mp hkey with hgiven | hpage
    · exact List.mem_append_left _ hgiven
    · rw [htaken, List.map_append, List.map_append]
      exact List.mem_append_right _ (List.mem_append_left _ hpage)
  · rw [hphase, @items_finishPage S limit filters s, htake]
    refine ⟨?_, rfl, rfl, rfl, last.2, rfl, hdecode⟩
    have hkeys : page.map Prod.snd ++ [last.2] = (page ++ [last]).map Prod.snd := by simp
    have hpage := map_ids fun m hm => hmatched m (List.mem_append_left [next] hm)
    change (s.items ++ (page ++ [last]).map Prod.fst).map PredictionSummary.prediction_id =
      (scan.given ++ (page.map Prod.snd ++ [last.2])).map SortKey.prediction_id
    rw [hkeys, List.map_append, hids, hpage, ← List.map_append]

/-- What a client does next is steps of its scan, or none and it comes nearer to one. -/
def Follows (S : ReadService) (limit : Nat) (filters : PredictionListFilters) (db : Registry)
    (s : Listing) (scan : Scan SortKey) : Prop :=
  ∃ scan', View S limit filters db (advance S limit filters db s) scan' ∧
    (Relation.TransGen (Scan.Step (db.keys filters) (takes S filters db) (skips S filters db))
        scan scan' ∨
      scan' = scan ∧ (advance S limit filters db s).phase.rank < s.phase.rank)

/-- A call starts at its cursor. -/
theorem follows_call (hlimit : 1 ≤ limit ∧ limit ≤ 100) {cursor : Option Text}
    (h : View S limit filters db ⟨pages, .call cursor⟩ scan) :
    Follows S limit filters db ⟨pages, .call cursor⟩ scan := by
  have hfills : Fills limit [] (⟨scan.given, [], [], scan.position, true⟩ : Scan SortKey) :=
    ⟨rfl, Nat.zero_le limit, fun _ hm => by cases hm⟩
  cases cursor with
  | none =>
    have hadvance : advance S limit filters db ⟨pages, .call none⟩ = ⟨pages, .batch [] none⟩ :=
      if_neg (not_not.mpr hlimit)
    obtain ⟨rfl, hids⟩ := h.phase
    refine ⟨Scan.initial, ?_, Or.inr ⟨rfl, ?_⟩⟩
    · rw [hadvance]
      exact ⟨h.holds, hids, hfills, rfl, rfl, rfl⟩
    · rw [hadvance]
      exact Nat.lt_succ_self 1
  | some cursor =>
    obtain ⟨hids, hmatched, hpending, hmore, key, hposition, hdecode⟩ := h.phase
    have hadvance : advance S limit filters db ⟨pages, .call (some cursor)⟩ =
        ⟨pages, .batch [] (some key)⟩ := by
      simp only [advance, if_neg (not_not.mpr hlimit), hdecode]
    refine ⟨scan, ?_, Or.inr ⟨rfl, ?_⟩⟩
    · rw [hadvance]
      exact ⟨h.holds, hids, ⟨hmatched, Nat.zero_le limit, fun _ hm => by cases hm⟩, hpending, hmore,
        hposition⟩
    · rw [hadvance]
      exact Nat.lt_succ_self 1

/-- The head of the loop reads a batch. -/
theorem follows_batch (hdb : db.Stored) {matched : List Match} {after : Option SortKey}
    (h : View S limit filters db ⟨pages, .batch matched after⟩ scan)
    (hraised : ∀ e, (advance S limit filters db ⟨pages, .batch matched after⟩).phase ≠ .raised e) :
    Follows S limit filters db ⟨pages, .batch matched after⟩ scan := by
  obtain ⟨hids, hfills, hpending, hmore, hposition⟩ := h.phase
  obtain ⟨size, hsize⟩ : ∃ size, size = min 100 (max 25 ((limit + 1 - matched.length) * 2)) := ⟨_, rfl⟩
  have hpositive : 0 < size := by omega
  cases hlist : db.listCommittedPredictions size filters.registration_status filters.status
      filters.result_state after with
  | error e =>
    refine absurd ?_ (hraised (.inl e))
    simp only [advance, ← hsize, hlist]
  | ok rows =>
    obtain ⟨hbatch, hrows, -⟩ := Registry.listCommittedPredictions_ok hdb.keys hlist
    have hholds : ∀ key ∈ scan.given ++ scan.matched ++ rows.map ListedRow.key, db.Holds key := by
      intro key hkey
      rcases List.mem_append.mp hkey with hseen | hin
      · exact h.holds key (List.mem_append_left _ hseen)
      · obtain ⟨row, hrow, rfl⟩ := List.mem_map.mp hin
        obtain ⟨hmem, hselected, hkey⟩ := hrows row hrow
        exact ⟨row.prediction, hmem, hselected.committed, hkey⟩
    have hstep := @Scan.Step.fetch _ _ (db.keys filters) (takes S filters db) (skips S filters db)
      scan size (rows.map ListedRow.key) hpositive hpending hmore (hposition ▸ hbatch)
    cases rows with
    | nil =>
      have hadvance : advance S limit filters db ⟨pages, .batch matched after⟩ =
          finishPage S limit filters pages matched := by
        simp only [advance, ← hsize, hlist]
      have hempty : decide (([] : List SortKey).length = size) = false := by
        simpa using hpositive.ne
      refine ⟨_, ?_, Or.inl (.single hstep)⟩
      rw [hadvance]
      exact @view_finished S limit filters db ⟨pages, .batch matched after⟩ _ matched
        hholds hids ⟨hfills.taken, hfills.short, hfills.ids⟩ rfl hempty
    | cons row rest =>
      have hadvance : advance S limit filters db ⟨pages, .batch matched after⟩ =
          ⟨pages, .row matched size (row :: rest) (row :: rest)⟩ := by
        simp only [advance, ← hsize, hlist]
      have hlast : (((row :: rest).map ListedRow.key).getLast?.or scan.position) =
          (row :: rest).getLast?.map ListedRow.key := by
        simp [List.getLast?_cons]
      have hle : (row :: rest).length ≤ size := by
        simpa using hbatch.short
      refine ⟨_, ?_, Or.inl (.single hstep)⟩
      rw [hadvance]
      refine ⟨hholds, hids, ⟨hfills.taken, hfills.short, hfills.ids⟩, rfl, ?_, hle,
        List.cons_ne_nil _ _, hlast, fun found hfound => ?_⟩
      · change decide (((row :: rest).map ListedRow.key).length = size) = _
        rw [List.length_map]
      · obtain ⟨hmem, hselected, hkey⟩ := hrows found hfound
        exact ⟨⟨found.prediction, hmem, .refl _⟩, hselected.committed, hkey⟩

/-- A row of the batch is taken or passed over. -/
theorem follows_row (hdb : db.Stored) (hlimit : 1 ≤ limit) {matched : List Match} {batch_size : Nat}
    {row : ListedRow} {rows rest : List ListedRow}
    (h : View S limit filters db ⟨pages, .row matched batch_size rows (row :: rest)⟩ scan)
    (hraised : ∀ e, (advance S limit filters db
      ⟨pages, .row matched batch_size rows (row :: rest)⟩).phase ≠ .raised e) :
    Follows S limit filters db ⟨pages, .row matched batch_size rows (row :: rest)⟩ scan := by
  obtain ⟨hids, hfills, hpending, hmore, hle, hne, hposition, hcurrent⟩ := h.phase
  have hrow := hcurrent row List.mem_cons_self
  have hrest : ∀ row ∈ rest, row.Current db := fun row hrow => hcurrent row (List.mem_cons_of_mem _ hrow)
  cases hsummary : summary S.verifier db row with
  | error e =>
    refine absurd ?_ (hraised (.inl e))
    simp only [advance, hsummary]
  | ok found =>
    obtain ⟨hid, hstrategy, hcreated⟩ := summary_ok hdb.keys hrow hsummary
    have hshown : row.key ∈ shown db := by
      obtain ⟨p, hp, hevolves⟩ := hrow.evolves
      exact ⟨p, hp, hevolves.prediction_id, by rwa [hevolves.created_at]⟩
    have hfilter : Wanted S filters db row.key.prediction_id ↔
        filters.strategy_id.all (found.strategy_id == some ·) = true := by
      rw [hstrategy]
      rfl
    by_cases hwanted : Wanted S filters db row.key.prediction_id
    · have hmatch := hfilter.mp hwanted
      have hstep := @Scan.Step.take _ _ (db.keys filters) (takes S filters db) (skips S filters db)
        scan row.key (rest.map ListedRow.key) hpending ⟨hwanted, hshown⟩
      have hadvance : advance S limit filters db
          ⟨pages, .row matched batch_size rows (row :: rest)⟩ =
          if limit < (matched ++ [(found, row.key)]).length then
            finishPage S limit filters pages (matched ++ [(found, row.key)])
          else ⟨pages, .row (matched ++ [(found, row.key)]) batch_size rows rest⟩ := by
        simp only [advance, hsummary, if_pos hmatch]
      have hholds : ∀ key ∈ scan.given ++ (scan.matched ++ [row.key]) ++ rest.map ListedRow.key,
          db.Holds key := by
        intro key hkey
        refine h.holds key ?_
        rw [Scan.seen, hpending]
        simpa using hkey
      have htaken : scan.matched ++ [row.key] = (matched ++ [(found, row.key)]).map Prod.snd := by
        rw [hfills.taken, List.map_append, List.map_singleton]
      have hmatched : ∀ m ∈ matched ++ [(found, row.key)], m.1.prediction_id = m.2.prediction_id := by
        intro m hm
        rcases List.mem_append.mp hm with hm | hm
        · exact hfills.ids m hm
        · rw [List.mem_singleton.mp hm]
          exact hid
      have hshort := hfills.short
      by_cases hfull : limit < (matched ++ [(found, row.key)]).length
      · obtain ⟨scan', hcut, hview⟩ := @view_cut S limit filters db
          ⟨pages, .row matched batch_size rows (row :: rest)⟩
          { scan with matched := scan.matched ++ [row.key], pending := rest.map ListedRow.key }
          hdb hlimit _ hholds hids htaken
          (by simp only [List.length_append, List.length_singleton] at hfull ⊢; omega) hmatched
          (db.keys filters) (takes S filters db) (skips S filters db)
        rw [if_pos hfull] at hadvance
        exact ⟨scan', hadvance ▸ hview, Or.inl ((Relation.TransGen.single hstep).tail hcut)⟩
      · rw [if_neg hfull] at hadvance
        refine ⟨_, ?_, Or.inl (.single hstep)⟩
        rw [hadvance]
        exact ⟨hholds, hids, ⟨htaken, Nat.not_lt.mp hfull, hmatched⟩, rfl, hmore, hle, hne,
          hposition, hrest⟩
    · have hmatch := hwanted ∘ hfilter.mpr
      have hstep := @Scan.Step.skip _ _ (db.keys filters) (takes S filters db) (skips S filters db)
        scan row.key (rest.map ListedRow.key) hpending ⟨hwanted, hshown⟩
      have hadvance : advance S limit filters db
          ⟨pages, .row matched batch_size rows (row :: rest)⟩ =
          ⟨pages, .row matched batch_size rows rest⟩ := by
        simp only [advance, hsummary, if_neg hmatch, if_neg (Nat.not_lt.mpr hfills.short)]
      have hholds : ∀ key ∈ scan.given ++ scan.matched ++ rest.map ListedRow.key, db.Holds key := by
        intro key hkey
        refine h.holds key ?_
        rw [Scan.seen, hpending]
        exact ((List.sublist_cons_self row.key _).append_left _).subset hkey
      refine ⟨_, ?_, Or.inl (.single hstep)⟩
      rw [hadvance]
      exact ⟨hholds, hids, ⟨hfills.taken, hfills.short, hfills.ids⟩, rfl, hmore, hle, hne, hposition,
        hrest⟩

/-- The end of a batch goes on to the next, or ends the last page. -/
theorem follows_end {matched : List Match} {batch_size : Nat} {rows : List ListedRow}
    (h : View S limit filters db ⟨pages, .row matched batch_size rows []⟩ scan) :
    Follows S limit filters db ⟨pages, .row matched batch_size rows []⟩ scan := by
  obtain ⟨hids, hfills, hpending, hmore, hle, hne, hposition, -⟩ := h.phase
  have hshort := hfills.short
  have hadvance : advance S limit filters db ⟨pages, .row matched batch_size rows []⟩ =
      if rows.length < batch_size ∨ limit < matched.length then
        finishPage S limit filters pages matched
      else ⟨pages, .batch matched (rows.getLast?.map ListedRow.key)⟩ := by
    simp only [advance]
  by_cases hexhausted : rows.length < batch_size
  · rw [if_pos (Or.inl hexhausted)] at hadvance
    have hover : scan.more = false := by
      rw [hmore, decide_eq_false_iff_not]
      omega
    refine ⟨scan, ?_, Or.inr ⟨rfl, ?_⟩⟩
    · rw [hadvance]
      exact @view_finished S limit filters db ⟨pages, .row matched batch_size rows []⟩ scan matched
        h.holds hids hfills hpending hover
    · rw [hadvance, phase_finishPage hshort]
      exact Nat.two_pos
  · rw [if_neg (by omega)] at hadvance
    have hnext : scan.more = true := by
      rw [hmore, decide_eq_true_eq]
      omega
    refine ⟨scan, ?_, Or.inr ⟨rfl, ?_⟩⟩
    · rw [hadvance]
      exact ⟨h.holds, hids, hfills, hpending, hnext, hposition⟩
    · rw [hadvance]
      exact Nat.lt_succ_self 1

/-- What a client does is what its scan does, unless it is raised. -/
theorem follows_advance (hdb : db.Stored) (hlimit : 1 ≤ limit ∧ limit ≤ 100)
    (h : View S limit filters db s scan) (hfinished : s.phase ≠ .finished)
    (hraised : ∀ e, (advance S limit filters db s).phase ≠ .raised e) :
    Follows S limit filters db s scan := by
  obtain ⟨pages, phase⟩ := s
  cases phase with
  | call cursor => exact follows_call hlimit h
  | batch matched after => exact follows_batch hdb h hraised
  | row matched batch_size rows rest =>
    cases rest with
    | nil => exact follows_end h
    | cons row rest => exact follows_row hdb hlimit.1 h hraised
  | finished => exact absurd rfl hfinished
  | raised e => exact h.phase.elim

/-! ## Errors -/

/-- The creation times of the rows that are left of a batch can be shown. -/
def Ready (s : Listing) : Prop :=
  ∀ matched batch_size rows rest, s.phase = .row matched batch_size rows rest →
    ∀ row ∈ rest, Representable row.prediction.created_at

theorem ready_initial : Ready initial := by
  intro matched batch_size rows rest h
  cases h

/-- No page starts in the middle of a batch. -/
theorem ready_finishPage (matched : List Match) :
    Ready (finishPage S limit filters pages matched) := by
  intro matched' batch_size rows rest h
  unfold finishPage at h
  dsimp only at h
  split at h <;> cases h

/-- A row with a summary ends the page or leaves the rest of the batch. -/
theorem advance_row {matched : List Match} {batch_size : Nat} {row : ListedRow}
    {rows rest : List ListedRow} {found : PredictionSummary}
    (h : summary S.verifier db row = .ok found) :
    ∃ matched', advance S limit filters db ⟨pages, .row matched batch_size rows (row :: rest)⟩ =
      if limit < matched'.length then finishPage S limit filters pages matched'
      else ⟨pages, .row matched' batch_size rows rest⟩ :=
  ⟨_, by simp only [advance, h]; rfl⟩

/-- A batch of dated predictions can be shown. -/
theorem ready_advance (hdb : db.Keys) (hs : Ready s)
    (hdated : ∀ row ∈ db.predictions, db.Selected filters row → row.Dated) :
    Ready (advance S limit filters db s) := by
  obtain ⟨pages, phase⟩ := s
  cases phase with
  | call cursor =>
    intro matched batch_size rows rest h
    unfold advance at h
    dsimp only at h
    split at h
    · cases h
    · split at h
      · cases h
      · split at h <;> cases h
  | batch matched after =>
    unfold advance
    dsimp only
    split
    · intro matched batch_size rows rest h
      cases h
    · exact ready_finishPage matched
    · rename_i rows hrows hlist
      intro matched' batch_size rows' rest h
      cases h
      intro row hrow
      obtain ⟨hmem, hselected, -⟩ := (Registry.listCommittedPredictions_ok hdb hlist).2.1 row hrow
      exact (hdated row.prediction hmem hselected).created_at
  | row matched batch_size rows rest =>
    have hrest := hs matched batch_size rows rest rfl
    cases rest with
    | nil =>
      unfold advance
      dsimp only
      split
      · exact ready_finishPage matched
      · intro matched batch_size rows rest h
        cases h
    | cons row rest =>
      have htail : ∀ row ∈ rest, Representable row.prediction.created_at :=
        fun row hrow => hrest row (List.mem_cons_of_mem _ hrow)
      cases hsummary : summary S.verifier db row with
      | error e =>
        simp only [advance, hsummary]
        intro matched batch_size rows rest h
        cases h
      | ok found =>
        obtain ⟨matched', hadvance⟩ := @advance_row S limit filters db pages matched batch_size row
          rows rest found hsummary
        rw [hadvance]
        split
        · exact ready_finishPage matched'
        · intro matched batch_size rows rest h
          cases h
          exact htail
  | finished | raised => exact hs

/-- Nothing is raised about dated predictions. -/
theorem advance_quiet (hdb : db.Keys) (hlimit : 1 ≤ limit ∧ limit ≤ 100)
    (h : View S limit filters db s scan) (hs : Ready s)
    (hdated : ∀ row ∈ db.predictions, db.Selected filters row → row.Dated) :
    ∀ e, (advance S limit filters db s).phase ≠ .raised e := by
  obtain ⟨pages, phase⟩ := s
  have hpage : ∀ matched e, (finishPage S limit filters pages matched).phase ≠ .raised e := by
    intro matched e heq
    unfold finishPage at heq
    dsimp only at heq
    split at heq <;> cases heq
  intro e heq
  cases phase with
  | call cursor =>
    cases cursor with
    | none =>
      simp only [advance, if_neg (not_not.mpr hlimit)] at heq
      cases heq
    | some cursor =>
      obtain ⟨-, -, -, -, key, -, hdecode⟩ := h.phase
      simp only [advance, if_neg (not_not.mpr hlimit), hdecode] at heq
      cases heq
  | batch matched after =>
    have hsize : 1 ≤ min 100 (max 25 ((limit + 1 - matched.length) * 2)) ∧
        min 100 (max 25 ((limit + 1 - matched.length) * 2)) ≤ 100 := by omega
    obtain ⟨rows, hrows⟩ := Registry.exists_listCommittedPredictions hsize after hdated
    simp only [advance, hrows] at heq
    cases rows with
    | nil => exact hpage matched e heq
    | cons row rest => cases heq
  | row matched batch_size rows rest =>
    cases rest with
    | nil =>
      simp only [advance] at heq
      split at heq
      · exact hpage matched e heq
      · cases heq
    | cons row rest =>
      obtain ⟨-, -, -, -, -, -, -, hcurrent⟩ := h.phase
      obtain ⟨found, hfound⟩ := exists_summary (V := S.verifier) hdb (hcurrent row List.mem_cons_self)
        (hs matched batch_size rows (row :: rest) rfl row List.mem_cons_self)
      obtain ⟨matched', hadvance⟩ := @advance_row S limit filters db pages matched batch_size row
        rows rest found hfound
      rw [hadvance] at heq
      split at heq
      · exact hpage matched' e heq
      · cases heq
  | finished => cases heq
  | raised => exact h.phase

/-! ## Order -/

/-- The ids of the predictions that a client has. -/
def ids (s : Listing) : List Text := s.items.map PredictionSummary.prediction_id

end Listing

namespace Registry

/-- The UTC instant at which a prediction was committed. -/
def commitInstant (db : Registry) (prediction_id : Text) : Option Int :=
  (db.prediction? prediction_id).bind fun row => row.committed_at.bind storedInstant

/-- The order of the list: later commits first, and larger ids first at one instant. -/
def Precedes (db : Registry) (a b : Text) : Prop :=
  ∃ i j, db.commitInstant a = some i ∧ db.commitInstant b = some j ∧
    (j < i ∨ j = i ∧ textLe b a = true ∧ b ≠ a)

variable {db db' : Registry} {key key' : SortKey}

theorem Holds.instant (hdb : db.Keys) (h : db.Holds key) :
    ∃ i, db.commitInstant key.prediction_id = some i ∧ DateTime.InCalendar i ∧
      key.committed_at = timestamp i := by
  obtain ⟨row, hrow, -, hid, hkey⟩ := h
  obtain ⟨value, hvalue, hcanonical⟩ := Option.bind_eq_some_iff.mp hkey
  obtain ⟨t, i, hread, haware, hinstant, hstamp⟩ := canonicalUtcTimestamp_some hcanonical
  have htime : t.instant = i := by
    unfold DateTime.utcInstant at hinstant
    split at hinstant
    · exact Option.some.inj hinstant
    · cases hinstant
  refine ⟨i, ?_, DateTime.utcInstant_some hinstant, hstamp⟩
  rw [commitInstant, ← hid, hdb.prediction?_of_mem hrow, Option.bind_some, hvalue, Option.bind_some,
    storedInstant, hread, Option.bind_some, if_pos haware, htime]

/-- Keys descend as the predictions do in the list. -/
theorem Holds.precedes (hdb : db.Keys) (h : db.Holds key) (h' : db.Holds key') (hless : key' < key) :
    db.Precedes key.prediction_id key'.prediction_id := by
  obtain ⟨i, hi, hcalendar, hstamp⟩ := h.instant hdb
  obtain ⟨j, hj, hcalendar', hstamp'⟩ := h'.instant hdb
  have hnot : ¬ SortKey.le key key' = true := not_le.mpr hless
  rw [SortKey.le_iff, not_or, Bool.not_eq_false, hstamp, hstamp',
    timestamp_le_iff hcalendar' hcalendar] at hnot
  obtain ⟨hle, hids⟩ := hnot
  refine ⟨i, j, hi, hj, ?_⟩
  by_cases heq : j = i
  · have hnotLe : ¬ textLe key.prediction_id key'.prediction_id = true :=
      fun hle => hids ⟨by rw [heq], hle⟩
    have htotal := textLe_total key.prediction_id key'.prediction_id
    refine Or.inr ⟨heq, htotal.resolve_left hnotLe, fun hsame => ?_⟩
    rw [hsame] at hnotLe
    exact hnotLe (textLe_self _)
  · exact Or.inl (lt_of_le_of_ne hle heq)

/-- A prediction does not precede itself. -/
theorem Precedes.ne {a b : Text} (h : db.Precedes a b) : a ≠ b := by
  rintro rfl
  obtain ⟨i, j, hi, hj, hless | ⟨-, -, hne⟩⟩ := h
  · rw [Option.some.inj (hi.symm.trans hj)] at hless
    exact lt_irrefl j hless
  · exact hne rfl

end Registry

namespace Listing

variable {S : ReadService} {limit : Nat} {filters : PredictionListFilters} {db db' : Registry}
  {s : Listing} {scan : Scan SortKey}

/-- What a client has is what its scan has given out. -/
theorem View.ids (h : View S limit filters db s scan) :
    ∃ keys : List SortKey, keys.Sublist scan.seen ∧ s.ids = keys.map SortKey.prediction_id := by
  have hgiven : scan.given.Sublist scan.seen :=
    (List.sublist_append_left _ _).trans (List.sublist_append_left _ _)
  have hphase := h.phase
  cases hs : s.phase with
  | call cursor =>
    rw [hs] at hphase
    cases cursor with
    | none => exact ⟨[], List.nil_sublist _, hphase.2⟩
    | some cursor => exact ⟨scan.given, hgiven, hphase.1⟩
  | batch =>
    rw [hs] at hphase
    exact ⟨scan.given, hgiven, hphase.1⟩
  | row =>
    rw [hs] at hphase
    exact ⟨scan.given, hgiven, hphase.1⟩
  | finished =>
    rw [hs] at hphase
    exact ⟨scan.given ++ scan.matched, List.sublist_append_left _ _, hphase.1⟩
  | raised =>
    rw [hs] at hphase
    exact hphase.elim

/-- What a client has is in the order of the list. -/
theorem View.precedes (hdb : db.Keys) (h : View S limit filters db s scan)
    (hordered : scan.Ordered) : s.ids.Pairwise db.Precedes := by
  obtain ⟨keys, hkeys, hids⟩ := h.ids
  rw [hids, List.pairwise_map]
  refine (hordered.descending.sublist hkeys).imp_of_mem fun hkey hkey' hless => ?_
  exact Registry.Holds.precedes hdb (h.holds _ (hkeys.subset hkey)) (h.holds _ (hkeys.subset hkey'))
    hless

/-- A client that has finished has what its scan took. -/
theorem View.finished (h : View S limit filters db s scan) (hs : s.phase = .finished) :
    scan.seen = scan.given ++ scan.matched ∧ scan.more = false ∧
      s.ids = scan.seen.map SortKey.prediction_id := by
  have hphase := h.phase
  rw [hs] at hphase
  obtain ⟨hids, hpending, hmore⟩ := hphase
  have hseen : scan.seen = scan.given ++ scan.matched := by
    rw [Scan.seen, hpending, List.append_nil]
  exact ⟨hseen, hmore, by rw [hseen]; exact hids⟩

end Listing

end Pine
