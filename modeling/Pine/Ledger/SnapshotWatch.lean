import Pine.Core.Text
import Pine.Ledger.Watcher

/-!
# Changes of a snapshot file

Two threads of the watcher tell of a snapshot: the observer, by its callbacks, and the
reconciliation, which lists the directory, then reads which files are known, and submits
the differences. A listing that is older than what is known of the file counts as a
deletion, and that is the only way to a false report.
-/

namespace Pine

/-- Every reason for which the watcher reports a path below the ledger directory. -/
inductive ManagedPathReason where
  | schema_changed
  | snapshot_rewritten
  | snapshot_deleted
  | unregistered_snapshot
  | registry_removed
  | registry_replaced
  | unmanaged_ledger_path
  deriving DecidableEq

/-- The value of a reason. -/
def ManagedPathReason.value : ManagedPathReason → Text
  | .schema_changed => text "schema_changed"
  | .snapshot_rewritten => text "snapshot_rewritten"
  | .snapshot_deleted => text "snapshot_deleted"
  | .unregistered_snapshot => text "unregistered_snapshot"
  | .registry_removed => text "registry_removed"
  | .registry_replaced => text "registry_replaced"
  | .unmanaged_ledger_path => text "unmanaged_ledger_path"

/-- `_SNAPSHOT_REASONS` -/
def snapshotReasons : List ManagedPathReason := [.snapshot_rewritten, .snapshot_deleted]

/-- `_dispatch_snapshot`: what is known of the file afterwards, and what is reported. The path holds
this file when it is looked at, and it is the registered one or not. -/
def dispatchSnapshot (file known : Option Fingerprint) (registered : Bool) (change : FileChangeKind) :
    Option Fingerprint × Option ManagedPathReason :=
  if change = .deleted then (known, some .snapshot_deleted)
  else if change = .modified ∨ change = .replaced then (known, some .snapshot_rewritten)
  else if file = none then (none, none)
  else (known, if registered then none else some .unregistered_snapshot)

/-- What `reconcile` submits for a file, from its listing and what was known. -/
def difference (current previous : Option Fingerprint) : Option FileChangeKind :=
  if current = none then (if previous.isSome then some .deleted else none)
  else if previous = current then none
  else some (if previous = none then .created else .modified)

theorem difference_none (previous : Option Fingerprint) :
    difference none previous = if previous.isSome then some .deleted else none := rfl

/-- A call of `_submit_path`: before it reads the file, before it takes the lock on the known files,
and before it submits the accepted change. -/
inductive SubmitCall where
  | entered (change : FileChangeKind)
  | stat (change : FileChangeKind) (fingerprint : Option Fingerprint)
  | accepted (change : FileChangeKind)

/-- Where the reconciliation thread stands. -/
inductive ReconcilePass where
  | idle
  | scanned (current : Option Fingerprint)
  | submitting (call : SubmitCall)

/-- A snapshot file, and what the watcher keeps for it. -/
structure SnapshotWatch where
  file : Option Fingerprint
  known : Option Fingerprint
  pass : ReconcilePass
  /-- The calls of the observer that are in flight. -/
  callbacks : List SubmitCall
  debouncer : Debouncer FileChangeKind
  reported : List ManagedPathReason

/-- What happens to a snapshot file and its watcher. -/
inductive SnapshotEvent where
  | write (file : Option Fingerprint)
  | callback (change : FileChangeKind)
  | scan
  | compare
  | advance (call : SubmitCall)
  | fire
  | dispatch (change : FileChangeKind) (registered : Bool)
  | stop (flush : Bool)

/-- What of it the debouncer sees. -/
def SnapshotEvent.debounced : SnapshotEvent → Option (Debouncer.Event FileChangeKind)
  | .advance (.accepted change) => some (.submit change)
  | .fire => some .fire
  | .dispatch change _ => some (.dispatch change)
  | .stop flush => some (.close flush)
  | _ => none

namespace SnapshotWatch

open Debouncer (windows dispatched submitted coalesce)

/-- The watcher after `seed_baseline`. -/
def initial (file : Option Fingerprint) : SnapshotWatch := ⟨file, file, .idle, [], .initial, []⟩

/-- A step of a call, and what is left of the call. -/
def advance (s : SnapshotWatch) : SubmitCall → SnapshotWatch × Option SubmitCall
  | .entered change => (s, some (.stat change s.file))
  | .stat change fingerprint =>
    ({ s with known := (normalizeChange s.known fingerprint change).2 },
      (normalizeChange s.known fingerprint change).1.map .accepted)
  | .accepted change =>
    ({ s with debouncer := { s.debouncer with
        pending := some (s.debouncer.pending.elim change (mergePathEvents · change)) } }, none)

/-- The file is written, callbacks arrive, a pass goes on, calls advance, and windows are settled and
dispatched, in any order. Both threads have ended before the debouncer is closed. -/
inductive Step : SnapshotWatch → SnapshotEvent → SnapshotWatch → Prop
  | write (s : SnapshotWatch) (file : Option Fingerprint) : Step s (.write file) { s with file }
  | callback (s : SnapshotWatch) (change : FileChangeKind) : s.debouncer.closed = false →
      change ≠ .replaced →
      Step s (.callback change) { s with callbacks := s.callbacks ++ [.entered change] }
  | scan (s : SnapshotWatch) : s.debouncer.closed = false → s.pass = .idle →
      Step s .scan { s with pass := .scanned s.file }
  | compare (s : SnapshotWatch) (current : Option Fingerprint) : s.pass = .scanned current →
      Step s .compare { s with
        pass := (difference current s.known).elim .idle fun change => .submitting (.entered change) }
  | deliver (s : SnapshotWatch) (call : SubmitCall) (before after : List SubmitCall) :
      s.callbacks = before ++ call :: after →
      Step s (.advance call) { (s.advance call).1 with
        callbacks := before ++ (s.advance call).2.toList ++ after }
  | reconcile (s : SnapshotWatch) (call : SubmitCall) : s.pass = .submitting call →
      Step s (.advance call) { (s.advance call).1 with
        pass := (s.advance call).2.elim .idle .submitting }
  | fire (s : SnapshotWatch) : s.debouncer.closed = false →
      Step s .fire { s with debouncer := { s.debouncer with
        pending := none, settled := s.debouncer.settled ++ s.debouncer.pending.toList } }
  | dispatch (s : SnapshotWatch) (change : FileChangeKind) (registered : Bool)
      (before after : List FileChangeKind) : s.debouncer.settled = before ++ change :: after →
      Step s (.dispatch change registered) { s with
        known := (dispatchSnapshot s.file s.known registered change).1
        debouncer := { s.debouncer with settled := before ++ after }
        reported := s.reported ++ (dispatchSnapshot s.file s.known registered change).2.toList }
  | stop (s : SnapshotWatch) (flush : Bool) : s.debouncer.closed = false → s.pass = .idle →
      s.callbacks = [] →
      Step s (.stop flush) { s with debouncer :=
        ⟨none, s.debouncer.settled ++ (if flush then s.debouncer.pending.toList else []), true⟩ }

variable {s t : SnapshotWatch} {file : Option Fingerprint}
  {trace : List (SnapshotWatch × SnapshotEvent)}

/-- What the debouncer sees of a run. -/
def changes (trace : List (SnapshotWatch × SnapshotEvent)) : List (Debouncer.Event FileChangeKind) :=
  trace.filterMap fun x => x.2.debounced

theorem changes_snoc (trace : List (SnapshotWatch × SnapshotEvent)) (x : SnapshotWatch × SnapshotEvent) :
    changes (trace ++ [x]) = changes trace ++ x.2.debounced.toList := by
  rw [changes, List.filterMap_append, List.filterMap_cons, List.filterMap_nil]
  cases x.2.debounced <;> rfl

/-! ## The debouncer of a run -/

/-- No call is in flight any more. -/
def Ended (s : SnapshotWatch) : Prop := s.pass = .idle ∧ s.callbacks = []

/-- Calls are in flight only while the debouncer is open. -/
theorem ended_of_closed (h : Run Step (initial file) trace s) :
    s.debouncer.closed = true → s.Ended := by
  refine h.invariant (fun s => s.debouncer.closed = true → s.Ended) ?_ (fun hclosed => by cases hclosed)
  intro s event t hs hstep hclosed
  cases hstep with
  | write file => exact hs hclosed
  | callback change hopen _ => exact absurd (hopen.symm.trans hclosed) (by decide)
  | scan hopen _ => exact absurd (hopen.symm.trans hclosed) (by decide)
  | compare current hpass =>
    exact absurd (hpass.symm.trans (hs hclosed).1) (fun h => by cases h)
  | deliver call before after hcall =>
    have hbefore : s.debouncer.closed = true := by cases call <;> exact hclosed
    exact absurd (hcall.symm.trans (hs hbefore).2) (by simp)
  | reconcile call hpass =>
    have hbefore : s.debouncer.closed = true := by cases call <;> exact hclosed
    exact absurd (hpass.symm.trans (hs hbefore).1) (fun h => by cases h)
  | fire hopen => exact absurd (hopen.symm.trans hclosed) (by decide)
  | dispatch change registered before after _ => exact hs hclosed
  | stop flush _ hpass hcallbacks => exact ⟨hpass, hcallbacks⟩

/-- A call that is in flight finds the debouncer open. -/
theorem open_of_call (h : Run Step (initial file) trace s) (hcall : ¬ s.Ended) :
    s.debouncer.closed = false := by
  cases hclosed : s.debouncer.closed with
  | false => rfl
  | true => exact absurd (ended_of_closed h hclosed) hcall

/-- The debouncer of a watcher takes the steps of a debouncer. -/
theorem run_debouncer (h : Run Step (initial file) trace t) :
    ∃ steps, Run (Debouncer.Step mergePathEvents) .initial steps t.debouncer ∧
      steps.map Prod.snd = changes trace := by
  induction h with
  | nil => exact ⟨[], .nil _, rfl⟩
  | @snoc s t trace event hbefore hstep ih =>
    obtain ⟨steps, hsteps, hchanges⟩ := ih
    have hadvance : ∀ (call : SubmitCall), ¬ s.Ended →
        ∃ steps, Run (Debouncer.Step mergePathEvents) .initial steps (s.advance call).1.debouncer ∧
          steps.map Prod.snd = changes (trace ++ [(s, .advance call)]) := by
      intro call hcall
      rw [changes_snoc]
      cases call with
      | entered change => exact ⟨steps, hsteps, by simp [SnapshotEvent.debounced, hchanges]⟩
      | stat change fingerprint => exact ⟨steps, hsteps, by simp [SnapshotEvent.debounced, hchanges]⟩
      | accepted change =>
        exact ⟨_, hsteps.snoc (.submit _ change (open_of_call hbefore hcall)),
          by simp [SnapshotEvent.debounced, hchanges]⟩
    cases hstep with
    | deliver call before after hcall =>
      exact hadvance call fun hended => by simp [hended.2] at hcall
    | reconcile call hpass =>
      exact hadvance call fun hended => by simp [hended.1] at hpass
    | fire hopen =>
      exact ⟨_, hsteps.snoc (.fire _ hopen), by
        simp [changes_snoc, SnapshotEvent.debounced, hchanges]⟩
    | dispatch change registered before after hsettled =>
      exact ⟨_, hsteps.snoc (.dispatch _ change before after hsettled), by
        simp [changes_snoc, SnapshotEvent.debounced, hchanges]⟩
    | stop flush hopen _ _ =>
      exact ⟨_, hsteps.snoc (.close _ flush hopen), by
        simp [changes_snoc, SnapshotEvent.debounced, hchanges]⟩
    | write file => exact ⟨steps, hsteps, by simp [changes_snoc, SnapshotEvent.debounced, hchanges]⟩
    | callback change _ _ =>
      exact ⟨steps, hsteps, by simp [changes_snoc, SnapshotEvent.debounced, hchanges]⟩
    | scan _ _ => exact ⟨steps, hsteps, by simp [changes_snoc, SnapshotEvent.debounced, hchanges]⟩
    | compare current _ =>
      exact ⟨steps, hsteps, by simp [changes_snoc, SnapshotEvent.debounced, hchanges]⟩

/-- A change that tells of a deletion or of new contents. -/
def Alarming (change : FileChangeKind) : Prop :=
  change = .deleted ∨ change = .modified ∨ change = .replaced

/-- The reports of a deleted or rewritten snapshot. -/
def Alarmed (s : SnapshotWatch) : Prop :=
  .snapshot_deleted ∈ s.reported ∨ .snapshot_rewritten ∈ s.reported

theorem dispatchSnapshot_alarming (file known : Option Fingerprint) (registered : Bool)
    (change : FileChangeKind) : ((dispatchSnapshot file known registered change).2 = some .snapshot_deleted ∨
      (dispatchSnapshot file known registered change).2 = some .snapshot_rewritten) ↔
        Alarming change := by
  cases change <;> cases file <;> cases registered <;> simp [dispatchSnapshot, Alarming]

/-- A snapshot is reported for the changes that are dispatched, whatever else happens. -/
theorem alarmed_iff_dispatched (h : Run Step (initial file) trace t) :
    t.Alarmed ↔ ∃ change ∈ dispatched (changes trace), Alarming change := by
  induction h with
  | nil => simp [Alarmed, initial, changes, dispatched]
  | @snoc s t trace event _ hstep ih =>
    rw [changes_snoc, Debouncer.dispatched_append]
    have hquiet : s.Alarmed ↔ ∃ change ∈ dispatched (changes trace) ++ [], Alarming change := by
      rw [List.append_nil]
      exact ih
    cases hstep with
    | write file => exact hquiet
    | callback change _ _ => exact hquiet
    | scan _ _ => exact hquiet
    | compare current _ => exact hquiet
    | deliver call before after _ => cases call <;> exact hquiet
    | reconcile call _ => cases call <;> exact hquiet
    | fire _ => exact hquiet
    | stop flush _ _ _ => exact hquiet
    | dispatch change registered before after _ =>
      have hone : dispatched (SnapshotEvent.dispatch change registered).debounced.toList =
        [change] := rfl
      have halarm := dispatchSnapshot_alarming s.file s.known registered change
      simp only [Alarmed, List.mem_append, Option.mem_toList] at ih ⊢
      rw [or_or_or_comm, ih, halarm, hone]
      simp [or_and_right, exists_or]

/-! ## A snapshot that stays -/

/-- The file is published once and kept, callbacks come after that, and a watcher that stops flushes. -/
def Kept (s : SnapshotWatch) : SnapshotEvent → Prop
  | .write file => s.file = none ∧ file ≠ none
  | .callback change => s.file ≠ none ∧ change ≠ .deleted
  | .stop flush => flush = true
  | _ => True

/-- A pass whose listing lacks the file finds it among the known ones. -/
def Stale (s : SnapshotWatch) (event : SnapshotEvent) : Prop :=
  event = .compare ∧ s.pass = .scanned none ∧ s.known ≠ none

/-- A call that can only tell of a file that is there. -/
def Harmless (file : Option Fingerprint) : SubmitCall → Prop
  | .entered change => file ≠ none ∧ change ≠ .deleted
  | .stat change fingerprint => file ≠ none ∧ change ≠ .deleted ∧ fingerprint = file
  | .accepted change => file ≠ none ∧ (change = .created ∨ change = .moved)

/-- A stale pass has submitted its deletion, or there was none. -/
def Over (stale : Prop) (deletions : Nat) : Prop := deletions ≤ 1 ∧ (stale ↔ deletions = 1)

/-- Where the reconciliation stands: before the publication, on the way from a stale pass to its
deletion, or after that. -/
inductive Phase (file known : Option Fingerprint) (stale : Prop) (deletions : Nat) :
    ReconcilePass → Prop
  | idle : Over stale deletions → Phase file known stale deletions .idle
  | missed : deletions = 0 → ¬ stale → Phase file known stale deletions (.scanned none)
  | listed : file ≠ none → Over stale deletions → Phase file known stale deletions (.scanned file)
  | harmless (call : SubmitCall) : Harmless file call → Over stale deletions →
      Phase file known stale deletions (.submitting call)
  | entered : file ≠ none → known = file → deletions = 0 → stale →
      Phase file known stale deletions (.submitting (.entered .deleted))
  | stat (fingerprint : Option Fingerprint) : file ≠ none → known = file → deletions = 0 → stale →
      Phase file known stale deletions (.submitting (.stat .deleted fingerprint))
  | accepted : file ≠ none → deletions = 0 → stale →
      Phase file known stale deletions (.submitting (.accepted .deleted))

/-- The state of a watcher after these changes of a file that was kept. -/
structure Intact (s : SnapshotWatch) (stale : Prop) (changes : List FileChangeKind) : Prop where
  known : s.known = none ∨ s.known = s.file
  callbacks : ∀ call ∈ s.callbacks, Harmless s.file call
  phase : Phase s.file s.known stale (changes.count .deleted) s.pass
  unpublished : s.file = none →
    (s.pass = .idle ∨ s.pass = .scanned none) ∧ changes.count .deleted = 0 ∧ ¬ stale
  changes : ∀ change ∈ changes, change = .created ∨ change = .moved ∨ change = .deleted

/-- What is accepted from a harmless call. -/
theorem normalizeChange_harmless {file known : Option Fingerprint} {change : FileChangeKind}
    (hfile : file ≠ none) (hknown : known = none ∨ known = file) (hchange : change ≠ .deleted) :
    (normalizeChange known file change).2 = file ∧
      ∀ accepted, (normalizeChange known file change).1 = some accepted →
        accepted = .created ∨ accepted = .moved := by
  unfold normalizeChange
  rw [if_neg (not_or.mpr ⟨hchange, hfile⟩)]
  rcases hknown with rfl | rfl
  · rw [if_neg (Ne.symm hfile), if_pos rfl]
    refine ⟨rfl, fun accepted haccepted => ?_⟩
    split at haccepted
    · rename_i hmoved
      cases haccepted
      exact Or.inr hmoved
    · cases haccepted
      exact Or.inl rfl
  · rw [if_pos rfl]
    exact ⟨rfl, fun _ haccepted => by cases haccepted⟩

theorem Phase.known {file known known' : Option Fingerprint} {stale : Prop} {deletions : Nat}
    {pass : ReconcilePass} (h : Phase file known stale deletions pass)
    (hknown : file ≠ none → known' = known ∨ known' = file) :
    Phase file known' stale deletions pass := by
  have hsame : file ≠ none → known = file → known' = file := by
    intro hfile hfound
    rcases hknown hfile with h | h
    · exact h.trans hfound
    · exact h
  cases h with
  | idle hover => exact .idle hover
  | missed hnone hstale => exact .missed hnone hstale
  | listed hfile hover => exact .listed hfile hover
  | harmless call hcall hover => exact .harmless call hcall hover
  | entered hfile hfound hnone hstale => exact .entered hfile (hsame hfile hfound) hnone hstale
  | stat fingerprint hfile hfound hnone hstale =>
    exact .stat fingerprint hfile (hsame hfile hfound) hnone hstale
  | accepted hfile hnone hstale => exact .accepted hfile hnone hstale

/-- What is left of a harmless call is harmless, what is known of the file is what was known or the
file itself, and what is submitted is no deletion. -/
theorem Harmless.advance {stale : Prop} {changes : List FileChangeKind} (hs : s.Intact stale changes)
    {call : SubmitCall} (hcall : Harmless s.file call) :
    ((s.advance call).1.known = s.known ∨ (s.advance call).1.known = s.file) ∧
      (∀ rest, (s.advance call).2 = some rest → Harmless s.file rest) ∧
      ∀ change ∈ submitted (SnapshotEvent.advance call).debounced.toList,
        change = .created ∨ change = .moved := by
  have hsilent : ∀ change ∈ submitted ([] : List (Debouncer.Event FileChangeKind)),
      change = .created ∨ change = .moved := fun change hchange => by cases hchange
  cases call with
  | entered change =>
    refine ⟨Or.inl rfl, fun rest hrest => ?_, hsilent⟩
    cases hrest
    exact ⟨hcall.1, hcall.2, rfl⟩
  | stat change fingerprint =>
    obtain ⟨hfile, hchange, rfl⟩ := hcall
    obtain ⟨hknown, haccepted⟩ := normalizeChange_harmless hfile hs.known hchange
    refine ⟨Or.inr hknown, fun rest hrest => ?_, hsilent⟩
    obtain ⟨accepted, hsome, rfl⟩ := Option.map_eq_some_iff.mp hrest
    exact ⟨hfile, haccepted accepted hsome⟩
  | accepted change =>
    refine ⟨Or.inl rfl, fun rest hrest => ?_, fun other hother => ?_⟩
    · cases hrest
    · rw [List.mem_singleton.mp hother]
      exact hcall.2

/-- What happens adds nothing to count. -/
theorem Intact.silent {stale : Prop} {changes : List FileChangeKind} {event : SnapshotEvent}
    (ht : t.Intact stale changes) (hstale : ¬ Stale s event)
    (hsilent : submitted event.debounced.toList = []) :
    t.Intact (stale ∨ Stale s event) (changes ++ submitted event.debounced.toList) := by
  rw [hsilent, List.append_nil, or_iff_left hstale]
  exact ht

/-- Calls that are harmless submit no deletion. -/
theorem count_harmless {changes added : List FileChangeKind}
    (hadded : ∀ change ∈ added, change = FileChangeKind.created ∨ change = .moved) :
    (changes ++ added).count .deleted = changes.count .deleted := by
  rw [List.count_append, Nat.add_eq_left]
  refine List.count_eq_zero.mpr fun hmem => ?_
  rcases hadded _ hmem with h | h <;> cases h

/-- Every step of a run in which the file is kept leaves the watcher intact. -/
theorem Intact.step {stale : Prop} {changes : List FileChangeKind} {event : SnapshotEvent}
    (hs : s.Intact stale changes) (hkept : Kept s event) (hstep : Step s event t) :
    t.Intact (stale ∨ Stale s event) (changes ++ submitted event.debounced.toList) := by
  have hcompare : event ≠ .compare → ¬ Stale s event := fun hne hstale => hne hstale.1
  cases hstep with
  | write file =>
    obtain ⟨hfile, hpublished⟩ := hkept
    obtain ⟨hpass, hnone, hstale⟩ := hs.unpublished hfile
    have hover : Over stale (changes.count .deleted) := by
      refine ⟨by omega, fun h => absurd h hstale, fun h => ?_⟩
      omega
    refine Intact.silent ⟨Or.inl ?_, fun call hcall => ?_, ?_, fun h => absurd h hpublished, hs.changes⟩
      (hcompare (by simp)) rfl
    · exact hs.known.elim (fun h => h) fun h => h.trans hfile
    · have hharmless := hs.callbacks call hcall
      cases call <;> exact absurd hfile hharmless.1
    · rcases hpass with hpass | hpass
      · rw [hpass]
        exact .idle hover
      · rw [hpass]
        exact .missed hnone hstale
  | callback change _ _ =>
    refine Intact.silent ⟨hs.known, fun call hcall => ?_, hs.phase, hs.unpublished, hs.changes⟩
      (hcompare (by simp)) rfl
    rcases List.mem_append.mp hcall with hcall | hnew
    · exact hs.callbacks call hcall
    · rw [List.mem_singleton.mp hnew]
      exact hkept
  | scan _ hpass =>
    have hphase := hs.phase
    rw [hpass] at hphase
    refine Intact.silent ⟨hs.known, hs.callbacks, ?_, fun h => ⟨Or.inr (by rw [h]),
      (hs.unpublished h).2⟩, hs.changes⟩ (hcompare (by simp)) rfl
    by_cases hfile : s.file = none
    · rw [hfile]
      exact .missed (hs.unpublished hfile).2.1 (hs.unpublished hfile).2.2
    · cases hphase with
      | idle hover => exact .listed hfile hover
  | compare current hpass =>
    have hphase := hs.phase
    rw [hpass] at hphase
    rw [show submitted SnapshotEvent.compare.debounced.toList = [] from rfl, List.append_nil]
    cases hphase with
    | missed hnone hstale =>
      by_cases hknown : s.known = none
      · rw [or_iff_left fun h : Stale s .compare => h.2.2 hknown]
        refine ⟨hs.known, hs.callbacks, ?_, fun h => ⟨Or.inl ?_, (hs.unpublished h).2⟩, hs.changes⟩
        · rw [difference_none, hknown]
          exact .idle ⟨by omega, fun h => absurd h hstale, fun h => by omega⟩
        · rw [difference_none, hknown]
          rfl
      · have hfile := hs.known.resolve_left hknown
        refine ⟨hs.known, hs.callbacks, ?_, fun h => absurd (hfile.trans h) hknown, hs.changes⟩
        rw [difference_none, if_pos (Option.isSome_iff_ne_none.mpr hknown)]
        exact .entered (hfile ▸ hknown) hfile hnone (Or.inr ⟨rfl, hpass, hknown⟩)
    | listed hfile hover =>
      have hnew : ¬ Stale s .compare := by
        rintro ⟨-, hscanned, -⟩
        rw [hpass] at hscanned
        exact hfile (ReconcilePass.scanned.inj hscanned)
      rw [or_iff_left hnew]
      refine ⟨hs.known, hs.callbacks, ?_, fun h => absurd h hfile, hs.changes⟩
      rcases hs.known with hknown | hknown
      · rw [difference, if_neg hfile, hknown, if_neg (Ne.symm hfile), if_pos rfl]
        exact .harmless _ ⟨hfile, by simp⟩ hover
      · rw [difference, if_neg hfile, hknown, if_pos rfl]
        exact .idle hover
  | deliver call before after hcall =>
    have hmem : ∀ other, other ∈ before ∨ other ∈ after → Harmless s.file other := by
      intro other hother
      refine hs.callbacks other ?_
      rw [hcall, List.mem_append, List.mem_cons]
      exact hother.imp_right Or.inr
    have hharmless : Harmless s.file call := by
      refine hs.callbacks call ?_
      rw [hcall]
      exact List.mem_append_right _ List.mem_cons_self
    obtain ⟨hknown, hrest, hadded⟩ := hharmless.advance hs
    have hfile : (s.advance call).1.file = s.file := by cases call <;> rfl
    have hpass : (s.advance call).1.pass = s.pass := by cases call <;> rfl
    rw [or_iff_left (hcompare (by simp))]
    refine ⟨?_, fun other hother => ?_, ?_, fun h => ?_, fun change hchange => ?_⟩
    · rw [hfile]
      rcases hknown with h | h
      · exact hs.known.imp (fun h' => h.trans h') fun h' => h.trans h'
      · exact Or.inr h
    · rw [hfile]
      rcases List.mem_append.mp hother with hother | hother
      · rcases List.mem_append.mp hother with hother | hother
        · exact hmem other (Or.inl hother)
        · exact hrest other (Option.mem_toList.mp hother)
      · exact hmem other (Or.inr hother)
    · rw [count_harmless hadded, hfile, hpass]
      exact hs.phase.known fun _ => hknown
    · rw [hfile] at h
      cases call <;> exact absurd h hharmless.1
    · rcases List.mem_append.mp hchange with hchange | hchange
      · exact hs.changes change hchange
      · exact (hadded change hchange).imp_right Or.inl
  | reconcile call hpass =>
    have hphase := hs.phase
    rw [hpass] at hphase
    rw [or_iff_left (hcompare (by simp))]
    cases hphase with
    | harmless call hharmless hover =>
      obtain ⟨hknown, hrest, hadded⟩ := hharmless.advance hs
      have hfile : (s.advance call).1.file = s.file := by cases call <;> rfl
      have hcallbacks : (s.advance call).1.callbacks = s.callbacks := by cases call <;> rfl
      refine ⟨?_, ?_, ?_, fun h => ?_, fun change hchange => ?_⟩
      · rw [hfile]
        rcases hknown with h | h
        · exact hs.known.imp (fun h' => h.trans h') fun h' => h.trans h'
        · exact Or.inr h
      · rw [hfile, hcallbacks]
        exact hs.callbacks
      · rw [count_harmless hadded, hfile]
        cases hleft : (s.advance call).2 with
        | none => exact .idle hover
        | some rest => exact .harmless rest (hrest rest hleft) hover
      · rw [hfile] at h
        cases call <;> exact absurd h hharmless.1
      · rcases List.mem_append.mp hchange with hchange | hchange
        · exact hs.changes change hchange
        · exact (hadded change hchange).imp_right Or.inl
    | entered hfile hknown hnone hstale =>
      rw [show submitted (SnapshotEvent.advance (.entered .deleted)).debounced.toList = [] from rfl,
        List.append_nil]
      exact ⟨hs.known, hs.callbacks, .stat _ hfile hknown hnone hstale, fun h => absurd h hfile,
        hs.changes⟩
    | stat fingerprint hfile hknown hnone hstale =>
      have haccepted : normalizeChange s.known fingerprint .deleted = (some .deleted, none) := by
        rw [normalizeChange, if_pos (Or.inl rfl), if_pos]
        exact Option.isSome_iff_ne_none.mpr (hknown ▸ hfile)
      rw [show submitted (SnapshotEvent.advance (.stat .deleted fingerprint)).debounced.toList = []
        from rfl, List.append_nil]
      simp only [advance, haccepted, Option.map_some, Option.elim_some]
      exact ⟨Or.inl rfl, hs.callbacks, .accepted hfile hnone hstale, fun h => absurd h hfile,
        hs.changes⟩
    | accepted hfile hnone hstale =>
      refine ⟨hs.known, hs.callbacks, .idle ?_, fun h => absurd h hfile, fun change hchange => ?_⟩
      · have hcount : (changes ++ submitted (SnapshotEvent.advance
            (.accepted .deleted)).debounced.toList).count .deleted = 1 := by
          rw [List.count_append, hnone]
          rfl
        exact ⟨hcount.le, fun _ => hcount, fun _ => hstale⟩
      · rcases List.mem_append.mp hchange with hchange | hchange
        · exact hs.changes change hchange
        · exact Or.inr (Or.inr (List.mem_singleton.mp hchange))
  | fire _ =>
    exact Intact.silent ⟨hs.known, hs.callbacks, hs.phase, hs.unpublished, hs.changes⟩
      (hcompare (by simp)) rfl
  | dispatch change registered before after _ =>
    have hknown : (dispatchSnapshot s.file s.known registered change).1 = s.known ∨
        ((dispatchSnapshot s.file s.known registered change).1 = none ∧ s.file = none) := by
      unfold dispatchSnapshot
      split
      · exact Or.inl rfl
      · split
        · exact Or.inl rfl
        · split
          · rename_i hfile
            exact Or.inr ⟨rfl, hfile⟩
          · exact Or.inl rfl
    refine Intact.silent ⟨?_, hs.callbacks, hs.phase.known fun hfile =>
      Or.inl (hknown.resolve_right fun h => hfile h.2), hs.unpublished, hs.changes⟩ (hcompare (by simp)) rfl
    rcases hknown with h | ⟨h, -⟩
    · exact hs.known.imp (fun h' => h.trans h') fun h' => h.trans h'
    · exact Or.inl h
  | stop flush _ _ _ =>
    exact Intact.silent ⟨hs.known, hs.callbacks, hs.phase, hs.unpublished, hs.changes⟩
      (hcompare (by simp)) rfl

/-- A run in which the file is kept leaves the watcher intact. -/
theorem intact_of_run (h : Run Step (initial file) trace t) (hkept : ∀ x ∈ trace, Kept x.1 x.2) :
    t.Intact (∃ x ∈ trace, Stale x.1 x.2) (submitted (changes trace)) := by
  induction h with
  | nil =>
    refine ⟨Or.inr rfl, fun call hcall => ?_, .idle ⟨Nat.zero_le _, ?_⟩, fun _ => ⟨Or.inl rfl, rfl, ?_⟩,
      fun change hchange => ?_⟩
    · cases hcall
    · simp [changes, submitted]
    · simp
    · cases hchange
  | @snoc s t trace event _ hstep ih =>
    have hs := (ih fun x hx => hkept x (List.mem_append_left _ hx)).step
      (hkept (s, event) (by simp)) hstep
    have hstale : (∃ x ∈ trace ++ [(s, event)], Stale x.1 x.2) ↔
        (∃ x ∈ trace, Stale x.1 x.2) ∨ Stale s event := by
      simp [or_and_right, exists_or]
    rw [changes_snoc, Debouncer.submitted_append, hstale]
    exact hs

/-! ## False reports -/

/-- No call is in flight, no window is open, and all windows were dispatched. -/
def Quiet (s : SnapshotWatch) : Prop :=
  s.Ended ∧ s.debouncer.pending = none ∧ s.debouncer.settled = []

/-- The windows of the file that were settled. -/
def settledWindows (trace : List (SnapshotWatch × SnapshotEvent)) : List (List FileChangeKind) :=
  (windows [] (changes trace)).settled

/-- What is dispatched are the merged windows, once all of them were. -/
theorem mem_dispatched (h : Run Step (initial file) trace t) (hquiet : t.Quiet)
    (change : FileChangeKind) : change ∈ dispatched (changes trace) ↔
      ∃ w ∈ settledWindows trace, coalesce mergePathEvents w = some change := by
  obtain ⟨steps, hsteps, hchanges⟩ := run_debouncer h
  obtain ⟨hperm, -⟩ := Debouncer.conserved hsteps [] rfl
  rw [hquiet.2.2, List.nil_append, hchanges] at hperm
  rw [hperm.mem_iff]
  exact List.mem_filterMap

/-- Once all windows were settled, they hold what was submitted, if nothing was thrown away. -/
theorem flatten_settledWindows (h : Run Step (initial file) trace t)
    (hkept : ∀ x ∈ trace, Kept x.1 x.2) (hquiet : t.Quiet) :
    (settledWindows trace).flatten = submitted (changes trace) := by
  have hflush : Debouncer.Event.close false ∉ changes trace := by
    intro hmem
    obtain ⟨x, hx, hevent⟩ := List.mem_filterMap.mp hmem
    have hkeep := hkept x hx
    revert hevent hkeep
    cases x.2 with
    | stop flush =>
      intro hevent hflush
      obtain rfl : flush = true := hflush
      cases hevent
    | advance call => cases call <;> simp [SnapshotEvent.debounced]
    | _ => simp [SnapshotEvent.debounced]
  obtain ⟨steps, hsteps, hchanges⟩ := run_debouncer h
  obtain ⟨-, hpending⟩ := Debouncer.conserved hsteps [] rfl
  rw [hquiet.2.1, hchanges] at hpending
  have hflatten := Debouncer.windows_flatten [] (changes trace) hflush
  rwa [Debouncer.coalesce_eq_none.mp hpending.symm, List.append_nil, List.nil_append] at hflatten

/-- A merged window is one of its changes, or it follows from a creation or a deletion. -/
theorem coalesce_mem {w : List FileChangeKind} {change : FileChangeKind}
    (h : coalesce mergePathEvents w = some change) :
    change ∈ w ∨ change = .created ∨ change = .replaced := by
  rcases List.eq_nil_or_concat' w with rfl | ⟨start, last, rfl⟩
  · cases h
  · rw [Debouncer.coalesce_snoc, Option.some.injEq] at h
    have hlast : last ∈ start ++ [last] := List.mem_append_right _ (List.mem_singleton_self last)
    cases hstart : coalesce mergePathEvents start with
    | none =>
      rw [hstart] at h
      exact Or.inl (h ▸ hlast)
    | some previous =>
      rw [hstart] at h
      simp only [Option.elim_some, mergePathEvents] at h
      split at h
      · rename_i hdeleted
        exact Or.inl (h ▸ hdeleted ▸ hlast)
      · split at h
        · exact Or.inr (Or.inr h.symm)
        · split at h
          · exact Or.inr (Or.inl h.symm)
          · exact Or.inl (h ▸ hlast)

/-- What occurs once in some lists occurs in one of them. -/
theorem eq_of_count_flatten {w v : List FileChangeKind} {ws : List (List FileChangeKind)}
    {change : FileChangeKind} (hcount : ws.flatten.count change ≤ 1) (hw : w ∈ ws) (hv : v ∈ ws)
    (hmemw : change ∈ w) (hmemv : change ∈ v) : w = v := by
  have hpos : ∀ {u : List FileChangeKind} {us : List (List FileChangeKind)}, u ∈ us → change ∈ u →
      1 ≤ us.flatten.count change := by
    intro u us hu hmem
    exact List.one_le_count_iff.mpr (List.mem_flatten.mpr ⟨u, hu, hmem⟩)
  induction ws with
  | nil => cases hw
  | cons first rest ih =>
    rw [List.flatten_cons, List.count_append] at hcount
    rcases List.mem_cons.mp hw with rfl | hw' <;> rcases List.mem_cons.mp hv with rfl | hv'
    · rfl
    · have := List.one_le_count_iff.mpr hmemw
      have := hpos hv' hmemv
      omega
    · have := List.one_le_count_iff.mpr hmemv
      have := hpos hw' hmemw
      omega
    · exact ih (by omega) hw' hv'

theorem mem_of_justDeleted {w : List FileChangeKind} (h : RegistryWatch.JustDeleted w) :
    FileChangeKind.deleted ∈ w := by
  rcases h with h | h
  · exact List.mem_of_getLast? h
  · exact (List.dropLast_sublist w).subset (List.mem_of_getLast? h)

/-- An alarm is raised for a window that ends with a deletion, or with one more change. -/
theorem alarmed_iff_window (h : Run Step (initial file) trace t)
    (hkept : ∀ x ∈ trace, Kept x.1 x.2) (hquiet : t.Quiet) :
    t.Alarmed ↔ ∃ w ∈ settledWindows trace, RegistryWatch.JustDeleted w := by
  have hchanges := (intact_of_run h hkept).changes
  have hmem : ∀ w ∈ settledWindows trace, ∀ change ∈ w,
      change = .created ∨ change = .moved ∨ change = .deleted := by
    intro w hw change hchange
    refine hchanges change ?_
    rw [← flatten_settledWindows h hkept hquiet]
    exact List.mem_flatten.mpr ⟨w, hw, hchange⟩
  have hraw : ∀ w ∈ settledWindows trace, FileChangeKind.replaced ∉ w := by
    intro w hw hreplaced
    rcases hmem w hw _ hreplaced with heq | heq | heq <;> cases heq
  rw [alarmed_iff_dispatched h]
  constructor
  · rintro ⟨change, hdispatched, halarming⟩
    obtain ⟨w, hw, hcoalesce⟩ := (mem_dispatched h hquiet change).mp hdispatched
    refine ⟨w, hw, (RegistryWatch.coalesce_justDeleted (hraw w hw)).mp ?_⟩
    rcases halarming with rfl | rfl | rfl
    · exact Or.inl hcoalesce
    · rcases coalesce_mem hcoalesce with hmodified | hother | hother
      · rcases hmem w hw _ hmodified with heq | heq | heq <;> cases heq
      · cases hother
      · cases hother
    · exact Or.inr hcoalesce
  · rintro ⟨w, hw, hdeleted⟩
    rcases (RegistryWatch.coalesce_justDeleted (hraw w hw)).mpr hdeleted with hcoalesce | hcoalesce
    · exact ⟨_, (mem_dispatched h hquiet _).mpr ⟨w, hw, hcoalesce⟩, Or.inl rfl⟩
    · exact ⟨_, (mem_dispatched h hquiet _).mpr ⟨w, hw, hcoalesce⟩, Or.inr (Or.inr rfl)⟩

/-- However passes, callbacks and windows interleave, a snapshot that is published and kept is
reported as deleted or rewritten exactly when some pass was stale, with a listing from before the
publication and a look at the known files from after it, unless more than one change came after the
deletion within its window. -/
theorem false_report_iff (h : Run Step (initial file) trace t) (hkept : ∀ x ∈ trace, Kept x.1 x.2)
    (hquiet : t.Quiet) : t.Alarmed ↔ (∃ x ∈ trace, Stale x.1 x.2) ∧
      ∀ w ∈ settledWindows trace, .deleted ∈ w → RegistryWatch.JustDeleted w := by
  have hover : Over (∃ x ∈ trace, Stale x.1 x.2) ((settledWindows trace).flatten.count .deleted) := by
    have hphase := (intact_of_run h hkept).phase
    rw [hquiet.1.1] at hphase
    rw [flatten_settledWindows h hkept hquiet]
    cases hphase with
    | idle hover => exact hover
  rw [alarmed_iff_window h hkept hquiet]
  constructor
  · rintro ⟨w, hw, hdeleted⟩
    have hmem := mem_of_justDeleted hdeleted
    have hpos : 1 ≤ (settledWindows trace).flatten.count .deleted :=
      List.one_le_count_iff.mpr (List.mem_flatten.mpr ⟨w, hw, hmem⟩)
    refine ⟨hover.2.mpr (le_antisymm hover.1 hpos), fun v hv hother => ?_⟩
    exact eq_of_count_flatten hover.1 hw hv hmem hother ▸ hdeleted
  · rintro ⟨hstale, hwindows⟩
    have hone := hover.2.mp hstale
    obtain ⟨w, hw, hmem⟩ := List.mem_flatten.mp (List.one_le_count_iff.mp hone.ge)
    exact ⟨w, hw, hwindows w hw hmem⟩

/-! ## A stale pass -/

/-- The fingerprint of a sample file. -/
def sampleFile : Option Fingerprint := some (1, 2, 3)

/-- A watcher whose open window holds one merged change, or none. -/
def sampleState (file known : Option Fingerprint) (pass : ReconcilePass) (callbacks : List SubmitCall)
    (pending : Option FileChangeKind) : SnapshotWatch :=
  ⟨file, known, pass, callbacks, ⟨pending, [], false⟩, []⟩

/-- A pass lists the directory, the file is published, a callback makes it known, and then the pass
goes on. -/
def staleTrace : List (SnapshotWatch × SnapshotEvent) :=
  [(initial none, .scan),
    (sampleState none none (.scanned none) [] none, .write sampleFile),
    (sampleState sampleFile none (.scanned none) [] none, .callback .created),
    (sampleState sampleFile none (.scanned none) [.entered .created] none,
      .advance (.entered .created)),
    (sampleState sampleFile none (.scanned none) [.stat .created sampleFile] none,
      .advance (.stat .created sampleFile)),
    (sampleState sampleFile sampleFile (.scanned none) [.accepted .created] none,
      .advance (.accepted .created)),
    (sampleState sampleFile sampleFile (.scanned none) [] (some .created), .compare),
    (sampleState sampleFile sampleFile (.submitting (.entered .deleted)) [] (some .created),
      .advance (.entered .deleted)),
    (sampleState sampleFile sampleFile (.submitting (.stat .deleted sampleFile)) [] (some .created),
      .advance (.stat .deleted sampleFile)),
    (sampleState sampleFile none (.submitting (.accepted .deleted)) [] (some .created),
      .advance (.accepted .deleted)),
    (sampleState sampleFile none .idle [] (some .deleted), .fire),
    (⟨sampleFile, none, .idle, [], ⟨none, [.deleted], false⟩, []⟩, .dispatch .deleted true)]

/-- The watcher after that. -/
def staleWatch : SnapshotWatch := ⟨sampleFile, none, .idle, [], .initial, [.snapshot_deleted]⟩

theorem stale_run : Run Step (initial none) staleTrace staleWatch :=
  .cons (.scan _ rfl rfl) (.cons (.write _ sampleFile) (.cons (.callback _ .created rfl (by simp))
    (.cons (.deliver _ _ [] [] rfl) (.cons (.deliver _ _ [] [] rfl) (.cons (.deliver _ _ [] [] rfl)
    (.cons (.compare _ none rfl) (.cons (.reconcile _ _ rfl) (.cons (.reconcile _ _ rfl)
    (.cons (.reconcile _ _ rfl) (.cons (.fire _ rfl)
      (.single (.dispatch _ .deleted true [] [] rfl))))))))))))

theorem stale_kept : ∀ x ∈ staleTrace, Kept x.1 x.2 := by
  have hfile : sampleFile ≠ none := by simp [sampleFile]
  simp [staleTrace, Kept, initial, sampleState, hfile]

/-- The file that is there is reported as deleted. -/
theorem false_report_iff_sample : staleWatch.file ≠ none ∧ staleWatch.Alarmed := by
  refine ⟨by simp [staleWatch, sampleFile],
    (false_report_iff stale_run stale_kept ⟨⟨rfl, rfl⟩, rfl, rfl⟩).mpr ⟨?_, ?_⟩⟩
  · exact ⟨(sampleState sampleFile sampleFile (.scanned none) [] (some .created), .compare),
      by simp [staleTrace], rfl, rfl, by simp [sampleState, sampleFile]⟩
  · intro w hw _
    obtain rfl := List.mem_singleton.mp (show w ∈ [[.created, .deleted]] from hw)
    exact Or.inl rfl

end SnapshotWatch

end Pine
