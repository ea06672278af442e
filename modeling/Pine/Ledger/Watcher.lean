import Pine.Core.Debounce
import Mathlib.Data.List.DropRight
import Mathlib.Tactic.Common

/-!
# Changes of the registry file

The watcher coalesces the changes of a path within a debounce window and then reports a
registry that was removed or replaced. Merging keeps a deletion as the last change, and
as the change before the last one; a window in which more follows reports nothing.
-/

namespace Pine

/-- `FileChangeKind` -/
inductive FileChangeKind where
  | created
  | modified
  | moved
  | deleted
  | replaced
  deriving DecidableEq

/-- The reasons for which a change of the registry file is reported. -/
inductive ManagedViolationReason where
  | registry_removed
  | registry_replaced
  deriving DecidableEq

/-- What identifies the contents of a file: inode, size and modification time. -/
abbrev Fingerprint := Nat × Nat × Nat

/-- `_normalize_change`: the accepted change, and what is known of the file afterwards. -/
def normalizeChange (previous fingerprint : Option Fingerprint) (change : FileChangeKind) :
    Option FileChangeKind × Option Fingerprint :=
  if change = .deleted ∨ fingerprint = none then
    (if previous.isSome then some .deleted else none, none)
  else if previous = fingerprint then (none, previous)
  else if previous = none then
    (some (if change = .moved then change else .created), fingerprint)
  else (some .modified, fingerprint)

/-- `_merge_path_events` of one path -/
def mergePathEvents (previous current : FileChangeKind) : FileChangeKind :=
  if current = .deleted then .deleted
  else if previous = .deleted then .replaced
  else if previous = .created then .created
  else current

/-- `_dispatch_registry`: whether the registry is removed from now on, and what is reported. -/
def dispatchRegistry (removed : Bool) (change : FileChangeKind) :
    Bool × Option ManagedViolationReason :=
  if change = .deleted then (true, some .registry_removed)
  else if change = .replaced then (false, some .registry_replaced)
  else if change = .created ∧ removed = true then (false, some .registry_replaced)
  else (removed, none)

/-- No change is normalized to a replacement. -/
theorem normalizeChange_ne_replaced (previous fingerprint : Option Fingerprint)
    (change : FileChangeKind) : (normalizeChange previous fingerprint change).1 ≠ some .replaced := by
  unfold normalizeChange
  split
  · split <;> simp
  · split
    · simp
    · split
      · split
        · rename_i hmoved
          simp [hmoved]
        · simp
      · simp

/-- What the watcher keeps for the registry file. -/
structure RegistryWatch where
  debouncer : Debouncer FileChangeKind
  registry_was_removed : Bool
  reported : List ManagedViolationReason

namespace RegistryWatch

open Debouncer (windows dispatched coalesce)

/-- The watcher before any change. -/
def initial : RegistryWatch := ⟨.initial, false, []⟩

/-- The handler is run for a dispatched change. -/
def handle (s : RegistryWatch) : Debouncer.Event FileChangeKind → RegistryWatch
  | .dispatch change =>
    { s with
      registry_was_removed := (dispatchRegistry s.registry_was_removed change).1
      reported := s.reported ++ (dispatchRegistry s.registry_was_removed change).2.toList }
  | _ => s

/-- Normalized changes of the registry file are submitted, and windows are settled and dispatched, in
any order and by any threads. -/
inductive Step : RegistryWatch → Debouncer.Event FileChangeKind → RegistryWatch → Prop
  | step (s : RegistryWatch) (event : Debouncer.Event FileChangeKind) (d : Debouncer FileChangeKind) :
      event ≠ .submit .replaced → Debouncer.Step mergePathEvents s.debouncer event d →
      Step s event { s.handle event with debouncer := d }

/-! ## Merged windows -/

/-- The last change of the window is a deletion, or the one before it. -/
def JustDeleted (w : List FileChangeKind) : Prop :=
  w.getLast? = some .deleted ∨ w.dropLast.getLast? = some .deleted

/-- The changes after the last deletion. -/
def sinceDeletion (w : List FileChangeKind) : List FileChangeKind := w.rtakeWhile (· ≠ .deleted)

/-- The file was created after the last deletion, but not in the change right after it. -/
def CreatedAgain (w : List FileChangeKind) : Prop :=
  .created ∈ if .deleted ∈ w then (sinceDeletion w).tail else w

instance (w : List FileChangeKind) : Decidable (JustDeleted w) := inferInstanceAs (Decidable (_ ∨ _))

instance (w : List FileChangeKind) : Decidable (CreatedAgain w) :=
  inferInstanceAs (Decidable (_ ∈ _))

theorem coalesce_deleted {w : List FileChangeKind} (hraw : .replaced ∉ w) :
    coalesce mergePathEvents w = some .deleted ↔ w.getLast? = some .deleted := by
  rcases List.eq_nil_or_concat' w with rfl | ⟨start, change, rfl⟩
  · simp
  · rw [Debouncer.coalesce_snoc, List.getLast?_concat, Option.some.injEq, Option.some.injEq]
    cases coalesce mergePathEvents start with
    | none => rfl
    | some previous =>
      simp only [Option.elim_some, mergePathEvents]
      by_cases hdeleted : change = .deleted
      · simp [hdeleted]
      · simp only [hdeleted, if_false, iff_false]
        split
        · simp
        · split
          · simp
          · exact hdeleted

theorem coalesce_replaced {w : List FileChangeKind} (hraw : .replaced ∉ w) :
    coalesce mergePathEvents w = some .replaced ↔
      w.getLast? ≠ some .deleted ∧ w.dropLast.getLast? = some .deleted := by
  rcases List.eq_nil_or_concat' w with rfl | ⟨start, change, rfl⟩
  · simp
  · simp only [List.mem_append, List.mem_singleton, not_or] at hraw
    obtain ⟨hstart, hchange⟩ := hraw
    rw [Debouncer.coalesce_snoc, List.getLast?_concat, List.dropLast_concat, Option.some.injEq,
      ne_eq, Option.some.injEq, ← coalesce_deleted hstart]
    cases coalesce mergePathEvents start with
    | none => simpa using fun h => hchange h.symm
    | some previous =>
      simp only [Option.elim_some, mergePathEvents, Option.some.injEq]
      by_cases hdeleted : change = .deleted
      · simp [hdeleted]
      · simp only [hdeleted, if_false, not_false_eq_true, true_and]
        by_cases hprevious : previous = .deleted
        · simp [hprevious]
        · simp only [hprevious, if_false, iff_false]
          split
          · simp
          · exact fun h => hchange h.symm

/-- A window is reported for its own sake when it ends with a deletion, or with one more change. -/
theorem coalesce_justDeleted {w : List FileChangeKind} (hraw : .replaced ∉ w) :
    coalesce mergePathEvents w = some .deleted ∨ coalesce mergePathEvents w = some .replaced ↔
      JustDeleted w := by
  rw [coalesce_deleted hraw, coalesce_replaced hraw, JustDeleted]
  by_cases hlast : w.getLast? = some .deleted <;> simp [hlast]

/-- One more change, other than a deletion. -/
theorem createdAgain_snoc {w : List FileChangeKind} {change : FileChangeKind}
    (hchange : change ≠ .deleted) : CreatedAgain (w ++ [change]) ↔
      w.getLast? ≠ some .deleted ∧ (CreatedAgain w ∨ change = .created) := by
  have hsince : sinceDeletion (w ++ [change]) = sinceDeletion w ++ [change] :=
    List.rtakeWhile_concat_pos _ _ _ (by simpa using hchange)
  have hmem : .deleted ∈ w ++ [change] ↔ .deleted ∈ w := by simp [hchange.symm]
  simp only [CreatedAgain, hmem, hsince]
  by_cases hdeleted : .deleted ∈ w
  · obtain ⟨start, last, rfl⟩ := (List.eq_nil_or_concat' w).resolve_left (List.ne_nil_of_mem hdeleted)
    rw [List.getLast?_concat, if_pos hdeleted, if_pos hdeleted]
    by_cases hlast : last = .deleted
    · simp [sinceDeletion, hlast]
    · have hlonger : sinceDeletion (start ++ [last]) = sinceDeletion start ++ [last] :=
        List.rtakeWhile_concat_pos _ _ _ (by simpa using hlast)
      rw [hlonger, List.tail_append_of_ne_nil (by simp)]
      simp only [List.mem_append, List.mem_singleton, ne_eq, Option.some.injEq, hlast,
        not_false_eq_true, true_and]
      exact or_congr_right eq_comm
  · have hlast : w.getLast? ≠ some .deleted := fun h => hdeleted (List.mem_of_getLast? h)
    rw [if_neg hdeleted, if_neg hdeleted, List.mem_append, List.mem_singleton]
    simp only [ne_eq, hlast, not_false_eq_true, true_and]
    exact or_congr_right eq_comm

/-- A window is merged into a creation when the file was created again. -/
theorem coalesce_created {w : List FileChangeKind} (hraw : .replaced ∉ w) :
    coalesce mergePathEvents w = some .created ↔ CreatedAgain w := by
  induction w using List.reverseRecOn with
  | nil => simp [CreatedAgain]
  | append_singleton start change ih =>
    simp only [List.mem_append, List.mem_singleton, not_or] at hraw
    obtain ⟨hstart, hchange⟩ := hraw
    rw [Debouncer.coalesce_snoc, Option.some.injEq]
    by_cases hdeleted : change = .deleted
    · subst hdeleted
      have hmerged : (coalesce mergePathEvents start).elim .deleted (mergePathEvents · .deleted) =
          .deleted := by
        cases coalesce mergePathEvents start <;> rfl
      simp [hmerged, CreatedAgain, sinceDeletion]
    · rw [createdAgain_snoc hdeleted, ← ih hstart, ne_eq, ← coalesce_deleted hstart]
      cases coalesce mergePathEvents start with
      | none => simp
      | some previous => cases previous <;> simp [mergePathEvents, hdeleted]

/-! ## Reports -/

/-- The handler, run for one change after the other. -/
def handleAll (removed : Bool) : List FileChangeKind → List ManagedViolationReason
  | [] => []
  | change :: rest =>
    (dispatchRegistry removed change).2.toList ++ handleAll (dispatchRegistry removed change).1 rest

/-- Something is reported for a deletion, for a replacement, and for a creation after a removal. -/
theorem handleAll_ne_nil {removed : Bool} {changes : List FileChangeKind} :
    handleAll removed changes ≠ [] ↔
      (.deleted ∈ changes ∨ .replaced ∈ changes) ∨ (removed = true ∧ .created ∈ changes) := by
  induction changes generalizing removed with
  | nil => simp [handleAll]
  | cons change rest ih =>
    rw [handleAll, ne_eq, List.append_eq_nil_iff, not_and_or, ← ne_eq (handleAll _ rest), ih]
    simp only [List.mem_cons]
    cases change with
    | created =>
      cases removed with
      | true => simp [dispatchRegistry]
      | false => simp [dispatchRegistry]
    | modified => simp [dispatchRegistry]
    | moved => simp [dispatchRegistry]
    | deleted => simp [dispatchRegistry]
    | replaced => simp [dispatchRegistry]

/-- Whether the registry counts as removed after some changes. -/
def removedAfter (removed : Bool) (changes : List FileChangeKind) : Bool :=
  changes.foldl (fun removed change => (dispatchRegistry removed change).1) removed

theorem handleAll_snoc (removed : Bool) (changes : List FileChangeKind) (change : FileChangeKind) :
    handleAll removed (changes ++ [change]) = handleAll removed changes ++
      (dispatchRegistry (removedAfter removed changes) change).2.toList := by
  induction changes generalizing removed with
  | nil => simp [handleAll, removedAfter]
  | cons first rest ih => simp [handleAll, ih, removedAfter]

/-! ## Runs -/

variable {s t : RegistryWatch} {trace : List (RegistryWatch × Debouncer.Event FileChangeKind)}

/-- The debouncer of a watcher takes the steps of a debouncer. -/
theorem run_debouncer (h : Run Step s trace t) : Run (Debouncer.Step mergePathEvents) s.debouncer
    (trace.map fun x => (x.1.debouncer, x.2)) t.debouncer := by
  induction h with
  | nil => exact .nil _
  | snoc _ hlast ih =>
    cases hlast with
    | step d _ hd =>
      rw [List.map_append]
      exact ih.snoc hd

/-- What is reported in a run depends on the dispatched changes alone. -/
theorem run_reported (h : Run Step s trace t) :
    t.registry_was_removed =
        removedAfter s.registry_was_removed (dispatched (trace.map Prod.snd)) ∧
      t.reported =
        s.reported ++ handleAll s.registry_was_removed (dispatched (trace.map Prod.snd)) := by
  induction h with
  | nil => simp [dispatched, removedAfter, handleAll]
  | @snoc t u trace event _ hlast ih =>
    obtain ⟨hremoved, hreported⟩ := ih
    cases hlast with
    | step d _ _ =>
      rw [List.map_append, List.map_singleton, Debouncer.dispatched_snoc]
      have hnone : dispatched (trace.map Prod.snd) ++ [] = dispatched (trace.map Prod.snd) :=
        List.append_nil _
      cases event with
      | submit change => exact hnone.symm ▸ ⟨hremoved, hreported⟩
      | fire => exact hnone.symm ▸ ⟨hremoved, hreported⟩
      | close flush => exact hnone.symm ▸ ⟨hremoved, hreported⟩
      | dispatch change =>
        have hone : dispatched [Debouncer.Event.dispatch change] = [change] := rfl
        rw [hone, handleAll_snoc, ← hremoved, ← List.append_assoc, ← hreported]
        exact ⟨by simp [handle, removedAfter, hremoved], rfl⟩

/-- No window of a run holds a replacement. -/
theorem windows_raw (h : Run Step s trace t) (current : List FileChangeKind)
    (hcurrent : .replaced ∉ current) :
    (∀ w ∈ (windows current (trace.map Prod.snd)).settled, .replaced ∉ w) ∧
      .replaced ∉ (windows current (trace.map Prod.snd)).current := by
  have hsubmitted : ∀ change, .submit change ∈ trace.map Prod.snd → change ≠ .replaced := by
    rintro change hchange rfl
    obtain ⟨x, hx, hevent⟩ := List.mem_map.mp hchange
    obtain ⟨-, u, -, -, hstep, -⟩ := h.step_of_mem hx
    cases hstep with
    | step d hraw _ => exact hraw hevent
  have hbefore : ∀ change ∈ current, change ≠ .replaced :=
    fun change hchange => ne_of_mem_of_not_mem hchange hcurrent
  obtain ⟨hsettled, hopen⟩ := Debouncer.submitted_of_mem current (trace.map Prod.snd) hbefore hsubmitted
  exact ⟨fun w hw hmem => hsettled w hw _ hmem rfl, fun hmem => hopen _ hmem rfl⟩

/-- The windows that are settled from the deletion on, its own first. -/
def windowsFrom (before after : List (RegistryWatch × Debouncer.Event FileChangeKind)) :
    List (List FileChangeKind) :=
  (windows ((windows [] (before.map Prod.snd)).current ++ [.deleted]) (after.map Prod.snd)).settled

/-- Something tells of the deletion: a window that ends with a deletion or one change later, an older
window that is still to be dispatched, or the recreation of a registry that was removed before. -/
def Telling (s : RegistryWatch) (ws : List (List FileChangeKind)) : Prop :=
  (∃ w ∈ ws, JustDeleted w) ∨
    (.deleted ∈ s.debouncer.settled ∨ .replaced ∈ s.debouncer.settled) ∨
    (s.registry_was_removed = true ∧
      (.created ∈ s.debouncer.settled ∨ ∃ w ∈ ws, CreatedAgain w))

/-- The changes that are dispatched since a deletion. -/
def Dispatches (s : RegistryWatch) (ws : List (List FileChangeKind)) (change : FileChangeKind) : Prop :=
  change ∈ s.debouncer.settled ∨ ∃ w ∈ ws, coalesce mergePathEvents w = some change

/-- What tells of the deletion is what the handler reports. -/
theorem telling_iff {ws : List (List FileChangeKind)} (hraw : ∀ w ∈ ws, .replaced ∉ w) :
    Telling s ws ↔ (Dispatches s ws .deleted ∨ Dispatches s ws .replaced) ∨
      (s.registry_was_removed = true ∧ Dispatches s ws .created) := by
  have hjust : (∃ w ∈ ws, JustDeleted w) ↔
      (∃ w ∈ ws, coalesce mergePathEvents w = some .deleted) ∨
        ∃ w ∈ ws, coalesce mergePathEvents w = some .replaced := by
    rw [← exists_or]
    refine exists_congr fun w => ?_
    rw [← and_or_left]
    exact and_congr_right fun hw => (coalesce_justDeleted (hraw w hw)).symm
  have hagain : (∃ w ∈ ws, CreatedAgain w) ↔
      ∃ w ∈ ws, coalesce mergePathEvents w = some .created :=
    exists_congr fun w => and_congr_right fun hw => (coalesce_created (hraw w hw)).symm
  rw [Telling, hjust, hagain, Dispatches, Dispatches, Dispatches, ← or_assoc, or_or_or_comm,
    or_comm (a := .deleted ∈ s.debouncer.settled), or_comm (a := .replaced ∈ s.debouncer.settled)]

/-- What is dispatched since a deletion, once all windows are dispatched. -/
theorem mem_dispatched {u : RegistryWatch}
    {before after : List (RegistryWatch × Debouncer.Event FileChangeKind)}
    (hbefore : Run Step initial before s) (hdeleted : Step s (.submit .deleted) u)
    (hafter : Run Step u after t) (hflushed : t.debouncer.settled = []) (change : FileChangeKind) :
    change ∈ dispatched (after.map Prod.snd) ↔ Dispatches s (windowsFrom before after) change := by
  have hlabels : ∀ trace : List (RegistryWatch × Debouncer.Event FileChangeKind),
      (trace.map fun x => (x.1.debouncer, x.2)).map Prod.snd = trace.map Prod.snd := by
    simp
  obtain ⟨-, hpending⟩ := Debouncer.conserved (run_debouncer hbefore) [] rfl
  rw [hlabels] at hpending
  have hwindow : u.debouncer.pending = coalesce mergePathEvents
        ((windows [] (before.map Prod.snd)).current ++ [.deleted]) ∧
      u.debouncer.settled = s.debouncer.settled := by
    cases hdeleted with
    | step d _ hd =>
      cases hd
      exact ⟨by rw [Debouncer.coalesce_snoc, ← hpending], rfl⟩
  obtain ⟨hperm, -⟩ := Debouncer.conserved (run_debouncer hafter) _ hwindow.1
  rw [hlabels, hflushed, List.nil_append, hwindow.2] at hperm
  rw [hperm.mem_iff, List.mem_append, List.mem_filterMap]
  rfl

/-- In every run, once all windows are dispatched: a removal or replacement of the registry was
reported since a deletion exactly when something tells of it. -/
theorem removal_reported_iff {u : RegistryWatch}
    {before after : List (RegistryWatch × Debouncer.Event FileChangeKind)}
    (hbefore : Run Step initial before s) (hdeleted : Step s (.submit .deleted) u)
    (hafter : Run Step u after t)
    (hflushed : t.debouncer.pending = none ∧ t.debouncer.settled = []) :
    (∃ reason reported, t.reported = s.reported ++ reason :: reported) ↔
      Telling s (windowsFrom before after) := by
  have hkept : u.reported = s.reported ∧ u.registry_was_removed = s.registry_was_removed := by
    cases hdeleted with
    | step d _ _ => exact ⟨rfl, rfl⟩
  obtain ⟨-, hreports⟩ := run_reported hafter
  obtain ⟨-, hcurrent⟩ := windows_raw hbefore [] List.not_mem_nil
  have hraw : ∀ w ∈ windowsFrom before after, .replaced ∉ w :=
    (windows_raw hafter _ (by simpa using hcurrent)).1
  have hmem := mem_dispatched hbefore hdeleted hafter hflushed.2
  rw [telling_iff hraw, ← hmem, ← hmem, ← hmem, ← handleAll_ne_nil, hreports, hkept.1, hkept.2]
  simp only [List.append_cancel_left_eq]
  exact List.ne_nil_iff_exists_cons.symm

/-! ## A registry that is replaced and then written -/

/-- The watcher with these changes merged in the current window. -/
def sampleWatch (pending : FileChangeKind) : RegistryWatch := ⟨⟨some pending, [], false⟩, false, []⟩

theorem sample_deleted : Step initial (.submit .deleted) (sampleWatch .deleted) :=
  .step initial _ _ (by simp) (.submit _ _ rfl)

/-- The registry file is removed, created and written before the window is settled. -/
theorem replacement_unreported :
    (normalizeChange (some (1, 0, 0)) none .deleted = (some .deleted, none) ∧
      normalizeChange none (some (2, 0, 1)) .created = (some .created, some (2, 0, 1)) ∧
      normalizeChange (some (2, 0, 1)) (some (2, 1, 2)) .modified =
        (some .modified, some (2, 1, 2))) ∧
      ∃ u after t, Step initial (.submit .deleted) u ∧ Run Step u after t ∧
        after.map Prod.snd = [.submit .created, .submit .modified, .fire, .dispatch .modified] ∧
        (t.debouncer.pending = none ∧ t.debouncer.settled = []) ∧ t.reported = [] := by
  refine ⟨by decide, sampleWatch .deleted, [(sampleWatch .deleted, .submit .created),
    (sampleWatch .replaced, .submit .modified), (sampleWatch .modified, .fire),
    (⟨⟨none, [.modified], false⟩, false, []⟩, .dispatch .modified)], initial, sample_deleted, ?_, rfl,
    ⟨rfl, rfl⟩, rfl⟩
  · have hcreated : Step (sampleWatch .deleted) (.submit .created) (sampleWatch .replaced) :=
      .step _ _ _ (by simp) (.submit _ _ rfl)
    have hmodified : Step (sampleWatch .replaced) (.submit .modified) (sampleWatch .modified) :=
      .step _ _ _ (by simp) (.submit _ _ rfl)
    have hfired : Step (sampleWatch .modified) .fire ⟨⟨none, [.modified], false⟩, false, []⟩ :=
      .step _ _ _ (by simp) (.fire _ rfl)
    have hdispatched : Step ⟨⟨none, [.modified], false⟩, false, []⟩ (.dispatch .modified)
        ⟨.initial, false, []⟩ :=
      .step _ _ _ (by simp) (.dispatch _ _ [] [] rfl)
    exact .cons hcreated (.cons hmodified (.cons hfired (.cons hdispatched (.nil _))))

/-- A deletion that is settled by itself is reported. -/
theorem removal_reported_iff_sample : ∃ t : RegistryWatch, ∃ reason reported,
    t.reported = initial.reported ++ reason :: reported := by
  have hfired : Step (sampleWatch .deleted) .fire ⟨⟨none, [.deleted], false⟩, false, []⟩ :=
    .step _ _ _ (by simp) (.fire _ rfl)
  have hdispatched : Step ⟨⟨none, [.deleted], false⟩, false, []⟩ (.dispatch .deleted)
      ⟨.initial, true, [.registry_removed]⟩ :=
    .step _ _ _ (by simp) (.dispatch _ _ [] [] rfl)
  refine ⟨⟨.initial, true, [.registry_removed]⟩, ?_⟩
  refine (removal_reported_iff (.nil _) sample_deleted (.cons hfired (.single hdispatched))
    ⟨rfl, rfl⟩).mpr ?_
  exact Or.inl ⟨[.deleted], List.mem_singleton_self _, Or.inl rfl⟩

end RegistryWatch

end Pine
