import Mathlib.Data.List.Induction
import Pine.Core.Run

/-!
# Debounced events

Events that come while another one is pending are merged with it. When the timer fires,
the pending event is settled and waits to be dispatched. Whatever the order of these
steps, what is dispatched are the merged windows, each once.
-/

namespace Pine

/-- The pending event, the settled events that are still to be dispatched, and whether it is closed. -/
structure Debouncer (ε : Type) where
  pending : Option ε
  settled : List ε
  closed : Bool

namespace Debouncer

variable {ε : Type}

/-- What happens to a debouncer. -/
inductive Event (ε : Type) where
  | submit (e : ε)
  | fire
  | dispatch (e : ε)
  | close (flush : Bool)

/-- `submit`, `_fire`, `close` and the dispatches that follow in any order. -/
inductive Step (merge : ε → ε → ε) : Debouncer ε → Event ε → Debouncer ε → Prop
  | submit (s : Debouncer ε) (e : ε) : s.closed = false →
      Step merge s (.submit e) { s with pending := some (s.pending.elim e (merge · e)) }
  | fire (s : Debouncer ε) : s.closed = false →
      Step merge s .fire { s with pending := none, settled := s.settled ++ s.pending.toList }
  | dispatch (s : Debouncer ε) (e : ε) (before after : List ε) : s.settled = before ++ e :: after →
      Step merge s (.dispatch e) { s with settled := before ++ after }
  | close (s : Debouncer ε) (flush : Bool) : s.closed = false →
      Step merge s (.close flush)
        ⟨none, s.settled ++ (if flush then s.pending.toList else []), true⟩

/-- Nothing is pending or left to be dispatched. -/
def initial : Debouncer ε := ⟨none, [], false⟩

/-! ## Windows -/

/-- The events of the windows that were settled, and those of the current one. -/
structure Windows (ε : Type) where
  settled : List (List ε)
  current : List ε

/-- A window that is settled. -/
def Windows.settle (w : Windows ε) : Windows ε :=
  ⟨if w.current = [] then w.settled else w.settled ++ [w.current], []⟩

/-- A happening opens, extends or settles a window. -/
def Windows.next (w : Windows ε) : Event ε → Windows ε
  | .submit e => { w with current := w.current ++ [e] }
  | .fire | .close true => w.settle
  | .close false => { w with current := [] }
  | .dispatch _ => w

/-- The windows of a sequence of happenings. -/
def windows (current : List ε) (events : List (Event ε)) : Windows ε :=
  events.foldl Windows.next ⟨[], current⟩

/-- The events that are dispatched. -/
def dispatched : List (Event ε) → List ε :=
  List.filterMap fun
    | .dispatch e => some e
    | _ => none

/-- The event that a window is merged into. -/
def coalesce (merge : ε → ε → ε) (w : List ε) : Option ε :=
  w.foldl (fun pending e => some (pending.elim e (merge · e))) none

variable {merge : ε → ε → ε}

@[simp] theorem coalesce_nil : coalesce merge [] = none := rfl

@[simp] theorem coalesce_snoc (w : List ε) (e : ε) :
    coalesce merge (w ++ [e]) = some ((coalesce merge w).elim e (merge · e)) := by
  simp [coalesce]

theorem coalesce_eq_none {w : List ε} : coalesce merge w = none ↔ w = [] := by
  rcases List.eq_nil_or_concat w with rfl | ⟨start, e, rfl⟩
  · simp
  · simp

theorem windows_snoc (current : List ε) (events : List (Event ε)) (event : Event ε) :
    windows current (events ++ [event]) = (windows current events).next event := by
  simp [windows]

theorem dispatched_snoc (events : List (Event ε)) (event : Event ε) :
    dispatched (events ++ [event]) = dispatched events ++ dispatched [event] := by
  simp [dispatched]

theorem dispatched_append (before after : List (Event ε)) :
    dispatched (before ++ after) = dispatched before ++ dispatched after :=
  List.filterMap_append

/-- What stands in a window was submitted, or stood in the window before. -/
theorem submitted_of_mem (current : List ε) (events : List (Event ε)) {P : ε → Prop}
    (hcurrent : ∀ e ∈ current, P e) (hevents : ∀ e, .submit e ∈ events → P e) :
    (∀ w ∈ (windows current events).settled, ∀ e ∈ w, P e) ∧
      ∀ e ∈ (windows current events).current, P e := by
  induction events using List.reverseRecOn with
  | nil => simpa [windows] using hcurrent
  | append_singleton events event ih =>
    obtain ⟨hsettled, hopen⟩ := ih fun e he => hevents e (List.mem_append_left _ he)
    have hclosed : ∀ w ∈ (windows current events).settle.settled, ∀ e ∈ w, P e := by
      intro w hw
      unfold Windows.settle at hw
      split at hw
      · exact hsettled w hw
      · rcases List.mem_append.mp hw with hw | hw
        · exact hsettled w hw
        · rw [List.mem_singleton.mp hw]
          exact hopen
    rw [windows_snoc]
    cases event with
    | submit e =>
      refine ⟨hsettled, fun x hx => ?_⟩
      rcases List.mem_append.mp hx with hx | hx
      · exact hopen x hx
      · rw [List.mem_singleton.mp hx]
        exact hevents e (by simp)
    | fire => exact ⟨hclosed, by simp [Windows.next, Windows.settle]⟩
    | dispatch e => exact ⟨hsettled, hopen⟩
    | close flush =>
      cases flush with
      | true => exact ⟨hclosed, by simp [Windows.next, Windows.settle]⟩
      | false => exact ⟨hsettled, by simp [Windows.next]⟩

/-- The events that are submitted. -/
def submitted : List (Event ε) → List ε :=
  List.filterMap fun
    | .submit e => some e
    | _ => none

theorem submitted_append (before after : List (Event ε)) :
    submitted (before ++ after) = submitted before ++ submitted after :=
  List.filterMap_append

theorem Windows.flatten_settle (w : Windows ε) :
    w.settle.settled.flatten ++ w.settle.current = w.settled.flatten ++ w.current := by
  unfold Windows.settle
  split
  · rename_i hempty
    rw [hempty]
  · simp

/-- As long as nothing is thrown away, the windows are the submitted events in their order. -/
theorem windows_flatten (current : List ε) (events : List (Event ε))
    (hflush : .close false ∉ events) :
    (windows current events).settled.flatten ++ (windows current events).current =
      current ++ submitted events := by
  induction events using List.reverseRecOn with
  | nil => simp [windows, submitted]
  | append_singleton events event ih =>
    rw [List.mem_append, not_or] at hflush
    have hsubmitted : submitted (events ++ [event]) = submitted events ++ submitted [event] := by
      simp [submitted]
    rw [windows_snoc, hsubmitted, ← List.append_assoc, ← ih hflush.1]
    cases event with
    | submit e => simp [Windows.next, submitted]
    | fire => simp [Windows.next, submitted, Windows.flatten_settle]
    | dispatch e => simp [Windows.next, submitted]
    | close flush =>
      cases flush with
      | true => simp [Windows.next, submitted, Windows.flatten_settle]
      | false => simp at hflush

/-- Every window that is settled holds an event. -/
theorem settled_ne_nil (current : List ε) (events : List (Event ε)) :
    ∀ w ∈ (windows current events).settled, w ≠ [] := by
  induction events using List.reverseRecOn with
  | nil => simp [windows]
  | append_singleton events event ih =>
    have hclosed : ∀ w ∈ (windows current events).settle.settled, w ≠ [] := by
      unfold Windows.settle
      split
      · exact ih
      · rename_i hcurrent
        intro w hw
        rcases List.mem_append.mp hw with hw | hw
        · exact ih w hw
        · rwa [List.mem_singleton.mp hw]
    rw [windows_snoc]
    cases event with
    | submit e => exact ih
    | fire => exact hclosed
    | dispatch e => exact ih
    | close flush =>
      cases flush with
      | true => exact hclosed
      | false => exact ih

/-- Windows that hold an event are given by their first events and the others. -/
theorem exists_blocks {ws : List (List ε)} (h : ∀ w ∈ ws, w ≠ []) :
    ∃ blocks : List (ε × List ε), ws = blocks.map fun b => b.1 :: b.2 := by
  induction ws with
  | nil => exact ⟨[], rfl⟩
  | cons w rest ih =>
    obtain ⟨e, others, rfl⟩ := List.exists_cons_of_ne_nil (h w List.mem_cons_self)
    obtain ⟨blocks, hrest⟩ := ih fun v hv => h v (List.mem_cons_of_mem _ hv)
    exact ⟨(e, others) :: blocks, by rw [hrest, List.map_cons]⟩

/-- A window is merged from its first event on. -/
theorem coalesce_cons (e : ε) (w : List ε) :
    coalesce merge (e :: w) = some (w.foldl merge e) := by
  induction w using List.reverseRecOn with
  | nil => rfl
  | append_singleton w last ih =>
    rw [← List.cons_append, coalesce_snoc, ih]
    simp

/-- Settling a window hands over its merged event. -/
theorem Windows.filterMap_settle (w : Windows ε) :
    w.settle.settled.filterMap (coalesce merge) =
      w.settled.filterMap (coalesce merge) ++ (coalesce merge w.current).toList := by
  unfold Windows.settle
  split
  · rename_i hempty
    simp [hempty]
  · simp only [List.filterMap_append, List.filterMap_cons, List.filterMap_nil]
    cases coalesce merge w.current <;> rfl

/-- No event is lost and none is dispatched twice: what was dispatched or is still settled are the
merged windows, and the pending event is the merged current window. -/
theorem conserved {s t : Debouncer ε} {trace : List (Debouncer ε × Event ε)}
    (h : Run (Step merge) s trace t) (current : List ε)
    (hcurrent : s.pending = coalesce merge current) :
    (t.settled ++ dispatched (trace.map Prod.snd)).Perm (s.settled ++
        (windows current (trace.map Prod.snd)).settled.filterMap (coalesce merge)) ∧
      t.pending = coalesce merge (windows current (trace.map Prod.snd)).current := by
  induction h with
  | nil => simpa [dispatched, windows] using hcurrent
  | @snoc t u trace event hrun hlast ih =>
    obtain ⟨hperm, hpending⟩ := ih
    rw [List.map_append, List.map_singleton, windows_snoc, dispatched_snoc]
    cases hlast with
    | submit e _ =>
      exact ⟨by simpa [Windows.next, dispatched] using hperm, by simp [Windows.next, hpending]⟩
    | fire _ =>
      refine ⟨?_, rfl⟩
      simp only [Windows.next, Windows.filterMap_settle, ← hpending, dispatched, List.filterMap_cons,
        List.filterMap_nil, List.append_nil, ← List.append_assoc] at hperm ⊢
      refine List.Perm.trans ?_ (hperm.append_right _)
      simp only [List.append_assoc]
      exact List.perm_append_comm.append_left _
    | dispatch e before after hsettled =>
      refine ⟨List.Perm.trans ?_ hperm, hpending⟩
      rw [hsettled]
      simp only [dispatched, List.filterMap_cons, List.filterMap_nil, List.append_assoc,
        List.cons_append]
      refine List.Perm.append_left _ ?_
      rw [← List.append_assoc]
      exact List.perm_append_singleton _ _
    | close flush _ =>
      refine ⟨?_, by cases flush <;> rfl⟩
      cases flush with
      | true =>
        simp only [Windows.next, Windows.filterMap_settle, ← hpending, dispatched,
          List.filterMap_cons, List.filterMap_nil, List.append_nil, ← List.append_assoc, if_true]
          at hperm ⊢
        refine List.Perm.trans ?_ (hperm.append_right _)
        simp only [List.append_assoc]
        exact List.perm_append_comm.append_left _
      | false => simpa [Windows.next, dispatched] using hperm

end Debouncer

end Pine
