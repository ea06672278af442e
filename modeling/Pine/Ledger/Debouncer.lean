import Pine.Core.Debounce
import Pine.Core.Dict

/-!
# The debouncer of the watcher

Each path has one pending event and one timer. A timer that was cancelled does not start,
but one whose function was called goes on, and takes whatever is pending under its path by
then. Seen from one path this is a debouncer whose windows are settled at any time, so no
event is lost or dispatched twice.
-/

namespace Pine

variable {κ ε : Type}

/-- `_PendingTimer`: the merged event and the timer that was armed last. -/
structure PendingTimer (ε : Type) where
  event : ε
  timer : Nat

/-- `_Debouncer`, with the timers and the events that its threads have in hand. -/
structure PathDebouncer (κ ε : Type) where
  pending : Dict κ (PendingTimer ε)
  closed : Bool
  /-- Timers that still wait, by number, with the key of their function call. -/
  waiting : List (Nat × κ)
  /-- Timers whose function was called and has not taken the lock. -/
  firing : List (Nat × κ)
  /-- How many timers were started. -/
  started : Nat
  /-- Events that left the lock and are still to be dispatched. -/
  dispatching : List (κ × ε)

namespace PathDebouncer

/-- `_Debouncer.__init__` -/
def initial : PathDebouncer κ ε := ⟨.empty, false, [], [], 0, []⟩

/-- `timer.cancel()`: a timer that waits is not started any more. -/
def cancel (timer : Nat) (s : PathDebouncer κ ε) : PathDebouncer κ ε :=
  { s with waiting := s.waiting.filter (·.1 ≠ timer) }

variable [DecidableEq κ]

/-- `submit` -/
def submit (merge : ε → ε → ε) (key : κ) (event : ε) (s : PathDebouncer κ ε) : PathDebouncer κ ε :=
  if s.closed then s
  else
    let existing := s.pending.get? key
    let s := existing.elim s fun p => s.cancel p.timer
    let event := existing.elim event fun p => merge p.event event
    { s with
      pending := s.pending.set key ⟨event, s.started⟩
      waiting := s.waiting ++ [(s.started, key)]
      started := s.started + 1 }

/-- The lock-protected section of `_fire`, and the event that is dispatched after it. -/
def fire (key : κ) (s : PathDebouncer κ ε) : PathDebouncer κ ε :=
  let popped := { s with pending := s.pending.erase key }
  match s.pending.get? key with
  | none => popped
  | some p => if s.closed then popped else { popped with dispatching := s.dispatching ++ [(key, p.event)] }

omit [DecidableEq κ] in
/-- The lock-protected section of `close`, and the events that are dispatched after it. -/
def close (flush : Bool) (s : PathDebouncer κ ε) : PathDebouncer κ ε :=
  if s.closed then s
  else
    let pending := s.pending.entries
    let s := pending.foldl (fun s x => s.cancel x.2.timer) s
    { s with
      closed := true
      pending := .empty
      dispatching := s.dispatching ++ if flush then pending.map fun x => (x.1, x.2.event) else [] }

/-- What its threads and timers do. -/
inductive Action (κ ε : Type) where
  | submit (key : κ) (event : ε)
  | expire (timer : Nat × κ)
  | fire (timer : Nat × κ)
  | dispatch (key : κ) (event : ε)
  | close (flush : Bool)

/-- The steps of any number of threads: the sections under the lock, timers that expire, and the events
that are handed to the dispatch function, in any order. -/
inductive Step (merge : ε → ε → ε) : PathDebouncer κ ε → Action κ ε → PathDebouncer κ ε → Prop
  | submit (s : PathDebouncer κ ε) (key : κ) (event : ε) :
      Step merge s (.submit key event) (s.submit merge key event)
  | expire (s : PathDebouncer κ ε) (timer : Nat × κ) : timer ∈ s.waiting →
      Step merge s (.expire timer)
        { s with waiting := s.waiting.erase timer, firing := s.firing ++ [timer] }
  | fire (s : PathDebouncer κ ε) (timer : Nat × κ) : timer ∈ s.firing →
      Step merge s (.fire timer) ({ s with firing := s.firing.erase timer }.fire timer.2)
  | dispatch (s : PathDebouncer κ ε) (key : κ) (event : ε) (before after : List (κ × ε)) :
      s.dispatching = before ++ (key, event) :: after →
      Step merge s (.dispatch key event) { s with dispatching := before ++ after }
  | close (s : PathDebouncer κ ε) (flush : Bool) : Step merge s (.close flush) (s.close flush)

/-! ## One path -/

/-- The events of a key that left the lock. -/
def ofKey (key : κ) (events : List (κ × ε)) : List ε :=
  (events.filter (·.1 = key)).map Prod.snd

/-- The debouncer of one key. -/
def view (key : κ) (s : PathDebouncer κ ε) : Debouncer ε :=
  ⟨(s.pending.get? key).map PendingTimer.event, ofKey key s.dispatching, s.closed⟩

/-- What an action does for one key. -/
def label (key : κ) (s : PathDebouncer κ ε) : Action κ ε → Option (Debouncer.Event ε)
  | .submit k event => if k = key ∧ s.closed = false then some (.submit event) else none
  | .expire _ => none
  | .fire timer => if timer.2 = key ∧ s.closed = false then some .fire else none
  | .dispatch k event => if k = key then some (.dispatch event) else none
  | .close flush => if s.closed = false then some (.close flush) else none

variable {merge : ε → ε → ε}

@[simp] theorem ofKey_append (key : κ) (before after : List (κ × ε)) :
    ofKey key (before ++ after) = ofKey key before ++ ofKey key after := by
  simp [ofKey]

@[simp] theorem ofKey_cons (key : κ) (x : κ × ε) (rest : List (κ × ε)) :
    ofKey key (x :: rest) = if x.1 = key then x.2 :: ofKey key rest else ofKey key rest := by
  by_cases hx : x.1 = key <;> simp [ofKey, hx]

@[simp] theorem ofKey_nil (key : κ) : ofKey key ([] : List (κ × ε)) = [] := rfl

/-- Of the events that `close` takes over, a key has the one that was pending for it. -/
theorem ofKey_flushed (key : κ) (d : Dict κ (PendingTimer ε)) :
    ofKey key (d.entries.map fun x => (x.1, x.2.event)) =
      ((d.get? key).map PendingTimer.event).toList := by
  have hfilter : (d.entries.map fun x => (x.1, x.2.event)).filter (·.1 = key) =
      (d.entries.filter (·.1 = key)).map fun x => (x.1, x.2.event) := by
    rw [List.filter_map]
    rfl
  rw [ofKey, hfilter, Dict.filter_entries]
  cases d.get? key <;> rfl

omit [DecidableEq κ] in
/-- Cancelling timers changes nothing else. -/
theorem cancel_all (xs : List (κ × PendingTimer ε)) (s : PathDebouncer κ ε) :
    ∃ waiting, xs.foldl (fun s x => s.cancel x.2.timer) s = { s with waiting } := by
  induction xs generalizing s with
  | nil => exact ⟨s.waiting, rfl⟩
  | cons x rest ih =>
    obtain ⟨waiting, hrest⟩ := ih (s.cancel x.2.timer)
    exact ⟨waiting, hrest⟩

omit [DecidableEq κ] in
/-- What `close` leaves, apart from the timers. -/
theorem close_open {s : PathDebouncer κ ε} (hopen : s.closed = false) (flush : Bool) :
    (s.close flush).closed = true ∧ (s.close flush).pending = .empty ∧
      (s.close flush).dispatching = s.dispatching ++
        if flush then s.pending.entries.map fun x => (x.1, x.2.event) else [] := by
  obtain ⟨waiting, hcancel⟩ := cancel_all s.pending.entries s
  rw [close, if_neg (by simp [hopen])]
  dsimp only
  rw [hcancel]
  exact ⟨rfl, rfl, rfl⟩

/-- What `submit` leaves, apart from the timers. -/
theorem submit_open {s : PathDebouncer κ ε} (hopen : s.closed = false) (key : κ) (event : ε) :
    (s.submit merge key event).closed = false ∧
      (s.submit merge key event).dispatching = s.dispatching ∧
      ∃ timer, (s.submit merge key event).pending = s.pending.set key
        ⟨(s.pending.get? key).elim event fun p => merge p.event event, timer⟩ := by
  rw [submit, if_neg (by simp [hopen])]
  cases s.pending.get? key with
  | none => exact ⟨hopen, rfl, _, rfl⟩
  | some p => exact ⟨hopen, rfl, _, rfl⟩

/-- Nothing is pending once the debouncer is closed. -/
def Settled (s : PathDebouncer κ ε) : Prop := s.closed = true → s.pending = .empty

theorem step_settled (s : PathDebouncer κ ε) (action : Action κ ε) (t : PathDebouncer κ ε)
    (hs : s.Settled) (h : Step merge s action t) : t.Settled := by
  cases h with
  | submit key event =>
    cases hclosed : s.closed with
    | true => rwa [submit, if_pos hclosed]
    | false =>
      intro ht
      rw [(submit_open hclosed key event).1] at ht
      exact absurd ht (by decide)
  | expire timer _ => exact hs
  | fire timer _ =>
    intro ht
    have hclosed : s.closed = true := by
      rw [← ht, fire]
      split
      · rfl
      · split <;> rfl
    simp only [fire, hs hclosed]
    rfl
  | dispatch key event before after _ => exact hs
  | close flush =>
    cases hclosed : s.closed with
    | true => rwa [close, if_pos hclosed]
    | false => exact fun _ => (close_open hclosed flush).2.1

/-- Each step is a step of the debouncer of a key, or is not seen there. -/
theorem step_view (key : κ) (s : PathDebouncer κ ε) (action : Action κ ε) (t : PathDebouncer κ ε)
    (hs : s.Settled) (h : Step merge s action t) :
    (label key s action = none ∧ t.view key = s.view key) ∨
      ∃ event, label key s action = some event ∧ Debouncer.Step merge (s.view key) event (t.view key) := by
  cases h with
  | submit k event =>
    rcases s.closed.eq_false_or_eq_true with hclosed | hclosed
    · exact Or.inl ⟨by simp [label, hclosed], by rw [submit, if_pos hclosed]⟩
    · obtain ⟨hopen, hdispatching, timer, hpending⟩ := @submit_open κ ε _ merge s hclosed k event
      by_cases hk : k = key
      · subst hk
        have hview : (s.submit merge k event).view k =
            { s.view k with pending := some ((s.view k).pending.elim event (merge · event)) } := by
          simp only [view, hopen, hdispatching, hpending, hclosed, Dict.get?_set, if_pos]
          cases s.pending.get? k <;> rfl
        exact Or.inr ⟨.submit event, by simp [label, hclosed], hview ▸ .submit _ event hclosed⟩
      · refine Or.inl ⟨by simp [label, hk], ?_⟩
        simp only [view, hopen, hdispatching, hpending, hclosed, Dict.get?_set, if_neg (Ne.symm hk)]
  | expire timer _ => exact Or.inl ⟨rfl, rfl⟩
  | fire timer _ =>
    rcases s.closed.eq_false_or_eq_true with hclosed | hclosed
    · refine Or.inl ⟨by simp [label, hclosed], ?_⟩
      simp only [fire, view, hs hclosed, Dict.get?_empty]
      simp
    · by_cases hkey : timer.2 = key
      · subst hkey
        refine Or.inr ⟨.fire, by simp [label, hclosed], ?_⟩
        have hview : ({ s with firing := s.firing.erase timer }.fire timer.2).view timer.2 =
            { s.view timer.2 with
              pending := none
              settled := (s.view timer.2).settled ++ (s.view timer.2).pending.toList } := by
          simp only [fire, view]
          cases hpending : s.pending.get? timer.2 with
          | none => simp
          | some p => simp [hclosed]
        exact hview ▸ .fire _ hclosed
      · refine Or.inl ⟨by simp [label, hkey], ?_⟩
        simp only [fire, view]
        cases hpending : s.pending.get? timer.2 with
        | none => simp [Ne.symm hkey]
        | some p => simp [hclosed, hkey, Ne.symm hkey]
  | dispatch k event before after hdispatching =>
    by_cases hk : k = key
    · subst hk
      refine Or.inr ⟨.dispatch event, by simp [label], ?_⟩
      have hview : ({ s with dispatching := before ++ after } : PathDebouncer κ ε).view k =
          { s.view k with settled := ofKey k before ++ ofKey k after } := by
        simp [view]
      exact hview ▸ .dispatch _ event _ _ (by simp [view, hdispatching])
    · exact Or.inl ⟨by simp [label, hk], by simp [view, hdispatching, hk]⟩
  | close flush =>
    rcases s.closed.eq_false_or_eq_true with hclosed | hclosed
    · exact Or.inl ⟨by simp [label, hclosed], by rw [close, if_pos hclosed]⟩
    · obtain ⟨hclose, hpending, hdispatching⟩ := close_open hclosed flush
      refine Or.inr ⟨.close flush, by simp [label, hclosed], ?_⟩
      have hview : (s.close flush).view key =
          ⟨none, (s.view key).settled ++ (if flush then (s.view key).pending.toList else []), true⟩ := by
        rw [view, hclose, hpending, hdispatching]
        cases flush with
        | true => simp [view, ofKey_flushed]
        | false => simp [view]
      exact hview ▸ .close _ flush hclosed

/-! ## Runs -/

/-- Whether an action closes the debouncer. -/
def Action.closes : Action κ ε → Bool
  | .close _ => true
  | _ => false

/-- The events that are submitted for a key before the first close. -/
def accepted (key : κ) (actions : List (Action κ ε)) : List ε :=
  (actions.takeWhile fun action => !action.closes).filterMap fun
    | .submit k event => if k = key then some event else none
    | _ => none

/-- The events that are dispatched for a key. -/
def dispatched (key : κ) (actions : List (Action κ ε)) : List ε :=
  actions.filterMap fun
    | .dispatch k event => if k = key then some event else none
    | _ => none

variable {s t : PathDebouncer κ ε} {trace : List (PathDebouncer κ ε × Action κ ε)}

/-- A run is closed by its first close. -/
theorem run_closed (h : Run (Step merge) initial trace t) :
    t.closed = (trace.map Prod.snd).any Action.closes := by
  induction h with
  | nil => rfl
  | @snoc t u trace action hrun hlast ih =>
    rw [List.map_append, List.any_append, ← ih]
    cases hlast with
    | submit key event =>
      rcases t.closed.eq_false_or_eq_true with hclosed | hclosed
      · simp [submit, hclosed, Action.closes]
      · rw [(submit_open hclosed key event).1, hclosed]
        rfl
    | expire timer _ => simp [Action.closes]
    | fire timer _ =>
      have hsame : ∀ v : PathDebouncer κ ε, (v.fire timer.2).closed = v.closed := by
        intro v
        unfold fire
        dsimp only
        split
        · rfl
        · split <;> rfl
      simp [hsame, Action.closes]
    | dispatch key event before after _ => simp [Action.closes]
    | close flush =>
      rcases t.closed.eq_false_or_eq_true with hclosed | hclosed
      · simp [close, hclosed]
      · rw [(close_open hclosed flush).1]
        simp [Action.closes]

/-- The labels of a run that one key sees. -/
def labels (key : κ) (trace : List (PathDebouncer κ ε × Action κ ε)) : List (Debouncer.Event ε) :=
  trace.filterMap fun x => label key x.1 x.2

/-- A run is seen from a key as a run of its debouncer. -/
theorem run_view (key : κ) (h : Run (Step merge) initial trace t) :
    ∃ seen, Run (Debouncer.Step merge) .initial seen (t.view key) ∧
      seen.map Prod.snd = labels key trace := by
  refine ⟨_, h.simulate (view key) (label key) Settled step_settled (step_view key)
    (fun _ => rfl), ?_⟩
  rw [labels, List.map_filterMap]
  congr
  funext x
  cases label key x.1 x.2 <;> rfl

omit [DecidableEq κ] in
/-- Actions from the first close on are not accepted. -/
theorem takeWhile_open (actions : List (Action κ ε)) (action : Action κ ε) :
    (actions ++ [action]).takeWhile (fun a => !a.closes) =
      actions.takeWhile (fun a => !a.closes) ++
        if actions.any Action.closes || action.closes then [] else [action] := by
  induction actions with
  | nil => cases h : action.closes <;> simp [h]
  | cons first rest ih => cases h : first.closes <;> simp [h, ih]

/-- What a key sees submitted is what is accepted for it. -/
theorem submitted_labels (key : κ) (h : Run (Step merge) initial trace t) :
    Debouncer.submitted (labels key trace) = accepted key (trace.map Prod.snd) := by
  induction h with
  | nil => rfl
  | @snoc t u trace action hrun hlast ih =>
    have hlabels : Debouncer.submitted (labels key (trace ++ [(t, action)])) =
        Debouncer.submitted (labels key trace) ++
          Debouncer.submitted (label key t action).toList := by
      cases hlabel : label key t action <;> simp [labels, Debouncer.submitted, hlabel]
    rw [hlabels, ih, List.map_append, List.map_singleton, accepted, accepted, takeWhile_open,
      ← run_closed hrun, List.filterMap_append]
    congr 1
    cases action with
    | submit k event =>
      cases hclosed : t.closed <;> by_cases hk : k = key <;>
        simp [label, Debouncer.submitted, Action.closes, hclosed, hk]
    | expire timer => cases t.closed <;> rfl
    | fire timer =>
      cases hclosed : t.closed <;> by_cases hk : timer.2 = key <;>
        simp [label, Debouncer.submitted, Action.closes, hclosed, hk]
    | dispatch k event =>
      cases t.closed <;> by_cases hk : k = key <;>
        simp [label, Debouncer.submitted, Action.closes, hk]
    | close flush =>
      cases hclosed : t.closed <;> simp [label, Debouncer.submitted, Action.closes, hclosed]

/-- What a key sees dispatched is what is dispatched for it. -/
theorem dispatched_labels (key : κ) (trace : List (PathDebouncer κ ε × Action κ ε)) :
    Debouncer.dispatched (labels key trace) = dispatched key (trace.map Prod.snd) := by
  rw [labels, Debouncer.dispatched, dispatched, List.filterMap_filterMap, List.filterMap_map]
  congr
  funext x
  obtain ⟨u, action⟩ := x
  cases action with
  | submit k event => by_cases hk : k = key ∧ u.closed = false <;> simp [label, hk]
  | expire timer => rfl
  | fire timer => by_cases hk : timer.2 = key ∧ u.closed = false <;> simp [label, hk]
  | dispatch k event => by_cases hk : k = key <;> simp [label, hk]
  | close flush => by_cases hclosed : u.closed = false <;> simp [label, hclosed]

/-- A key sees no close that throws events away, as long as there is none. -/
theorem flushed_labels (key : κ) (hflush : .close false ∉ trace.map Prod.snd) :
    .close false ∉ labels key trace := by
  intro hmem
  obtain ⟨⟨u, action⟩, hx, hlabel⟩ := List.mem_filterMap.mp hmem
  cases action with
  | submit k event => simp [label] at hlabel
  | expire timer => simp [label] at hlabel
  | fire timer => simp [label] at hlabel
  | dispatch k event => simp [label] at hlabel
  | close flush =>
    simp only [label, Option.ite_none_right_eq_some, Option.some.injEq,
      Debouncer.Event.close.injEq] at hlabel
    exact hflush (List.mem_map.mpr ⟨_, hx, by rw [hlabel.2]⟩)

/-- Under every interleaving in which every close flushes, the accepted events of a key fall into
consecutive blocks and a rest that is pending: what is dispatched or still to be dispatched are the
merged blocks, each once, and after the close there is no rest. -/
theorem accepted_conserved (h : Run (Step merge) initial trace t)
    (hflush : .close false ∉ trace.map Prod.snd) (key : κ) :
    ∃ (blocks : List (ε × List ε)) (rest : List ε),
      accepted key (trace.map Prod.snd) = (blocks.map fun b => b.1 :: b.2).flatten ++ rest ∧
      (dispatched key (trace.map Prod.snd) ++ ofKey key t.dispatching).Perm
        (blocks.map fun b => b.2.foldl merge b.1) ∧
      (.close true ∈ trace.map Prod.snd → rest = []) := by
  obtain ⟨seen, hrun, hseen⟩ := run_view key h
  obtain ⟨hperm, hpending⟩ := Debouncer.conserved hrun [] rfl
  rw [hseen] at hperm hpending
  have hflatten := Debouncer.windows_flatten [] _ (flushed_labels key hflush)
  have hfilled := Debouncer.settled_ne_nil [] (labels key trace)
  rw [List.nil_append, submitted_labels key h] at hflatten
  rw [dispatched_labels] at hperm
  obtain ⟨blocks, hblocks⟩ := Debouncer.exists_blocks hfilled
  refine ⟨blocks, (Debouncer.windows [] (labels key trace)).current, ?_, ?_, fun hclose => ?_⟩
  · rw [← hflatten, hblocks]
  · rw [hblocks, List.filterMap_map] at hperm
    refine (List.perm_append_comm.trans hperm).trans ?_
    have hmerged : (Debouncer.coalesce merge ∘ fun b : ε × List ε => b.1 :: b.2) =
        fun b => some (b.2.foldl merge b.1) := funext fun b => Debouncer.coalesce_cons b.1 b.2
    rw [hmerged, List.filterMap_eq_map', Debouncer.initial, List.nil_append]
  · have hclosed : t.closed = true := by
      rw [run_closed h, List.any_eq_true]
      exact ⟨_, hclose, rfl⟩
    have hsettled := h.invariant Settled step_settled fun _ => rfl
    rw [view, hsettled hclosed] at hpending
    exact Debouncer.coalesce_eq_none.mp hpending.symm

/-- The first timer is cancelled after its function was called, and takes the event that was merged
since; the second takes an event that armed a third one, and the close takes the last. -/
theorem accepted_conserved_sample :
    ∃ (trace : List (PathDebouncer Nat (List Nat) × Action Nat (List Nat)))
      (t : PathDebouncer Nat (List Nat)),
      trace.map Prod.snd = [.submit 7 [1], .expire (0, 7), .submit 7 [2], .fire (0, 7),
        .submit 7 [3], .expire (1, 7), .fire (1, 7), .submit 7 [4], .close true, .submit 7 [5],
        .dispatch 7 [4], .dispatch 7 [1, 2], .dispatch 7 [3]] ∧
      ∃ (blocks : List (List Nat × List (List Nat))) (rest : List (List Nat)),
        accepted 7 (trace.map Prod.snd) = (blocks.map fun b => b.1 :: b.2).flatten ++ rest ∧
        (dispatched 7 (trace.map Prod.snd) ++ ofKey 7 t.dispatching).Perm
          (blocks.map fun b => b.2.foldl (· ++ ·) b.1) ∧
        (.close true ∈ trace.map Prod.snd → rest = []) := by
  have h := @Run.nil _ _ (@Step Nat (List Nat) _ (· ++ ·)) initial
  have h := h.snoc (.submit _ 7 [1])
  have h := h.snoc (.expire _ (0, 7) (by decide))
  have h := h.snoc (.submit _ 7 [2])
  have h := h.snoc (.fire _ (0, 7) (by decide))
  have h := h.snoc (.submit _ 7 [3])
  have h := h.snoc (.expire _ (1, 7) (by decide))
  have h := h.snoc (.fire _ (1, 7) (by decide))
  have h := h.snoc (.submit _ 7 [4])
  have h := h.snoc (.close _ true)
  have h := h.snoc (.submit _ 7 [5])
  have h := h.snoc (.dispatch _ 7 [4] [(7, [1, 2]), (7, [3])] [] (by decide))
  have h := h.snoc (.dispatch _ 7 [1, 2] [] [(7, [3])] rfl)
  have h := h.snoc (.dispatch _ 7 [3] [] [] rfl)
  exact ⟨_, _, rfl, accepted_conserved h (by simp) 7⟩

end PathDebouncer

end Pine
