import Mathlib.Data.Rat.Floor
import Pine.Core.Dict
import Pine.Core.SlidingWindow
import Pine.Core.Text

/-!
# The rate limiter of the console

Each bucket and key has a log of the attempts that were admitted, and every attempt first
drops what has left its window from all logs. The clock is exact; the logs agree with the
admitted attempts at every later time, whatever was pruned or rejected in between.
-/

namespace Pine

open SlidingWindow (expire expire_expire expire_snoc Bounded)

/-- What `hit` raises. -/
inductive HitError where
  | valueError (message : Text)
  | rateLimitExceeded (retry_after_seconds : Int)
  deriving DecidableEq

/-- `RateLimitExceeded.__init__` -/
def HitError.exceeded (retry_after_seconds : Int) : HitError :=
  .rateLimitExceeded (max 1 retry_after_seconds)

/-- What is kept for a bucket and key: its value in `_windows` and its log in `_events`. -/
structure Attempts (K : Type) where
  window_seconds : Nat
  events : List K
  deriving DecidableEq

/-- `ConsoleRateLimiter`; `_events` and `_windows` have the same keys. -/
structure ConsoleRateLimiter (K : Type) where
  max_keys : Nat
  attempts : Dict (Text × Text) (Attempts K)

/-- The arguments of a call of `hit`, and what the clock reads in it. -/
structure Hit (K : Type) where
  bucket : Text
  key : Text
  limit : Nat
  window_seconds : Nat
  now : K

/-- `item` -/
def Hit.item {K : Type} (h : Hit K) : Text × Text := (h.bucket, h.key)

namespace ConsoleRateLimiter

variable {K : Type} [Field K] [LinearOrder K]

/-- A limiter that has seen no attempt. -/
def initial (max_keys : Nat) : ConsoleRateLimiter K := ⟨max_keys, .empty⟩

/-- Drop what has left the window of a log. -/
def Attempts.since (now : K) (a : Attempts K) : Attempts K :=
  { a with events := expire (now - a.window_seconds) a.events }

/-- `_prune` -/
def prune (now : K) (s : ConsoleRateLimiter K) : ConsoleRateLimiter K :=
  { s with
    attempts := s.attempts.filterMap fun _ a =>
      if (Attempts.since now a).events = [] then none else some (Attempts.since now a) }

/-- The log of a pair; one that is not tracked has an empty one. -/
def log (item : Text × Text) (s : ConsoleRateLimiter K) : List K :=
  (s.attempts.get? item).elim [] Attempts.events

variable {s : ConsoleRateLimiter K} {item : Text × Text} {now later : K}

section

variable [IsStrictOrderedRing K]

theorem since_since (hnow : now ≤ later) (a : Attempts K) :
    Attempts.since later (Attempts.since now a) = Attempts.since later a := by
  simp only [Attempts.since, expire_expire (sub_le_sub_right hnow _)]

/-- What an earlier call pruned is pruned by a later one. -/
theorem prune_prune (hnow : now ≤ later) (s : ConsoleRateLimiter K) :
    (s.prune now).prune later = s.prune later := by
  simp only [prune, ConsoleRateLimiter.mk.injEq, true_and]
  refine Dict.ext ?_
  simp only [Dict.filterMap, List.filterMap_filterMap]
  refine List.filterMap_congr fun x _ => ?_
  by_cases hempty : (Attempts.since now x.2).events = []
  · have hlater : (Attempts.since later x.2).events = [] := by
      rw [← since_since hnow, Attempts.since, hempty, SlidingWindow.expire_nil]
    simp [hempty, hlater]
  · simp [hempty, since_since hnow]

end

theorem get?_prune (now : K) (s : ConsoleRateLimiter K) (item : Text × Text) :
    (s.prune now).attempts.get? item = (s.attempts.get? item).bind fun a =>
      if (Attempts.since now a).events = [] then none else some (Attempts.since now a) :=
  Dict.get?_filterMap _ _ _

/-- The log of a pair after pruning. -/
theorem log_prune {window : Nat}
    (hwindow : ∀ a, s.attempts.get? item = some a → a.window_seconds = window) (now : K) :
    log item (s.prune now) = expire (now - window) (log item s) := by
  rw [log, log, get?_prune]
  cases ha : s.attempts.get? item with
  | none => rfl
  | some a =>
    have hsince : (Attempts.since now a).events = expire (now - window) a.events := by
      rw [Attempts.since, hwindow a ha]
    rw [Option.bind_some, hsince]
    split
    · rename_i hempty
      exact hempty.symm
    · exact hsince

/-- Pruning keeps the windows of the pairs that it keeps. -/
theorem window_prune {window : Nat}
    (hwindow : ∀ a, s.attempts.get? item = some a → a.window_seconds = window) (now : K) :
    ∀ a, (s.prune now).attempts.get? item = some a → a.window_seconds = window := by
  intro a ha
  rw [get?_prune, Option.bind_eq_some_iff] at ha
  obtain ⟨b, hb, hkept⟩ := ha
  split at hkept
  · cases hkept
  · cases hkept
    exact hwindow b hb

theorem size_prune_le (now : K) (s : ConsoleRateLimiter K) :
    (s.prune now).attempts.size ≤ s.attempts.size :=
  Dict.size_filterMap_le _ _

/-- A pair that is tracked after pruning has nothing to drop any more. -/
theorem since_pruned [IsStrictOrderedRing K] {a : Attempts K}
    (ha : (s.prune now).attempts.get? item = some a) :
    Attempts.since now a = a := by
  rw [get?_prune, Option.bind_eq_some_iff] at ha
  obtain ⟨b, -, hkept⟩ := ha
  split at hkept
  · cases hkept
  · cases hkept
    exact since_since le_rfl b

/-! ## The log of a pair -/

/-- What holds of a pair at a time: its admitted attempts are bounded, and its log agrees with them from
then on. -/
structure Enforced (item : Text × Text) (limit window : Nat) (now : K) (times : List K)
    (s : ConsoleRateLimiter K) : Prop where
  sorted : times.Pairwise (· ≤ ·)
  past : ∀ a ∈ times, a ≤ now
  bounded : Bounded (window : K) limit times
  windows : ∀ a, s.attempts.get? item = some a → a.window_seconds = window
  agrees : ∀ later, now ≤ later →
    expire (later - window) (log item s) = expire (later - window) times

theorem Enforced.mono {limit window : Nat} {times : List K}
    (h : Enforced item limit window now times s) (hnow : now ≤ later) :
    Enforced item limit window later times s :=
  ⟨h.sorted, fun a ha => (h.past a ha).trans hnow, h.bounded, h.windows,
    fun time htime => h.agrees time (hnow.trans htime)⟩

theorem Enforced.prune [IsStrictOrderedRing K] {limit window : Nat} {times : List K}
    (h : Enforced item limit window now times s) :
    Enforced item limit window now times (s.prune now) := by
  refine ⟨h.sorted, h.past, h.bounded, window_prune h.windows now, fun later hlater => ?_⟩
  rw [log_prune h.windows, expire_expire (sub_le_sub_right hlater _), h.agrees later hlater]

/-- The log of a pair right after pruning is its current window. -/
theorem Enforced.log_pruned {limit window : Nat} {times : List K}
    (h : Enforced item limit window now times s) :
    log item (s.prune now) = expire (now - window) times := by
  rw [log_prune h.windows, h.agrees now le_rfl]

theorem enforced_initial (item : Text × Text) (limit window : Nat) (now : K) (max_keys : Nat) :
    Enforced item limit window now [] (initial max_keys) :=
  ⟨.nil, by simp, SlidingWindow.bounded_nil _ _, by simp [initial], fun _ _ => rfl⟩

theorem Enforced.congr {limit window : Nat} {times : List K} {t : ConsoleRateLimiter K}
    (h : Enforced item limit window now times s)
    (hsame : t.attempts.get? item = s.attempts.get? item) :
    Enforced item limit window now times t := by
  refine ⟨h.sorted, h.past, h.bounded, fun a ha => h.windows a (hsame ▸ ha), ?_⟩
  rw [log, hsame]
  exact h.agrees

/-! ## One attempt -/

variable [FloorRing K]

/-- `hit` for a pair that is tracked. -/
def record (item : Text × Text) (a : Attempts K) (limit : Nat) (now : K)
    (s : ConsoleRateLimiter K) : ConsoleRateLimiter K × Except HitError Unit :=
  let a := Attempts.since now a
  let put := fun a => { s with attempts := s.attempts.set item a }
  match if limit ≤ a.events.length then a.events.head? else none with
  | some first => (put a, .error (.exceeded ⌈(a.window_seconds : K) - (now - first)⌉))
  | none => (put { a with events := a.events ++ [now] }, .ok ())

/-- `hit` -/
def hit (s : ConsoleRateLimiter K) (h : Hit K) : ConsoleRateLimiter K × Except HitError Unit :=
  if h.bucket = [] ∨ h.key = [] ∨ h.limit < 1 ∨ h.window_seconds < 1 then
    (s, .error (.valueError (text "rate limit parameters are invalid")))
  else
    let s := s.prune h.now
    match s.attempts.get? h.item with
    | none =>
      if s.max_keys ≤ s.attempts.size then (s, .error (.exceeded h.window_seconds))
      else s.record h.item ⟨h.window_seconds, []⟩ h.limit h.now
    | some a =>
      if a.window_seconds ≠ h.window_seconds then
        (s, .error (.valueError (text "rate limit window cannot change for an existing bucket key")))
      else s.record h.item a h.limit h.now

/-- The limiter after some attempts. -/
def after (s : ConsoleRateLimiter K) (hits : List (Hit K)) : ConsoleRateLimiter K :=
  hits.foldl (fun s h => (s.hit h).1) s

/-- What the callers of some attempts see. -/
def outcomes (s : ConsoleRateLimiter K) : List (Hit K) → List (Except HitError Unit)
  | [] => []
  | h :: rest => (s.hit h).2 :: (s.hit h).1.outcomes rest

/-- The times of the admitted attempts of a pair. -/
def admitted (item : Text × Text) (s : ConsoleRateLimiter K) : List (Hit K) → List K
  | [] => []
  | h :: rest =>
    (if h.item = item ∧ (s.hit h).2 = .ok () then [h.now] else []) ++
      (s.hit h).1.admitted item rest

variable {h : Hit K}

/-- The arguments that `hit` accepts. -/
def Hit.Valid (h : Hit K) : Prop := h.bucket ≠ [] ∧ h.key ≠ [] ∧ 1 ≤ h.limit ∧ 1 ≤ h.window_seconds

/-- What a call of `hit` does. -/
inductive HitStep (s : ConsoleRateLimiter K) (h : Hit K) :
    ConsoleRateLimiter K × Except HitError Unit → Prop
  | invalid (message : Text) : ¬ Hit.Valid h → HitStep s h (s, .error (.valueError message))
  | full : Hit.Valid h → (s.prune h.now).attempts.get? h.item = none →
      s.max_keys ≤ (s.prune h.now).attempts.size →
      HitStep s h (s.prune h.now, .error (.exceeded h.window_seconds))
  | changed (message : Text) (a : Attempts K) : Hit.Valid h →
      (s.prune h.now).attempts.get? h.item = some a → a.window_seconds ≠ h.window_seconds →
      HitStep s h (s.prune h.now, .error (.valueError message))
  | exceeded (first : K) : Hit.Valid h → (log h.item (s.prune h.now)).head? = some first →
      h.limit ≤ (log h.item (s.prune h.now)).length →
      HitStep s h (s.prune h.now, .error (.exceeded ⌈(h.window_seconds : K) - (h.now - first)⌉))
  | admitted : Hit.Valid h →
      ((s.prune h.now).attempts.get? h.item = none →
        (s.prune h.now).attempts.size < s.max_keys) →
      (log h.item (s.prune h.now)).length < h.limit →
      HitStep s h ({ s.prune h.now with
        attempts := (s.prune h.now).attempts.set h.item
          ⟨h.window_seconds, log h.item (s.prune h.now) ++ [h.now]⟩ }, .ok ())

theorem hit_step [IsStrictOrderedRing K] (s : ConsoleRateLimiter K) (h : Hit K) :
    HitStep s h (s.hit h) := by
  unfold hit
  split
  · rename_i hinvalid
    refine .invalid _ fun hvalid => ?_
    obtain ⟨hbucket, hkey, hlimit, hwindow⟩ := hvalid
    rcases hinvalid with hb | hk | hl | hw
    · exact hbucket hb
    · exact hkey hk
    · omega
    · omega
  · rename_i hvalid
    have hvalid : Hit.Valid h := by
      simp only [not_or, Nat.not_lt] at hvalid
      exact hvalid
    dsimp only
    split
    · rename_i hnone
      have hlog : log h.item (s.prune h.now) = [] := by rw [log, hnone]; rfl
      split
      · rename_i hfull
        exact .full hvalid hnone hfull
      · rename_i hroom
        have hstep := HitStep.admitted (s := s) hvalid (fun _ => not_le.mp hroom)
          (by rw [hlog]; exact hvalid.2.2.1)
        simpa [record, Attempts.since, hlog] using hstep
    · rename_i a ha
      have hlog : log h.item (s.prune h.now) = a.events := by rw [log, ha]; rfl
      split
      · rename_i hwindow
        exact .changed _ a hvalid ha hwindow
      · rename_i hwindow
        rw [ne_eq, not_not] at hwindow
        rw [record, since_pruned ha]
        dsimp only
        split
        · rename_i first hfirst
          rw [Option.ite_none_right_eq_some] at hfirst
          rw [Dict.set_self ha, hwindow]
          exact .exceeded first hvalid (by rw [hlog]; exact hfirst.2) (by rw [hlog]; exact hfirst.1)
        · rename_i hnone
          have hroom : a.events.length < h.limit := by
            by_contra hfull
            rw [if_pos (not_lt.mp hfull), List.head?_eq_none_iff] at hnone
            rw [hnone] at hfull
            exact hfull (Nat.lt_of_lt_of_le Nat.zero_lt_one hvalid.2.2.1)
          have hstep := HitStep.admitted (s := s) hvalid
            (fun hnone => by rw [ha] at hnone; cases hnone) (by rw [hlog]; exact hroom)
          rw [hlog, ← hwindow] at hstep
          exact hstep

theorem admitted_append (item : Text × Text) (s : ConsoleRateLimiter K) (before rest : List (Hit K)) :
    s.admitted item (before ++ rest) =
      s.admitted item before ++ (s.after before).admitted item rest := by
  induction before generalizing s with
  | nil => rfl
  | cons h before ih => rw [List.cons_append, admitted, admitted, ih, List.append_assoc]; rfl

/-! ## Rejected attempts -/

variable [IsStrictOrderedRing K]

/-- An attempt does the same whether or not the logs were pruned before. -/
theorem hit_prune (hvalid : Hit.Valid h) (hnow : now ≤ h.now) : (s.prune now).hit h = s.hit h := by
  have hguard : ¬ (h.bucket = [] ∨ h.key = [] ∨ h.limit < 1 ∨ h.window_seconds < 1) := by
    simp only [not_or, Nat.not_lt]
    exact hvalid
  rw [hit, hit, if_neg hguard, if_neg hguard, prune_prune hnow]

/-- A rejected attempt leaves the limiter as it was, or pruned. -/
theorem hit_rejected (hrejected : (s.hit h).2 ≠ .ok ()) :
    (s.hit h).1 = s ∨ (s.hit h).1 = s.prune h.now := by
  have hstep := hit_step s h
  generalize s.hit h = r at hstep hrejected
  cases hstep with
  | invalid message _ => exact Or.inl rfl
  | full _ _ _ => exact Or.inr rfl
  | changed message a _ _ _ => exact Or.inr rfl
  | exceeded first _ _ _ => exact Or.inr rfl
  | admitted _ _ _ => exact absurd rfl hrejected

/-- Pruning does not change what later callers see. -/
theorem outcomes_prune {hits : List (Hit K)} (hnow : ∀ h ∈ hits, now ≤ h.now) :
    (s.prune now).outcomes hits = s.outcomes hits := by
  induction hits with
  | nil => rfl
  | cons h rest ih =>
    rw [outcomes, outcomes]
    by_cases hvalid : Hit.Valid h
    · rw [hit_prune hvalid (hnow h List.mem_cons_self)]
    · have hinvalid : ∀ u : ConsoleRateLimiter K, u.hit h =
          (u, .error (.valueError (text "rate limit parameters are invalid"))) := by
        intro u
        rw [hit, if_pos]
        simpa only [Hit.Valid, not_and_or, not_not, Nat.not_le, ne_eq] using hvalid
      rw [hinvalid, hinvalid, ih fun k hk => hnow k (List.mem_cons_of_mem _ hk)]

/-- A rejected attempt does not change what later callers see. -/
theorem outcomes_rejected {rest : List (Hit K)} (hrejected : (s.hit h).2 ≠ .ok ())
    (hclock : ∀ k ∈ rest, h.now ≤ k.now) : (s.hit h).1.outcomes rest = s.outcomes rest := by
  rcases hit_rejected hrejected with hsame | hpruned
  · rw [hsame]
  · rw [hpruned, outcomes_prune hclock]

/-! ## The number of pairs -/

theorem hit_max_keys (s : ConsoleRateLimiter K) (h : Hit K) : (s.hit h).1.max_keys = s.max_keys := by
  have hstep := hit_step s h
  generalize s.hit h = r at hstep
  cases hstep <;> rfl

/-- No attempt makes the limiter track more than its maximum. -/
theorem hit_size (hsize : s.attempts.size ≤ s.max_keys) :
    (s.hit h).1.attempts.size ≤ s.max_keys := by
  have hpruned := (size_prune_le h.now s).trans hsize
  have hstep := hit_step s h
  generalize s.hit h = r at hstep
  cases hstep with
  | invalid message _ => exact hsize
  | full _ _ _ => exact hpruned
  | changed message a _ _ _ => exact hpruned
  | exceeded first _ _ _ => exact hpruned
  | admitted _ hslot _ =>
    cases ha : (s.prune h.now).attempts.get? h.item with
    | none =>
      rw [Dict.size_set_of_none ha]
      exact hslot ha
    | some a =>
      rw [Dict.size_set_of_some ha]
      exact hpruned

theorem after_size (hsize : s.attempts.size ≤ s.max_keys) (hits : List (Hit K)) :
    (s.after hits).attempts.size ≤ s.max_keys := by
  induction hits generalizing s with
  | nil => exact hsize
  | cons h rest ih =>
    have hrest := ih (s := (s.hit h).1) ((hit_max_keys s h).symm ▸ hit_size hsize)
    rwa [hit_max_keys] at hrest

/-! ## Sequences of attempts -/

/-- One attempt at a pair, or at another one. -/
theorem Enforced.hit {limit window : Nat} {times : List K}
    (hs : Enforced item limit window now times s) (hnow : now ≤ h.now)
    (hfixed : h.item = item → h.limit = limit ∧ h.window_seconds = window) :
    Enforced item limit window h.now
      (times ++ if h.item = item ∧ (s.hit h).2 = .ok () then [h.now] else []) (s.hit h).1 := by
  have hlater := hs.mono hnow
  have hpruned := hlater.prune
  have hstep := hit_step s h
  generalize s.hit h = r at hstep
  cases hstep with
  | invalid message _ => simpa using hlater
  | full _ _ _ => simpa using hpruned
  | changed message a _ _ _ => simpa using hpruned
  | exceeded first _ _ _ => simpa using hpruned
  | admitted hvalid _ hroom =>
    by_cases hitem : h.item = item
    · obtain ⟨rfl, rfl⟩ := hfixed hitem
      subst hitem
      rw [hlater.log_pruned] at hroom ⊢
      have hcutoff : h.now - (h.window_seconds : K) < h.now :=
        sub_lt_self _ (Nat.cast_pos.mpr hvalid.2.2.2)
      rw [if_pos ⟨rfl, rfl⟩]
      refine ⟨?_, ?_, hs.bounded.snoc hs.sorted hroom, by simp, fun later hlater' => ?_⟩
      · rw [List.pairwise_append]
        exact ⟨hs.sorted, List.pairwise_singleton _ _, fun a ha b hb =>
          List.mem_singleton.mp hb ▸ hlater.past a ha⟩
      · intro a ha
        rcases List.mem_append.mp ha with ha | ha
        · exact hlater.past a ha
        · exact (List.mem_singleton.mp ha).le
      · rw [← expire_snoc hcutoff, log, Dict.get?_set, if_pos rfl, Option.elim_some,
          expire_expire (sub_le_sub_right hlater' _)]
    · rw [if_neg fun hboth => hitem hboth.1, List.append_nil]
      exact hpruned.congr (by rw [Dict.get?_set, if_neg (Ne.symm hitem)])

/-- A sequence of attempts at a clock that does not go back. -/
theorem Enforced.after {limit window : Nat} {times : List K} {hits : List (Hit K)}
    (hs : Enforced item limit window now times s) (hclock : hits.Pairwise (·.now ≤ ·.now))
    (hnow : ∀ h ∈ hits, now ≤ h.now)
    (hfixed : ∀ h ∈ hits, h.item = item → h.limit = limit ∧ h.window_seconds = window)
    (hlater : now ≤ later) (hlast : ∀ h ∈ hits, h.now ≤ later) :
    Enforced item limit window later (times ++ s.admitted item hits) (s.after hits) := by
  induction hits generalizing s times now with
  | nil =>
    rw [admitted, List.append_nil]
    exact hs.mono hlater
  | cons h rest ih =>
    obtain ⟨hfirst, hrest⟩ := List.pairwise_cons.mp hclock
    rw [admitted, ← List.append_assoc]
    exact ih (hs.hit (hnow h List.mem_cons_self) (hfixed h List.mem_cons_self)) hrest hfirst
      (fun k hk => hfixed k (List.mem_cons_of_mem _ hk)) (hlast h List.mem_cons_self)
      fun k hk => hlast k (List.mem_cons_of_mem _ hk)

/-- After any attempts from the start on. -/
theorem enforced_after (max_keys : Nat) {limit window : Nat} {hits : List (Hit K)}
    (hclock : hits.Pairwise (·.now ≤ ·.now))
    (hfixed : ∀ h ∈ hits, h.item = item → h.limit = limit ∧ h.window_seconds = window)
    (hlast : ∀ h ∈ hits, h.now ≤ later) :
    Enforced item limit window later ((initial max_keys).admitted item hits)
      ((initial max_keys).after hits) := by
  cases hits with
  | nil => exact enforced_initial item limit window later max_keys
  | cons h rest =>
    obtain ⟨hfirst, -⟩ := List.pairwise_cons.mp hclock
    have hnow : ∀ k ∈ h :: rest, h.now ≤ k.now := by
      intro k hk
      rcases List.mem_cons.mp hk with rfl | hk
      · exact le_rfl
      · exact hfirst k hk
    have hs := enforced_initial item limit window h.now max_keys
    simpa using hs.after hclock hnow hfixed (hlast h List.mem_cons_self) hlast

omit [FloorRing K] [IsStrictOrderedRing K] in
/-- Attempts in the order of the clock have an end. -/
theorem exists_last {hits : List (Hit K)} (hclock : hits.Pairwise (·.now ≤ ·.now)) :
    ∃ last, ∀ h ∈ hits, h.now ≤ last := by
  rcases List.eq_nil_or_concat' hits with rfl | ⟨start, last, rfl⟩
  · exact ⟨0, by simp⟩
  · refine ⟨last.now, fun h hh => ?_⟩
    rcases List.mem_append.mp hh with hh | hh
    · exact (List.pairwise_append.mp hclock).2.2 h hh last List.mem_cons_self
    · rw [List.mem_singleton.mp hh]

/-- An attempt that was rejected because its pair had used up its limit: the pair is tracked, so it was
not turned away for lack of a slot. -/
def LimitRejected (s : ConsoleRateLimiter K) (h : Hit K) (retry_after : Int) : Prop :=
  (s.prune h.now).attempts.get? h.item ≠ none ∧
    (s.hit h).2 = .error (.rateLimitExceeded retry_after)

/-- The pair of an attempt is tracked, or there is a free slot for it. -/
def HasSlot (s : ConsoleRateLimiter K) (h : Hit K) : Prop :=
  (s.prune h.now).attempts.get? h.item ≠ none ∨ (s.prune h.now).attempts.size < s.max_keys

/-- An attempt of a pair after a limit rejection, at least the reported time later and without another
admitted one in between, is admitted if it finds a slot. -/
theorem Enforced.retry {limit window : Nat} {times : List K} {t : ConsoleRateLimiter K} {k : Hit K}
    {retry_after : Int} (hs : Enforced item limit window h.now times s)
    (ht : Enforced item limit window k.now times t)
    (hh : h.item = item ∧ h.limit = limit ∧ h.window_seconds = window)
    (hk : k.item = item ∧ k.limit = limit ∧ k.window_seconds = window)
    (hnow : h.now ≤ k.now) (hrejected : s.LimitRejected h retry_after)
    (hretry : h.now + retry_after ≤ k.now) (hslot : t.HasSlot k) : (t.hit k).2 = .ok () := by
  obtain ⟨rfl, rfl, rfl⟩ := hh
  obtain ⟨hitem, hlimit, hwindow⟩ := hk
  obtain ⟨htracked, hraised⟩ := hrejected
  have hstep := hit_step s h
  generalize s.hit h = r at hstep hraised
  cases hstep with
  | invalid message _ => cases hraised
  | full _ hnone _ => exact absurd hnone htracked
  | changed message a _ _ _ => cases hraised
  | admitted _ _ _ => cases hraised
  | exceeded first hvalid hfirst hfull =>
    -- the first attempt of the window at `h` has left the window at `k`
    rw [HitError.exceeded, Except.error.injEq, HitError.rateLimitExceeded.injEq] at hraised
    rw [hs.log_pruned] at hfirst
    have hleft : first + h.window_seconds ≤ k.now := by
      have hceil := Int.le_ceil ((h.window_seconds : K) - (h.now - first))
      have hmax : ((⌈(h.window_seconds : K) - (h.now - first)⌉ : Int) : K) ≤ retry_after :=
        Int.cast_le.mpr (hraised ▸ le_max_right _ _)
      linarith
    have hroom := SlidingWindow.length_expire_lt hfirst hnow hleft
    have hlength := hs.bounded.length_expire hs.sorted hs.past
    have hvalid : Hit.Valid k := by
      obtain ⟨hbucket, hkey⟩ := Prod.mk.inj hitem
      rw [Hit.Valid, hbucket, hkey, hlimit, hwindow]
      exact hvalid
    have hretried := hit_step t k
    generalize t.hit k = r at hretried
    cases hretried with
    | invalid message hinvalid => exact absurd hvalid hinvalid
    | full _ hnone hsize =>
      rcases hslot with htracked | hfree
      · exact absurd hnone htracked
      · exact absurd hsize (not_le.mpr hfree)
    | changed message a _ ha hchanged =>
      rw [hitem] at ha
      exact absurd ((window_prune ht.windows k.now a ha).trans hwindow.symm) hchanged
    | exceeded _ _ _ hagain =>
      rw [hitem, ht.log_pruned, hlimit] at hagain
      omega
    | admitted _ _ _ => rfl

/-- For any attempts at a clock that does not go back, with a limit and a window that are fixed for each
pair: every window of a pair holds at most its limit of admitted attempts, a rejected attempt changes
nothing for later ones, the number of pairs is bounded, and the reported time to retry is enough. -/
theorem hits_limited (max_keys : Nat) (limit window : Text × Text → Nat) (hits : List (Hit K))
    (hclock : hits.Pairwise (·.now ≤ ·.now))
    (hfixed : ∀ h ∈ hits, h.limit = limit h.item ∧ h.window_seconds = window h.item) :
    (∀ item t, SlidingWindow.within (window item : K) t ((initial max_keys).admitted item hits) ≤
        limit item) ∧
      (∀ before h rest, hits = before ++ h :: rest →
        (((initial max_keys).after before).hit h).2 ≠ .ok () →
        (((initial max_keys).after before).hit h).1.outcomes rest =
          ((initial max_keys).after before).outcomes rest) ∧
      (∀ before rest, hits = before ++ rest →
        ((initial max_keys).after before).attempts.size ≤ max_keys) ∧
      ∀ (before : List (Hit K)) (h : Hit K) (between : List (Hit K)) (k : Hit K) (rest : List (Hit K))
        (retry_after : Int), hits = before ++ h :: (between ++ k :: rest) →
        ((initial max_keys).after before).LimitRejected h retry_after → k.item = h.item →
        ((initial max_keys).after (before ++ [h])).admitted h.item between = [] →
        h.now + retry_after ≤ k.now →
        ((initial max_keys).after (before ++ h :: between)).HasSlot k →
        (((initial max_keys).after (before ++ h :: between)).hit k).2 = .ok () := by
  have hpair : ∀ item, ∀ h ∈ hits, h.item = item →
      h.limit = limit item ∧ h.window_seconds = window item :=
    fun item h hh hitem => hitem ▸ hfixed h hh
  refine ⟨fun item t => ?_, ?_, ?_, ?_⟩
  · obtain ⟨last, hlast⟩ := exists_last hclock
    exact (enforced_after max_keys hclock (hpair item) hlast).bounded t
  · rintro before h rest rfl hrejected
    obtain ⟨-, hrest, -⟩ := List.pairwise_append.mp hclock
    exact outcomes_rejected hrejected (List.pairwise_cons.mp hrest).1
  · rintro before rest rfl
    exact after_size (Nat.zero_le _) before
  · rintro before h between k rest retry_after rfl hrejected hitem hnone hretry hslot
    have hsplit : before ++ h :: (between ++ k :: rest) = (before ++ h :: between) ++ k :: rest := by
      simp
    obtain ⟨hbefore, hafter, hbelow⟩ := List.pairwise_append.mp hclock
    have hs := @enforced_after K _ _ h.item h.now _ _ max_keys (limit h.item) (window h.item) before
      hbefore (fun g hg => hpair h.item g (by simp [hg])) fun g hg =>
        hbelow g hg h List.mem_cons_self
    rw [hsplit] at hclock
    obtain ⟨hbefore', -, hbelow'⟩ := List.pairwise_append.mp hclock
    have ht := @enforced_after K _ _ h.item k.now _ _ max_keys (limit h.item) (window h.item)
      (before ++ h :: between) hbefore' (fun g hg => hpair h.item g (hsplit ▸ List.mem_append_left _ hg))
      fun g hg => hbelow' g hg k List.mem_cons_self
    have hsame : (initial max_keys).admitted h.item (before ++ h :: between) =
        (initial max_keys).admitted h.item before := by
      rw [List.append_cons, admitted_append, hnone, admitted_append, admitted, if_neg, admitted]
      · simp
      · rw [hrejected.2]
        simp
    rw [hsame] at ht
    have hh := hfixed h (by simp)
    have hk := hfixed k (by simp)
    rw [hitem] at hk
    exact hs.retry ht ⟨rfl, hh⟩ ⟨hitem, hk⟩ (hbelow' h (by simp) k List.mem_cons_self) hrejected hretry
      hslot

/-- An attempt of one confirmation that may be made once in ten seconds. -/
def sampleHit (now : ℚ) : Hit ℚ := ⟨text "confirmation", text "w1", 1, 10, now⟩

/-- The second attempt is told to come back in ten seconds, rounded up, and the third does. -/
theorem hits_limited_sample :
    (∀ t, SlidingWindow.within ((10 : Nat) : ℚ) t ((initial 1).admitted (sampleHit 0).item
        [sampleHit 0, sampleHit (1 / 2), sampleHit (21 / 2)]) ≤ 1) ∧
      (((initial 1).after [sampleHit 0]).hit (sampleHit (1 / 2))).2 =
        .error (.rateLimitExceeded 10) ∧
      (((initial 1).after [sampleHit 0, sampleHit (1 / 2)]).hit (sampleHit (21 / 2))).2 = .ok () := by
  have hraised : (((initial 1).after [sampleHit 0]).hit (sampleHit (1 / 2))).2 =
      .error (.rateLimitExceeded 10) := by decide +kernel
  have hlimited := hits_limited 1 (fun _ => 1) (fun _ => 10)
    [sampleHit 0, sampleHit (1 / 2), sampleHit (21 / 2)]
    (by simp [sampleHit]; norm_num) (by simp [sampleHit])
  refine ⟨hlimited.1 _, hraised, hlimited.2.2.2 [sampleHit 0] (sampleHit (1 / 2)) []
    (sampleHit (21 / 2)) [] 10 rfl ⟨by decide +kernel, hraised⟩ rfl rfl ?_ (Or.inr ?_)⟩
  · norm_num [sampleHit]
  · decide +kernel

end ConsoleRateLimiter

end Pine
