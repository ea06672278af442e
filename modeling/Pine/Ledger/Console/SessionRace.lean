import Pine.Ledger.Console.SessionHistory

/-!
# Lookups of one session that overlap

A lookup reads the clock and begins its transaction later. The row of the session never
goes back in time, so a transaction is refused when one with a later reading was
committed before it. Overlapping lookups of a live session all find it valid exactly
when they are committed in the order of their readings.
-/

namespace Pine

/-- A lookup reads the clock, or its transaction is over. -/
inductive LookupEvent where
  | read (clock : DateTime) (user_id : Text)
  | commit (clock : DateTime) (user_id : Text) (answer : Except Stop SessionAnswer)

/-- The rows, the clock, and the lookups that have read it and wait for their transaction. -/
structure LookupSystem where
  rows : List SessionRow
  time : Int
  waiting : List (DateTime × Text)

namespace SessionWorld

variable (w : SessionWorld) (cookie_value : Text)

/-- The lookup of a waiting reading. -/
def lookupOf (user_id : Text) : SessionCall := .lookup (some cookie_value) user_id

/-- A step of one of the lookups. -/
inductive RaceStep : LookupSystem → LookupEvent → LookupSystem → Prop
  | read (s : LookupSystem) {clock : DateTime} (user_id : Text) {now : Int} :
      (w.reading clock (lookupOf cookie_value user_id)).now = .ok now → s.time ≤ now →
      RaceStep s (.read clock user_id)
        { s with time := now, waiting := s.waiting ++ [(clock, user_id)] }
  | commit {s : LookupSystem} {before after : List (DateTime × Text)} {clock : DateTime}
      {user_id : Text} {answer : Except Stop SessionAnswer} {rows' : List SessionRow} :
      s.waiting = before ++ (clock, user_id) :: after →
      (w.reading clock (lookupOf cookie_value user_id)).transact
        (lookupOf cookie_value user_id) s.rows = (answer, rows') →
      RaceStep s (.commit clock user_id answer) { s with rows := rows', waiting := before ++ after }

/-- The readings of the transactions, in the order of these. -/
def commits (trace : List (LookupSystem × LookupEvent)) : List Int :=
  trace.filterMap fun x =>
    match x.2 with
    | .commit clock user_id _ => (w.reading clock (lookupOf cookie_value user_id)).now.toOption
    | .read _ _ => none

/-- Every lookup whose transaction is over found the session. -/
def AllValid (session : ConsoleSession) (trace : List (LookupSystem × LookupEvent)) : Prop :=
  ∀ x ∈ trace, ∀ clock user_id answer, x.2 = .commit clock user_id answer →
    ∃ now idle, answer = .ok (.looked (.valid (session.used now idle)))

/-- The transactions come in the order of the readings, none of which is so late that its idle
lifetime would end after the last day of the calendar. -/
def InOrder (trace : List (LookupSystem × LookupEvent)) : Prop :=
  (w.commits cookie_value trace).Pairwise (· ≤ ·) ∧
    ∀ t ∈ w.commits cookie_value trace,
      t + w.idle_lifetime < (DateTime.maxOrdinal + 1) * (dayMicros : Int)

/-- A reading of the owner's lookup that falls before both expiries of the session. -/
def Early (session : ConsoleSession) (clock : DateTime) (user_id : Text) : Prop :=
  normalizeUserIdentity user_id = some session.user_id ∧
    ∃ now, (w.reading clock (lookupOf cookie_value user_id)).now = .ok now ∧
      session.last_seen_at ≤ now ∧ now < session.idle_expires_at

variable {w cookie_value} {session : ConsoleSession} {rows rows' : List SessionRow}
  {clock : DateTime} {user_id : Text} {now seen : Int}

/-- When the session is idle for too long after a use. -/
def idleAfter (w : SessionWorld) (session : ConsoleSession) (seen : Int) : Int :=
  min (seen + w.idle_lifetime) session.absolute_expires_at

/-- The row of a session that was last seen within its lifetimes. -/
structure Live (w : SessionWorld) (session : ConsoleSession) (rows : List SessionRow) (seen : Int) :
    Prop where
  stores : Stores rows
  lawful : (session.used seen (w.idleAfter session seen)).Lawful
  mem : (session.used seen (w.idleAfter session seen)).row ∈ rows

/-- A use leaves the session live. -/
theorem Live.used (hconfigured : w.Configured) (hlive : w.Live session rows seen) (hseen : seen ≤ now)
    (hidle : now < w.idleAfter session seen) :
    w.Live session (useRows session.session_hash now (w.idleAfter session now) rows) now := by
  have hpositive := hconfigured.idle
  have habsolute : now < session.absolute_expires_at := lt_of_lt_of_le hidle (min_le_right _ _)
  have hlater : now ≤ w.idleAfter session now := le_min (by omega) habsolute.le
  have hused : (session.used now (w.idleAfter session now)).Lawful :=
    hlive.lawful.used hseen hlater (min_le_right _ _)
  exact ⟨hlive.stores.useRows hlive.mem hused, hused,
    (mem_useRows hlive.stores hlive.mem).mpr (Or.inl rfl)⟩

section

variable (hconfigured : w.Configured) (hlive : w.Live session rows seen)
  (htoken : isOpaqueToken cookie_value = true)
  (hhash : session.session_hash = w.hashSessionId cookie_value)
  (hidentity : normalizeUserIdentity user_id = some session.user_id)
  (hnow : (w.reading clock (lookupOf cookie_value user_id)).now = .ok now)
  (hidle : now < w.idleAfter session seen)

include hconfigured hlive htoken hhash hidentity hnow hidle

/-- The statements of a lookup of a live session. -/
theorem run_live :
    ((w.reading clock (lookupOf cookie_value user_id)).lookup (some cookie_value) user_id).run rows =
    match later now w.idle_lifetime with
    | .error e => (.error e, rows)
    | .ok idle =>
      if seen ≤ now then
        (.ok (.valid (session.used now (min idle session.absolute_expires_at))),
          useRows session.session_hash now (min idle session.absolute_expires_at) rows)
      else (.error .unavailable, rows) := by
  have habsolute : now < session.absolute_expires_at := lt_of_lt_of_le hidle (min_le_right _ _)
  have hlookup := run_lookup (w := w.reading clock (lookupOf cookie_value user_id)) hlive.stores
    hlive.lawful hlive.mem htoken hidentity hnow hhash
  have hrun := run_lookupSession (w := w.reading clock (lookupOf cookie_value user_id))
    hlive.stores hlive.lawful hlive.mem (now_in hnow) hconfigured.idle.le habsolute hidle
  exact hlookup.trans hrun

/-- A reading that is not behind the last one, nor too late, finds the session. -/
theorem transact_valid (hseen : seen ≤ now)
    (hcap : now + w.idle_lifetime < (DateTime.maxOrdinal + 1) * (dayMicros : Int)) :
    (w.reading clock (lookupOf cookie_value user_id)).transact (lookupOf cookie_value user_id) rows =
      (.ok (.looked (.valid (session.used now (w.idleAfter session now)))),
        useRows session.session_hash now (w.idleAfter session now) rows) := by
  have hrun := run_live hconfigured hlive htoken hhash hidentity hnow hidle
  rw [later, if_pos hcap] at hrun
  dsimp only at hrun
  rw [if_pos hseen] at hrun
  rw [transact, lookupOf, program, Program.run_bind]
  rw [lookupOf] at hrun
  rw [hrun]
  rfl

/-- Any other reading is refused, and changes nothing. -/
theorem transact_refused (h : ¬ (seen ≤ now ∧
    now + w.idle_lifetime < (DateTime.maxOrdinal + 1) * (dayMicros : Int))) :
    ∃ stop, (w.reading clock (lookupOf cookie_value user_id)).transact
      (lookupOf cookie_value user_id) rows = (.error stop, rows) := by
  have hrun := run_live hconfigured hlive htoken hhash hidentity hnow hidle
  obtain ⟨stop, hrefused⟩ : ∃ stop, ((w.reading clock (lookupOf cookie_value user_id)).lookup
      (some cookie_value) user_id).run rows = (.error stop, rows) := by
    rw [later] at hrun
    by_cases hcap : now + w.idle_lifetime < (DateTime.maxOrdinal + 1) * (dayMicros : Int)
    · rw [if_pos hcap] at hrun
      dsimp only at hrun
      rw [if_neg fun hseen => h ⟨hseen, hcap⟩] at hrun
      exact ⟨_, hrun⟩
    · rw [if_neg hcap] at hrun
      exact ⟨_, hrun⟩
  refine ⟨stop, ?_⟩
  rw [transact, lookupOf, program, Program.run_bind]
  rw [lookupOf] at hrefused
  rw [hrefused]

end

/-! ## The transactions of a run -/

variable {trace : List (LookupSystem × LookupEvent)} {s t : LookupSystem} {e : LookupEvent}

theorem commits_read {clock : DateTime} {user_id : Text} :
    w.commits cookie_value (trace ++ [(s, .read clock user_id)]) = w.commits cookie_value trace := by
  simp [commits]

theorem commits_commit {answer : Except Stop SessionAnswer}
    (hnow : (w.reading clock (lookupOf cookie_value user_id)).now = .ok now) :
    w.commits cookie_value (trace ++ [(s, .commit clock user_id answer)]) =
      w.commits cookie_value trace ++ [now] := by
  simp [commits, hnow, Except.toOption]

theorem allValid_read {clock : DateTime} {user_id : Text} :
    AllValid session (trace ++ [(s, .read clock user_id)]) ↔ AllValid session trace := by
  simp only [AllValid, List.mem_append, List.mem_singleton]
  constructor
  · exact fun h x hx => h x (Or.inl hx)
  · rintro h x (hx | rfl)
    · exact h x hx
    · exact fun _ _ _ heq => by cases heq

theorem allValid_commit {answer : Except Stop SessionAnswer} :
    AllValid session (trace ++ [(s, .commit clock user_id answer)]) ↔
      AllValid session trace ∧
        ∃ now idle, answer = .ok (.looked (.valid (session.used now idle))) := by
  simp only [AllValid, List.mem_append, List.mem_singleton]
  constructor
  · exact fun h => ⟨fun x hx => h x (Or.inl hx), h _ (Or.inr rfl) _ _ _ rfl⟩
  · rintro ⟨h, hlast⟩ x (hx | rfl)
    · exact h x hx
    · rintro _ _ _ ⟨⟩
      exact hlast

theorem inOrder_read {clock : DateTime} {user_id : Text} :
    w.InOrder cookie_value (trace ++ [(s, .read clock user_id)]) ↔ w.InOrder cookie_value trace := by
  rw [InOrder, InOrder, commits_read]

theorem inOrder_commit {answer : Except Stop SessionAnswer}
    (hnow : (w.reading clock (lookupOf cookie_value user_id)).now = .ok now) :
    w.InOrder cookie_value (trace ++ [(s, .commit clock user_id answer)]) ↔
      w.InOrder cookie_value trace ∧ (∀ t ∈ w.commits cookie_value trace, t ≤ now) ∧
        now + w.idle_lifetime < (DateTime.maxOrdinal + 1) * (dayMicros : Int) := by
  rw [InOrder, InOrder, commits_commit hnow, List.pairwise_append]
  simp only [List.mem_append, List.mem_singleton, List.pairwise_singleton, true_and, forall_eq]
  constructor
  · rintro ⟨⟨hsorted, hlast⟩, hcap⟩
    exact ⟨⟨hsorted, fun t ht => hcap t (Or.inl ht)⟩, hlast, hcap now (Or.inr rfl)⟩
  · rintro ⟨⟨hsorted, hcap⟩, hlast, hnew⟩
    refine ⟨⟨hsorted, hlast⟩, ?_⟩
    rintro t (ht | rfl)
    · exact hcap t ht
    · exact hnew

/-- The session is live as of the last transaction that found it. -/
structure Raced (w : SessionWorld) (cookie_value : Text) (session : ConsoleSession)
    (trace : List (LookupSystem × LookupEvent)) (s : LookupSystem) (seen : Int) : Prop where
  live : w.Live session s.rows seen
  first : session.last_seen_at ≤ seen
  time : session.last_seen_at ≤ s.time
  waiting : ∀ x ∈ s.waiting, w.Early cookie_value session x.1 x.2
  ordered : AllValid session trace →
    w.InOrder cookie_value trace ∧ ∀ t ∈ w.commits cookie_value trace, t ≤ seen
  found : w.InOrder cookie_value trace →
    AllValid session trace ∧ (seen = session.last_seen_at ∨ seen ∈ w.commits cookie_value trace)

/-- Every step keeps the session live. -/
theorem raced_step (hconfigured : w.Configured)
    (htoken : isOpaqueToken cookie_value = true)
    (hhash : session.session_hash = w.hashSessionId cookie_value)
    (hidle : session.idle_expires_at = w.idleAfter session session.last_seen_at)
    (h : w.Raced cookie_value session trace s seen) (hstep : w.RaceStep cookie_value s e t)
    (hearly : ∀ clock user_id, e = .read clock user_id →
      normalizeUserIdentity user_id = some session.user_id ∧
        ∀ now, (w.reading clock (lookupOf cookie_value user_id)).now = .ok now →
          now < session.idle_expires_at) :
    ∃ seen', w.Raced cookie_value session (trace ++ [(s, e)]) t seen' := by
  cases hstep with
  | @read clock user_id now hnow hforth =>
    obtain ⟨hidentity, hbefore⟩ := hearly clock user_id rfl
    refine ⟨seen, h.live, h.first, h.time.trans hforth, ?_, ?_, ?_⟩
    · intro x hx
      rcases List.mem_append.mp hx with hold | hnew
      · exact h.waiting x hold
      · rw [List.mem_singleton.mp hnew]
        exact ⟨hidentity, now, hnow, h.time.trans hforth, hbefore now hnow⟩
    · rw [allValid_read, inOrder_read, commits_read]
      exact h.ordered
    · rw [allValid_read, inOrder_read, commits_read]
      exact h.found
  | @commit before after clock user_id answer rows' hwaiting htransact =>
    obtain ⟨hidentity, now, hnow, hfirst, hexpires⟩ := h.waiting (clock, user_id) (by simp [hwaiting])
    have hrest : ∀ x ∈ before ++ after, w.Early cookie_value session x.1 x.2 := by
      intro x hx
      refine h.waiting x ?_
      rw [hwaiting]
      rcases List.mem_append.mp hx with hx | hx
      · exact List.mem_append_left _ hx
      · exact List.mem_append_right _ (List.mem_cons_of_mem _ hx)
    have hlast : now < w.idleAfter session seen := by
      have hseen := h.first
      rw [hidle] at hexpires
      unfold idleAfter at hexpires ⊢
      omega
    by_cases hfine : seen ≤ now ∧
        now + w.idle_lifetime < (DateTime.maxOrdinal + 1) * (dayMicros : Int)
    · have hvalid := transact_valid hconfigured h.live htoken hhash hidentity hnow hlast hfine.1
        hfine.2
      cases htransact.symm.trans hvalid
      refine ⟨now, h.live.used hconfigured hfine.1 hlast, hfirst, h.time, hrest, ?_, ?_⟩
      · rw [allValid_commit, inOrder_commit hnow, commits_commit hnow]
        rintro ⟨hall, -⟩
        obtain ⟨horder, hbound⟩ := h.ordered hall
        refine ⟨⟨horder, fun t ht => (hbound t ht).trans hfine.1, hfine.2⟩, fun t ht => ?_⟩
        rcases List.mem_append.mp ht with hold | hnew
        · exact (hbound t hold).trans hfine.1
        · exact (List.mem_singleton.mp hnew).le
      · rw [allValid_commit, inOrder_commit hnow, commits_commit hnow]
        rintro ⟨horder, -⟩
        exact ⟨⟨(h.found horder).1, _, _, rfl⟩, Or.inr (by simp)⟩
    · obtain ⟨stop, hrefused⟩ := transact_refused hconfigured h.live htoken hhash hidentity hnow
        hlast hfine
      cases htransact.symm.trans hrefused
      refine ⟨seen, h.live, h.first, h.time, hrest, ?_, ?_⟩
      · rw [allValid_commit]
        rintro ⟨-, _, _, hanswer⟩
        cases hanswer
      · rw [inOrder_commit hnow]
        rintro ⟨horder, hbound, hcap⟩
        refine absurd ⟨?_, hcap⟩ hfine
        rcases (h.found horder).2 with rfl | hmem
        · exact hfirst
        · exact hbound seen hmem

/-- Any number of overlapping lookups of a stored session by its owner, all of which read the clock
before its expiries: every one finds the session valid exactly when the transactions come in the
order of the readings, none of which is within an idle lifetime of the end of the calendar. -/
theorem overlapping_lookups_valid_iff (hconfigured : w.Configured) {start : Int}
    {history : List (SessionSystem × SessionEvent)} {store : SessionSystem}
    (hstore : Run w.Step ⟨[], start, []⟩ history store)
    (hlawful : session.Lawful) (hmem : session.row ∈ store.rows)
    (htoken : isOpaqueToken cookie_value = true)
    (hhash : session.session_hash = w.hashSessionId cookie_value)
    (h : Run (w.RaceStep cookie_value) ⟨store.rows, store.time, []⟩ trace s)
    (hearly : ∀ x ∈ trace, ∀ clock user_id, x.2 = .read clock user_id →
      normalizeUserIdentity user_id = some session.user_id ∧
        ∀ now, (w.reading clock (lookupOf cookie_value user_id)).now = .ok now →
          now < session.idle_expires_at ∧ now < session.absolute_expires_at) :
    AllValid session trace ↔ w.InOrder cookie_value trace := by
  have htracked := tracked_of_run hconfigured hstore
  have hidle : session.idle_expires_at = w.idleAfter session session.last_seen_at := by
    obtain ⟨_, _, _, _, -, -, -, -, -, hcap, -⟩ := htracked.backed session hlawful hmem
    exact hcap
  obtain ⟨seen, hraced⟩ : ∃ seen, w.Raced cookie_value session trace s seen := by
    induction h with
    | nil =>
      refine ⟨session.last_seen_at, ⟨htracked.stores, ?_, ?_⟩, le_refl _,
        htracked.seen session hlawful hmem, by simp, fun _ => ?_, fun _ => ?_⟩
      · rw [← hidle]
        exact hlawful
      · rw [← hidle]
        exact hmem
      · exact ⟨⟨List.Pairwise.nil, by simp [commits]⟩, by simp [commits]⟩
      · exact ⟨by simp [AllValid], Or.inl rfl⟩
    | @snoc t u trace e _ hlast ih =>
      obtain ⟨seen, hbefore⟩ := ih fun x hx => hearly x (List.mem_append_left _ hx)
      refine raced_step hconfigured htoken hhash hidle hbefore hlast ?_
      intro clock user_id heq
      obtain ⟨hidentity, hbound⟩ := hearly (t, e) (by simp) clock user_id heq
      exact ⟨hidentity, fun now hnow => (hbound now hnow).1⟩
  exact ⟨fun hall => (hraced.ordered hall).1, fun horder => (hraced.found horder).1⟩

/-! Two tabs of one browser: ten and twenty minutes after the session was created. -/

def sampleOwner : Text := text "owner@example.com"

/-- The session that the sample history created. -/
def sampleSession : ConsoleSession where
  session_hash := sampleStore.hashSessionId sampleCookieValue
  user_id := sampleOwner
  created_at := 63908049600000000
  last_seen_at := 63908049600000000
  absolute_expires_at := 63908078400000000
  idle_expires_at := 63908051400000000
  csrf_secret := List.replicate 43 'A'

def sampleEven : DateTime :=
  (DateTime.fromisoformat (text "2026-03-01T12:20:00+00:00")).get (by decide +kernel)

/-- Both have read the clock. -/
def sampleWaiting : LookupSystem :=
  ⟨sampleOpen.rows, 63908050800000000, [(sampleLater, sampleOwner), (sampleEven, sampleOwner)]⟩

/-- The transaction of a reading on some rows. -/
def sampleTransact (clock : DateTime) (rows : List SessionRow) :
    Except Stop SessionAnswer × List SessionRow :=
  (sampleStore.reading clock (lookupOf sampleCookieValue sampleOwner)).transact
    (lookupOf sampleCookieValue sampleOwner) rows

theorem sample_readings :
    (sampleStore.reading sampleLater (lookupOf sampleCookieValue sampleOwner)).now =
        .ok 63908050200000000 ∧
      (sampleStore.reading sampleEven (lookupOf sampleCookieValue sampleOwner)).now =
        .ok 63908050800000000 ∧
      sampleOpen.rows = [sampleSession.row] ∧ sampleOpen.time = 63908049600000000 := by
  decide +kernel

theorem sample_run_reads : ∃ trace, Run (sampleStore.RaceStep sampleCookieValue)
      ⟨sampleOpen.rows, sampleOpen.time, []⟩ trace sampleWaiting ∧
    trace.map Prod.snd = [.read sampleLater sampleOwner, .read sampleEven sampleOwner] := by
  obtain ⟨hlater, heven, -, htime⟩ := sample_readings
  refine ⟨_, Run.snoc (Run.snoc (Run.nil _) (.read _ sampleOwner hlater ?_))
    (.read _ sampleOwner heven ?_), rfl⟩
  · rw [htime]
    decide
  · decide

/-- The readings are those of the owner before both expiries. -/
theorem sample_early {x : LookupSystem × LookupEvent}
    (hx : x.2 = .read sampleLater sampleOwner ∨ x.2 = .read sampleEven sampleOwner)
    (clock : DateTime) (user_id : Text) (h : x.2 = .read clock user_id) :
    normalizeUserIdentity user_id = some sampleSession.user_id ∧
      ∀ now, (sampleStore.reading clock (lookupOf sampleCookieValue user_id)).now = .ok now →
        now < sampleSession.idle_expires_at ∧ now < sampleSession.absolute_expires_at := by
  have hidentity : normalizeUserIdentity sampleOwner = some sampleSession.user_id := by
    decide +kernel
  rcases hx with hread | hread
  · cases hread.symm.trans h
    refine ⟨hidentity, fun now hnow => ?_⟩
    cases sample_readings.1.symm.trans hnow
    decide
  · cases hread.symm.trans h
    refine ⟨hidentity, fun now hnow => ?_⟩
    cases sample_readings.2.1.symm.trans hnow
    decide

/-- The earlier reading is refused once the later one is committed. -/
theorem sample_late_refused :
    (sampleTransact sampleLater (sampleTransact sampleEven sampleOpen.rows).2).1 =
      .error .unavailable := by
  decide +kernel

/-- Two lookups of the owner, both within the lifetimes of the session: the one that reads the
clock first and is committed last fails. -/
theorem overlapping_lookup_refused : ∃ trace s,
    Run (sampleStore.RaceStep sampleCookieValue) ⟨sampleOpen.rows, sampleOpen.time, []⟩ trace s ∧
      (∀ x ∈ trace, ∀ clock user_id, x.2 = .read clock user_id →
        normalizeUserIdentity user_id = some sampleSession.user_id ∧
          ∀ now, (sampleStore.reading clock (lookupOf sampleCookieValue user_id)).now = .ok now →
            now < sampleSession.idle_expires_at ∧ now < sampleSession.absolute_expires_at) ∧
      ∃ x ∈ trace, x.2 = .commit sampleLater sampleOwner (.error .unavailable) := by
  obtain ⟨trace, hrun, hevents⟩ := sample_run_reads
  have hfirst : sampleStore.RaceStep sampleCookieValue sampleWaiting
      (.commit sampleEven sampleOwner (sampleTransact sampleEven sampleOpen.rows).1)
      ⟨(sampleTransact sampleEven sampleOpen.rows).2, 63908050800000000,
        [(sampleLater, sampleOwner)]⟩ :=
    @RaceStep.commit _ _ _ [(sampleLater, sampleOwner)] [] _ _ _ _ rfl rfl
  have hsecond : sampleStore.RaceStep sampleCookieValue
      ⟨(sampleTransact sampleEven sampleOpen.rows).2, 63908050800000000,
        [(sampleLater, sampleOwner)]⟩ (.commit sampleLater sampleOwner (.error .unavailable))
      ⟨(sampleTransact sampleLater (sampleTransact sampleEven sampleOpen.rows).2).2,
        63908050800000000, []⟩ :=
    @RaceStep.commit _ _ _ [] [] _ _ _ _ rfl (Prod.ext sample_late_refused rfl)
  refine ⟨_, _, Run.snoc (Run.snoc hrun hfirst) hsecond, ?_, _,
    List.mem_append_right _ (List.mem_singleton_self _), rfl⟩
  intro x hx clock user_id hread
  rcases List.mem_append.mp hx with hx | hx
  · rcases List.mem_append.mp hx with hx | hx
    · have hmem := List.mem_map_of_mem (f := Prod.snd) hx
      rw [hevents] at hmem
      exact sample_early (by simpa using hmem) clock user_id hread
    · rw [List.mem_singleton.mp hx] at hread
      cases hread
  · rw [List.mem_singleton.mp hx] at hread
    cases hread

theorem overlapping_lookups_valid_iff_sample : ∃ trace s,
    Run (sampleStore.RaceStep sampleCookieValue) ⟨sampleOpen.rows, sampleOpen.time, []⟩ trace s ∧
      trace.length = 3 ∧ AllValid sampleSession trace := by
  obtain ⟨reads, hrun, hevents⟩ := sample_run_reads
  obtain ⟨hlater, -, hrows, -⟩ := sample_readings
  have hcommit : sampleStore.RaceStep sampleCookieValue sampleWaiting
      (.commit sampleLater sampleOwner (sampleTransact sampleLater sampleOpen.rows).1)
      ⟨(sampleTransact sampleLater sampleOpen.rows).2, 63908050800000000,
        [(sampleEven, sampleOwner)]⟩ :=
    @RaceStep.commit _ _ _ [] [(sampleEven, sampleOwner)] _ _ _ _ rfl rfl
  have hlawful : sampleSession.Lawful := by
    constructor <;> decide +kernel
  have hcreate : Run sampleStore.Step ⟨[], 0, []⟩ [(sampleStart, sampleCreated)] sampleOpen := by
    refine Run.single (Step.call rfl (fun now hnow => ?_) (fun hash _ hdrawn => by cases hdrawn))
    cases sample_instants.1.symm.trans hnow
    decide
  have hlength : reads.length = 2 := by simpa using congrArg List.length hevents
  have hreads : ∀ x ∈ reads, x.2 = .read sampleLater sampleOwner ∨ x.2 = .read sampleEven sampleOwner := by
    intro x hx
    have hmem := List.mem_map_of_mem (f := Prod.snd) hx
    rw [hevents] at hmem
    simpa using hmem
  have hcommits : sampleStore.commits sampleCookieValue reads = [] := by
    refine List.filterMap_eq_nil_iff.mpr fun x hx => ?_
    rcases hreads x hx with hread | hread <;> rw [hread]
  have hconfigured : sampleStore.Configured := ⟨by decide, by decide⟩
  have hmem : sampleSession.row ∈ sampleOpen.rows := by
    rw [hrows]
    exact List.mem_singleton_self _
  refine ⟨_, _, Run.snoc hrun hcommit, by rw [List.length_append, hlength]; rfl, ?_⟩
  refine (overlapping_lookups_valid_iff hconfigured hcreate hlawful hmem (by decide +kernel) rfl
    (Run.snoc hrun hcommit) fun x hx clock user_id hread => ?_).mpr ?_
  · rcases List.mem_append.mp hx with hx | hx
    · exact sample_early (hreads x hx) clock user_id hread
    · rw [List.mem_singleton.mp hx] at hread
      cases hread
  · rw [InOrder, commits_commit hlater, hcommits]
    exact ⟨by simp, by simp [DateTime.maxOrdinal, dayMicros, sampleStore]⟩

end SessionWorld

end Pine
