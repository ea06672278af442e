import Pine.Core.Run
import Pine.Ledger.Console.SessionRows

/-!
# The history of sessions

The session store answers calls one after the other while its clock does not go back.
Every row tells the history of its session: who created it and when, and when a lookup
last found it valid. So the answers keep to the lifetimes, and what ended stays ended.
-/

namespace Pine

/-- A call of the session store, with the random tokens that a new session tries. -/
inductive SessionCall where
  | create (user_id : Text) (tokens : List (Text × Text))
  | lookup (cookie_value : Option Text) (user_id : Text)
  | delete_hash (session_hash : Text)
  | cleanup_expired

/-- What a call returns. -/
inductive SessionAnswer where
  | created (session : ConsoleSession)
  | looked (result : SessionLookup)
  | deleted
  | cleaned
  deriving DecidableEq

/-- A call at one reading of the clock, and what came of it. -/
structure SessionEvent where
  clock : DateTime
  call : SessionCall
  answer : Except Stop SessionAnswer

/-- The tokens that a call reads. -/
def SessionCall.tokens : SessionCall → List (Text × Text)
  | create _ tokens => tokens
  | _ => []

/-- The rows of the store, the last reading of the clock, and the hashes of all tokens drawn. -/
structure SessionSystem where
  rows : List SessionRow
  time : Int
  drawn : List Text

namespace SessionWorld

variable (w : SessionWorld)

/-- The store as one call sees it. -/
def reading (clock : DateTime) (call : SessionCall) : SessionWorld :=
  { w with clock, tokens := call.tokens }

/-- The hashes of the tokens that a call draws. -/
def hashes (call : SessionCall) : List Text := call.tokens.map fun t => w.hashSessionId t.1

/-- `delete_hash` -/
def deleteAuthenticated (session_hash : Text) : SessionStore Unit := do
  Program.check (stopIf (isSessionHash session_hash ≠ true) .unavailable)
  deleteHash session_hash

/-- The statements of a call. -/
def program : SessionCall → SessionStore SessionAnswer
  | .create user_id _ => do
    let session ← w.create user_id
    return .created session
  | .lookup cookie_value user_id => do
    let result ← w.lookup cookie_value user_id
    return .looked result
  | .delete_hash session_hash => do
    deleteAuthenticated session_hash
    return .deleted
  | .cleanup_expired => do
    w.cleanupExpired
    return .cleaned

/-- The transaction of a call: an error rolls it back. -/
def transact (call : SessionCall) (rows : List SessionRow) :
    Except Stop SessionAnswer × List SessionRow :=
  match (w.program call).run rows with
  | (.ok answer, rows') => (.ok answer, rows')
  | (.error stop, _) => (.error stop, rows)

/-- The clock after a reading. -/
def timeAfter (time : Int) : Int :=
  match w.now with
  | .ok now => now
  | .error _ => time

/-- One call: the clock does not go back, and no token was drawn before. -/
inductive Step : SessionSystem → SessionEvent → SessionSystem → Prop
  | call {s : SessionSystem} {clock : DateTime} {call : SessionCall}
      {answer : Except Stop SessionAnswer} {rows' : List SessionRow} :
      (w.reading clock call).transact call s.rows = (answer, rows') →
      (∀ now, (w.reading clock call).now = .ok now → s.time ≤ now) →
      (∀ hash ∈ w.hashes call, hash ∉ s.drawn) →
      Step s ⟨clock, call, answer⟩
        ⟨rows', (w.reading clock call).timeAfter s.time, s.drawn ++ w.hashes call⟩

/-! ## What an event says of a session -/

/-- The reading of the clock at an event. -/
def instantOf (e : SessionEvent) : Except Stop Int := (w.reading e.clock e.call).now

/-- The event creates a session for a user. -/
def Creates (e : SessionEvent) (session_hash user_id : Text) (created_at : Int) : Prop :=
  ∃ tokens session, e.call = .create user_id tokens ∧ e.answer = .ok (.created session) ∧
    session.session_hash = session_hash ∧ w.instantOf e = .ok created_at

/-- The event finds a session valid for a user. -/
def Validates (e : SessionEvent) (session_hash user_id : Text) (now : Int) : Prop :=
  ∃ cookie_value session, e.call = .lookup (some cookie_value) user_id ∧
    w.hashSessionId cookie_value = session_hash ∧ e.answer = .ok (.looked (.valid session)) ∧
    session.session_hash = session_hash ∧ w.instantOf e = .ok now

/-- The event deletes a session, or finds it expired or another user's. -/
def Ends (e : SessionEvent) (session_hash : Text) : Prop :=
  (∃ cookie_value user_id, e.call = .lookup (some cookie_value) user_id ∧
    w.hashSessionId cookie_value = session_hash ∧
    (e.answer = .ok (.looked .expired) ∨ e.answer = .ok (.looked .identity_mismatch))) ∨
  (e.call = .delete_hash session_hash ∧ e.answer = .ok .deleted)

/-- When the events found a session valid. -/
def uses (session_hash : Text) (trace : List (SessionSystem × SessionEvent)) : List Int :=
  trace.filterMap fun x =>
    match x.2.answer, w.instantOf x.2 with
    | .ok (.looked (.valid session)), .ok now =>
      if session.session_hash = session_hash then some now else none
    | _, _ => none

/-- When a session was last found valid, or else created. -/
def lastUse (session_hash : Text) (created_at : Int)
    (trace : List (SessionSystem × SessionEvent)) : Int :=
  (w.uses session_hash trace).getLast?.getD created_at

/-! ## What a call does -/

/-- The lifetimes that the store is constructed with. -/
structure Configured : Prop where
  idle : 0 < w.idle_lifetime
  absolute : w.idle_lifetime < w.absolute_lifetime

/-- A call creates one session, uses one session, or only removes rows. -/
inductive Changes (rows : List SessionRow) (e : SessionEvent) (rows' : List SessionRow) : Prop
  | created {user_id : Text} {tokens : List (Text × Text)} {session : ConsoleSession} :
      e.call = .create user_id tokens → e.answer = .ok (.created session) → session.Lawful →
      session.session_hash ∈ w.hashes e.call → w.instantOf e = .ok session.created_at →
      normalizeUserIdentity user_id = some session.user_id →
      session.absolute_expires_at = session.created_at + w.absolute_lifetime →
      session.last_seen_at = session.created_at →
      session.idle_expires_at =
        min (session.created_at + w.idle_lifetime) session.absolute_expires_at →
      (∀ r ∈ rows, r.session_hash ≠ session.session_hash) → rows' = rows ++ [session.row] →
      Changes rows e rows'
  | used {cookie_value user_id : Text} {session : ConsoleSession} {now idle : Int} :
      e.call = .lookup (some cookie_value) user_id →
      e.answer = .ok (.looked (.valid (session.used now idle))) → session.Lawful →
      session.row ∈ rows → session.session_hash = w.hashSessionId cookie_value →
      w.instantOf e = .ok now → normalizeUserIdentity user_id = some session.user_id →
      now < session.absolute_expires_at → now < session.idle_expires_at →
      session.last_seen_at ≤ now →
      idle = min (now + w.idle_lifetime) session.absolute_expires_at →
      rows' = useRows session.session_hash now idle rows → Changes rows e rows'
  | removed (keep : SessionRow → Bool) :
      (∀ session, e.answer ≠ .ok (.created session)) →
      (∀ session, e.answer ≠ .ok (.looked (.valid session))) →
      (∀ session_hash, w.Ends e session_hash → ∀ r ∈ rows',
        r.session_hash ≠ session_hash) → rows' = rows.filter keep → Changes rows e rows'

variable {w}

/-- A call that fails changes nothing. -/
theorem changes_error {rows : List SessionRow} {clock : DateTime} {call : SessionCall} {stop : Stop} :
    w.Changes rows ⟨clock, call, .error stop⟩ rows := by
  refine .removed (fun _ => true) (fun _ h => by cases h) (fun _ h => by cases h) ?_
    (List.filter_true rows).symm
  rintro session_hash (⟨_, _, _, _, h | h⟩ | ⟨_, h⟩) <;> cases h

/-- The session that the attempts of a creation insert. -/
theorem createWith_ok {identity : Text} {now absolute_expires_at idle_expires_at : Int}
    {tokens : List (Text × Text)} {rows rows' : List SessionRow} {session : ConsoleSession}
    (h : (w.createWith identity now absolute_expires_at idle_expires_at tokens).run rows =
      (.ok session, rows')) :
    (∃ t ∈ tokens, session = ⟨w.hashSessionId t.1, identity, now, now, absolute_expires_at,
      idle_expires_at, t.2⟩) ∧ session.row.Checks ∧
      (∀ r ∈ rows, r.session_hash ≠ session.session_hash) ∧ rows' = rows ++ [session.row] := by
  induction tokens with
  | nil => cases h
  | cons t rest ih =>
    obtain ⟨cookie_value, csrf_secret⟩ := t
    obtain ⟨inserted, _, hstatement, hrest⟩ := Program.run_bind_ok.mp h
    rw [Program.run_statement] at hstatement
    by_cases htaken : (rows.any (·.session_hash == w.hashSessionId cookie_value)) = true ∨
        ¬ (ConsoleSession.row ⟨w.hashSessionId cookie_value, identity, now, now,
          absolute_expires_at, idle_expires_at, csrf_secret⟩).Checks
    · rw [if_pos htaken] at hstatement
      cases hstatement
      obtain ⟨⟨t, ht, hsession⟩, hothers⟩ := ih hrest
      exact ⟨⟨t, List.mem_cons_of_mem _ ht, hsession⟩, hothers⟩
    · rw [if_neg htaken] at hstatement
      cases hstatement
      cases hrest
      rw [not_or, not_not, Bool.not_eq_true, List.any_eq_false] at htaken
      refine ⟨⟨_, List.mem_cons_self, rfl⟩, htaken.2, fun r hr hsame => ?_, rfl⟩
      exact htaken.1 r hr (beq_iff_eq.mpr hsame)

/-- A creation that returns inserted the row of a lawful session. -/
theorem changes_create {rows rows' : List SessionRow} {clock : DateTime} {user_id : Text}
    {tokens : List (Text × Text)} {session : ConsoleSession} (hconfigured : w.Configured)
    (h : ((w.reading clock (.create user_id tokens)).create user_id).run rows =
      (.ok session, rows')) :
    w.Changes rows ⟨clock, .create user_id tokens, .ok (.created session)⟩ rows' := by
  obtain ⟨identity, hidentity, h⟩ := Program.run_check_bind_ok.mp h
  obtain ⟨now, hnow, h⟩ := Program.run_check_bind_ok.mp h
  obtain ⟨absolute, habsolute, h⟩ := Program.run_check_bind_ok.mp h
  obtain ⟨idle, hidle, h⟩ := Program.run_check_bind_ok.mp h
  obtain ⟨⟨t, ht, hsession⟩, hchecks, hfree, hrows⟩ := createWith_ok h
  obtain ⟨rfl, hlast⟩ := later_ok habsolute
  obtain ⟨rfl, -⟩ := later_ok hidle
  have hin := now_in hnow
  have hpositive := hconfigured.idle
  have hshorter := hconfigured.absolute
  subst hsession
  refine .created rfl rfl ?_ ?_ hnow (present_ok.mp hidentity) rfl rfl rfl hfree hrows
  · exact
      { hash := hchecks.1
        identity := normalizeUserIdentity_idem (present_ok.mp hidentity)
        secret := hchecks.2.2.1
        first := hin.1
        seen := le_refl _
        idle := by dsimp only [reading]; omega
        absolute := min_le_right _ _
        last := hlast }
  · exact List.mem_map.mpr ⟨t, List.mem_of_mem_take ht, rfl⟩

/-- Removing the rows of a hash leaves none of it. -/
theorem deleteHash_run (session_hash : Text) (rows : List SessionRow) :
    (deleteHash session_hash).run rows =
      (.ok (), rows.filter (·.session_hash ≠ session_hash)) := by
  rw [deleteHash, Program.run_update]

/-- A lookup uses a session, removes it, or finds none. -/
theorem changes_lookup {rows rows' : List SessionRow} {clock : DateTime}
    {cookie_value : Option Text} {user_id : Text} {result : SessionLookup}
    (hconfigured : w.Configured) (hrows : Stores rows)
    (h : ((w.reading clock (.lookup cookie_value user_id)).lookup cookie_value user_id).run rows =
      (.ok result, rows')) :
    w.Changes rows ⟨clock, .lookup cookie_value user_id, .ok (.looked result)⟩ rows' := by
  have hmissing : ∀ cookie_value, w.Changes rows
      ⟨clock, .lookup cookie_value user_id, .ok (.looked .missing)⟩ rows := by
    intro cookie_value
    refine .removed (fun _ => true) (fun _ h => by cases h) (fun _ h => by cases h) ?_
      (List.filter_true rows).symm
    rintro session_hash (⟨_, _, _, _, h | h⟩ | ⟨h, _⟩) <;> cases h
  have hended : ∀ cookie, result = .expired ∨ result = .identity_mismatch →
      w.Changes rows ⟨clock, .lookup (some cookie) user_id, .ok (.looked result)⟩
        (rows.filter (·.session_hash ≠ w.hashSessionId cookie)) := by
    intro cookie hresult
    refine .removed _ (fun _ h => by cases h) ?_ ?_ rfl
    · rintro session heq
      rcases hresult with rfl | rfl <;> cases heq
    · rintro session_hash (⟨cookie', _, hcall, rfl, -⟩ | ⟨hcall, -⟩) r hr
      · cases hcall
        simpa using (List.mem_filter.mp hr).2
      · cases hcall
  cases cookie_value with
  | none =>
    cases h
    exact hmissing none
  | some cookie =>
    by_cases htoken : isOpaqueToken cookie = true
    · have hlookup := h
      rw [lookup, if_pos htoken] at h
      obtain ⟨identity, hidentity, h⟩ := Program.run_check_bind_ok.mp h
      obtain ⟨now, hnow, h⟩ := Program.run_check_bind_ok.mp h
      obtain ⟨row, _, hquery, h⟩ := Program.run_bind_ok.mp h
      obtain ⟨hrow, rfl⟩ := Program.run_query_ok.mp hquery
      cases row with
      | none =>
        cases h
        exact hmissing (some cookie)
      | some row =>
        obtain ⟨hmem, hhash⟩ := find?_key_some (Except.ok.inj hrow)
        obtain ⟨session, hlawful, rfl⟩ := hrows.lawful row hmem
        have hsession : session.session_hash = w.hashSessionId cookie := hhash
        rw [run_lookup hrows hlawful hmem htoken (present_ok.mp hidentity) hnow hsession]
          at hlookup
        by_cases hsame : session.user_id = identity
        · by_cases hdead : session.absolute_expires_at ≤ now ∨ session.idle_expires_at ≤ now
          · rw [lookupSession, if_neg (not_not.mpr hsame), if_pos hdead, Program.run_bind,
              deleteHash_run, hsession] at hlookup
            cases hlookup
            exact hended cookie (Or.inl rfl)
          · subst hsame
            rw [not_or, Int.not_le, Int.not_le] at hdead
            rw [run_lookupSession (w := w.reading clock (.lookup (some cookie) user_id)) hrows
              hlawful hmem (now_in hnow) hconfigured.idle.le hdead.1 hdead.2] at hlookup
            cases hlater : later now (w.reading clock (.lookup (some cookie) user_id)).idle_lifetime
              with
            | error stop =>
              rw [hlater] at hlookup
              cases hlookup
            | ok idle =>
              obtain ⟨rfl, -⟩ := later_ok hlater
              rw [hlater] at hlookup
              dsimp only at hlookup
              by_cases hforward : session.last_seen_at ≤ now
              · rw [if_pos hforward] at hlookup
                cases hlookup
                exact .used rfl rfl hlawful hmem hsession hnow (present_ok.mp hidentity) hdead.1
                  hdead.2 hforward rfl rfl
              · rw [if_neg hforward] at hlookup
                cases hlookup
        · rw [lookupSession, if_pos hsame, Program.run_bind, deleteHash_run, hsession] at hlookup
          cases hlookup
          exact hended cookie (Or.inr rfl)
    · rw [lookup, if_neg htoken] at h
      cases h
      exact hmissing (some cookie)

/-- What the transaction of a call does to stored sessions. -/
theorem changes_of_transact {rows rows' : List SessionRow} {clock : DateTime} {call : SessionCall}
    {answer : Except Stop SessionAnswer} (hconfigured : w.Configured) (hrows : Stores rows)
    (h : (w.reading clock call).transact call rows = (answer, rows')) :
    w.Changes rows ⟨clock, call, answer⟩ rows' := by
  unfold transact at h
  split at h
  · rename_i answer after hrun
    cases h
    cases call with
    | create user_id tokens =>
      obtain ⟨session, _, hcreate, hreturn⟩ := Program.run_bind_ok.mp hrun
      cases hreturn
      exact changes_create hconfigured hcreate
    | lookup cookie_value user_id =>
      obtain ⟨result, _, hlookup, hreturn⟩ := Program.run_bind_ok.mp hrun
      cases hreturn
      exact changes_lookup hconfigured hrows hlookup
    | delete_hash session_hash =>
      obtain ⟨_, _, hdelete, hreturn⟩ := Program.run_bind_ok.mp hrun
      obtain ⟨_, -, hdelete⟩ := Program.run_check_bind_ok.mp hdelete
      rw [deleteHash_run] at hdelete
      cases hdelete
      cases hreturn
      refine .removed _ (fun _ h => by cases h) (fun _ h => by cases h) ?_ rfl
      rintro hash (⟨_, _, hcall, -⟩ | ⟨hcall, -⟩) r hr
      · cases hcall
      · cases hcall
        simpa using (List.mem_filter.mp hr).2
    | cleanup_expired =>
      obtain ⟨_, _, hcleanup, hreturn⟩ := Program.run_bind_ok.mp hrun
      obtain ⟨now, -, hcleanup⟩ := Program.run_check_bind_ok.mp hcleanup
      rw [Program.run_update] at hcleanup
      cases hcleanup
      cases hreturn
      refine .removed _ (fun _ h => by cases h) (fun _ h => by cases h) ?_ rfl
      rintro hash (⟨_, _, hcall, -⟩ | ⟨hcall, -⟩) <;> cases hcall
  · cases h
    exact changes_error

/-! ## Rows and their history -/

variable (w)

/-- The trace tells who created the session and when, when it was last valid, and that it was not
ended since. -/
def Backed (trace : List (SessionSystem × SessionEvent)) (session : ConsoleSession) : Prop :=
  ∃ earlier c between user_id, trace = earlier ++ c :: between ∧
    w.Creates c.2 session.session_hash user_id session.created_at ∧
    normalizeUserIdentity user_id = some session.user_id ∧
    session.absolute_expires_at = session.created_at + w.absolute_lifetime ∧
    session.last_seen_at = w.lastUse session.session_hash session.created_at between ∧
    session.idle_expires_at =
      min (session.last_seen_at + w.idle_lifetime) session.absolute_expires_at ∧
    ∀ y ∈ between, ¬ w.Ends y.2 session.session_hash

/-- A session of the trace was ended after its creation. -/
def Ended (trace : List (SessionSystem × SessionEvent)) (session_hash : Text) : Prop :=
  ∃ earlier c between user_id created_at, trace = earlier ++ c :: between ∧
    w.Creates c.2 session_hash user_id created_at ∧ ∃ y ∈ between, w.Ends y.2 session_hash

/-- Stored sessions are backed by the trace, and the ended ones are not stored. -/
structure Tracked (trace : List (SessionSystem × SessionEvent)) (s : SessionSystem) : Prop where
  stores : Stores s.rows
  backed : ∀ session : ConsoleSession, session.Lawful → session.row ∈ s.rows →
    w.Backed trace session
  drawn : ∀ c ∈ trace, ∀ session_hash user_id created_at,
    w.Creates c.2 session_hash user_id created_at → session_hash ∈ s.drawn
  buried : ∀ session_hash, w.Ended trace session_hash → ∀ r ∈ s.rows,
    r.session_hash ≠ session_hash
  seen : ∀ session : ConsoleSession, session.Lawful → session.row ∈ s.rows →
    session.last_seen_at ≤ s.time

variable {w} {trace : List (SessionSystem × SessionEvent)} {x : SessionSystem × SessionEvent}
  {session_hash : Text} {session : ConsoleSession}

theorem lastUse_snoc_other {created_at : Int}
    (h : ∀ session, x.2.answer = .ok (.looked (.valid session)) →
      session.session_hash ≠ session_hash) :
    w.lastUse session_hash created_at (trace ++ [x]) = w.lastUse session_hash created_at trace := by
  have hnone : w.uses session_hash [x] = [] := by
    simp only [uses, List.filterMap_cons, List.filterMap_nil]
    split
    · rfl
    · rename_i heq
      split at heq
      · rename_i session now hanswer hnow
        rw [if_neg (h session hanswer)] at heq
        cases heq
      · cases heq
  have huses : w.uses session_hash (trace ++ [x]) = w.uses session_hash trace := by
    rw [uses, List.filterMap_append]
    change w.uses session_hash trace ++ w.uses session_hash [x] = _
    rw [hnone, List.append_nil]
  rw [lastUse, huses]
  rfl

theorem lastUse_snoc_used (created_at : Int) {now : Int}
    (hanswer : x.2.answer = .ok (.looked (.valid session)))
    (hhash : session.session_hash = session_hash) (hnow : w.instantOf x.2 = .ok now) :
    w.lastUse session_hash created_at (trace ++ [x]) = now := by
  have hone : w.uses session_hash [x] = [now] := by
    simp only [uses, List.filterMap_cons, List.filterMap_nil, hanswer, hnow, hhash, if_true]
  have huses : w.uses session_hash (trace ++ [x]) = w.uses session_hash trace ++ [now] := by
    rw [uses, List.filterMap_append]
    change w.uses session_hash trace ++ w.uses session_hash [x] = _
    rw [hone]
  rw [lastUse, huses, List.getLast?_concat]
  rfl

/-- An event with another answer ends no session. -/
theorem not_ends {e : SessionEvent} {answer : SessionAnswer} (h : e.answer = .ok answer)
    (hexpired : answer ≠ .looked .expired) (hmismatch : answer ≠ .looked .identity_mismatch)
    (hdeleted : answer ≠ .deleted) : ¬ w.Ends e session_hash := by
  rintro (⟨_, _, -, -, hother | hother⟩ | ⟨-, hother⟩)
  · exact hexpired (Except.ok.inj (h.symm.trans hother))
  · exact hmismatch (Except.ok.inj (h.symm.trans hother))
  · exact hdeleted (Except.ok.inj (h.symm.trans hother))

/-- An event about other sessions. -/
theorem Backed.snoc_other (h : w.Backed trace session)
    (hother : ∀ s, x.2.answer = .ok (.looked (.valid s)) → s.session_hash ≠ session.session_hash)
    (hends : ¬ w.Ends x.2 session.session_hash) : w.Backed (trace ++ [x]) session := by
  obtain ⟨earlier, c, between, user_id, rfl, hcreates, hidentity, habsolute, hseen, hidle, hopen⟩ := h
  refine ⟨earlier, c, between ++ [x], user_id, by simp, hcreates, hidentity, habsolute, ?_, hidle,
    ?_⟩
  · rw [lastUse_snoc_other hother]
    exact hseen
  · intro y hy
    rcases List.mem_append.mp hy with hold | hnew
    · exact hopen y hold
    · rw [List.mem_singleton.mp hnew]
      exact hends

/-- A lookup that finds the session valid. -/
theorem Backed.snoc_used (h : w.Backed trace session) {now idle : Int}
    (hanswer : x.2.answer = .ok (.looked (.valid (session.used now idle))))
    (hnow : w.instantOf x.2 = .ok now)
    (hidle : idle = min (now + w.idle_lifetime) session.absolute_expires_at) :
    w.Backed (trace ++ [x]) (session.used now idle) := by
  obtain ⟨earlier, c, between, user_id, rfl, hcreates, hidentity, habsolute, -, -, hopen⟩ := h
  refine ⟨earlier, c, between ++ [x], user_id, by simp, hcreates, hidentity, habsolute, ?_, hidle,
    ?_⟩
  · exact (@lastUse_snoc_used w between x _ _ session.created_at now hanswer rfl hnow).symm
  · intro y hy
    rcases List.mem_append.mp hy with hold | hnew
    · exact hopen y hold
    · rw [List.mem_singleton.mp hnew]
      exact not_ends hanswer (by simp) (by simp) (by simp)

/-- A session is ended by an earlier event or by the last one. -/
theorem ended_snoc (h : w.Ended (trace ++ [x]) session_hash) :
    w.Ended trace session_hash ∨ w.Ends x.2 session_hash := by
  obtain ⟨earlier, c, between, user_id, created_at, htrace, hcreates, y, hy, hends⟩ := h
  rcases List.eq_nil_or_concat between with rfl | ⟨rest, last, rfl⟩
  · cases hy
  · rw [List.concat_eq_append, ← List.cons_append, ← List.append_assoc] at htrace
    obtain ⟨rfl, hlast⟩ := List.append_inj' htrace rfl
    obtain rfl := List.singleton_inj.mp hlast
    rw [List.concat_eq_append] at hy
    rcases List.mem_append.mp hy with hold | hnew
    · exact Or.inl ⟨earlier, c, rest, user_id, created_at, rfl, hcreates, y, hold, hends⟩
    · rw [List.mem_singleton.mp hnew] at hends
      exact Or.inr hends

/-- The row of a lawful session is no other lawful session's. -/
theorem row_injective {session' : ConsoleSession} (h : session.Lawful) (h' : session'.Lawful)
    (hrow : session.row = session'.row) : session = session' := by
  have hread := h.sessionFromRow_row
  rw [hrow, h'.sessionFromRow_row] at hread
  exact (Option.some.inj hread).symm

/-- The clock after a reading is that reading. -/
theorem timeAfter_eq {time now : Int} (h : w.now = .ok now) : w.timeAfter time = now := by
  rw [timeAfter, h]

/-- The clock does not go back. -/
theorem timeAfter_le {time : Int} (h : ∀ now, w.now = .ok now → time ≤ now) :
    time ≤ w.timeAfter time := by
  unfold timeAfter
  split
  · exact h _ ‹_›
  · exact le_refl _

/-- Every call keeps the rows backed by the trace. -/
theorem tracked_step (hconfigured : w.Configured) {s t : SessionSystem} {e : SessionEvent}
    (h : w.Tracked trace s) (hstep : w.Step s e t) : w.Tracked (trace ++ [(s, e)]) t := by
  obtain ⟨htransact, hforth, hfresh⟩ := hstep
  rename_i clock call answer rows'
  have htime := timeAfter_le hforth
  have hchanges := changes_of_transact hconfigured h.stores htransact
  have hdrawn : (∀ session, answer = .ok (.created session) →
      session.session_hash ∈ w.hashes call) →
      ∀ c ∈ trace ++ [(s, ⟨clock, call, answer⟩)], ∀ session_hash user_id created_at,
        w.Creates c.2 session_hash user_id created_at →
          session_hash ∈ s.drawn ++ w.hashes call := by
    intro hlast c hc hash user_id created_at hcreates
    rcases List.mem_append.mp hc with hbefore | hnew
    · exact List.mem_append_left _ (h.drawn c hbefore hash user_id created_at hcreates)
    · rw [List.mem_singleton.mp hnew] at hcreates
      obtain ⟨_, session, -, hanswer, rfl, -⟩ := hcreates
      exact List.mem_append_right _ (hlast session hanswer)
  cases hchanges with
  | @created user_id tokens session hcall hanswer hlawful hhash hnow hidentity habsolute hseen hidle
      hfree hrows =>
    have hends : ∀ session_hash, ¬ w.Ends ⟨clock, call, answer⟩ session_hash := fun hash =>
      not_ends hanswer (by simp) (by simp) (by simp)
    subst hrows
    refine ⟨h.stores.append hlawful hfree, ?_, hdrawn ?_, ?_, ?_⟩
    · intro other hother hmem
      rcases List.mem_append.mp hmem with hbefore | hnew
      · refine (h.backed other hother hbefore).snoc_other (fun _ hvalid => ?_) (hends _)
        rw [hanswer] at hvalid
        cases hvalid
      · obtain rfl := row_injective hother hlawful (List.mem_singleton.mp hnew)
        exact ⟨trace, _, [], user_id, rfl, ⟨tokens, other, hcall, hanswer, rfl, hnow⟩, hidentity,
          habsolute, hseen, by rw [hseen]; exact hidle, by simp⟩
    · intro other hanswer'
      cases hanswer.symm.trans hanswer'
      exact hhash
    · intro hash hended r hr
      rcases ended_snoc hended with hbefore | hnow'
      · rcases List.mem_append.mp hr with holdRow | hnew
        · exact h.buried hash hbefore r holdRow
        · rw [List.mem_singleton.mp hnew]
          obtain ⟨earlier, c, between, user_id', created_at, rfl, hcreates, -⟩ := hbefore
          rintro rfl
          exact hfresh _ hhash (h.drawn c (by simp) _ _ _ hcreates)
      · exact absurd hnow' (hends hash)
    · intro other hother hmem
      rcases List.mem_append.mp hmem with hbefore | hnew
      · exact (h.seen other hother hbefore).trans htime
      · obtain rfl := row_injective hother hlawful (List.mem_singleton.mp hnew)
        rw [hseen]
        exact (timeAfter_eq hnow).ge
  | @used cookie_value user_id session now idle hcall hanswer hlawful hmem hhash hnow hidentity
      habsolute hidle hforward hcap hrows =>
    have hends : ∀ session_hash, ¬ w.Ends ⟨clock, call, answer⟩ session_hash := fun hash =>
      not_ends hanswer (by simp) (by simp) (by simp)
    have hpositive := hconfigured.idle
    have hused : (session.used now idle).Lawful :=
      hlawful.used hforward (by omega) (by omega)
    subst hrows
    refine ⟨h.stores.useRows hmem hused, ?_, hdrawn ?_, ?_, ?_⟩
    · intro other hother hrow
      rcases (mem_useRows h.stores hmem).mp hrow with heq | ⟨hbefore, hne⟩
      · obtain rfl := row_injective hother hused heq
        exact (h.backed session hlawful hmem).snoc_used hanswer hnow hcap
      · refine (h.backed other hother hbefore).snoc_other (fun _ hvalid => ?_) (hends _)
        cases hanswer.symm.trans hvalid
        exact fun hsame => hne hsame.symm
    · intro other hanswer'
      cases hanswer.symm.trans hanswer'
    · intro hash hended r hr
      rcases ended_snoc hended with hbefore | hnow'
      · rcases (mem_useRows h.stores hmem).mp hr with rfl | ⟨holdRow, -⟩
        · exact h.buried hash hbefore session.row hmem
        · exact h.buried hash hbefore r holdRow
      · exact absurd hnow' (hends hash)
    · intro other hother hrow
      rcases (mem_useRows h.stores hmem).mp hrow with heq | ⟨hbefore, -⟩
      · obtain rfl := row_injective hother hused heq
        exact (timeAfter_eq hnow).ge
      · exact (h.seen other hother hbefore).trans htime
  | removed keep hcreated hvalid hends hrows =>
    subst hrows
    refine ⟨h.stores.filter keep, ?_,
      hdrawn fun session hanswer => absurd hanswer (hcreated session), ?_, ?_⟩
    · intro other hother hmem
      refine (h.backed other hother (List.mem_of_mem_filter hmem)).snoc_other
        (fun session hanswer => absurd hanswer (hvalid session)) fun hend => ?_
      exact hends _ hend _ hmem rfl
    · intro hash hended r hr
      rcases ended_snoc hended with hbefore | hnow'
      · exact h.buried hash hbefore r (List.mem_of_mem_filter hr)
      · exact hends hash hnow' r hr
    · intro other hother hmem
      exact (h.seen other hother (List.mem_of_mem_filter hmem)).trans htime

/-- The rows of every reachable state are backed by the trace. -/
theorem tracked_of_run (hconfigured : w.Configured) {start : Int} {s : SessionSystem}
    (h : Run w.Step ⟨[], start, []⟩ trace s) : w.Tracked trace s := by
  induction h with
  | nil =>
    refine ⟨⟨by simp, by simp⟩, by simp, by simp, ?_, by simp⟩
    rintro hash ⟨_, _, _, _, _, htrace, -⟩
    simp at htrace
  | snoc _ hlast ih => exact tracked_step hconfigured ih hlast

/-- What a lookup found valid was stored, with its history behind it. -/
theorem valid_lookup (hconfigured : w.Configured) {start : Int} {s : SessionSystem}
    {before after : List (SessionSystem × SessionEvent)} {found : ConsoleSession}
    (h : Run w.Step ⟨[], start, []⟩ (before ++ x :: after) s)
    (hanswer : x.2.answer = .ok (.looked (.valid found))) :
    w.Tracked before x.1 ∧ ∃ (session : ConsoleSession) (cookie_value user_id : Text) (now idle : Int),
      x.2.call = .lookup (some cookie_value) user_id ∧ found = session.used now idle ∧
        session.Lawful ∧ session.row ∈ x.1.rows ∧
        session.session_hash = w.hashSessionId cookie_value ∧ w.instantOf x.2 = .ok now ∧
        normalizeUserIdentity user_id = some session.user_id ∧
        now < session.absolute_expires_at ∧ now < session.idle_expires_at := by
  obtain ⟨u, hbefore, hstep, -⟩ := h.split_at
  have htracked := tracked_of_run hconfigured hbefore
  refine ⟨htracked, ?_⟩
  obtain ⟨s, e⟩ := x
  obtain ⟨htransact, -, -⟩ := hstep
  cases changes_of_transact hconfigured htracked.stores htransact with
  | created _ hcreated => cases hcreated.symm.trans hanswer
  | @used cookie_value user_id session now idle hcall hused hlawful hmem hhash hnow hidentity
      habsolute hidle =>
    cases hused.symm.trans hanswer
    exact ⟨session, cookie_value, user_id, now, idle, hcall, rfl, hlawful, hmem, hhash, hnow,
      hidentity, habsolute, hidle⟩
  | removed _ _ hnever => exact absurd hanswer (hnever found)

/-- In every sequence of calls whose clock does not go back and whose tokens are distinct: a lookup
that finds a session valid comes after its creation for the same identity, before its absolute
lifetime and the idle lifetime since its last valid lookup are over, and nothing ended the session
in between; a session that was ended is never valid again; and the times of every stored session
are in order. -/
theorem session_expiry_sound (hconfigured : w.Configured) {start : Int} {s : SessionSystem}
    (h : Run w.Step ⟨[], start, []⟩ trace s) :
    (∀ before x after, trace = before ++ x :: after →
      ∀ found, x.2.answer = .ok (.looked (.valid found)) →
        ∃ earlier c between creator user_id identity created_at now,
          before = earlier ++ c :: between ∧
          w.Creates c.2 found.session_hash creator created_at ∧
          w.Validates x.2 found.session_hash user_id now ∧
          normalizeUserIdentity creator = some identity ∧
          normalizeUserIdentity user_id = some identity ∧
          now < created_at + w.absolute_lifetime ∧
          now < w.lastUse found.session_hash created_at between + w.idle_lifetime ∧
          ∀ y ∈ between, ¬ w.Ends y.2 found.session_hash) ∧
    (∀ before x after, trace = before ++ x :: after → ∀ found, w.Ended before found.session_hash →
      x.2.answer ≠ .ok (.looked (.valid found))) ∧
    ∀ row ∈ s.rows, ∃ session, sessionFromRow row = some session ∧
      session.created_at ≤ session.last_seen_at ∧
      session.last_seen_at ≤ session.idle_expires_at ∧
      session.idle_expires_at ≤ session.absolute_expires_at := by
  refine ⟨?_, ?_, ?_⟩
  · rintro before x after rfl found hanswer
    obtain ⟨htracked, session, cookie_value, user_id, now, idle, hcall, rfl, hlawful, hmem, hhash,
      hnow, hidentity, habsolute, hidle⟩ := valid_lookup hconfigured h hanswer
    obtain ⟨earlier, c, between, creator, hbefore, hcreates, hcreator, hlifetime, hseen, hcap,
      hopen⟩ := htracked.backed session hlawful hmem
    refine ⟨earlier, c, between, creator, user_id, session.user_id, session.created_at, now,
      hbefore, hcreates, ⟨cookie_value, _, hcall, hhash.symm, hanswer, rfl, hnow⟩, hcreator,
      hidentity, ?_, ?_, hopen⟩
    · rw [← hlifetime]
      exact habsolute
    · change now < w.lastUse session.session_hash session.created_at between + w.idle_lifetime
      rw [← hseen]
      exact lt_of_lt_of_le hidle (hcap ▸ min_le_left _ _)
  · rintro before x after rfl found hended hanswer
    obtain ⟨htracked, session, _, _, _, _, -, rfl, -, hmem, -⟩ := valid_lookup hconfigured h hanswer
    exact htracked.buried _ hended session.row hmem rfl
  · intro row hrow
    obtain ⟨session, hlawful, rfl⟩ := (tracked_of_run hconfigured h).stores.lawful row hrow
    exact ⟨session, hlawful.sessionFromRow_row, hlawful.seen, hlawful.idle, hlawful.absolute⟩

/-! A session that is created at noon and looked up ten minutes later. -/

def sampleCookieValue : Text := List.replicate 43 'C'

theorem sampleClock_isSome :
    (DateTime.fromisoformat (text "2026-03-01T12:00:00+00:00")).isSome = true := by decide +kernel

def sampleStore : SessionWorld where
  sha256 _ := List.replicate 64 '0'
  digest _ message := message
  absolute_lifetime := 28800000000
  idle_lifetime := 1800000000
  clock := (DateTime.fromisoformat (text "2026-03-01T12:00:00+00:00")).get sampleClock_isSome
  tokens := []
  establishment_allowed := true

def sampleCreate : SessionCall :=
  .create (text "Owner@example.com") [(sampleCookieValue, List.replicate 43 'A')]

def sampleLookup : SessionCall := .lookup (some sampleCookieValue) (text "owner@example.com")

def sampleNoon : DateTime := sampleStore.clock

def sampleLater : DateTime :=
  (DateTime.fromisoformat (text "2026-03-01T13:10:00+01:00")).get (by decide +kernel)

def sampleStart : SessionSystem := ⟨[], 0, []⟩

def sampleCreated : SessionEvent :=
  ⟨sampleNoon, sampleCreate, ((sampleStore.reading sampleNoon sampleCreate).transact sampleCreate []).1⟩

def sampleOpen : SessionSystem :=
  ⟨((sampleStore.reading sampleNoon sampleCreate).transact sampleCreate []).2,
    (sampleStore.reading sampleNoon sampleCreate).timeAfter 0, sampleStore.hashes sampleCreate⟩

def sampleFound : SessionEvent :=
  ⟨sampleLater, sampleLookup,
    ((sampleStore.reading sampleLater sampleLookup).transact sampleLookup sampleOpen.rows).1⟩

/-- The instants of both events. -/
theorem sample_instants :
    (sampleStore.reading sampleNoon sampleCreate).now = .ok 63908049600000000 ∧
      (sampleStore.reading sampleLater sampleLookup).now = .ok 63908050200000000 := by
  decide +kernel

/-- The lookup finds the session that was created. -/
theorem sample_answers :
    (match sampleCreated.answer, sampleFound.answer with
      | .ok (.created session), .ok (.looked (.valid found)) =>
        decide (session.session_hash = found.session_hash ∧
          found.session_hash = sampleStore.hashSessionId sampleCookieValue)
      | _, _ => false) = true := by
  decide +kernel

theorem session_expiry_sound_sample : ∃ created_at now,
    sampleStore.Creates sampleCreated (sampleStore.hashSessionId sampleCookieValue)
      (text "Owner@example.com") created_at ∧
    sampleStore.Validates sampleFound (sampleStore.hashSessionId sampleCookieValue)
      (text "owner@example.com") now ∧ now < created_at + 28800000000 := by
  have hconfigured : sampleStore.Configured := ⟨by decide, by decide⟩
  have hrun : Run sampleStore.Step sampleStart
      ([] ++ [(sampleStart, sampleCreated)] ++ [(sampleOpen, sampleFound)])
      ⟨((sampleStore.reading sampleLater sampleLookup).transact sampleLookup sampleOpen.rows).2,
        (sampleStore.reading sampleLater sampleLookup).timeAfter sampleOpen.time,
        sampleOpen.drawn ++ sampleStore.hashes sampleLookup⟩ := by
    refine Run.snoc (Run.snoc (Run.nil _) ?_) ?_
    · refine Step.call rfl (fun now hnow => ?_) (fun hash _ hdrawn => by cases hdrawn)
      cases sample_instants.1.symm.trans hnow
      decide
    · refine Step.call rfl (fun now hnow => ?_) (fun hash hhash => by cases hhash)
      cases sample_instants.2.symm.trans hnow
      decide +kernel
  obtain ⟨found, hcreated, hfound, hhash⟩ : ∃ found, (∃ session,
      sampleCreated.answer = .ok (.created session) ∧
        session.session_hash = found.session_hash) ∧
      sampleFound.answer = .ok (.looked (.valid found)) ∧
      found.session_hash = sampleStore.hashSessionId sampleCookieValue := by
    have hanswers := sample_answers
    split at hanswers
    · rename_i session found hcreated hfound
      have hsame := of_decide_eq_true hanswers
      exact ⟨found, ⟨session, hcreated, hsame.1⟩, hfound, hsame.2⟩
    · cases hanswers
  obtain ⟨earlier, c, between, creator, user_id, identity, created_at, now, hbefore, hcreates,
    hvalidates, -, -, hlifetime, -, -⟩ :=
    (session_expiry_sound hconfigured hrun).1 [(sampleStart, sampleCreated)]
      (sampleOpen, sampleFound) [] rfl found hfound
  obtain ⟨rfl, hlast⟩ : earlier = [] ∧ c = (sampleStart, sampleCreated) := by
    cases earlier with
    | nil => exact ⟨rfl, (List.cons.inj hbefore).1.symm⟩
    | cons y ys => exact absurd (congrArg List.length hbefore) (by simp)
  subst hlast
  rw [hhash] at hcreates hvalidates
  have hcreator : creator = text "Owner@example.com" := by
    obtain ⟨_, _, hcall, -⟩ := hcreates
    cases hcall
    rfl
  have huser : user_id = text "owner@example.com" := by
    obtain ⟨_, _, hcall, -⟩ := hvalidates
    cases hcall
    rfl
  subst hcreator huser
  exact ⟨created_at, now, hcreates, hvalidates, hlifetime⟩

end SessionWorld

end Pine
