import Pine.Core.DayNumber
import Pine.Core.Program
import Pine.Core.TextOrder
import Pine.Ledger.Console.Http
import Pine.Ledger.Errors

/-!
# Console sessions

Server-side browser sessions: rows under the hash of an opaque cookie value, looked up
for one identity, advanced by each use and removed once they expired. Hashing is a
parameter, and so is the keyed digest of the request tokens.
-/

namespace Pine

/-- Why a request ends at the boundary. -/
inductive Stop where
  | refused (status : Nat) (clear_cookie : Bool)
  | disconnected
  | waiting
  deriving DecidableEq

namespace Stop

def badRequest : Stop := refused 400 false

def forbidden : Stop := refused 403 false

def tooLarge : Stop := refused 413 false

def tooManyRequests : Stop := refused 429 false

/-- An expected failure of the console: the request fails closed. -/
def unavailable : Stop := refused 503 false

/-- Any other exception. -/
def serverError : Stop := refused 500 false

end Stop

/-- `if ...: return` with a refusal. -/
def stopIf (condition : Prop) [Decidable condition] (stop : Stop) : Except Stop Unit :=
  if condition then .error stop else .ok ()

theorem stopIf_ok {condition : Prop} [Decidable condition] {stop : Stop} {u : Unit} :
    stopIf condition stop = .ok u ↔ ¬ condition := by
  unfold stopIf
  split <;> simp_all

/-- A value without which the request is refused. -/
def present {α : Type} (value : Option α) (stop : Stop) : Except Stop α :=
  match value with
  | some a => .ok a
  | none => .error stop

theorem present_ok {α : Type} {value : Option α} {stop : Stop} {a : α} :
    present value stop = .ok a ↔ value = some a := by
  cases value <;> simp [present]

/-- `normalize_user_identity`; `none` is a `ValueError`. -/
def normalizeUserIdentity (value : Text) : Option Text :=
  if ¬ value.all (fun c => decide (c.toNat < 128)) then none
  else
    let normalized := strip value
    if normalized = [] ∨ 320 < normalized.length ∨
        normalized.any fun c => decide (c.toNat < 0x21 ∨ 0x7E < c.toNat) then none
    else some (asciiLower normalized)

/-- `[A-Za-z0-9_-]{43}` -/
def isOpaqueToken (token : Text) : Bool :=
  token.length == 43 && token.all fun c => c.isAlphanum || c == '_' || c == '-'

/-- `sha256:[0-9a-f]{64}` -/
def isSessionHash (s : Text) : Bool :=
  match stripPrefix (text "sha256:") s with
  | some digits => digits.length == 64 && digits.all fun c => c.isDigit || ('a' ≤ c && c ≤ 'f')
  | none => false

/-- `_timestamp` of an instant: its UTC text with microseconds. -/
def timestamp (instant : Int) : Text :=
  let micros := (instant % dayMicros).toNat
  let (year, month, day) := Date.ordToYmd (instant / dayMicros).toNat
  padDigits 4 year ++ '-' :: (padDigits 2 month ++ '-' :: (padDigits 2 day ++ 'T' ::
    (padDigits 2 (micros / 3600000000) ++ ':' :: (padDigits 2 (micros / 60000000 % 60) ++ ':' ::
      (padDigits 2 (micros / 1000000 % 60) ++ '.' :: (padDigits 6 (micros % 1000000) ++
        text "+00:00"))))))

/-- A row of `console_sessions`. -/
structure SessionRow where
  session_hash : Text
  user_id : Text
  csrf_secret : Text
  created_at : Text
  last_seen_at : Text
  absolute_expires_at : Text
  idle_expires_at : Text
  deriving DecidableEq

/-- Validated session state; its times are instants. -/
structure ConsoleSession where
  session_hash : Text
  user_id : Text
  created_at : Int
  last_seen_at : Int
  absolute_expires_at : Int
  idle_expires_at : Int
  csrf_secret : Text
  deriving DecidableEq

/-- The result of looking up a cookie. -/
inductive SessionLookup where
  | valid (session : ConsoleSession)
  | missing
  | expired
  | identity_mismatch
  deriving DecidableEq

/-- The row of a session; its times are stored as text. -/
def ConsoleSession.row (session : ConsoleSession) : SessionRow :=
  ⟨session.session_hash, session.user_id, session.csrf_secret, timestamp session.created_at,
    timestamp session.last_seen_at, timestamp session.absolute_expires_at,
    timestamp session.idle_expires_at⟩

/-- The CHECK constraints of `console_sessions`. -/
def SessionRow.Checks (r : SessionRow) : Prop :=
  isSessionHash r.session_hash = true ∧ (1 ≤ r.user_id.length ∧ r.user_id.length ≤ 320) ∧
    isOpaqueToken r.csrf_secret = true ∧ 20 ≤ r.created_at.length ∧ 20 ≤ r.last_seen_at.length ∧
    20 ≤ r.absolute_expires_at.length ∧ 20 ≤ r.idle_expires_at.length ∧
    textLe r.created_at r.last_seen_at = true ∧ textLe r.last_seen_at r.idle_expires_at = true ∧
    textLe r.idle_expires_at r.absolute_expires_at = true

instance (r : SessionRow) : Decidable r.Checks := inferInstanceAs (Decidable (_ ∧ _))

/-- What the session store is configured with, and what one request reads besides the rows: the
clock, fresh tokens, and whether the rate limit lets a new session be established. -/
structure SessionWorld where
  sha256 : Text → Text
  digest : Text → Text → Text
  absolute_lifetime : Int
  idle_lifetime : Int
  clock : DateTime
  tokens : List (Text × Text)
  establishment_allowed : Bool

/-- The instant of a stored timestamp, when it is aware. -/
def storedInstant (s : Text) : Option Int :=
  (DateTime.fromisoformat s).bind fun t => if t.isAware then some t.instant else none

/-- `_session_from_row`; `none` is an error that fails the request closed. -/
def sessionFromRow (row : SessionRow) : Option ConsoleSession := do
  let user_id ← normalizeUserIdentity row.user_id
  let created_at ← storedInstant row.created_at
  let last_seen_at ← storedInstant row.last_seen_at
  let idle_expires_at ← storedInstant row.idle_expires_at
  let absolute_expires_at ← storedInstant row.absolute_expires_at
  if isSessionHash row.session_hash = true ∧ isOpaqueToken row.csrf_secret = true ∧
      created_at ≤ last_seen_at ∧ last_seen_at ≤ idle_expires_at ∧
      idle_expires_at ≤ absolute_expires_at then
    some ⟨row.session_hash, user_id, created_at, last_seen_at, absolute_expires_at,
      idle_expires_at, row.csrf_secret⟩
  else none

namespace ConsoleSession

/-- `csrf_token` -/
def csrfToken (w : SessionWorld) (session : ConsoleSession) (method path : Text) : Text :=
  w.digest session.csrf_secret (asciiUpper method ++ '\n' :: path)

/-- `validates_csrf` -/
def validatesCsrf (w : SessionWorld) (session : ConsoleSession) (token method path : Text) : Bool :=
  isOpaqueToken token && token == session.csrfToken w method path

end ConsoleSession

/-- Statements on the sessions. -/
abbrev SessionStore := Program (List SessionRow) Stop

namespace SessionWorld

variable (w : SessionWorld)

/-- `hash_session_id` -/
def hashSessionId (cookie_value : Text) : Text := text "sha256:" ++ w.sha256 cookie_value

/-- `_now` -/
def now : Except Stop Int :=
  if w.clock.isAware = true then present w.clock.utcInstant .serverError else .error .unavailable

/-- `instant + lifetime`; past year 9999 it is an `OverflowError`. -/
def later (instant lifetime : Int) : Except Stop Int :=
  if instant + lifetime < (DateTime.maxOrdinal + 1) * (dayMicros : Int) then
    .ok (instant + lifetime)
  else .error .serverError

/-- `DELETE FROM console_sessions WHERE session_hash = ?` -/
def deleteHash (session_hash : Text) : SessionStore Unit :=
  Program.update fun rows => .ok (rows.filter (·.session_hash ≠ session_hash))

/-- The update of a used session; the trigger refuses times that move backward. -/
def advance (session_hash last_seen_at idle_expires_at : Text) : SessionStore Unit :=
  Program.update fun rows =>
    if rows.any fun r => r.session_hash == session_hash &&
        (!textLe r.last_seen_at last_seen_at || !textLe last_seen_at idle_expires_at ||
          !textLe idle_expires_at r.absolute_expires_at) then .error .unavailable
    else .ok (rows.map fun r =>
      if r.session_hash = session_hash then { r with last_seen_at, idle_expires_at } else r)

/-- The part of `lookup` after its row was read. -/
def lookupSession (identity session_hash : Text) (now : Int) (session : ConsoleSession) :
    SessionStore SessionLookup :=
  if session.user_id ≠ identity then do
    deleteHash session_hash
    return .identity_mismatch
  else if session.absolute_expires_at ≤ now ∨ session.idle_expires_at ≤ now then do
    deleteHash session_hash
    return .expired
  else do
    let idle ← Program.check (later now w.idle_lifetime)
    let idle_expires_at := min idle session.absolute_expires_at
    advance session_hash (timestamp now) (timestamp idle_expires_at)
    return .valid { session with last_seen_at := now, idle_expires_at }

/-- `lookup` of a cookie value that has the form of one. -/
def lookupOpaque (cookie_value user_id : Text) : SessionStore SessionLookup := do
  let identity ← Program.check (present (normalizeUserIdentity user_id) .serverError)
  let now ← Program.check w.now
  let session_hash := w.hashSessionId cookie_value
  let row ← Program.query fun rows => .ok (rows.find? (·.session_hash == session_hash))
  match row with
  | none => return .missing
  | some row => do
    let session ← Program.check (present (sessionFromRow row) .unavailable)
    w.lookupSession identity session_hash now session

/-- `lookup` -/
def lookup (cookie_value : Option Text) (user_id : Text) : SessionStore SessionLookup :=
  match cookie_value with
  | none => return .missing
  | some cookie_value =>
    if isOpaqueToken cookie_value then w.lookupOpaque cookie_value user_id else return .missing

/-- `cleanup_expired` -/
def cleanupExpired : SessionStore Unit := do
  let now ← Program.check w.now
  Program.update fun rows => .ok (rows.filter fun r =>
    !textLe r.absolute_expires_at (timestamp now) && !textLe r.idle_expires_at (timestamp now))

/-- The attempts of `create`: a taken hash makes it try the next tokens. -/
def createWith (identity : Text) (now absolute_expires_at idle_expires_at : Int) :
    List (Text × Text) → SessionStore ConsoleSession
  | [] => Program.raise .unavailable
  | (cookie_value, csrf_secret) :: rest => do
    let session : ConsoleSession := ⟨w.hashSessionId cookie_value, identity, now, now,
      absolute_expires_at, idle_expires_at, csrf_secret⟩
    let inserted ← Program.statement fun rows =>
      if rows.any (·.session_hash == session.session_hash) ∨ ¬ session.row.Checks then
        .ok (false, rows)
      else .ok (true, rows ++ [session.row])
    match inserted with
    | true => return session
    | false => createWith identity now absolute_expires_at idle_expires_at rest

/-- `create` -/
def create (user_id : Text) : SessionStore ConsoleSession := do
  let identity ← Program.check (present (normalizeUserIdentity user_id) .serverError)
  let now ← Program.check w.now
  let absolute_expires_at ← Program.check (later now w.absolute_lifetime)
  let idle ← Program.check (later now w.idle_lifetime)
  w.createWith identity now absolute_expires_at (min idle absolute_expires_at) (w.tokens.take 5)

end SessionWorld

/-! ## What a valid lookup means -/

variable {w : SessionWorld} {cookie_value : Option Text} {user_id : Text}

/-- The stored session of a cookie: it belongs to the identity and has not expired. -/
def SessionWorld.Holds (w : SessionWorld) (rows : List SessionRow) (cookie identity : Text)
    (csrf_secret : Text) : Prop :=
  ∃ row ∈ rows, ∃ stored now, row.session_hash = w.hashSessionId cookie ∧
    sessionFromRow row = some stored ∧ stored.user_id = identity ∧ w.now = .ok now ∧
    now < stored.absolute_expires_at ∧ now < stored.idle_expires_at ∧
    row.csrf_secret = csrf_secret

theorem sessionFromRow_secret {row : SessionRow} {session : ConsoleSession}
    (h : sessionFromRow row = some session) : session.csrf_secret = row.csrf_secret := by
  simp only [sessionFromRow, Option.bind_eq_bind, Option.bind_eq_some_iff] at h
  obtain ⟨_, -, _, -, _, -, _, -, _, -, h⟩ := h
  split at h
  · cases h
    rfl
  · cases h

/-- A valid lookup found a session of the identity that has not expired. -/
theorem lookup_valid {rows rows' : List SessionRow} {session : ConsoleSession}
    (h : (w.lookup cookie_value user_id).run rows = (.ok (.valid session), rows')) :
    ∃ cookie identity, cookie_value = some cookie ∧ normalizeUserIdentity user_id = some identity ∧
      w.Holds rows cookie identity session.csrf_secret := by
  cases cookie_value with
  | none => cases h
  | some cookie =>
    rw [SessionWorld.lookup] at h
    split at h
    · obtain ⟨identity, _, hchecked, hclock⟩ := Program.run_bind_ok.mp h
      obtain ⟨hidentity, rfl⟩ := Program.run_check_ok.mp hchecked
      obtain ⟨now, _, hread, hquery⟩ := Program.run_bind_ok.mp hclock
      obtain ⟨hnow, rfl⟩ := Program.run_check_ok.mp hread
      obtain ⟨row, _, hselected, hrest⟩ := Program.run_bind_ok.mp hquery
      obtain ⟨hrow, rfl⟩ := Program.run_query_ok.mp hselected
      refine ⟨cookie, identity, rfl, present_ok.mp hidentity, ?_⟩
      cases row with
      | none => cases hrest
      | some row =>
        obtain ⟨stored, _, hvalidated, hlast⟩ := Program.run_bind_ok.mp hrest
        obtain ⟨hstored, rfl⟩ := Program.run_check_ok.mp hvalidated
        have hfound := Except.ok.inj hrow
        have hhash : row.session_hash = w.hashSessionId cookie := by
          simpa using List.find?_some hfound
        rw [SessionWorld.lookupSession] at hlast
        split at hlast
        · obtain ⟨_, _, -, hreturn⟩ := Program.run_bind_ok.mp hlast
          cases hreturn
        · rename_i hsame
          split at hlast
          · obtain ⟨_, _, -, hreturn⟩ := Program.run_bind_ok.mp hlast
            cases hreturn
          · rename_i hlive
            obtain ⟨idle, -, hadvance⟩ := Program.run_check_bind_ok.mp hlast
            obtain ⟨_, _, -, hreturn⟩ := Program.run_bind_ok.mp hadvance
            cases hreturn
            rw [not_or, Int.not_le, Int.not_le] at hlive
            exact ⟨row, List.mem_of_find?_eq_some hfound, stored, now, hhash, present_ok.mp hstored,
              not_not.mp hsame, hnow, hlive.1, hlive.2,
              (sessionFromRow_secret (present_ok.mp hstored)).symm⟩
    · cases h

end Pine
