import Pine.Ledger.Console.Sessions

/-!
# The security boundary of the console

`ConsoleSecurityMiddleware.__call__` in its order: identity, host, origin, length,
session, token, body. A request that may change state reaches the application only
when every check held, and with exactly the body that arrived.
-/

namespace Pine

/-- The configuration that the boundary reads. -/
structure ConsoleConfig where
  socket_path : Text
  allowed_host : Text
  allowed_identities : List Text
  max_request_bytes : Nat

/-- `PUBLIC_HEALTH_PATHS` -/
def publicHealthPaths : List Text := [text "/healthz", text "/livez", text "/readyz"]

/-- The methods that change no state. -/
def safeMethods : List Text := [text "GET", text "HEAD", text "OPTIONS"]

namespace Scope

variable (scope : Scope)

/-- `is_configured_unix_socket` -/
def isConfiguredUnixSocket (socket_path : Text) : Bool :=
  match scope.client, scope.server with
  | none, some (host, none) => purePath host == purePath socket_path
  | _, _ => false

/-- `authenticate_tailscale_identity` -/
def authenticate (c : ConsoleConfig) : Option Text :=
  if scope.isConfiguredUnixSocket c.socket_path then
    (((scope.rawHeader (bytes "tailscale-user-login")).bind Bytes.decodeAscii).bind
      normalizeUserIdentity).filter fun claimed => c.allowed_identities.contains claimed
  else none

/-- `_valid_host` -/
def validHost (allowed_host : Text) : Bool :=
  match scope.singleHeader "host", scope.singleHeader "x-forwarded-host",
      scope.singleHeader "x-forwarded-proto" with
  | some host, some forwarded_host, some forwarded_proto =>
    asciiLower host == text "localhost" && forwarded_proto == text "https" &&
      (asciiLower forwarded_host == allowed_host ||
        asciiLower forwarded_host == allowed_host ++ text ":443")
  | _, _, _ => false

/-- `_valid_origin` -/
def validOrigin (allowed_host : Text) : Bool :=
  scope.singleHeader "origin" == some (text "https://" ++ allowed_host)

/-- `_valid_session_establishment` -/
def validSessionEstablishment (method : Text) : Bool :=
  method == text "GET" &&
    (scope.singleHeader "sec-fetch-site" == some (text "none") ||
      scope.singleHeader "sec-fetch-site" == some (text "same-origin")) &&
    scope.singleHeader "sec-fetch-mode" == some (text "navigate") &&
    scope.singleHeader "sec-fetch-dest" == some (text "document")

/-- The method may change state. -/
def stateChanging : Bool := !safeMethods.contains (asciiUpper scope.method)

end Scope

/-- What the application gets: the identity and session of the request, its form, and its body. A
health path gets the messages as they come. -/
inductive AppCall where
  | health (messages : List Message)
  | application (identity : Text) (session : ConsoleSession) (form : Option (List (Text × Text)))
      (body : Bytes)

/-- The fields of `_form_csrf`; a body that cannot be parsed has none. -/
def formFields (body : Bytes) : List (Text × Text) :=
  (body.decodeUtf8.bind parseQsl).getD []

/-- The token of `_form_csrf`: the value of the only `csrf_token` field. -/
def formToken (fields : List (Text × Text)) : Option Text :=
  match fieldValues fields (text "csrf_token") with
  | [token] => some token
  | _ => none

namespace ConsoleSecurityMiddleware

variable (c : ConsoleConfig) (w : SessionWorld) (scope : Scope)

/-- A session for a first document load. -/
def establishSession (identity : Text) (clear_cookie : Bool) : SessionStore ConsoleSession := do
  Program.check (stopIf (scope.stateChanging = true) (.refused 403 clear_cookie))
  Program.check (stopIf (scope.validSessionEstablishment (asciiUpper scope.method) = false)
    (.refused 403 clear_cookie))
  Program.check (stopIf (w.establishment_allowed = false) .tooManyRequests)
  w.cleanupExpired
  w.create identity

/-- The session of the request: the one that its cookie names, or a new one. -/
def requestSession (identity : Text) : SessionStore ConsoleSession := do
  let lookup ← w.lookup scope.sessionCookieValue identity
  match lookup with
  | .identity_mismatch => Program.raise (.refused 403 true)
  | .valid session => return session
  | .expired => establishSession w scope identity true
  | .missing => establishSession w scope identity false

/-- The checks before the session is looked up; the result is the identity and the token header. -/
def checkRequest : Except Stop (Text × Option Text) := do
  let identity ← present (scope.authenticate c) .forbidden
  stopIf (scope.validHost c.allowed_host = false) .badRequest
  stopIf (scope.stateChanging = true ∧ scope.validOrigin c.allowed_host = false) .forbidden
  stopIf (∃ n ∈ scope.contentLength, c.max_request_bytes < n) .tooLarge
  let csrf_header := scope.singleHeader "x-pine-csrf-token"
  stopIf (scope.stateChanging = true ∧ csrf_header = none ∧ scope.isUrlencoded = false) .forbidden
  return (identity, csrf_header)

/-- `await _read_bounded_body(...)` -/
def readBody (messages : List Message) : Except Stop Bytes :=
  match readBoundedBody c.max_request_bytes [] messages with
  | .body b => .ok b
  | .tooLarge => .error .tooLarge
  | .disconnected => .error .disconnected
  | .waiting => .error .waiting

/-- The form of a state-changing request, with its token where the header has none. -/
def checkForm (session : ConsoleSession) (csrf_header : Option Text) (body : Bytes) :
    Except Stop (Option (List (Text × Text))) :=
  if scope.stateChanging = true ∧ scope.isUrlencoded = true then do
    let fields := formFields body
    stopIf (csrf_header = none ∧ (formToken fields).all (fun token =>
      !session.validatesCsrf w token (asciiUpper scope.method) scope.path) = true) .forbidden
    return some fields
  else .ok none

/-- The checks once the session is known, and the application. -/
def finish (identity : Text) (csrf_header : Option Text) (session : ConsoleSession)
    (messages : List Message) : Except Stop AppCall := do
  stopIf (scope.stateChanging = true ∧ ∃ token ∈ csrf_header,
    session.validatesCsrf w token (asciiUpper scope.method) scope.path = false) .forbidden
  let body ← readBody c messages
  let form ← checkForm w scope session csrf_header body
  return .application identity session form body

/-- `__call__`: the call of the application, or the reason why there is none. -/
def call (messages : List Message) : SessionStore AppCall :=
  if scope.path ∈ publicHealthPaths then return .health messages
  else do
    let admitted ← Program.check (checkRequest c scope)
    let session ← requestSession w scope admitted.1
    Program.check (finish c w scope admitted.1 admitted.2 session messages)

end ConsoleSecurityMiddleware

/-! ## What a call of the application required -/

/-- There is one header under the name, and it has this ASCII value. -/
def Scope.HasOnly (scope : Scope) (name : String) (value : Text) : Prop :=
  ∃ raw, (scope.headers.filter fun h => Bytes.lower h.1 = bytes name).map Prod.snd = [raw] ∧
    Bytes.decodeAscii raw = some value

theorem rawHeader_some {scope : Scope} {name raw : Bytes} :
    scope.rawHeader name = some raw ↔
      (scope.headers.filter fun h => Bytes.lower h.1 = name).map Prod.snd = [raw] := by
  unfold Scope.rawHeader
  generalize (scope.headers.filter fun h => Bytes.lower h.1 = name) = matches_
  rcases matches_ with _ | ⟨⟨_, value⟩, _ | ⟨second, rest⟩⟩ <;> simp

theorem singleHeader_some {scope : Scope} {name : String} {value : Text} :
    scope.singleHeader name = some value ↔ scope.HasOnly name value := by
  simp only [Scope.singleHeader, Option.bind_eq_some_iff, rawHeader_some, Scope.HasOnly]

theorem singleHeader_none {scope : Scope} {name : String} :
    scope.singleHeader name = none ↔ ∀ value, ¬ scope.HasOnly name value := by
  rw [Option.eq_none_iff_forall_ne_some]
  exact forall_congr' fun value => not_congr singleHeader_some

/-- The request came over the configured socket. -/
def Scope.OverSocket (scope : Scope) (socket_path : Text) : Prop :=
  scope.client = none ∧
    ∃ host, scope.server = some (host, none) ∧ purePath host = purePath socket_path

/-- The only login header names the identity, and the identity is allowed. -/
def Scope.LoggedInAs (scope : Scope) (c : ConsoleConfig) (identity : Text) : Prop :=
  ∃ login, scope.HasOnly "tailscale-user-login" login ∧
    normalizeUserIdentity login = some identity ∧ identity ∈ c.allowed_identities

/-- The hosts of the request are the local one and the configured one, over TLS. -/
def Scope.HostsAre (scope : Scope) (allowed_host : Text) : Prop :=
  ∃ host forwarded, scope.HasOnly "host" host ∧ asciiLower host = text "localhost" ∧
    scope.HasOnly "x-forwarded-proto" (text "https") ∧ scope.HasOnly "x-forwarded-host" forwarded ∧
    (asciiLower forwarded = allowed_host ∨ asciiLower forwarded = allowed_host ++ text ":443")

/-- A token came in the only token header, or, where no token header is usable, in the only token
field of a form. -/
def Scope.TokenShown (scope : Scope) (body : Bytes) (token : Text) : Prop :=
  scope.HasOnly "x-pine-csrf-token" token ∨
    ((∀ value, ¬ scope.HasOnly "x-pine-csrf-token" value) ∧ scope.isUrlencoded = true ∧
      fieldValues (formFields body) (text "csrf_token") = [token])

variable {c : ConsoleConfig} {w : SessionWorld} {scope : Scope} {identity : Text}

theorem isConfiguredUnixSocket_true {socket_path : Text}
    (h : scope.isConfiguredUnixSocket socket_path = true) : scope.OverSocket socket_path := by
  unfold Scope.isConfiguredUnixSocket at h
  split at h
  · rename_i host hclient hserver
    exact ⟨hclient, host, hserver, eq_of_beq h⟩
  · cases h

theorem authenticate_some (h : scope.authenticate c = some identity) :
    scope.OverSocket c.socket_path ∧ scope.LoggedInAs c identity := by
  unfold Scope.authenticate at h
  split at h
  · rename_i hsocket
    obtain ⟨hclaimed, hallowed⟩ := Option.filter_eq_some_iff.mp h
    obtain ⟨login, hlogin, hnormalized⟩ := Option.bind_eq_some_iff.mp hclaimed
    exact ⟨isConfiguredUnixSocket_true hsocket, login, singleHeader_some.mp hlogin, hnormalized,
      List.contains_iff_mem.mp hallowed⟩
  · cases h

theorem validHost_true {allowed_host : Text} (h : scope.validHost allowed_host = true) :
    scope.HostsAre allowed_host := by
  unfold Scope.validHost at h
  split at h
  · rename_i host forwarded_host forwarded_proto hhost hforwarded hproto
    simp only [Bool.and_eq_true, Bool.or_eq_true, beq_iff_eq] at h
    obtain ⟨⟨hlocal, hhttps⟩, hallowed⟩ := h
    subst hhttps
    exact ⟨host, forwarded_host, singleHeader_some.mp hhost, hlocal, singleHeader_some.mp hproto,
      singleHeader_some.mp hforwarded, hallowed⟩
  · cases h

theorem formToken_some {fields : List (Text × Text)} {token : Text} :
    formToken fields = some token ↔ fieldValues fields (text "csrf_token") = [token] := by
  unfold formToken
  split
  · rename_i shown hshown
    simp [hshown]
  · rename_i hmany
    exact ⟨nofun, fun h => absurd h (hmany token)⟩

/-- What the boundary checked before the application got a request that may change state. -/
structure CheckedRequest (c : ConsoleConfig) (w : SessionWorld) (scope : Scope)
    (rows rows' : List SessionRow) (messages : List Message) (identity : Text)
    (session : ConsoleSession) (body : Bytes) : Prop where
  over_socket : scope.OverSocket c.socket_path
  logged_in : scope.LoggedInAs c identity
  hosts : scope.HostsAre c.allowed_host
  origin : scope.HasOnly "origin" (text "https://" ++ c.allowed_host)
  session_valid : ∃ cookie, scope.sessionCookieValue = some cookie ∧
    (w.lookup (some cookie) identity).run rows = (.ok (.valid session), rows')
  token : scope.TokenShown body (session.csrfToken w scope.method scope.path)
  body_received : body = (receivedChunks messages).flatten
  body_bounded : body.length ≤ c.max_request_bytes

namespace ConsoleSecurityMiddleware

theorem checkRequest_ok {csrf_header : Option Text} (hchanging : scope.stateChanging = true)
    (h : checkRequest c scope = .ok (identity, csrf_header)) :
    scope.authenticate c = some identity ∧ scope.validHost c.allowed_host = true ∧
      scope.validOrigin c.allowed_host = true ∧
      csrf_header = scope.singleHeader "x-pine-csrf-token" ∧
      (csrf_header = none → scope.isUrlencoded = true) := by
  obtain ⟨found, hfound, h⟩ := bind_eq_ok.mp h
  obtain ⟨_, hhost, h⟩ := bind_eq_ok.mp h
  obtain ⟨_, horigin, h⟩ := bind_eq_ok.mp h
  obtain ⟨_, -, h⟩ := bind_eq_ok.mp h
  obtain ⟨_, htoken, h⟩ := bind_eq_ok.mp h
  cases h
  refine ⟨present_ok.mp hfound, ?_, ?_, rfl, fun hnone => ?_⟩
  · simpa using stopIf_ok.mp hhost
  · simpa [hchanging] using stopIf_ok.mp horigin
  · simpa [hchanging, hnone] using stopIf_ok.mp htoken

/-- A session for a request that may change state was found by its cookie. -/
theorem requestSession_ok {rows rows' : List SessionRow} {session : ConsoleSession}
    (hchanging : scope.stateChanging = true)
    (h : (requestSession w scope identity).run rows = (.ok session, rows')) :
    ∃ cookie, scope.sessionCookieValue = some cookie ∧
      (w.lookup (some cookie) identity).run rows = (.ok (.valid session), rows') := by
  -- no new session is established for such a request
  have hestablish : ∀ clear_cookie rows,
      (establishSession w scope identity clear_cookie).run rows ≠ (.ok session, rows') := by
    intro clear_cookie rows hrun
    obtain ⟨_, _, hchecked, -⟩ := Program.run_bind_ok.mp hrun
    exact stopIf_ok.mp (Program.run_check_ok.mp hchecked).1 hchanging
  obtain ⟨lookup, rows₁, hlookup, hrest⟩ := Program.run_bind_ok.mp h
  cases lookup with
  | identity_mismatch => cases hrest
  | expired => exact absurd hrest (hestablish true rows₁)
  | missing => exact absurd hrest (hestablish false rows₁)
  | valid found =>
    cases hrest
    cases hcookie : scope.sessionCookieValue with
    | none =>
      rw [hcookie] at hlookup
      cases hlookup
    | some cookie => exact ⟨cookie, rfl, hcookie ▸ hlookup⟩

theorem readBody_ok {messages : List Message} {body : Bytes} (h : readBody c messages = .ok body) :
    body = (receivedChunks messages).flatten ∧ body.length ≤ c.max_request_bytes := by
  unfold readBody at h
  split at h
  · rename_i read hread
    cases h
    exact readBoundedBody_body hread
  all_goals cases h

theorem validatesCsrf_true {session : ConsoleSession} {token : Text}
    (h : session.validatesCsrf w token (asciiUpper scope.method) scope.path = true) :
    token = session.csrfToken w scope.method scope.path := by
  rw [scope.method_upper, ConsoleSession.validatesCsrf, Bool.and_eq_true, beq_iff_eq] at h
  exact h.2

/-- A finished request showed its token, and its body was read within the limit. -/
theorem finish_ok {csrf_header : Option Text} {session : ConsoleSession} {messages : List Message}
    {app_call : AppCall} (hchanging : scope.stateChanging = true)
    (hheader : csrf_header = scope.singleHeader "x-pine-csrf-token")
    (hform : csrf_header = none → scope.isUrlencoded = true)
    (h : finish c w scope identity csrf_header session messages = .ok app_call) :
    ∃ form body, app_call = .application identity session form body ∧
      readBody c messages = .ok body ∧
      scope.TokenShown body (session.csrfToken w scope.method scope.path) := by
  obtain ⟨_, hvalid, h⟩ := bind_eq_ok.mp h
  obtain ⟨body, hbody, h⟩ := bind_eq_ok.mp h
  obtain ⟨form, hchecked, h⟩ := bind_eq_ok.mp h
  cases h
  refine ⟨form, body, rfl, hbody, ?_⟩
  cases htoken : csrf_header with
  | some token =>
    have hshown := stopIf_ok.mp hvalid
    simp only [hchanging, htoken, Option.mem_some_iff, true_and, exists_eq_left',
      Bool.not_eq_false] at hshown
    left
    rw [← validatesCsrf_true hshown]
    exact singleHeader_some.mp (by rw [← hheader, htoken])
  | none =>
    have hurlencoded := hform htoken
    rw [checkForm, if_pos ⟨hchanging, hurlencoded⟩] at hchecked
    obtain ⟨_, hfield, -⟩ := bind_eq_ok.mp hchecked
    have hshown := stopIf_ok.mp hfield
    refine .inr ⟨singleHeader_none.mp (by rw [← hheader, htoken]), hurlencoded, ?_⟩
    cases hfound : formToken (formFields body) with
    | none => simp [htoken, hfound] at hshown
    | some token =>
      simp only [htoken, hfound, Option.all_some, Bool.not_eq_true', true_and,
        Bool.not_eq_false] at hshown
      rw [← validatesCsrf_true hshown]
      exact formToken_some.mp hfound

def sampleConfig : ConsoleConfig where
  socket_path := text "/run/pine/console.sock"
  allowed_host := text "pine.example.ts.net"
  allowed_identities := [text "owner@example.com"]
  max_request_bytes := 65536

def sampleCookie : Text := List.replicate 43 'C'

def sampleSecret : Text := List.replicate 43 'A'

def sampleToken : Text := text "R5-LM1kqrNmt625xUxj528wyzrSAgIMOIOY8ISwU50U"

def sampleHash : Text := text "942014af03195c97fc8a6121a03e1660b89027a538325a101eba426dacd7e587"

def sampleWorld : SessionWorld where
  sha256 s := if s = sampleCookie then sampleHash else s
  digest secret message :=
    if secret = sampleSecret ∧ message = text "POST\n/drafts" then sampleToken else message
  absolute_lifetime := 28800000000
  idle_lifetime := 1800000000
  clock := (DateTime.fromisoformat (text "2026-03-01T12:00:00+00:00")).get (by decide +kernel)
  tokens := []
  establishment_allowed := true

def sampleRows : List SessionRow :=
  [{ session_hash := text "sha256:" ++ sampleHash
     user_id := text "owner@example.com"
     csrf_secret := sampleSecret
     created_at := text "2026-03-01T11:50:00.000000+00:00"
     last_seen_at := text "2026-03-01T11:55:00.000000+00:00"
     absolute_expires_at := text "2026-03-01T19:50:00.000000+00:00"
     idle_expires_at := text "2026-03-01T12:25:00.000000+00:00" }]

def sampleScope : Scope where
  method := text "POST"
  path := text "/drafts"
  headers := [(bytes "Host", bytes "localhost"),
    (bytes "X-Forwarded-Host", bytes "pine.example.ts.net"),
    (bytes "X-Forwarded-Proto", bytes "https"),
    (bytes "Origin", bytes "https://pine.example.ts.net"),
    (bytes "Tailscale-User-Login", bytes "Owner@example.com"),
    (bytes "Content-Type", bytes "application/x-www-form-urlencoded"),
    (bytes "Cookie", bytes "__Host-pine_session=CCCCCCCCCCCCCCCCCCCCCCCCCCCCCCCCCCCCCCCCCCC")]
  client := none
  server := some (text "/run/pine/console.sock", none)
  method_ascii := by decide
  method_upper := by decide

def sampleMessages : List Message :=
  [.request (bytes "csrf_token=R5-LM1kqrNmt625xUxj528") true, .other,
   .request (bytes "wyzrSAgIMOIOY8ISwU50U&note=a+b") false]

end ConsoleSecurityMiddleware

end Pine
