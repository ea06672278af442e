import Pine.Core.Bytes
import Pine.Core.Path

/-!
# HTTP requests

An ASGI scope with its headers, and what the console reads from it: single headers,
cookies, the length and the type of the content, and the fields of a form. The body
arrives in messages and is read up to a limit.
-/

namespace Pine

/-! ## Texts of a request -/

/-- `value.lower()` of an ASCII text. -/
def asciiLower (s : Text) : Text := s.map Char.toLower

/-- `value.upper()` of an ASCII text. -/
def asciiUpper (s : Text) : Text := s.map Char.toUpper

/-- `value.partition(separator)`: what stands before it, and what follows if it is there. -/
def partition (separator : Char) (s : Text) : Text × Option Text :=
  match s.dropWhile (· ≠ separator) with
  | [] => (s, none)
  | _ :: rest => (s.takeWhile (· ≠ separator), some rest)

/-- Digits of an integer literal, single underscores between them allowed. -/
def intDigits : Text → Option Text
  | [] => none
  | [c] => if c.isDigit then some [c] else none
  | c :: '_' :: rest => if c.isDigit then (intDigits rest).map (c :: ·) else none
  | c :: rest => if c.isDigit then (intDigits rest).map (c :: ·) else none

/-- `int(value, 10)` of an ASCII text; more than 4300 digits are refused. -/
def parseInt (value : Text) : Option Int :=
  let (sign, digits) : Int × Text := match strip value with
    | '-' :: rest => (-1, rest)
    | '+' :: rest => (1, rest)
    | rest => (1, rest)
  (intDigits digits).bind fun ds =>
    if 4300 < ds.length then none
    else some (sign * (ds.foldl (fun n c => n * 10 + (c.toNat - 48)) 0 : Nat))

/-! ## Forms -/

/-- The value of a hexadecimal digit. -/
def hexDigitValue (c : Char) : Option Nat :=
  if c.isDigit then some (c.toNat - 48)
  else if 'a' ≤ c ∧ c ≤ 'f' then some (c.toNat - 87)
  else if 'A' ≤ c ∧ c ≤ 'F' then some (c.toNat - 55)
  else none

/-- `unquote_to_bytes` of an ASCII text. -/
def unquoteToBytes : Text → Bytes
  | '%' :: a :: b :: rest => match hexDigitValue a, hexDigitValue b with
    | some x, some y => (16 * x + y).toUInt8 :: unquoteToBytes rest
    | _, _ => 37 :: unquoteToBytes (a :: b :: rest)
  | c :: rest => c.toNat.toUInt8 :: unquoteToBytes rest
  | [] => []

/-- The longest ASCII runs of a text, each with the other characters before it. -/
def asciiRuns : Text → List (Text × Text)
  | [] => []
  | c :: s => match asciiRuns s with
    | (before, run) :: rest =>
      if c.toNat < 128 then
        match before with
        | [] => ([], c :: run) :: rest
        | _ => ([], [c]) :: (before, run) :: rest
      else (c :: before, run) :: rest
    | [] => if c.toNat < 128 then [([], [c])] else [([c], [])]

/-- `urllib.parse.unquote` -/
def unquote (s : Text) : Text :=
  (asciiRuns s).flatMap fun (before, run) => before ++ (unquoteToBytes run).decodeReplace

/-- One name or value of a form field: plus signs are blanks. -/
def unquotePlus (s : Text) : Text := unquote (s.map fun c => if c = '+' then ' ' else c)

/-- `parse_qs(..., keep_blank_values=True, max_num_fields=64)`, as the list of its fields. -/
def parseQsl (qs : Text) : Option (List (Text × Text)) :=
  if 64 < 1 + qs.count '&' then none
  else some (((splitOn '&' qs).filter (· ≠ [])).map fun field =>
    let (name, value) := partition '=' field
    (unquotePlus name, unquotePlus (value.getD [])))

/-- All values under one name. -/
def fieldValues (fields : List (Text × Text)) (name : Text) : List Text :=
  (fields.filter (·.1 = name)).map Prod.snd

/-! ## The scope -/

/-- An HTTP scope; its method is an ASCII token in upper case. -/
structure Scope where
  method : Text
  path : Text
  headers : List (Bytes × Bytes)
  client : Option (Text × Nat)
  server : Option (Text × Option Nat)
  method_ascii : method.all (fun c => decide (c.toNat < 128)) = true
  method_upper : asciiUpper method = method

namespace Scope

variable (scope : Scope)

/-- `_single_header` -/
def rawHeader (name : Bytes) : Option Bytes :=
  match scope.headers.filter fun h => Bytes.lower h.1 = name with
  | [(_, value)] => some value
  | _ => none

/-- `single_header` -/
def singleHeader (name : String) : Option Text := (scope.rawHeader (bytes name)).bind Bytes.decodeAscii

/-- `_content_length` -/
def contentLength : Option Nat :=
  ((scope.singleHeader "content-length").bind parseInt).bind fun n =>
    if 0 ≤ n then some n.toNat else none

/-- `_is_urlencoded` -/
def isUrlencoded : Bool :=
  (scope.singleHeader "content-type").any fun value =>
    asciiLower (strip (partition ';' value).1) == text "application/x-www-form-urlencoded"

/-- `b";".join(raw_values)` -/
def joinCookies : List Bytes → Bytes
  | [] => []
  | [value] => value
  | value :: rest => value ++ 59 :: joinCookies rest

/-- The values of a cookie in the text of all cookie headers. -/
def cookieValues (name : Text) (combined : Text) : List Text :=
  (splitOn ';' combined).filterMap fun item =>
    let (key, value) := partition '=' (strip item)
    if key = name then value else none

/-- `SESSION_COOKIE_NAME` -/
def sessionCookieName : Text := text "__Host-pine_session"

/-- `_session_cookie_value` -/
def sessionCookieValue : Option Text :=
  let raw_values := (scope.headers.filter fun h => Bytes.lower h.1 = bytes "cookie").map Prod.snd
  match raw_values with
  | [] => none
  | _ => (Bytes.decodeAscii (joinCookies raw_values)).bind fun combined =>
    match cookieValues sessionCookieName combined with
    | [value] => some value
    | _ => none

end Scope

/-! ## The body -/

/-- A message of the receive channel. -/
inductive Message where
  | request (body : Bytes) (more_body : Bool)
  | disconnect
  | other

/-- How reading a body ends. -/
inductive BodyRead where
  | body (b : Bytes)
  | tooLarge
  | disconnected
  | waiting
  deriving DecidableEq

/-- `_read_bounded_body`, with the chunks read so far; without a last chunk it waits. -/
def readBoundedBody (limit : Nat) (read : Bytes) : List Message → BodyRead
  | [] => .waiting
  | .disconnect :: _ => .disconnected
  | .other :: rest => readBoundedBody limit read rest
  | .request chunk more_body :: rest =>
    if limit < (read ++ chunk).length then .tooLarge
    else if more_body then readBoundedBody limit (read ++ chunk) rest
    else .body (read ++ chunk)

/-- The chunks that arrive up to the last one. -/
def receivedChunks : List Message → List Bytes
  | [] => []
  | .disconnect :: _ => []
  | .other :: rest => receivedChunks rest
  | .request chunk more_body :: rest => chunk :: if more_body then receivedChunks rest else []

/-- What is read is the concatenation of the chunks, and no longer than the limit. -/
theorem readBoundedBody_body {limit : Nat} {read b : Bytes} {messages : List Message}
    (h : readBoundedBody limit read messages = .body b) :
    b = read ++ (receivedChunks messages).flatten ∧ b.length ≤ limit := by
  induction messages generalizing read with
  | nil => cases h
  | cons message rest ih =>
    cases message with
    | disconnect => cases h
    | other => exact ih h
    | request chunk more_body =>
      rw [readBoundedBody] at h
      split at h
      · cases h
      · rename_i hfits
        cases more_body with
        | true =>
          obtain ⟨hb, hlength⟩ := ih h
          exact ⟨by rw [hb, receivedChunks]; simp, hlength⟩
        | false =>
          cases h
          exact ⟨by simp [receivedChunks], Nat.not_lt.mp hfits⟩

end Pine
