import Pine.Core.Base64
import Pine.Ledger.Console.SessionRows
import Pine.Ledger.Integrity

/-!
# Cursors of the prediction list

A cursor carries the key of the last prediction of a page and the filters of the query in
canonical JSON, with a tag over it, both in base64. It is read only under the same
filters, and only in the one spelling in which it was written.
-/

namespace Pine

/-- Whether immutable result evidence exists for a prediction run. -/
inductive ResultState where
  | present
  | absent
  deriving DecidableEq

def ResultState.value : ResultState → Text
  | present => text "present"
  | absent => text "absent"

/-- Validated filters bound into a cursor. -/
structure PredictionListFilters where
  registration_status : Option RegistrationStatus
  status : Option PredictionStatus
  strategy_id : Option Text
  result_state : Option ResultState
  normalized : ∀ s, strategy_id = some s → s ≠ [] ∧ s.length ≤ 256 ∧ s = strip s ∧ '\x00' ∉ s

/-- `payload` -/
def PredictionListFilters.payload (f : PredictionListFilters) : Document :=
  .obj [(text "registration_status", optionalText (f.registration_status.map RegistrationStatus.value)),
    (text "status", optionalText (f.status.map PredictionStatus.value)),
    (text "strategy_id", optionalText f.strategy_id),
    (text "result_state", optionalText (f.result_state.map ResultState.value))]

/-- `_canonical_utc_timestamp`; `none` is an error of the database function. -/
def canonicalUtcTimestamp (value : Text) : Option Text :=
  (DateTime.fromisoformat value).bind fun t => if t.isAware then t.utcInstant.map timestamp else none

/-- The key of a committed prediction in the list: its sort key and its id. -/
structure PageKey where
  committed_at : Text
  prediction_id : Identifier
  stored : ∃ value, canonicalUtcTimestamp value = some committed_at

/-- `ReadCursorError` -/
inductive ReadCursorError where
  | readCursorError (message : Text)
  deriving DecidableEq

/-- A tag of HMAC-SHA-256. -/
abbrev Tag := {b : Bytes // b.length = 32}

/-- `_urlsafe_encode` -/
def urlsafe_encode (value : Bytes) : Text := Base64.encode value

/-- `_urlsafe_decode`; `none` is a `ValueError`. -/
def urlsafe_decode (value : Text) : Option Bytes :=
  if value = [] ∨ value.any (fun c => decide (c ∉ Base64.alphabet)) = true then none
  else (Base64.decode value).bind fun decoded =>
    if urlsafe_encode decoded ≠ value then none else some decoded

namespace CursorCodec

/-- `json.loads` of bytes: those that start like an object are plain UTF-8, and what it makes of others,
or of a lone surrogate, is a parameter. -/
def jsonLoads (loadsOther : Bytes → Option Document) (payload : Bytes) : Option Document :=
  match payload with
  | 0x7B :: 0x22 :: _ => match Bytes.decodeUtf8 payload with
    | some content => Json.loads content
    | none => loadsOther payload
  | _ => loadsOther payload

/-- The object that a cursor carries. -/
def payloadOf (committed_at prediction_id : Text) (filters : PredictionListFilters) : Document :=
  .obj [(text "v", .int 1), (text "committed_at", .str committed_at),
    (text "prediction_id", .str prediction_id), (text "filters", filters.payload)]

/-- The bytes that are signed. -/
def signed (committed_at prediction_id : Text) (filters : PredictionListFilters) : Bytes :=
  Bytes.encodeUtf8 (Json.canonicalText (payloadOf committed_at prediction_id filters))

/-- `encode`, with the keyed digest of the codec. -/
def encode (mac : Bytes → Tag) (committed_at prediction_id : Text) (filters : PredictionListFilters) :
    Text :=
  urlsafe_encode (signed committed_at prediction_id filters) ++
    '.' :: urlsafe_encode (mac (signed committed_at prediction_id filters))

/-- `set(decoded) == {...}` -/
def hasKeys (fields : List (Text × Document)) : Bool :=
  let keys := ["v", "committed_at", "prediction_id", "filters"].map text
  fields.all (fun f => keys.contains f.1) && keys.all fun key => (fields.map Prod.fst).contains key

/-- The last checks of `decode`, on the loaded fields. -/
def checkFields (fields : List (Text × Document)) (filters : PredictionListFilters) :
    Except ReadCursorError (Text × Text) :=
  let field := fun key => (Json.Value.obj fields : Document).get? (text key)
  match field "v", field "committed_at", field "prediction_id", field "filters" with
  | some v, some (.str committed_at), some (.str prediction_id), some bound =>
    if v.equals (.int 1) = false ∨ committed_at = [] ∨ prediction_id = [] ∨
        bound.equals filters.payload = false then
      .error (.readCursorError (text "prediction cursor does not match this query"))
    else .ok (committed_at, prediction_id)
  | _, _, _, _ => .error (.readCursorError (text "prediction cursor does not match this query"))

/-- `decode` -/
def decode (mac : Bytes → Tag) (loadsOther : Bytes → Option Document) (cursor : Text)
    (filters : PredictionListFilters) : Except ReadCursorError (Text × Text) :=
  let invalid := .error (.readCursorError (text "prediction cursor is invalid"))
  if cursor = [] ∨ 4096 < utf8Length cursor then invalid
  else match splitOnce ['.'] cursor with
    | none => invalid
    | some (encoded, encoded_signature) =>
      match urlsafe_decode encoded, urlsafe_decode encoded_signature with
      | some payload, some signature =>
        if signature ≠ mac payload then invalid
        else match jsonLoads loadsOther payload with
          | some (.obj fields) => if hasKeys fields then checkFields fields filters else invalid
          | _ => invalid
      | _, _ => invalid

/-! ## The signed object -/

variable {committed_at prediction_id : Text} {filters : PredictionListFilters}

theorem keyed_payload (f : PredictionListFilters) : Keyed f.payload :=
  keyed_obj ["registration_status", "status", "strategy_id", "result_state"] rfl (by decide)
    ⟨keyed_optionalText _, keyed_optionalText _, keyed_optionalText _, keyed_optionalText _, trivial⟩

theorem isFinite_optionalText (s : Option Text) : isFinite (optionalText s) = true := by
  cases s <;> rfl

theorem proper_payloadOf (committed_at prediction_id : Text) (filters : PredictionListFilters) :
    (payloadOf committed_at prediction_id filters).Proper := by
  refine (proper_iff _).mpr ⟨keyed_obj ["v", "committed_at", "prediction_id", "filters"] rfl
    (by decide) ⟨trivial, trivial, trivial, keyed_payload filters, trivial⟩, ?_⟩
  simp [payloadOf, isFinite, fieldsFinite, PredictionListFilters.payload, isFinite_optionalText]

theorem sortKeys_optionalText (s : Option Text) : Json.sortKeys (optionalText s) = optionalText s := by
  cases s <;> rfl

/-- The filters in the order of their keys. -/
theorem sortKeys_payload (f : PredictionListFilters) : Json.sortKeys f.payload =
    .obj [(text "registration_status", optionalText (f.registration_status.map RegistrationStatus.value)),
      (text "result_state", optionalText (f.result_state.map ResultState.value)),
      (text "status", optionalText (f.status.map PredictionStatus.value)),
      (text "strategy_id", optionalText f.strategy_id)] := by
  have hsorted : ∀ a b c d : Document, Json.sortKeys (.obj [(text "registration_status", a),
      (text "status", b), (text "strategy_id", c), (text "result_state", d)]) =
      .obj [(text "registration_status", Json.sortKeys a), (text "result_state", Json.sortKeys d),
        (text "status", Json.sortKeys b), (text "strategy_id", Json.sortKeys c)] :=
    fun _ _ _ _ => rfl
  simp only [PredictionListFilters.payload, hsorted, sortKeys_optionalText]

/-- The fields that are loaded from what was signed. -/
def sortedFields (committed_at prediction_id : Text) (filters : PredictionListFilters) :
    List (Text × Document) :=
  [(text "committed_at", .str committed_at), (text "filters", Json.sortKeys filters.payload),
    (text "prediction_id", .str prediction_id), (text "v", .int 1)]

theorem sortKeys_payloadOf : Json.sortKeys (payloadOf committed_at prediction_id filters) =
    .obj (sortedFields committed_at prediction_id filters) := rfl

theorem jsonLoads_object (loadsOther : Bytes → Option Document) {payload rest : Bytes} {content : Text}
    (hstart : payload = 0x7B :: 0x22 :: rest) (hdecode : Bytes.decodeUtf8 payload = some content) :
    jsonLoads loadsOther payload = Json.loads content := by
  subst hstart
  simp only [jsonLoads, hdecode]

/-- The signed bytes are loaded as the signed object. -/
theorem jsonLoads_signed (loadsOther : Bytes → Option Document) :
    jsonLoads loadsOther (signed committed_at prediction_id filters) =
      some (.obj (sortedFields committed_at prediction_id filters)) := by
  have hloads := Json.loads_canonicalText (proper_payloadOf committed_at prediction_id filters)
  have hdecode := Bytes.decodeUtf8_encodeUtf8
    (Json.canonicalText (payloadOf committed_at prediction_id filters))
  have hstart : ∃ rest, signed committed_at prediction_id filters = 0x7B :: 0x22 :: rest := ⟨_, rfl⟩
  obtain ⟨rest, hrest⟩ := hstart
  rw [jsonLoads_object loadsOther hrest hdecode, hloads, sortKeys_payloadOf]

theorem hasKeys_sortedFields : hasKeys (sortedFields committed_at prediction_id filters) = true := rfl

/-! ## Filters -/

theorem equals_optionalText (s t : Option Text) :
    (optionalText s).equals (optionalText t) = true ↔ s = t := by
  cases s with
  | none =>
    cases t with
    | none => simp [optionalText, Json.Value.equals, Json.Value.equalsAtom]
    | some b => simp [optionalText, Json.Value.equals, Json.Value.equalsAtom, Json.Value.units?]
  | some a =>
    cases t with
    | none => simp [optionalText, Json.Value.equals]
    | some b => simp [optionalText, Json.Value.equals]

theorem optionalText_injective : Function.Injective optionalText := by
  intro s t h
  cases s <;> cases t <;> simp_all [optionalText]

/-- The filters of a cursor are accepted exactly for a query with the same ones. -/
theorem equals_payload (f g : PredictionListFilters) :
    (Json.sortKeys f.payload).equals g.payload = true ↔ f.payload = g.payload := by
  have hfields : ∀ a b c d a' b' c' d' : Document,
      (Json.Value.obj [(text "registration_status", a), (text "result_state", d), (text "status", b),
        (text "strategy_id", c)] : Document).equals (.obj [(text "registration_status", a'),
          (text "status", b'), (text "strategy_id", c'), (text "result_state", d')]) =
        (a.equals a' && (d.equals d' && (b.equals b' && (c.equals c' && true)))) :=
    fun _ _ _ _ _ _ _ _ => rfl
  rw [sortKeys_payload, PredictionListFilters.payload, PredictionListFilters.payload, hfields]
  simp only [Bool.and_eq_true, equals_optionalText, Json.Value.obj.injEq, List.cons.injEq,
    Prod.mk.injEq, true_and, and_true, optionalText_injective.eq_iff]
  tauto

/-! ## Length -/

theorem utf8Length_append (s t : Text) : utf8Length (s ++ t) = utf8Length s + utf8Length t := by
  simp [utf8Length]

theorem utf8Length_cons (c : Char) (s : Text) : utf8Length (c :: s) = c.utf8Size + utf8Length s := by
  simp [utf8Length]

/-- A character takes at most six bytes in JSON: an escaped control character. -/
theorem utf8Length_escapeChar (c : Char) : utf8Length (Json.escapeChar c) ≤ 6 := by
  have hself : utf8Length [c] ≤ 6 := by
    rw [utf8Length_cons]
    have := c.utf8Size_le_four
    simp only [utf8Length, List.map_nil, List.sum_nil]
    omega
  have hcontrol : ∀ n < 0x20, utf8Length (Json.escapeControl (Char.ofNat n)) ≤ 6 := by decide +kernel
  unfold Json.escapeChar
  split
  · decide
  · split
    · decide
    · split
      · decide
      · split
        · decide
        · split
          · decide
          · split
            · decide
            · split
              · decide
              · split
                · rename_i hlow
                  have hc := hcontrol c.toNat hlow
                  rwa [Char.ofNat_toNat] at hc
                · exact hself

theorem utf8Length_printString (s : Text) : utf8Length (Json.printString s) ≤ 6 * s.length + 2 := by
  have hescape : utf8Length (Json.escape s) ≤ 6 * s.length := by
    induction s with
    | nil => exact Nat.le_refl 0
    | cons c s ih =>
      have hfirst := utf8Length_escapeChar c
      rw [Json.escape, List.flatMap_cons, utf8Length_append, List.length_cons]
      rw [Json.escape] at ih
      omega
  have hquote : ('"' : Char).utf8Size = 1 := by decide
  rw [Json.printString, utf8Length_append, utf8Length_cons, utf8Length_cons, hquote]
  simp only [utf8Length, List.map_nil, List.sum_nil] at hescape ⊢
  omega

/-- The fields of a compact object after the first take their keys, their values, a colon and a comma. -/
theorem utf8Length_printFields (d : Nat) (fs : List (Text × Document)) :
    utf8Length (Json.printFields Json.compactStyle d fs) = (fs.map fun f =>
      utf8Length (Json.printString f.1) + utf8Length (Json.print Json.compactStyle d f.2) + 2).sum := by
  have hcolon : (':' : Char).utf8Size = 1 := by decide
  have hcomma : (',' : Char).utf8Size = 1 := by decide
  induction fs with
  | nil => rfl
  | cons f fs ih =>
    simp only [Json.printFields, Json.compactStyle, List.nil_append, utf8Length_cons,
      utf8Length_append, hcolon, hcomma, List.map_cons, List.sum_cons] at ih ⊢
    omega

theorem utf8Length_object (d : Nat) {fs : List (Text × Document)} (hfs : fs ≠ []) :
    utf8Length (Json.print Json.compactStyle d (.obj fs)) = (fs.map fun f =>
      utf8Length (Json.printString f.1) +
        utf8Length (Json.print Json.compactStyle (d + 1) f.2) + 2).sum + 1 := by
  have hopen : ('\x7b' : Char).utf8Size = 1 := by decide
  have hclose : ('\x7d' : Char).utf8Size = 1 := by decide
  have hcolon : (':' : Char).utf8Size = 1 := by decide
  obtain ⟨f, rest, rfl⟩ := List.exists_cons_of_ne_nil hfs
  have hrest := utf8Length_printFields (d + 1) rest
  have hend : utf8Length [] = 0 := rfl
  simp only [Json.print, Json.compactStyle, List.nil_append, utf8Length_cons, utf8Length_append,
    hopen, hclose, hcolon, hend, List.map_cons, List.sum_cons] at hrest ⊢
  omega

theorem utf8Length_optionalText {s : Option Text} {n : Nat} (d : Nat) (hn : 4 ≤ n)
    (hs : ∀ t, s = some t → utf8Length (Json.printString t) ≤ n) :
    utf8Length (Json.print Json.compactStyle d (optionalText s)) ≤ n := by
  cases s with
  | none => exact hn
  | some t => exact hs t rfl

/-- The filters take at most 1648 bytes. -/
theorem utf8Length_filters (d : Nat) (f : PredictionListFilters) :
    utf8Length (Json.print Json.compactStyle d (Json.sortKeys f.payload)) ≤ 1648 := by
  have hregistration : ∀ d, utf8Length (Json.print Json.compactStyle d
      (optionalText (f.registration_status.map RegistrationStatus.value))) ≤ 23 := by
    intro d
    refine utf8Length_optionalText d (by decide) fun t ht => ?_
    obtain ⟨status, -, rfl⟩ := Option.map_eq_some_iff.mp ht
    cases status <;> decide
  have hstatus : ∀ d, utf8Length (Json.print Json.compactStyle d
      (optionalText (f.status.map PredictionStatus.value))) ≤ 13 := by
    intro d
    refine utf8Length_optionalText d (by decide) fun t ht => ?_
    obtain ⟨status, -, rfl⟩ := Option.map_eq_some_iff.mp ht
    cases status <;> decide
  have hresult : ∀ d, utf8Length (Json.print Json.compactStyle d
      (optionalText (f.result_state.map ResultState.value))) ≤ 9 := by
    intro d
    refine utf8Length_optionalText d (by decide) fun t ht => ?_
    obtain ⟨state, -, rfl⟩ := Option.map_eq_some_iff.mp ht
    cases state <;> decide
  have hstrategy : ∀ d, utf8Length (Json.print Json.compactStyle d (optionalText f.strategy_id)) ≤
      1538 := by
    intro d
    refine utf8Length_optionalText d (by decide) fun t ht => ?_
    have hprint := utf8Length_printString t
    have hlength := (f.normalized t ht).2.1
    omega
  have h1 : utf8Length (Json.printString (text "registration_status")) = 21 := by decide
  have h2 : utf8Length (Json.printString (text "result_state")) = 14 := by decide
  have h3 : utf8Length (Json.printString (text "status")) = 8 := by decide
  have h4 : utf8Length (Json.printString (text "strategy_id")) = 13 := by decide
  rw [sortKeys_payload, utf8Length_object d (by simp)]
  simp only [List.map_cons, List.map_nil, List.sum_cons, List.sum_nil, h1, h2, h3, h4]
  have := hregistration (d + 1)
  have := hstatus (d + 1)
  have := hresult (d + 1)
  have := hstrategy (d + 1)
  omega

/-- A stored time has 32 characters in the list. -/
theorem length_canonicalUtcTimestamp {value s : Text} (h : canonicalUtcTimestamp value = some s) :
    s.length = 32 := by
  obtain ⟨t, -, ht⟩ := Option.bind_eq_some_iff.mp h
  split at ht
  · obtain ⟨instant, hinstant, rfl⟩ := Option.map_eq_some_iff.mp ht
    rw [timestamp_eq (DateTime.utcInstant_some hinstant)]
    simp [Date.isoformat, text]
  · cases ht

/-- An id has at most 128 characters. -/
theorem length_identifier (id : Identifier) : id.val ≠ [] ∧ id.val.length ≤ 128 := by
  have hvalid := id.property
  unfold validateIdentifier at hvalid
  split at hvalid
  · cases hvalid
  · rename_i hlength
    simpa only [not_or, Nat.not_lt] using hlength

theorem committed_at_ne_nil (key : PageKey) : key.committed_at ≠ [] := by
  obtain ⟨value, hstored⟩ := key.stored
  have htime := length_canonicalUtcTimestamp hstored
  rintro hempty
  rw [hempty] at htime
  cases htime

/-- What is signed has at most 2663 bytes. -/
theorem length_signed (key : PageKey) (f : PredictionListFilters) :
    (signed key.committed_at key.prediction_id.val f).length ≤ 2663 := by
  obtain ⟨value, hstored⟩ := key.stored
  have htime := utf8Length_printString key.committed_at
  have hid := utf8Length_printString key.prediction_id.val
  have hfilters := utf8Length_filters (0 + 1) f
  rw [length_canonicalUtcTimestamp hstored] at htime
  have hlength := (length_identifier key.prediction_id).2
  have h1 : utf8Length (Json.printString (text "committed_at")) = 14 := by decide
  have h2 : utf8Length (Json.printString (text "filters")) = 9 := by decide
  have h3 : utf8Length (Json.printString (text "prediction_id")) = 15 := by decide
  have h4 : utf8Length (Json.printString (text "v")) = 3 := by decide
  have h5 : utf8Length (Json.print Json.compactStyle 1 (.int 1 : Document)) = 1 := by decide
  have hstr : ∀ s : Text, Json.print Json.compactStyle 1 (.str s : Document) = Json.printString s :=
    fun _ => rfl
  rw [signed, Bytes.length_encodeUtf8, Json.canonicalText, sortKeys_payloadOf,
    utf8Length_object 0 (by simp [sortedFields])]
  simp only [sortedFields, List.map_cons, List.map_nil, List.sum_cons, List.sum_nil, h1, h2, h3, h4,
    h5, hstr]
  omega

/-! ## Base64 -/

/-- Bytes are read back from the spelling that is written. -/
theorem urlsafe_decode_encode {b : Bytes} (hb : b ≠ []) : urlsafe_decode (urlsafe_encode b) = some b := by
  have hne : urlsafe_encode b ≠ [] := by
    intro hempty
    have hlength := Base64.length_encode b
    rw [urlsafe_encode] at hempty
    rw [hempty, List.length_nil] at hlength
    have hpositive := List.length_pos_iff.mpr hb
    omega
  have halphabet :
      ¬ (urlsafe_encode b).any (fun c => decide (c ∉ Base64.alphabet)) = true := by
    intro hany
    obtain ⟨c, hc, hnot⟩ := List.any_eq_true.mp hany
    exact of_decide_eq_true hnot (Base64.encode_mem b c hc)
  have hdecode : Base64.decode (urlsafe_encode b) = some b := Base64.decode_encode b
  rw [urlsafe_decode, if_neg (not_or.mpr ⟨hne, halphabet⟩), hdecode, Option.bind_some,
    if_neg (not_not.mpr rfl)]

/-- No other spelling is read. -/
theorem eq_encode_of_decode {value : Text} {b : Bytes} (h : urlsafe_decode value = some b) :
    value = urlsafe_encode b := by
  unfold urlsafe_decode at h
  split at h
  · cases h
  · obtain ⟨decoded, -, hsame⟩ := Option.bind_eq_some_iff.mp h
    split at hsame
    · cases hsame
    · rename_i heq
      cases hsame
      exact (not_not.mp heq).symm

theorem utf8Length_urlsafe (b : Bytes) : utf8Length (urlsafe_encode b) = (4 * b.length + 2) / 3 := by
  have hdigits : Base64.alphabet.all (·.utf8Size == 1) = true := by decide +kernel
  have hsize : ∀ c ∈ urlsafe_encode b, c.utf8Size = 1 := by
    intro c hc
    exact beq_iff_eq.mp (List.all_eq_true.mp hdigits c (Base64.encode_mem b c hc))
  rw [utf8Length, List.map_congr_left hsize, ← Base64.length_encode, urlsafe_encode]
  simp

/-! ## Cursors -/

variable {mac : Bytes → Tag} {loadsOther : Bytes → Option Document}

/-- The first dot of a cursor stands between its two parts. -/
theorem splitOnce_encode (b c : Bytes) :
    splitOnce ['.'] (urlsafe_encode b ++ '.' :: urlsafe_encode c) =
      some (urlsafe_encode b, urlsafe_encode c) :=
  splitOnce_singleton.mpr ⟨rfl, fun hmem => absurd (Base64.encode_mem b _ hmem) (by decide)⟩

/-- A cursor has at most 3595 characters, all of them ASCII. -/
theorem length_encode (mac : Bytes → Tag) (key : PageKey) (filters : PredictionListFilters) :
    utf8Length (encode mac key.committed_at key.prediction_id.val filters) ≤ 3595 := by
  have hsigned := length_signed key filters
  have hdot : ('.' : Char).utf8Size = 1 := by decide
  rw [encode, utf8Length_append, utf8Length_cons, hdot, utf8Length_urlsafe, utf8Length_urlsafe,
    (mac _).property]
  omega

/-- What a cursor says is read exactly under the filters that it was written for. -/
theorem checkFields_ok {committed_at prediction_id : Text} (hcommitted : committed_at ≠ [])
    (hid : prediction_id ≠ []) {bound filters : PredictionListFilters} {read : Text × Text} :
    checkFields (sortedFields committed_at prediction_id bound) filters = .ok read ↔
      bound.payload = filters.payload ∧ read = (committed_at, prediction_id) := by
  have hfields : checkFields (sortedFields committed_at prediction_id bound) filters =
      if (Json.Value.int 1 : Document).equals (.int 1) = false ∨ committed_at = [] ∨
          prediction_id = [] ∨ (Json.sortKeys bound.payload).equals filters.payload = false then
        .error (.readCursorError (text "prediction cursor does not match this query"))
      else .ok (committed_at, prediction_id) := rfl
  have hone : (Json.Value.int 1 : Document).equals (.int 1) = true := by
    simp only [Json.Value.equals, Json.Value.equalsAtom, Json.Value.units?, beq_self_eq_true]
  rw [hfields, hone, ← equals_payload]
  simp only [hcommitted, hid, Bool.true_eq_false, false_or]
  cases (Json.sortKeys bound.payload).equals filters.payload with
  | true => simp [eq_comm]
  | false => simp

/-- What `decode` reads from a cursor whose parts decode and whose tag is right. -/
theorem decode_eq {cursor encoded encoded_signature : Text} {payload : Bytes}
    {fields : List (Text × Document)} (hne : cursor ≠ []) (hlength : utf8Length cursor ≤ 4096)
    (hsplit : splitOnce ['.'] cursor = some (encoded, encoded_signature))
    (hpayload : urlsafe_decode encoded = some payload)
    (hsignature : urlsafe_decode encoded_signature = some (mac payload).val)
    (hloads : jsonLoads loadsOther payload = some (.obj fields)) (hkeys : hasKeys fields = true) :
    decode mac loadsOther cursor filters = checkFields fields filters := by
  have hshort : ¬ (cursor = [] ∨ 4096 < utf8Length cursor) := by
    rintro (hempty | hlong)
    · exact hne hempty
    · omega
  simp only [decode, if_neg hshort, hsplit, hpayload, hsignature, ne_eq, not_true_eq_false, if_false,
    hloads, hkeys, if_true]

/-- A cursor is read under its own filters. -/
theorem decode_encode (mac : Bytes → Tag) (loadsOther : Bytes → Option Document) (key : PageKey)
    (filters : PredictionListFilters) :
    decode mac loadsOther (encode mac key.committed_at key.prediction_id.val filters) filters =
      .ok (key.committed_at, key.prediction_id.val) := by
  have hlength := length_encode mac key filters
  have hne : encode mac key.committed_at key.prediction_id.val filters ≠ [] := by simp [encode]
  have hsigned : signed key.committed_at key.prediction_id.val filters ≠ [] :=
    List.cons_ne_nil _ _
  have htag : (mac (signed key.committed_at key.prediction_id.val filters)).val ≠ [] := by
    intro hempty
    have hsize := (mac (signed key.committed_at key.prediction_id.val filters)).property
    rw [hempty] at hsize
    cases hsize
  rw [decode_eq hne (by omega) (splitOnce_encode _ _) (urlsafe_decode_encode hsigned)
    (urlsafe_decode_encode htag) (jsonLoads_signed loadsOther) hasKeys_sortedFields]
  exact (checkFields_ok (committed_at_ne_nil key) (length_identifier key.prediction_id).1).mpr ⟨rfl, rfl⟩

/-- A text presents bytes with a tag. -/
def Presents (cursor : Text) (payload : Bytes) (tag : Bytes) : Prop :=
  cursor = urlsafe_encode payload ++ '.' :: urlsafe_encode tag

/-- A cursor with a forged tag: the right one for bytes that were never signed for a page. -/
def Forged (mac : Bytes → Tag) (issued : Set (PageKey × PredictionListFilters)) (cursor : Text) : Prop :=
  ∃ payload, Presents cursor payload (mac payload) ∧
    ∀ x ∈ issued, payload ≠ signed x.1.committed_at x.1.prediction_id.val x.2

/-- A cursor that is read is one that was issued, under filters with the same payload. -/
theorem issued_of_decode {issued : Set (PageKey × PredictionListFilters)} {cursor : Text}
    {filters : PredictionListFilters} {read : Text × Text} (hforged : ¬ Forged mac issued cursor)
    (h : decode mac loadsOther cursor filters = .ok read) :
    ∃ x ∈ issued, cursor = encode mac x.1.committed_at x.1.prediction_id.val x.2 ∧
      x.2.payload = filters.payload ∧ read = (x.1.committed_at, x.1.prediction_id.val) := by
  unfold decode at h
  dsimp only at h
  split at h
  · cases h
  · split at h
    · cases h
    · rename_i encoded encoded_signature hsplit
      split at h
      · rename_i payload signature hpayload hsignature
        split at h
        · cases h
        · rename_i htag
          obtain ⟨rfl, -⟩ := splitOnce_singleton.mp hsplit
          obtain rfl := eq_encode_of_decode hpayload
          obtain rfl := eq_encode_of_decode hsignature
          obtain rfl := not_not.mp htag
          have hissued : ∃ x ∈ issued,
              payload = signed x.1.committed_at x.1.prediction_id.val x.2 := by
            by_contra hnone
            exact hforged ⟨payload, rfl, fun x hx heq => hnone ⟨x, hx, heq⟩⟩
          obtain ⟨x, hx, rfl⟩ := hissued
          refine ⟨x, hx, rfl, ?_⟩
          simp only [jsonLoads_signed, hasKeys_sortedFields, if_true] at h
          exact (checkFields_ok (committed_at_ne_nil x.1) (length_identifier x.1.prediction_id).1).mp h
      · cases h

/-- A cursor of any page under any filters is read back as the key of the page and fits the bounds of
its readers; and a cursor that is read under some filters, with no forged tag, was issued with just
these characters for filters with the same payload. -/
theorem cursors_bind (mac : Bytes → Tag) (loadsOther : Bytes → Option Document)
    (issued : Set (PageKey × PredictionListFilters)) :
    (∀ (key : PageKey) (filters : PredictionListFilters),
      decode mac loadsOther (encode mac key.committed_at key.prediction_id.val filters) filters =
          .ok (key.committed_at, key.prediction_id.val) ∧
        utf8Length (encode mac key.committed_at key.prediction_id.val filters) ≤ 4096) ∧
      ∀ (cursor : Text) (filters : PredictionListFilters) (read : Text × Text),
        ¬ Forged mac issued cursor → decode mac loadsOther cursor filters = .ok read →
          ∃ x ∈ issued, cursor = encode mac x.1.committed_at x.1.prediction_id.val x.2 ∧
            x.2.payload = filters.payload ∧ read = (x.1.committed_at, x.1.prediction_id.val) :=
  ⟨fun key filters => ⟨decode_encode mac loadsOther key filters,
    (length_encode mac key filters).trans (by decide)⟩,
    fun _ _ _ hforged h => issued_of_decode hforged h⟩

/-- A prediction that was committed half a second into a year, in a zone two hours ahead. -/
def sampleKey : PageKey where
  committed_at := text "2025-01-01T00:00:00.500000+00:00"
  prediction_id := ⟨text "p1", by decide⟩
  stored := ⟨text "2025-01-01T02:00:00.5+02:00", by decide +kernel⟩

/-- Open predictions of a strategy whose name has quotes in it. -/
def sampleFilters : PredictionListFilters where
  registration_status := none
  status := some .open
  strategy_id := some (text "Sé \"1\"")
  result_state := none
  normalized := by
    rintro s ⟨⟩
    decide

/-- A digest that is right for the sample, under the secret `0123456789abcdef0123456789abcdef`. -/
def sampleMac (_ : Bytes) : Tag :=
  ⟨[18, 167, 33, 103, 169, 235, 241, 110, 123, 215, 21, 254, 106, 163, 69, 142, 227, 16, 149, 7, 17, 75,
    2, 176, 87, 156, 252, 50, 50, 40, 78, 135], rfl⟩

/-- The cursor of the sample. -/
def sampleCursor : Text :=
  text ("eyJjb21taXR0ZWRfYXQiOiIyMDI1LTAxLTAxVDAwOjAwOjAwLjUwMDAwMCswMDowMCIsImZpbHRlcnMiOnsicmVnaXN0" ++
    "cmF0aW9uX3N0YXR1cyI6bnVsbCwicmVzdWx0X3N0YXRlIjpudWxsLCJzdGF0dXMiOiJvcGVuIiwic3RyYXRlZ3lfaWQi" ++
    "OiJTw6kgXCIxXCIifSwicHJlZGljdGlvbl9pZCI6InAxIiwidiI6MX0" ++
    ".EqchZ6nr8W571xX-aqNFjuMQlQcRSwKwV5z8MjIoToc")

/-- The sample is read as its key, and is the cursor that was issued. -/
theorem cursors_bind_sample :
    decode sampleMac (fun _ => none) sampleCursor sampleFilters =
        .ok (text "2025-01-01T00:00:00.500000+00:00", text "p1") ∧
      ∃ x ∈ ({(sampleKey, sampleFilters)} : Set (PageKey × PredictionListFilters)),
        sampleCursor = encode sampleMac x.1.committed_at x.1.prediction_id.val x.2 := by
  have hcursor : sampleCursor =
      encode sampleMac sampleKey.committed_at sampleKey.prediction_id.val sampleFilters := by
    decide +kernel
  obtain ⟨hread, hbind⟩ := cursors_bind sampleMac (fun _ => none) {(sampleKey, sampleFilters)}
  have hsample := (hread sampleKey sampleFilters).1
  rw [← hcursor] at hsample
  have hforged : ¬ Forged sampleMac {(sampleKey, sampleFilters)} sampleCursor := by
    rintro ⟨payload, hpresents, hnone⟩
    have hparts := hpresents.symm.trans hcursor
    have hsplit := congrArg (splitOnce ['.']) hparts
    rw [encode, splitOnce_encode, splitOnce_encode, Option.some.injEq, Prod.mk.injEq] at hsplit
    have hsame := congrArg Base64.decode hsplit.1
    rw [urlsafe_encode, urlsafe_encode, Base64.decode_encode, Base64.decode_encode,
      Option.some.injEq] at hsame
    exact hnone _ rfl hsame
  obtain ⟨x, hx, heq, -, -⟩ := hbind sampleCursor sampleFilters _ hforged hsample
  exact ⟨hsample, x, hx, heq⟩

end CursorCodec

end Pine
