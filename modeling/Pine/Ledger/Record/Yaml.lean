import Pine.Core.Json.Equality
import Pine.Ledger.Errors
import Pine.Ledger.Integrity

/-!
# YAML values

What a safe YAML loader returns, and its canonical JSON. Unlike a JSON document a YAML
value may hold dates, times and keys that are no texts: dates and times have no JSON
text, numbers become texts once the keys are sorted, and keys of two kinds cannot be
sorted at all.
-/

namespace Pine

open Json (Value)

/-- A value of a YAML document; `other` stands for bytes, sets and pairs. -/
inductive YamlValue where
  | null
  | bool (b : Bool)
  | int (z : Int)
  | float (x : Binary64)
  | str (s : Text)
  | date (d : Date)
  | time (t : DateTime)
  | other
  | seq (items : List YamlValue)
  | map (fields : List (YamlValue × YamlValue))

namespace YamlValue

mutual

/-- A JSON document as a YAML value. -/
def ofDocument : Document → YamlValue
  | .null => .null
  | .bool b => .bool b
  | .int z => .int z
  | .float x => .float x
  | .str s => .str s
  | .arr items => .seq (ofItems items)
  | .obj fields => .map (ofFields fields)

def ofItems : List Document → List YamlValue
  | [] => []
  | x :: xs => ofDocument x :: ofItems xs

def ofFields : List (Text × Document) → List (YamlValue × YamlValue)
  | [] => []
  | (k, x) :: fs => (.str k, ofDocument x) :: ofFields fs

end

/-- The text of a value that is a string. -/
def asText? : YamlValue → Option Text
  | .str s => some s
  | _ => none

/-- `value.get(key)` of a mapping. -/
def get? (value : YamlValue) (key : String) : Option YamlValue :=
  match value with
  | .map fields => (fields.find? (·.1.asText? == some (text key))).map Prod.snd
  | _ => none

/-- `isinstance(value, dict)` -/
def isMapping : YamlValue → Bool
  | .map _ => true
  | _ => false

/-- `value.get(key) == expected`, for a text. -/
def fieldIs (value : YamlValue) (key : String) (expected : Text) : Bool :=
  ((value.get? key).bind asText?) == some expected

/-! ## Canonical JSON -/

/-- A key that is a number, in units of the smallest magnitude. -/
def units? : YamlValue → Option Int
  | .bool b => Value.units? (.bool b)
  | .int z => Value.units? (.int z)
  | .float x => Value.units? (.float x)
  | _ => none

/-- The text that a key of a mapping is written as. -/
def keyText : YamlValue → Option Text
  | .str s => some s
  | .null => some (text "null")
  | .bool b => some (text (if b then "true" else "false"))
  | .int z => some (Json.printInt z)
  | .float x => if x.finite then some (Json.FloatText.text x) else none
  | _ => none

/-- Fields ordered by text. -/
def byText (fields : List (YamlValue × Document)) : Option (List (Text × Document)) :=
  (fields.mapM fun (f : YamlValue × Document) => f.1.asText?.map fun key => (key, f.2)).map
    (·.insertionSort Json.fieldLe)

/-- Fields ordered by number. -/
def byNumber (fields : List (YamlValue × Document)) : Option (List (Text × Document)) :=
  (fields.mapM fun (f : YamlValue × Document) => do
    let units ← f.1.units?
    let key ← f.1.keyText
    return (units, key, f.2)).map fun (entries : List (Int × Text × Document)) =>
      (entries.insertionSort fun (a b : Int × Text × Document) => a.1 ≤ b.1).map Prod.snd

/-- `sorted(value.items())`, with the keys as they are written; one key is not compared. -/
def sortEntries (fields : List (YamlValue × Document)) : Option (List (Text × Document)) :=
  match fields with
  | [(key, value)] => key.keyText.map fun key => [(key, value)]
  | fields => byText fields <|> byNumber fields

mutual

/-- The document that the encoder writes for a value, its keys in the order of writing. -/
def sorted? : YamlValue → Option Document
  | .null => some .null
  | .bool b => some (.bool b)
  | .int z => some (.int z)
  | .float x => some (.float x)
  | .str s => some (.str s)
  | .date _ | .time _ | .other => none
  | .seq items => (sortedItems items).map Value.arr
  | .map fields => ((sortedFields fields).bind sortEntries).map Value.obj

def sortedItems : List YamlValue → Option (List Document)
  | [] => some []
  | x :: xs => do
    let x ← sorted? x
    let xs ← sortedItems xs
    return x :: xs

def sortedFields : List (YamlValue × YamlValue) → Option (List (YamlValue × Document))
  | [] => some []
  | (k, x) :: fs => do
    let x ← sorted? x
    let fs ← sortedFields fs
    return (k, x) :: fs

end

/-- `canonical_json` of a YAML value. -/
def canonicalJson (value : YamlValue) : Except Error Text := do
  let document ← required value.sorted?
    (.typeError (text "value is not JSON serializable or its keys cannot be sorted"))
  if isFinite document then return Json.print Json.compactStyle 0 document
  else .error (.valueError (text "Out of range float values are not JSON compliant"))

/-- `sha256_json` of a YAML value. -/
def sha256Json (sha256 : Text → Text) (value : YamlValue) : Except Error Text := do
  let canonical ← value.canonicalJson
  return text "sha256:" ++ sha256 canonical

/-! ## Documents -/

/-- Fields with texts for keys are sorted by them. -/
theorem sortEntries_texts (fields : List (Text × Document)) :
    sortEntries (fields.map fun f => (.str f.1, f.2)) = some (fields.insertionSort Json.fieldLe) := by
  have htexts : ∀ fs : List (Text × Document),
      (fs.map fun f => ((.str f.1 : YamlValue), f.2)).mapM
        (fun (f : YamlValue × Document) => f.1.asText?.map fun key => (key, f.2)) = some fs := by
    intro fs
    induction fs with
    | nil => rfl
    | cons f fs ih =>
      rw [List.map_cons, List.mapM_cons, ih]
      rfl
  rcases fields with _ | ⟨f, _ | ⟨g, fs⟩⟩
  · rfl
  · rfl
  · have hsorted : byText ((f :: g :: fs).map fun f => (.str f.1, f.2)) =
        some ((f :: g :: fs).insertionSort Json.fieldLe) := by
      rw [byText, htexts, Option.map_some]
    change (byText ((f :: g :: fs).map fun f => (.str f.1, f.2)) <|> _) = _
    rw [hsorted]
    rfl

mutual

/-- A document as a YAML value is written with its keys sorted. -/
theorem sorted?_ofDocument : ∀ d : Document, (ofDocument d).sorted? = some (Json.sortKeys d)
  | .null | .bool _ | .int _ | .float _ | .str _ => rfl
  | .arr items => by
    rw [ofDocument, sorted?, sortedItems_ofItems items]
    rfl
  | .obj fields => by
    rw [ofDocument, sorted?, sortedFields_ofFields fields, Option.bind_some, sortEntries_texts]
    rfl

theorem sortedItems_ofItems : ∀ xs : List Document,
    sortedItems (ofItems xs) = some (Json.sortItems xs)
  | [] => rfl
  | x :: xs => by
    rw [ofItems, sortedItems, sorted?_ofDocument x, sortedItems_ofItems xs]
    rfl

theorem sortedFields_ofFields : ∀ fs : List (Text × Document),
    sortedFields (ofFields fs) = some ((Json.sortFields fs).map fun f => (.str f.1, f.2))
  | [] => rfl
  | (k, x) :: fs => by
    rw [ofFields, sortedFields, sorted?_ofDocument x, sortedFields_ofFields fs]
    rfl

end

/-- Only a text is written as one. -/
theorem eq_str_of_sorted? {value : YamlValue} {s : Text} (h : value.sorted? = some (.str s)) :
    value = .str s := by
  cases value with
  | str t =>
    cases h
    rfl
  | seq items =>
    obtain ⟨_, -, heq⟩ := Option.map_eq_some_iff.mp h
    cases heq
  | map fields =>
    obtain ⟨_, -, heq⟩ := Option.map_eq_some_iff.mp h
    cases heq
  | null | bool | int | float | date | time | other => cases h

/-- Canonical JSON is the compact text of what is written. -/
theorem canonicalJson_eq_ok {value : YamlValue} {s : Text} : value.canonicalJson = .ok s ↔
    ∃ d, value.sorted? = some d ∧ isFinite d = true ∧ s = Json.print Json.compactStyle 0 d := by
  unfold canonicalJson
  rw [bind_eq_ok]
  constructor
  · rintro ⟨d, hd, h⟩
    split at h
    · rename_i hfinite
      exact ⟨d, required_ok.mp hd, hfinite, (Except.ok.inj h).symm⟩
    · cases h
  · rintro ⟨d, hd, hfinite, rfl⟩
    exact ⟨d, required_ok.mpr hd, by rw [if_pos hfinite]; rfl⟩

/-- A document as a YAML value has its own canonical JSON. -/
theorem canonicalJson_ofDocument (d : Document) :
    (ofDocument d).canonicalJson = Pine.canonicalJson d := by
  unfold canonicalJson Pine.canonicalJson
  rw [sorted?_ofDocument]
  simp only [required, Bind.bind, Except.bind, isFinite_sortKeys]
  rfl

/-- Values with one hash have one canonical text. -/
theorem sha256Json_eq_ok {sha256 : Text → Text} {value : YamlValue} {hash : Text} :
    value.sha256Json sha256 = .ok hash ↔
      ∃ s, value.canonicalJson = .ok s ∧ hash = text "sha256:" ++ sha256 s := by
  unfold sha256Json
  rw [bind_eq_ok]
  constructor
  · rintro ⟨s, hs, h⟩
    exact ⟨s, hs, (Except.ok.inj h).symm⟩
  · rintro ⟨s, hs, rfl⟩
    exact ⟨s, hs, rfl⟩

end YamlValue

end Pine
