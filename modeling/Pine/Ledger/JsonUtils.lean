import Pine.Core.Growth
import Pine.Core.Json.Equality
import Pine.Core.Json.Sort
import Pine.Ledger.Errors

/-!
# Canonical JSON

`canonical_json` and `sha256_json` over JSON documents. The digest is a parameter:
nothing here depends on more of SHA-256 than that it is a function of the encoded
text, and the results that need it assume that it separates texts.
-/

namespace Pine

/-- A JSON document of the ledger. -/
abbrev Document := Json.Value Binary64

open Json (Value)

mutual

/-- No float of the document is infinite or a NaN. -/
def isFinite : Document → Bool
  | .float x => Binary64.finite x
  | .arr items => itemsFinite items
  | .obj fields => fieldsFinite fields
  | _ => true

def itemsFinite : List Document → Bool
  | [] => true
  | x :: xs => isFinite x && itemsFinite xs

def fieldsFinite : List (Text × Document) → Bool
  | [] => true
  | (_, x) :: fs => isFinite x && fieldsFinite fs

end

mutual

/-- No object of the document repeats a key, as no dictionary does. -/
def Keyed : Document → Prop
  | .arr items => ItemsKeyed items
  | .obj fields => (fields.map Prod.fst).Nodup ∧ FieldsKeyed fields
  | _ => True

def ItemsKeyed : List Document → Prop
  | [] => True
  | x :: xs => Keyed x ∧ ItemsKeyed xs

def FieldsKeyed : List (Text × Document) → Prop
  | [] => True
  | (_, x) :: fs => Keyed x ∧ FieldsKeyed fs

end

mutual

def decideKeyed : (v : Document) → Decidable (Keyed v)
  | .arr items => decideItemsKeyed items
  | .obj fields => @instDecidableAnd _ _ inferInstance (decideFieldsKeyed fields)
  | .null | .bool _ | .int _ | .float _ | .str _ => isTrue trivial

def decideItemsKeyed : (xs : List Document) → Decidable (ItemsKeyed xs)
  | [] => isTrue trivial
  | x :: xs => @instDecidableAnd _ _ (decideKeyed x) (decideItemsKeyed xs)

def decideFieldsKeyed : (fs : List (Text × Document)) → Decidable (FieldsKeyed fs)
  | [] => isTrue trivial
  | (_, x) :: fs => @instDecidableAnd _ _ (decideKeyed x) (decideFieldsKeyed fs)

end

instance (v : Document) : Decidable (Keyed v) := decideKeyed v

mutual

theorem proper_iff : ∀ v : Document, v.Proper ↔ Keyed v ∧ isFinite v = true
  | .null => by simp [Value.Proper, Keyed, isFinite]
  | .bool _ => by simp [Value.Proper, Keyed, isFinite]
  | .int _ => by simp [Value.Proper, Keyed, isFinite]
  | .float x => by
    simp only [Value.Proper, Keyed, isFinite, true_and]
    rfl
  | .str _ => by simp [Value.Proper, Keyed, isFinite]
  | .arr items => by
    simp only [Value.Proper, Keyed, isFinite]
    exact itemsProper_iff' items
  | .obj fields => by
    simp only [Value.Proper, Keyed, isFinite, fieldsProper_iff' fields]
    tauto

theorem itemsProper_iff' : ∀ xs : List Document,
    Json.ItemsProper xs ↔ ItemsKeyed xs ∧ itemsFinite xs = true
  | [] => by simp [Json.ItemsProper, ItemsKeyed, itemsFinite]
  | x :: xs => by
    simp only [Json.ItemsProper, ItemsKeyed, itemsFinite, proper_iff x, itemsProper_iff' xs,
      Bool.and_eq_true]
    tauto

theorem fieldsProper_iff' : ∀ fs : List (Text × Document),
    Json.FieldsProper fs ↔ FieldsKeyed fs ∧ fieldsFinite fs = true
  | [] => by simp [Json.FieldsProper, FieldsKeyed, fieldsFinite]
  | (_, x) :: fs => by
    simp only [Json.FieldsProper, FieldsKeyed, fieldsFinite, proper_iff x, fieldsProper_iff' fs,
      Bool.and_eq_true]
    tauto

end

mutual

theorem finite_iff : ∀ v : Document, v.Finite ↔ isFinite v = true
  | .null | .bool _ | .int _ | .str _ => by simp [Value.Finite, isFinite]
  | .float x => by
    simp only [Value.Finite, isFinite]
    rfl
  | .arr items => by
    simp only [Value.Finite, isFinite]
    exact itemsFinite_iff items
  | .obj fields => by
    simp only [Value.Finite, isFinite]
    exact fieldsFinite_iff fields

theorem itemsFinite_iff : ∀ xs : List Document, Json.ItemsFinite xs ↔ itemsFinite xs = true
  | [] => by simp [Json.ItemsFinite, itemsFinite]
  | x :: xs => by
    simp only [Json.ItemsFinite, itemsFinite, finite_iff x, itemsFinite_iff xs, Bool.and_eq_true]

theorem fieldsFinite_iff : ∀ fs : List (Text × Document),
    Json.FieldsFinite fs ↔ fieldsFinite fs = true
  | [] => by simp [Json.FieldsFinite, fieldsFinite]
  | (_, x) :: fs => by
    simp only [Json.FieldsFinite, fieldsFinite, finite_iff x, fieldsFinite_iff fs, Bool.and_eq_true]

end

theorem fieldsKeyed_iff {fs : List (Text × Document)} :
    FieldsKeyed fs ↔ ∀ f ∈ fs, Keyed f.2 := by
  induction fs with
  | nil => simp [FieldsKeyed]
  | cons f fs ih => simp [FieldsKeyed, ih]

theorem itemsKeyed_iff {xs : List Document} : ItemsKeyed xs ↔ ∀ x ∈ xs, Keyed x := by
  induction xs with
  | nil => simp [ItemsKeyed]
  | cons x xs ih => simp [ItemsKeyed, ih]

/-- An object with distinct literal keys and keyed values is keyed. -/
theorem keyed_obj {fs : List (Text × Document)} (keys : List String)
    (hkeys : fs.map Prod.fst = keys.map text) (hnodup : (keys.map text).Nodup)
    (hvalues : FieldsKeyed fs) : Keyed (.obj fs) :=
  ⟨by rw [hkeys]; exact hnodup, hvalues⟩

theorem keyed_items {α : Type} {dump : α → Document} (h : ∀ x, Keyed (dump x)) (xs : List α) :
    Keyed (.arr (xs.map dump)) := by
  refine itemsKeyed_iff.mpr fun v hv => ?_
  obtain ⟨x, -, rfl⟩ := List.mem_map.mp hv
  exact h x

theorem keyed_strings (texts : List Text) : Keyed (.arr (texts.map Value.str)) := by
  refine keyed_items ?_ texts
  intro s
  trivial

mutual

/-- Sorting keys repeats none. -/
theorem keyed_sortKeys : ∀ {v : Document}, Keyed v → Keyed (Json.sortKeys v)
  | .null, h => h
  | .bool _, h => h
  | .int _, h => h
  | .float _, h => h
  | .str _, h => h
  | .arr items, h => itemsKeyed_sortItems items h
  | .obj fields, h => by
    have hperm := List.perm_insertionSort Json.fieldLe (Json.sortFields fields)
    refine ⟨?_, fieldsKeyed_iff.mpr fun f hf => ?_⟩
    · rw [(hperm.map Prod.fst).nodup_iff, Json.map_fst_sortFields]
      exact h.1
    · exact fieldsKeyed_iff.mp (fieldsKeyed_sortFields fields h.2) f (hperm.subset hf)

theorem itemsKeyed_sortItems : ∀ xs : List Document, ItemsKeyed xs → ItemsKeyed (Json.sortItems xs)
  | [], _ => trivial
  | _ :: xs, h => ⟨keyed_sortKeys h.1, itemsKeyed_sortItems xs h.2⟩

theorem fieldsKeyed_sortFields : ∀ fs : List (Text × Document),
    FieldsKeyed fs → FieldsKeyed (Json.sortFields fs)
  | [], _ => trivial
  | (_, _) :: fs, h => ⟨keyed_sortKeys h.1, fieldsKeyed_sortFields fs h.2⟩

end

theorem itemsFinite_eq_all (xs : List Document) : itemsFinite xs = xs.all isFinite := by
  induction xs with
  | nil => rfl
  | cons x xs ih => rw [itemsFinite, List.all_cons, ih]

theorem fieldsFinite_eq_all (fs : List (Text × Document)) :
    fieldsFinite fs = fs.all fun f => isFinite f.2 := by
  induction fs with
  | nil => rfl
  | cons f fs ih => rw [fieldsFinite, List.all_cons, ih]

mutual

/-- Sorting keys changes no float. -/
theorem isFinite_sortKeys : ∀ v : Document, isFinite (Json.sortKeys v) = isFinite v
  | .null | .bool _ | .int _ | .float _ | .str _ => rfl
  | .arr items => by rw [Json.sortKeys, isFinite, isFinite, itemsFinite_sortItems items]
  | .obj fields => by
    have hperm := List.perm_insertionSort Json.fieldLe (Json.sortFields fields)
    rw [Json.sortKeys, isFinite, isFinite, fieldsFinite_eq_all, hperm.all_eq,
      ← fieldsFinite_eq_all, fieldsFinite_sortFields fields]

theorem itemsFinite_sortItems :
    ∀ xs : List Document, itemsFinite (Json.sortItems xs) = itemsFinite xs
  | [] => rfl
  | x :: xs => by
    rw [Json.sortItems, itemsFinite, itemsFinite, isFinite_sortKeys x, itemsFinite_sortItems xs]

theorem fieldsFinite_sortFields :
    ∀ fs : List (Text × Document), fieldsFinite (Json.sortFields fs) = fieldsFinite fs
  | [] => rfl
  | (_, x) :: fs => by
    rw [Json.sortFields, fieldsFinite, fieldsFinite, isFinite_sortKeys x,
      fieldsFinite_sortFields fs]

end

/-- Setting a field keeps the keys distinct, and adds no value but the new one. -/
theorem setField_keyed {k : Text} {v : Document} {fs : List (Text × Document)}
    (hk : (fs.map Prod.fst).Nodup) :
    ((Json.setField k v fs).map Prod.fst).Nodup ∧
      (∀ f ∈ Json.setField k v fs, f.2 = v ∨ f ∈ fs) ∧
      ∀ f ∈ Json.setField k v fs, f.1 = k ∨ f.1 ∈ fs.map Prod.fst := by
  induction fs with
  | nil => simp [Json.setField]
  | cons f fs ih =>
    obtain ⟨k', v'⟩ := f
    rw [List.map_cons, List.nodup_cons] at hk
    obtain ⟨hnodup, hvalues, hkeys⟩ := ih hk.2
    simp only [Json.setField]
    split
    · rename_i heq
      subst heq
      refine ⟨by simpa using hk, ?_, ?_⟩
      · intro f hf
        rcases List.mem_cons.mp hf with rfl | hf
        · exact Or.inl rfl
        · exact Or.inr (List.mem_cons_of_mem _ hf)
      · intro f hf
        rcases List.mem_cons.mp hf with rfl | hf
        · exact Or.inl rfl
        · exact Or.inr (List.mem_map_of_mem (List.mem_cons_of_mem _ hf))
    · rename_i hne
      refine ⟨?_, ?_, ?_⟩
      · rw [List.map_cons, List.nodup_cons]
        refine ⟨?_, hnodup⟩
        intro hmem
        obtain ⟨f, hf, hfk⟩ := List.mem_map.mp hmem
        rcases hkeys f hf with h | h
        · exact hne (hfk.symm.trans h)
        · exact hk.1 (hfk ▸ h)
      · intro f hf
        rcases List.mem_cons.mp hf with rfl | hf
        · exact Or.inr (List.mem_cons_self)
        · exact (hvalues f hf).imp id (List.mem_cons_of_mem _)
      · intro f hf
        rcases List.mem_cons.mp hf with rfl | hf
        · exact Or.inr (by simp)
        · exact (hkeys f hf).imp id fun h => by simp only [List.map_cons, List.mem_cons, h, or_true]

/-- A dictionary built from keyed values is keyed. -/
theorem buildFields_keyed {fs : List (Text × Document)} (h : FieldsKeyed fs) :
    Keyed (.obj (Json.buildFields fs)) := by
  have hfold : ∀ (fs done : List (Text × Document)), (done.map Prod.fst).Nodup →
      FieldsKeyed done → FieldsKeyed fs →
      ((fs.foldl (fun acc f => Json.setField f.1 f.2 acc) done).map Prod.fst).Nodup ∧
        FieldsKeyed (fs.foldl (fun acc f => Json.setField f.1 f.2 acc) done) := by
    intro fs
    induction fs with
    | nil => exact fun done hn hd _ => ⟨hn, hd⟩
    | cons f fs ih =>
      intro done hn hd hf
      obtain ⟨hn', hvalues, _⟩ := setField_keyed (k := f.1) (v := f.2) hn
      refine ih _ hn' (fieldsKeyed_iff.mpr fun g hg => ?_) hf.2
      rcases hvalues g hg with heq | hmem
      · exact heq ▸ hf.1
      · exact fieldsKeyed_iff.mp hd g hmem
  exact hfold fs [] List.nodup_nil trivial h

theorem parseNumber_keyed {s r : Text} {v : Document} (h : Json.parseNumber s = some (v, r)) :
    Keyed v := by
  unfold Json.parseNumber at h
  split at h
  · cases h
    trivial
  · cases h
    trivial
  · cases h

/-- What the parser builds at any depth repeats no key. -/
theorem parse_keyed (n : Nat) :
    (∀ s v r, Json.parseValue (F := Binary64) n s = some (v, r) → Keyed v) ∧
      (∀ s xs r, Json.parseItems (F := Binary64) n s = some (xs, r) → ItemsKeyed xs) ∧
      ∀ s fs r, Json.parseFields (F := Binary64) n s = some (fs, r) → FieldsKeyed fs := by
  induction n with
  | zero =>
    refine ⟨?_, ?_, ?_⟩ <;> intro s v r h
    · simp [Json.parseValue] at h
    · simp [Json.parseItems] at h
    · simp [Json.parseFields] at h
  | succ n ih =>
    obtain ⟨hvalue, hitems, hfields⟩ := ih
    refine ⟨?_, ?_, ?_⟩
    · intro s v r h
      unfold Json.parseValue at h
      split at h
      · obtain ⟨p, -, hp⟩ := Option.map_eq_some_iff.mp h
        cases hp
        trivial
      · split at h
        · cases h
          exact ⟨List.nodup_nil, trivial⟩
        · obtain ⟨p, hp, heq⟩ := Option.map_eq_some_iff.mp h
          cases heq
          exact buildFields_keyed (hfields _ _ _ hp)
      · split at h
        · cases h
          trivial
        · obtain ⟨p, hp, heq⟩ := Option.map_eq_some_iff.mp h
          cases heq
          exact hitems _ _ _ hp
      all_goals first
        | exact parseNumber_keyed h
        | (cases h; trivial)
    · intro s xs r h
      unfold Json.parseItems at h
      split at h
      · cases h
      · rename_i x u hx
        split at h
        · obtain ⟨p, hp, heq⟩ := Option.map_eq_some_iff.mp h
          cases heq
          exact ⟨hvalue _ _ _ hx, hitems _ _ _ hp⟩
        · obtain ⟨p, -, heq⟩ := Option.map_eq_some_iff.mp h
          cases heq
          exact ⟨hvalue _ _ _ hx, trivial⟩
    · intro s fs r h
      unfold Json.parseFields at h
      split at h
      · cases h
      · split at h
        · cases h
        · rename_i x u hx
          obtain ⟨t, -, hx⟩ := Option.bind_eq_some_iff.mp hx
          split at h
          · obtain ⟨p, hp, heq⟩ := Option.map_eq_some_iff.mp h
            cases heq
            exact ⟨hvalue _ _ _ hx, hfields _ _ _ hp⟩
          · obtain ⟨p, -, heq⟩ := Option.map_eq_some_iff.mp h
            cases heq
            exact ⟨hvalue _ _ _ hx, trivial⟩

/-- A loaded document repeats no key. -/
theorem loads_keyed {s : Text} {v : Document} (h : Json.loads s = some v) : Keyed v := by
  unfold Json.loads at h
  split at h
  · rename_i w r hparse
    split at h
    · cases h
      exact (parse_keyed _).1 _ _ _ hparse
    · cases h
  · cases h

/-- `canonical_json`: non-finite floats are refused. -/
def canonicalJson (value : Document) : Except Error Text :=
  if isFinite value then .ok (Json.canonicalText value)
  else .error (.valueError (text "Out of range float values are not JSON compliant"))

/-- `sha256_json` over a digest of encoded texts. -/
def sha256Json (sha256 : Text → Text) (value : Document) : Except Error Text := do
  let canonical ← canonicalJson value
  return text "sha256:" ++ sha256 canonical

/-- `value.get(key)` of a document; only an object has fields. -/
def Json.Value.get? (value : Document) (key : Text) : Option Document :=
  match value with
  | .obj fields => (fields.find? (·.1 == key)).map Prod.snd
  | _ => none

/-- `isinstance(value, dict)` -/
def Json.Value.isObject : Document → Bool
  | .obj _ => true
  | _ => false

/-- The text of a document that is a string. -/
def Json.Value.asText? : Document → Option Text
  | .str s => some s
  | _ => none

/-- A document equals a text exactly when it is that string. -/
theorem Json.Value.asText?_eq_some {v : Document} {s : Text} :
    v.asText? = some s ↔ v = .str s := by
  cases v <;> simp [Json.Value.asText?]

/-- A field of an object is one of its pairs. -/
theorem get?_obj_eq_some {fs : List (Text × Document)} (hk : (fs.map Prod.fst).Nodup) {key : Text}
    {v : Document} : (Value.obj fs).get? key = some v ↔ (key, v) ∈ fs := by
  simp only [Json.Value.get?, Option.map_eq_some_iff]
  constructor
  · rintro ⟨⟨k, w⟩, hfound, rfl⟩
    obtain ⟨hmem, hkey⟩ := find?_key_some hfound
    rwa [← hkey]
  · intro hmem
    exact ⟨(key, v), find?_key_of_mem hk hmem, rfl⟩

/-- Sorting the keys of a document sorts its fields and moves none. -/
theorem get?_sortKeys {v : Document} (hv : Keyed v) (key : Text) :
    (Json.sortKeys v).get? key = (v.get? key).map Json.sortKeys := by
  cases v with
  | obj fs =>
    have hperm := List.perm_insertionSort Json.fieldLe (Json.sortFields fs)
    have hsorted : (((Json.sortFields fs).insertionSort Json.fieldLe).map Prod.fst).Nodup := by
      rw [(hperm.map Prod.fst).nodup_iff, Json.map_fst_sortFields]
      exact hv.1
    apply Option.ext
    intro w
    rw [Json.sortKeys, get?_obj_eq_some hsorted, hperm.mem_iff, Json.sortFields_eq_map,
      Option.map_eq_some_iff]
    simp only [List.mem_map, Prod.mk.injEq, get?_obj_eq_some hv.1]
    constructor
    · rintro ⟨⟨_, x⟩, hx, rfl, rfl⟩
      exact ⟨x, hx, rfl⟩
    · rintro ⟨x, hx, rfl⟩
      exact ⟨(key, x), hx, rfl, rfl⟩
  | _ => rfl

/-- `value[key]` -/
def item (value : Document) (key : String) : Except Error Document :=
  if value.isObject then required (value.get? (text key)) (.keyError (text key))
  else .error (.typeError (text "indices must be integers or slices, not str"))

/-- A text or `None`. -/
def optionalText (value : Option Text) : Document := (value.map Value.str).getD .null

theorem keyed_optionalText (s : Option Text) : Keyed (optionalText s) := by
  cases s <;> trivial

/-- A field of a document equals a value; a missing field is `None`. -/
def fieldEquals (value : Document) (key : String) (expected : Document) : Bool :=
  ((value.get? (text key)).getD .null).equals expected

/-- Documents with one canonical text are one document up to key order. -/
theorem canonicalJson_injective {v w : Document} {s : Text} (hv : Keyed v) (hw : Keyed w)
    (h : canonicalJson v = .ok s) (k : canonicalJson w = .ok s) :
    Json.sortKeys v = Json.sortKeys w := by
  unfold canonicalJson at h k
  split at h
  · rename_i hvf
    split at k
    · rename_i hwf
      have heq := (Except.ok.inj h).trans (Except.ok.inj k).symm
      exact (Json.canonicalText_eq_iff ((proper_iff v).mpr ⟨hv, hvf⟩)
        ((proper_iff w).mpr ⟨hw, hwf⟩)).mp heq
    · cases k
  · cases h

/-- The order of keys is no part of canonical JSON. -/
theorem canonicalJson_congr {v w : Document} (h : Json.sortKeys v = Json.sortKeys w) :
    canonicalJson v = canonicalJson w := by
  rw [canonicalJson, canonicalJson, ← isFinite_sortKeys v, ← Json.canonicalText_sortKeys v, h,
    isFinite_sortKeys, Json.canonicalText_sortKeys]

/-- The order of keys is no part of canonical JSON, and of its hash. -/
theorem sha256Json_congr {v w : Document} (h : Json.sortKeys v = Json.sortKeys w)
    (sha256 : Text → Text) : sha256Json sha256 v = sha256Json sha256 w := by
  rw [sha256Json, sha256Json, canonicalJson_congr h]

/-- Canonical JSON is that of a finite document. -/
theorem canonicalJson_ok {v : Document} {s : Text} (h : canonicalJson v = .ok s) :
    isFinite v = true ∧ s = Json.canonicalText v := by
  unfold canonicalJson at h
  split at h
  · rename_i hfinite
    exact ⟨hfinite, (Except.ok.inj h).symm⟩
  · cases h

/-- The fields of a finite document are finite. -/
theorem isFinite_get? {v w : Document} {key : Text} (hv : isFinite v = true)
    (h : v.get? key = some w) : isFinite w = true := by
  cases v with
  | obj fs =>
    obtain ⟨f, hf, rfl⟩ := Option.map_eq_some_iff.mp h
    rw [isFinite, fieldsFinite_eq_all, List.all_eq_true] at hv
    exact hv f (List.mem_of_find?_eq_some hf)
  | _ => cases h

/-- Documents with one hash have one canonical text. -/
theorem sha256Json_injective {sha256 : Text → Text} (hsha : Function.Injective sha256)
    {v w : Document} {s : Text} (h : sha256Json sha256 v = .ok s)
    (k : sha256Json sha256 w = .ok s) :
    ∃ t, canonicalJson v = .ok t ∧ canonicalJson w = .ok t := by
  unfold sha256Json at h k
  cases hv : canonicalJson v with
  | error e => simp [hv, Bind.bind, Except.bind] at h
  | ok t =>
    cases hw : canonicalJson w with
    | error e => simp [hw, Bind.bind, Except.bind] at k
    | ok u =>
      simp only [hv, hw, Bind.bind, Except.bind, Pure.pure, Except.pure, Except.ok.injEq] at h k
      have heq : sha256 t = sha256 u := List.append_cancel_left (h.trans k.symm)
      exact ⟨t, rfl, by rw [hsha heq]⟩

end Pine
