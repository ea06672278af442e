import Mathlib.Data.List.Basic
import Mathlib.Data.List.Nodup

/-!
# JSON values and number literals

Objects are association lists in insertion order, as a dictionary iterates them;
`Proper` says that no object repeats a key and that every float is finite. Floats
stay abstract: `FloatText` is what the text format needs of them, a literal for
every finite value that reads back as that value.
-/

namespace Pine.Json

/-- A JSON document over the float type `F`. -/
inductive Value (F : Type) where
  | null
  | bool (b : Bool)
  | int (z : Int)
  | float (x : F)
  | str (s : List Char)
  | arr (items : List (Value F))
  | obj (fields : List (List Char × Value F))

/-! ## Number literals -/

/-- The leading digits of a text, and the rest. -/
def takeDigits (s : List Char) : List Char × List Char :=
  (s.takeWhile Char.isDigit, s.dropWhile Char.isDigit)

/-- `0|[1-9][0-9]*`; `none` when no digit is there. -/
def scanNat : List Char → Option (List Char × List Char)
  | [] => none
  | c :: r =>
    if c = '0' then some (['0'], r)
    else if c.isDigit then some (c :: (takeDigits r).1, (takeDigits r).2)
    else none

/-- `-?(0|[1-9][0-9]*)`, as the scanner matches it. -/
def scanInt : List Char → Option (List Char × List Char)
  | [] => none
  | c :: t => if c = '-' then (scanNat t).map fun (ds, r) => ('-' :: ds, r) else scanNat (c :: t)

/-- `(\.[0-9]+)?`: a point without digits is left unread. -/
def scanFrac : List Char → List Char × List Char
  | [] => ([], [])
  | c :: t =>
    if c = '.' ∧ (takeDigits t).1 ≠ [] then (c :: (takeDigits t).1, (takeDigits t).2)
    else ([], c :: t)

/-- `[-+]?` -/
def scanSign : List Char → List Char × List Char
  | [] => ([], [])
  | c :: t => if c = '-' ∨ c = '+' then ([c], t) else ([], c :: t)

/-- `([eE][-+]?[0-9]+)?`: an exponent mark without digits is left unread. -/
def scanExp : List Char → List Char × List Char
  | [] => ([], [])
  | c :: t =>
    let (sign, u) := scanSign t
    if (c = 'e' ∨ c = 'E') ∧ (takeDigits u).1 ≠ [] then
      (c :: (sign ++ (takeDigits u).1), (takeDigits u).2)
    else ([], c :: t)

/-- A number literal: the integer part, the fraction with the exponent, and the rest. -/
def scanNumber (s : List Char) : Option (List Char × List Char × List Char) := do
  let (whole, r) ← scanInt s
  let (frac, r) := scanFrac r
  let (exp, r) := scanExp r
  return (whole, frac ++ exp, r)

/-- A character that may continue a number literal. -/
def continuesNumber (c : Char) : Bool := c.isDigit || c == '.' || c == 'e' || c == 'E'

/-- A text that ends a number literal: it is empty or begins with another character. -/
def Stops (s : List Char) : Prop := ∀ c ∈ s.head?, continuesNumber c = false

@[simp] theorem stops_nil : Stops [] := by simp [Stops]

theorem stops_cons {c : Char} {s : List Char} (h : continuesNumber c = false) : Stops (c :: s) := by
  simpa [Stops] using h

theorem Stops.digit {s : List Char} (h : Stops s) : ∀ c ∈ s.head?, c.isDigit = false := by
  intro c hc
  have hs := h c hc
  simp only [continuesNumber, Bool.or_eq_false_iff] at hs
  exact hs.1.1.1

theorem Stops.scanFrac {s : List Char} (h : Stops s) : scanFrac s = ([], s) := by
  cases s with
  | nil => rfl
  | cons c t =>
    have hc : c ≠ '.' := by
      rintro rfl
      exact absurd (h '.' (by simp)) (by decide)
    simp [Json.scanFrac, hc]

theorem Stops.scanExp {s : List Char} (h : Stops s) : scanExp s = ([], s) := by
  cases s with
  | nil => rfl
  | cons c t =>
    have hc : ¬ (c = 'e' ∨ c = 'E') := by
      rintro (rfl | rfl)
      · exact absurd (h 'e' (by simp)) (by decide)
      · exact absurd (h 'E' (by simp)) (by decide)
    simp [Json.scanExp, hc]

/-- Digits are read up to the first character that is not one. -/
theorem takeDigits_append {ds r : List Char} (hd : ∀ c ∈ ds, c.isDigit = true)
    (hr : ∀ c ∈ r.head?, c.isDigit = false) : takeDigits (ds ++ r) = (ds, r) := by
  rw [takeDigits, List.takeWhile_append_of_pos hd,
    List.dropWhile_append_of_pos hd]
  cases r with
  | nil => simp
  | cons c r =>
    have hc := hr c (by simp)
    simp [hc]

theorem takeDigits_split (s : List Char) : (takeDigits s).1 ++ (takeDigits s).2 = s :=
  List.takeWhile_append_dropWhile

/-- Text that stops a number adds nothing to the digits before it. -/
theorem takeDigits_stops {s r : List Char} (hr : Stops r) :
    takeDigits (s ++ r) = ((takeDigits s).1, (takeDigits s).2 ++ r) := by
  have hd : ∀ c ∈ (takeDigits s).1, c.isDigit = true :=
    List.all_eq_true.mp List.all_takeWhile
  have hrest : ∀ c ∈ ((takeDigits s).2 ++ r).head?, c.isDigit = false := by
    cases h : (takeDigits s).2 with
    | nil => exact hr.digit
    | cons c t =>
      have hne : s.dropWhile Char.isDigit ≠ [] := by
        simp only [takeDigits] at h
        simp [h]
      have hc := List.head_dropWhile_not Char.isDigit hne
      simp only [takeDigits] at h
      simpa [h] using hc
  conv_lhs => rw [← takeDigits_split s, List.append_assoc]
  exact takeDigits_append hd hrest

theorem scanNat_stops {s w u r : List Char} (h : scanNat s = some (w, u)) (hr : Stops r) :
    s = w ++ u ∧ scanNat (s ++ r) = some (w, u ++ r) := by
  cases s with
  | nil => simp [scanNat] at h
  | cons c t =>
    simp only [scanNat] at h
    split at h
    · rename_i hc
      cases h
      exact ⟨by rw [hc]; rfl, by simp [scanNat, hc]⟩
    · rename_i hc
      split at h
      · rename_i hd
        cases h
        refine ⟨by rw [List.cons_append, takeDigits_split], ?_⟩
        simp [scanNat, hc, hd, takeDigits_stops hr]
      · cases h

theorem scanInt_stops {s w u r : List Char} (h : scanInt s = some (w, u)) (hr : Stops r) :
    s = w ++ u ∧ scanInt (s ++ r) = some (w, u ++ r) := by
  cases s with
  | nil => simp [scanInt] at h
  | cons c t =>
    simp only [scanInt] at h
    split at h
    · rename_i hc
      obtain ⟨⟨ds, v⟩, hds, heq⟩ := Option.map_eq_some_iff.mp h
      cases heq
      obtain ⟨hsplit, hscan⟩ := scanNat_stops hds hr
      exact ⟨by rw [hc, hsplit]; rfl, by simp [scanInt, hc, hscan]⟩
    · rename_i hc
      obtain ⟨hsplit, hscan⟩ := scanNat_stops h hr
      refine ⟨hsplit, ?_⟩
      simpa [scanInt, hc] using hscan

theorem scanFrac_stops (s : List Char) {r : List Char} (hr : Stops r) :
    (scanFrac s).1 ++ (scanFrac s).2 = s ∧
      scanFrac (s ++ r) = ((scanFrac s).1, (scanFrac s).2 ++ r) := by
  cases s with
  | nil => exact ⟨rfl, hr.scanFrac⟩
  | cons c t =>
    simp only [List.cons_append, scanFrac, takeDigits_stops hr]
    split
    · exact ⟨by rw [List.cons_append, takeDigits_split], rfl⟩
    · exact ⟨rfl, rfl⟩

/-- An exponent that is read to the end of its text is still read in front of stopping text. -/
theorem scanExp_stops {s e r : List Char} (h : scanExp s = (e, [])) (hr : Stops r) :
    s = e ∧ scanExp (s ++ r) = (e, r) := by
  cases s with
  | nil =>
    cases h
    exact ⟨rfl, hr.scanExp⟩
  | cons c t =>
    simp only [scanExp] at h
    split at h
    · rename_i hc
      obtain ⟨he, hnil⟩ := Prod.mk.inj h
      cases t with
      | nil => simp [scanSign, takeDigits] at hc
      | cons d v =>
        have hsplit := takeDigits_split (scanSign (d :: v)).2
        rw [hnil, List.append_nil] at hsplit
        have hsign : scanSign (d :: v ++ r) = ((scanSign (d :: v)).1, (scanSign (d :: v)).2 ++ r) := by
          simp only [List.cons_append, scanSign]
          split <;> rfl
        have hwhole : (scanSign (d :: v)).1 ++ (scanSign (d :: v)).2 = d :: v := by
          simp only [scanSign]
          split <;> rfl
        refine ⟨by rw [← he, hsplit, hwhole], ?_⟩
        simp only [List.cons_append] at hsign ⊢
        simp only [scanExp, hsign, takeDigits_stops hr, hc, and_self, if_true, ne_eq,
          not_false_eq_true, hnil, List.nil_append, he]
    · exact absurd (Prod.mk.inj h).2 (by simp)

/-- A float literal: the scanner reads the whole text and finds a fraction or an exponent. -/
def IsFloatLiteral (s : List Char) : Prop :=
  ∃ whole c mark, s = whole ++ c :: mark ∧ ∀ r, Stops r → scanNumber (s ++ r) = some (whole, c :: mark, r)

/-- A text scanned to its end with a fraction or an exponent is a float literal. -/
theorem isFloatLiteral_of_scan {s whole mark : List Char} {c : Char}
    (h : scanNumber s = some (whole, c :: mark, [])) : IsFloatLiteral s := by
  simp only [scanNumber, Option.bind_eq_bind, Option.pure_def] at h
  obtain ⟨⟨w, u⟩, hint, h⟩ := Option.bind_eq_some_iff.mp h
  simp only [Option.some.injEq, Prod.mk.injEq] at h
  obtain ⟨rfl, hmark, hnil⟩ := h
  have hexp : scanExp (scanFrac u).2 = ((scanExp (scanFrac u).2).1, []) := Prod.ext rfl hnil
  refine ⟨w, c, mark, ?_, ?_⟩
  · rw [(scanInt_stops hint stops_nil).1, ← hmark]
    conv_lhs => rw [← (scanFrac_stops u stops_nil).1, (scanExp_stops hexp stops_nil).1]
  · intro r hr
    simp only [scanNumber, (scanInt_stops hint hr).2, Option.bind_eq_bind, Option.bind_some,
      (scanFrac_stops u hr).2, (scanExp_stops hexp hr).2, Option.pure_def, hmark]

/-- What a text format needs of a float type. -/
class FloatText (F : Type) where
  /-- Neither infinite nor a NaN. -/
  finite : F → Bool
  /-- The literal a finite value is written as. -/
  text : F → List Char
  /-- The value a literal (or `NaN`, `Infinity`, `-Infinity`) denotes. -/
  ofText : List Char → F
  text_literal : ∀ x, finite x = true → IsFloatLiteral (text x)
  ofText_text : ∀ x, finite x = true → ofText (text x) = x

/-! ## Proper values -/

variable {F : Type} [FloatText F]

mutual

/-- Every object has distinct keys and every float is finite. -/
def Value.Proper : Value F → Prop
  | .float x => FloatText.finite x = true
  | .arr items => ItemsProper items
  | .obj fields => (fields.map Prod.fst).Nodup ∧ FieldsProper fields
  | _ => True

/-- Every item of an array is proper. -/
def ItemsProper : List (Value F) → Prop
  | [] => True
  | x :: xs => x.Proper ∧ ItemsProper xs

/-- Every value of an object is proper. -/
def FieldsProper : List (List Char × Value F) → Prop
  | [] => True
  | (_, x) :: fs => x.Proper ∧ FieldsProper fs

end

theorem itemsProper_iff {items : List (Value F)} :
    ItemsProper items ↔ ∀ x ∈ items, x.Proper := by
  induction items with
  | nil => simp [ItemsProper]
  | cons x xs ih => simp [ItemsProper, ih]

theorem fieldsProper_iff {fields : List (List Char × Value F)} :
    FieldsProper fields ↔ ∀ f ∈ fields, f.2.Proper := by
  induction fields with
  | nil => simp [FieldsProper]
  | cons f fs ih => simp [FieldsProper, ih]

mutual

/-- Every float is finite, whatever the keys of objects are. -/
def Value.Finite : Value F → Prop
  | .float x => FloatText.finite x = true
  | .arr items => ItemsFinite items
  | .obj fields => FieldsFinite fields
  | _ => True

/-- Every item of an array is finite. -/
def ItemsFinite : List (Value F) → Prop
  | [] => True
  | x :: xs => x.Finite ∧ ItemsFinite xs

/-- Every value of an object is finite. -/
def FieldsFinite : List (List Char × Value F) → Prop
  | [] => True
  | (_, x) :: fs => x.Finite ∧ FieldsFinite fs

end

mutual

theorem Value.Proper.finite : ∀ {v : Value F}, v.Proper → v.Finite
  | .null, _ => trivial
  | .bool _, _ => trivial
  | .int _, _ => trivial
  | .float _, h => h
  | .str _, _ => trivial
  | .arr items, h => ItemsProper.finite items h
  | .obj fields, h => FieldsProper.finite fields h.2

theorem ItemsProper.finite : ∀ xs : List (Value F), ItemsProper xs → ItemsFinite xs
  | [], _ => trivial
  | _ :: xs, h => ⟨h.1.finite, ItemsProper.finite xs h.2⟩

theorem FieldsProper.finite : ∀ fs : List (List Char × Value F), FieldsProper fs → FieldsFinite fs
  | [], _ => trivial
  | _ :: fs, h => ⟨h.1.finite, FieldsProper.finite fs h.2⟩

end

end Pine.Json
