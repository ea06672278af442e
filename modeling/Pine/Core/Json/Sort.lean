import Pine.Core.Json.RoundTrip
import Pine.Core.TextOrder
import Mathlib.Data.List.Sort

/-!
# Sorted keys and canonical text

Sorting every object by key gives one representative of all insertion orders of
the same document, and sorting is idempotent. Canonical text is the compact print
of that representative, so two documents have one canonical text exactly when
they agree up to the order of their keys.
-/

namespace Pine.Json

variable {F : Type}

/-- Field order: by key. -/
def fieldLe {V : Type} (f g : List Char × V) : Prop := textLe f.1 g.1 = true

instance {V : Type} : DecidableRel (fieldLe (V := V)) :=
  fun f g => inferInstanceAs (Decidable (textLe f.1 g.1 = true))

instance {V : Type} : Std.Total (fieldLe (V := V)) := ⟨fun f g => textLe_total f.1 g.1⟩

instance {V : Type} : IsTrans (List Char × V) fieldLe := ⟨fun _ _ _ => textLe_trans⟩

mutual

/-- Sort the keys of every object of a document. -/
def sortKeys : Value F → Value F
  | .arr items => .arr (sortItems items)
  | .obj fields => .obj ((sortFields fields).insertionSort fieldLe)
  | v => v

/-- Sort inside every item. -/
def sortItems : List (Value F) → List (Value F)
  | [] => []
  | x :: xs => sortKeys x :: sortItems xs

/-- Sort inside every field value. -/
def sortFields : List (List Char × Value F) → List (List Char × Value F)
  | [] => []
  | (k, x) :: fs => (k, sortKeys x) :: sortFields fs

end

theorem sortItems_eq_map (xs : List (Value F)) : sortItems xs = xs.map sortKeys := by
  induction xs with
  | nil => rfl
  | cons x xs ih => rw [sortItems, ih, List.map_cons]

theorem sortFields_eq_map (fs : List (List Char × Value F)) :
    sortFields fs = fs.map fun f => (f.1, sortKeys f.2) := by
  induction fs with
  | nil => rfl
  | cons f fs ih => rw [sortFields, ih, List.map_cons]

theorem map_fst_sortFields (fs : List (List Char × Value F)) :
    (sortFields fs).map Prod.fst = fs.map Prod.fst := by
  simp [sortFields_eq_map]

mutual

/-- Sorting twice is sorting once. -/
theorem sortKeys_sortKeys : ∀ v : Value F, sortKeys (sortKeys v) = sortKeys v
  | .null => rfl
  | .bool _ => rfl
  | .int _ => rfl
  | .float _ => rfl
  | .str _ => rfl
  | .arr items => by simp only [sortKeys, sortItems_sortItems items]
  | .obj fields => by
    have hfixed : sortFields ((sortFields fields).insertionSort fieldLe) =
        (sortFields fields).insertionSort fieldLe := by
      have hmem : ∀ f ∈ (sortFields fields).insertionSort fieldLe, (f.1, sortKeys f.2) = f := by
        intro f hf
        have hf' : f ∈ sortFields fields := (List.perm_insertionSort fieldLe _).subset hf
        exact Prod.ext rfl (sortFields_fixed fields f hf')
      rw [sortFields_eq_map, List.map_congr_left hmem, List.map_id']
    simp only [sortKeys, hfixed]
    rw [(List.pairwise_insertionSort fieldLe _).insertionSort_eq]

theorem sortItems_sortItems : ∀ xs : List (Value F), sortItems (sortItems xs) = sortItems xs
  | [] => rfl
  | x :: xs => by simp only [sortItems, sortKeys_sortKeys x, sortItems_sortItems xs]

theorem sortFields_fixed : ∀ fs : List (List Char × Value F),
    ∀ f ∈ sortFields fs, sortKeys f.2 = f.2
  | [], _, hf => by simp [sortFields] at hf
  | (k, x) :: fs, f, hf => by
    rcases List.mem_cons.mp hf with rfl | hf
    · exact sortKeys_sortKeys x
    · exact sortFields_fixed fs f hf

end

variable [FloatText F]

mutual

theorem Value.Proper.sortKeys : ∀ {v : Value F}, v.Proper → (sortKeys v).Proper
  | .null, h => h
  | .bool _, h => h
  | .int _, h => h
  | .float _, h => h
  | .str _, h => h
  | .arr items, h => itemsProper_sortItems items h
  | .obj fields, h => by
    have hperm := List.perm_insertionSort fieldLe (sortFields fields)
    refine ⟨?_, ?_⟩
    · rw [(hperm.map Prod.fst).nodup_iff, map_fst_sortFields]
      exact h.1
    · rw [fieldsProper_iff]
      intro f hf
      exact fieldsProper_iff.mp (fieldsProper_sortFields fields h.2) f (hperm.subset hf)

theorem itemsProper_sortItems : ∀ xs : List (Value F), ItemsProper xs → ItemsProper (sortItems xs)
  | [], _ => trivial
  | x :: xs, h => ⟨Value.Proper.sortKeys (v := x) h.1, itemsProper_sortItems xs h.2⟩

theorem fieldsProper_sortFields : ∀ fs : List (List Char × Value F),
    FieldsProper fs → FieldsProper (sortFields fs)
  | [], _ => trivial
  | (_, x) :: fs, h => ⟨Value.Proper.sortKeys (v := x) h.1, fieldsProper_sortFields fs h.2⟩

end

/-- Sorted compact text. -/
def canonicalText (v : Value F) : List Char := print compactStyle 0 (sortKeys v)

/-- Canonical text separates documents up to key order, and nothing finer. -/
theorem canonicalText_eq_iff {v w : Value F} (hv : v.Proper) (hw : w.Proper) :
    canonicalText v = canonicalText w ↔ sortKeys v = sortKeys w :=
  ⟨print_injective compactStyle_valid hv.sortKeys hw.sortKeys, congrArg _⟩

/-- Loading canonical text gives the sorted document. -/
theorem loads_canonicalText {v : Value F} (hv : v.Proper) :
    loads (canonicalText v) = some (sortKeys v) := by
  simpa only [canonicalText, List.append_nil] using
    loads_print compactStyle_valid hv.sortKeys blank_nil

@[simp] theorem canonicalText_sortKeys (v : Value F) :
    canonicalText (sortKeys v) = canonicalText v := by
  rw [canonicalText, sortKeys_sortKeys, canonicalText]

end Pine.Json
