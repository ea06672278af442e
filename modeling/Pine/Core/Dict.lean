import Mathlib.Data.List.Nodup
import Mathlib.Data.List.Basic

/-!
# Dictionaries

Insertion-ordered dictionaries: setting a key that is there keeps its place, setting a
new one appends it. The keys are distinct, so a lookup finds the entry of its key.
-/

namespace Pine

/-- An insertion-ordered dictionary. -/
structure Dict (κ α : Type*) where
  entries : List (κ × α)
  nodup : (entries.map Prod.fst).Nodup

namespace Dict

variable {κ α β : Type*}

@[ext] theorem ext {d e : Dict κ α} (h : d.entries = e.entries) : d = e := by
  cases d
  cases e
  congr

/-- No entries. -/
def empty : Dict κ α := ⟨[], by simp⟩

/-- `len(d)` -/
def size (d : Dict κ α) : Nat := d.entries.length

/-- Keep the entries that have a new value, with that value. -/
def filterMap (d : Dict κ α) (f : κ → α → Option β) : Dict κ β where
  entries := d.entries.filterMap fun x => (f x.1 x.2).map (x.1, ·)
  nodup := by
    have hsub : ((d.entries.filterMap fun x => (f x.1 x.2).map (x.1, ·)).map Prod.fst).Sublist
        (d.entries.map Prod.fst) := by
      induction d.entries with
      | nil => simp
      | cons x rest ih =>
        cases hx : f x.1 x.2 with
        | none => simpa [hx] using ih.cons x.1
        | some b => simpa [hx] using ih.cons_cons x.1
    exact d.nodup.sublist hsub

theorem size_filterMap_le (d : Dict κ α) (f : κ → α → Option β) : (d.filterMap f).size ≤ d.size :=
  List.length_filterMap_le _ _

variable [DecidableEq κ]

/-- `d.get(k)` -/
def get? (d : Dict κ α) (k : κ) : Option α := (d.entries.find? (·.1 = k)).map Prod.snd

/-- `d[k] = a` -/
def set (d : Dict κ α) (k : κ) (a : α) : Dict κ α where
  entries := if k ∈ d.entries.map Prod.fst
    then d.entries.map fun x => if x.1 = k then (k, a) else x
    else d.entries ++ [(k, a)]
  nodup := by
    split
    · have hkeys : (d.entries.map fun x => if x.1 = k then (k, a) else x).map Prod.fst =
          d.entries.map Prod.fst := by
        rw [List.map_map]
        refine List.map_congr_left fun x _ => ?_
        by_cases hx : x.1 = k <;> simp [hx]
      rw [hkeys]
      exact d.nodup
    · rename_i hnew
      rw [List.map_append, List.nodup_append]
      refine ⟨d.nodup, by simp, fun x hx y hy => ?_⟩
      obtain rfl : y = k := List.mem_singleton.mp hy
      rintro rfl
      exact hnew hx

/-- `d.pop(k, None)`, without its result. -/
def erase (d : Dict κ α) (k : κ) : Dict κ α where
  entries := d.entries.filter (·.1 ≠ k)
  nodup := d.nodup.sublist (List.filter_sublist.map _)

@[simp] theorem get?_empty (k : κ) : (empty : Dict κ α).get? k = none := rfl

theorem get?_eq_some {d : Dict κ α} {k : κ} {a : α} : d.get? k = some a ↔ (k, a) ∈ d.entries := by
  obtain ⟨entries, hnodup⟩ := d
  simp only [get?]
  induction entries with
  | nil => simp
  | cons x rest ih =>
    rw [List.map_cons, List.nodup_cons] at hnodup
    by_cases hx : x.1 = k
    · have hnot : (k, a) ∉ rest := fun hmem => hnodup.1 (hx ▸ List.mem_map.mpr ⟨_, hmem, rfl⟩)
      obtain ⟨y, b⟩ := x
      obtain rfl : y = k := hx
      simp [hnot, eq_comm]
    · have hne : (k, a) ≠ x := fun heq => hx (heq ▸ rfl)
      rw [List.find?_cons_of_neg (by simpa using hx), ih hnodup.2, List.mem_cons,
        or_iff_right hne]

theorem get?_eq_none {d : Dict κ α} {k : κ} : d.get? k = none ↔ k ∉ d.entries.map Prod.fst := by
  simp only [get?, Option.map_eq_none_iff, List.find?_eq_none, List.mem_map, not_exists, not_and,
    decide_eq_true_eq]

@[simp] theorem get?_set (d : Dict κ α) (k l : κ) (a : α) :
    (d.set k a).get? l = if l = k then some a else d.get? l := by
  have hmem : ∀ b, (l, b) ∈ (d.set k a).entries ↔
      if l = k then b = a else (l, b) ∈ d.entries := by
    intro b
    simp only [set]
    split
    · rename_i hkey
      obtain ⟨⟨k', c⟩, hc, rfl⟩ := List.mem_map.mp hkey
      by_cases hl : l = k'
      · subst hl
        rw [if_pos rfl, List.mem_map]
        constructor
        · rintro ⟨x, -, hx⟩
          by_cases hk : x.1 = l
          · rw [if_pos hk] at hx
            exact (Prod.mk.inj hx).2.symm
          · rw [if_neg hk] at hx
            exact absurd (congrArg Prod.fst hx) hk
        · rintro rfl
          exact ⟨(l, c), hc, by simp⟩
      · rw [if_neg hl, List.mem_map]
        constructor
        · rintro ⟨x, hx, heq⟩
          by_cases hk : x.1 = k'
          · rw [if_pos hk] at heq
            exact absurd (congrArg Prod.fst heq).symm hl
          · rw [if_neg hk] at heq
            exact heq ▸ hx
        · intro hb
          exact ⟨(l, b), hb, by simp [hl]⟩
    · rename_i hnew
      by_cases hl : l = k
      · subst hl
        have hnot : (l, b) ∉ d.entries := fun h => hnew (List.mem_map.mpr ⟨_, h, rfl⟩)
        simp [hnot]
      · simp [hl]
  split
  · rename_i hl
    exact get?_eq_some.mpr ((hmem a).mpr (by rw [if_pos hl]))
  · rename_i hl
    ext b
    rw [get?_eq_some, hmem b, if_neg hl, get?_eq_some]

@[simp] theorem get?_erase (d : Dict κ α) (k l : κ) :
    (d.erase k).get? l = if l = k then none else d.get? l := by
  split
  · rename_i hl
    rw [get?_eq_none, hl]
    simp [erase]
  · rename_i hl
    ext b
    rw [get?_eq_some, get?_eq_some]
    simp [erase, hl]

@[simp] theorem get?_filterMap (d : Dict κ α) (f : κ → α → Option β) (k : κ) :
    (d.filterMap f).get? k = (d.get? k).bind (f k) := by
  ext b
  rw [get?_eq_some, Option.bind_eq_some_iff]
  simp only [filterMap, List.mem_filterMap, Option.map_eq_some_iff, Prod.mk.injEq, get?_eq_some]
  constructor
  · rintro ⟨⟨k', a⟩, hmem, c, hc, rfl, rfl⟩
    exact ⟨a, hmem, hc⟩
  · rintro ⟨a, hmem, ha⟩
    exact ⟨(k, a), hmem, b, ha, rfl, rfl⟩

theorem entries_set (d : Dict κ α) (k : κ) (a : α) :
    (d.set k a).entries = if k ∈ d.entries.map Prod.fst
      then d.entries.map fun x => if x.1 = k then (k, a) else x
      else d.entries ++ [(k, a)] := rfl

/-- Setting a key to the value that it has changes nothing. -/
theorem set_self {d : Dict κ α} {k : κ} {a : α} (h : d.get? k = some a) : d.set k a = d := by
  have hmem := get?_eq_some.mp h
  refine ext ?_
  rw [entries_set, if_pos (List.mem_map.mpr ⟨_, hmem, rfl⟩)]
  refine (List.map_congr_left fun x hx => ?_).trans d.entries.map_id
  split
  · rename_i hkey
    exact (List.inj_on_of_nodup_map d.nodup hx hmem hkey).symm
  · rfl

/-- A new key makes the dictionary longer by one. -/
theorem size_set_of_none {d : Dict κ α} {k : κ} {a : α} (h : d.get? k = none) :
    (d.set k a).size = d.size + 1 := by
  rw [size, entries_set, if_neg (get?_eq_none.mp h), List.length_append, List.length_singleton, size]

theorem size_set_of_some {d : Dict κ α} {k : κ} {a b : α} (h : d.get? k = some b) :
    (d.set k a).size = d.size := by
  have hkey : k ∈ d.entries.map Prod.fst := List.mem_map.mpr ⟨_, get?_eq_some.mp h, rfl⟩
  rw [size, entries_set, if_pos hkey, List.length_map, size]

/-- The entries under one key: the one that a lookup finds. -/
theorem filter_entries (d : Dict κ α) (k : κ) :
    d.entries.filter (·.1 = k) = ((d.get? k).map (k, ·)).toList := by
  obtain ⟨entries, hnodup⟩ := d
  simp only [get?]
  induction entries with
  | nil => rfl
  | cons x rest ih =>
    rw [List.map_cons, List.nodup_cons] at hnodup
    by_cases hx : x.1 = k
    · have hnone : rest.filter (·.1 = k) = [] := by
        rw [List.filter_eq_nil_iff]
        intro y hy hkey
        exact hnodup.1 (List.mem_map.mpr ⟨y, hy, (of_decide_eq_true hkey).trans hx.symm⟩)
      obtain ⟨y, b⟩ := x
      obtain rfl : y = k := hx
      simp [hnone]
    · rw [List.filter_cons_of_neg (by simpa using hx), ih hnodup.2,
        List.find?_cons_of_neg (by simpa using hx)]

end Dict

end Pine
