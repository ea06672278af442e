import Mathlib.Data.List.Nodup

/-!
# Growing tables

A table grows when rows are only added at its end and the rows already there only
change along a given relation. Growth is a preorder when the relation is one, so
what single statements do composes over any run.
-/

namespace Pine

variable {α : Type*}

/-- Every row keeps its place and evolves along `R`. -/
def Grows (R : α → α → Prop) (xs ys : List α) : Prop :=
  ∀ (i : Nat) (x : α), xs[i]? = some x → ∃ y, ys[i]? = some y ∧ R x y

namespace Grows

variable {R : α → α → Prop}

theorem refl (h : ∀ x, R x x) (xs : List α) : Grows R xs xs :=
  fun _ x hx => ⟨x, hx, h x⟩

theorem trans {xs ys zs : List α} (hxy : Grows R xs ys) (hyz : Grows R ys zs)
    (h : ∀ x y z, R x y → R y z → R x z) : Grows R xs zs := by
  intro i x hx
  obtain ⟨y, hy, hR⟩ := hxy i x hx
  obtain ⟨z, hz, hS⟩ := hyz i y hy
  exact ⟨z, hz, h x y z hR hS⟩

/-- Appending rows lets a table grow. -/
theorem append (h : ∀ x, R x x) (xs extra : List α) : Grows R xs (xs ++ extra) := by
  intro i x hx
  refine ⟨x, ?_, h x⟩
  rw [List.getElem?_append_left (List.getElem?_eq_some_iff.mp hx).1, hx]

/-- Changing rows in place along the relation lets a table grow. -/
theorem map {xs : List α} {f : α → α} (h : ∀ x ∈ xs, R x (f x)) : Grows R xs (xs.map f) := by
  intro i x hx
  exact ⟨f x, by simp [hx], h x (List.mem_of_getElem? hx)⟩

/-- Every row of the smaller table has its successor in the larger one. -/
theorem mem {xs ys : List α} (h : Grows R xs ys) {x : α} (hx : x ∈ xs) : ∃ y ∈ ys, R x y := by
  obtain ⟨i, hi⟩ := List.mem_iff_getElem?.mp hx
  obtain ⟨y, hy, hR⟩ := h i x hi
  exact ⟨y, List.mem_of_getElem? hy, hR⟩

theorem trans_eq {xs ys zs : List α} (h : Grows Eq xs ys) (k : Grows Eq ys zs) :
    Grows Eq xs zs := by
  refine h.trans k ?_
  intro x y z hxy hyz
  exact hxy.trans hyz

/-- A table whose rows never change keeps every row. -/
theorem subset {xs ys : List α} (h : Grows Eq xs ys) : xs ⊆ ys := by
  intro x hx
  obtain ⟨y, hy, rfl⟩ := h.mem hx
  exact hy

end Grows

/-! ## Related tables -/

variable {β : Type*}

/-- Every row of one table has its row in the other. -/
theorem forall₂_left {R : α → β → Prop} {a : List α} {b : List β}
    (h : List.Forall₂ R a b) {x : α} (hx : x ∈ a) : ∃ y ∈ b, R x y := by
  induction h with
  | nil => cases hx
  | cons hxy _ ih =>
    rcases List.mem_cons.mp hx with rfl | hx
    · exact ⟨_, List.mem_cons_self, hxy⟩
    · obtain ⟨y, hy, hR⟩ := ih hx
      exact ⟨y, List.mem_cons_of_mem _ hy, hR⟩

/-- The same from the other table. -/
theorem forall₂_right {R : α → β → Prop} {a : List α} {b : List β}
    (h : List.Forall₂ R a b) {y : β} (hy : y ∈ b) : ∃ x ∈ a, R x y := by
  induction h with
  | nil => cases hy
  | cons hxy _ ih =>
    rcases List.mem_cons.mp hy with rfl | hy
    · exact ⟨_, List.mem_cons_self, hxy⟩
    · obtain ⟨x, hx, hR⟩ := ih hy
      exact ⟨x, List.mem_cons_of_mem _ hx, hR⟩

/-! ## Rows by key -/

variable {κ : Type*}

section

variable [BEq κ] [LawfulBEq κ]

/-- With distinct keys, the row found under the key of a row is that row. -/
theorem find?_key_of_mem {xs : List α} {key : α → κ} (hnodup : (xs.map key).Nodup) {x : α}
    (hx : x ∈ xs) : xs.find? (key · == key x) = some x := by
  induction xs with
  | nil => cases hx
  | cons y ys ih =>
    rw [List.map_cons, List.nodup_cons] at hnodup
    rcases List.mem_cons.mp hx with rfl | hx
    · simp
    · have hne : key y ≠ key x := fun heq => hnodup.1 (heq ▸ List.mem_map_of_mem hx)
      rw [List.find?_cons_of_neg (by simpa using hne)]
      exact ih hnodup.2 hx

theorem find?_key_some {xs : List α} {key : α → κ} {k : κ} {x : α}
    (h : xs.find? (key · == k) = some x) : x ∈ xs ∧ key x = k :=
  ⟨List.mem_of_find?_eq_some h, by simpa using List.find?_some h⟩

theorem find?_key_none {xs : List α} {key : α → κ} {k : κ} (h : xs.find? (key · == k) = none) :
    k ∉ xs.map key := by
  intro hk
  obtain ⟨x, hx, hkey⟩ := List.mem_map.mp hk
  simpa [hkey] using List.find?_eq_none.mp h x hx

end

/-- Distinct keys stay distinct when a row under a new key is added. -/
theorem nodup_append_key {xs : List α} {key : α → κ} {x : α} (hnodup : (xs.map key).Nodup)
    (h : key x ∉ xs.map key) : ((xs ++ [x]).map key).Nodup := by
  rw [List.map_append, List.map_singleton, List.nodup_append]
  refine ⟨hnodup, by simp, ?_⟩
  rintro k hk _ hkx rfl
  rw [List.mem_singleton.mp hkx] at hk
  exact h hk

/-- Changes that keep every key keep the list of keys. -/
theorem map_key_of_keeps {xs : List α} {key : α → κ} {f : α → α} (h : ∀ x ∈ xs, key (f x) = key x) :
    (xs.map f).map key = xs.map key := by
  rw [List.map_map]
  exact List.map_congr_left h

end Pine
