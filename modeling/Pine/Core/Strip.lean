import Pine.Core.Text
import Mathlib.Data.List.TakeWhile

/-!
# Stripping

What stripping blanks from both ends of a list leaves, for any notion of a blank: the
one bare part between two blank parts.
-/

namespace Pine

variable {α : Type} {blank coarse : α → Bool}

/-- Remove blanks at both ends. -/
def stripOf (blank : α → Bool) (s : List α) : List α :=
  ((s.reverse.dropWhile blank).reverse).dropWhile blank

theorem strip_eq (s : Text) : strip s = stripOf isSpace s := rfl

/-- Neither end is a blank. -/
structure Bare (blank : α → Bool) (s : List α) : Prop where
  head : ∀ c ∈ s.head?, blank c = false
  last : ∀ c ∈ s.getLast?, blank c = false

theorem dropWhile_bare {s : List α} (h : ∀ c ∈ s.head?, blank c = false) :
    s.dropWhile blank = s := by
  cases s with
  | nil => rfl
  | cons c s => rw [List.dropWhile_cons_of_neg (by simp [h c rfl])]

theorem head_dropWhile {s : List α} {c : α} (h : (s.dropWhile blank).head? = some c) :
    blank c = false := by
  have hhead := List.head?_dropWhile_not blank s
  rwa [h] at hhead

/-- The bare part between two blank parts is what is left. -/
theorem stripOf_eq {a m b : List α} (ha : ∀ c ∈ a, blank c = true) (hb : ∀ c ∈ b, blank c = true)
    (hm : Bare blank m) : stripOf blank (a ++ m ++ b) = m := by
  have hright : ((a ++ m ++ b).reverse.dropWhile blank).reverse = if m = [] then [] else a ++ m := by
    rw [List.reverse_append, List.dropWhile_append_of_pos (fun c hc => hb c (List.mem_reverse.mp hc))]
    split
    · rename_i hnil
      subst hnil
      rw [List.append_nil, List.reverse_eq_nil_iff, List.dropWhile_eq_nil_iff]
      exact fun c hc => ha c (List.mem_reverse.mp hc)
    · rename_i hne
      rw [dropWhile_bare, List.reverse_reverse]
      intro c hc
      rw [List.head?_reverse, List.getLast?_append_of_ne_nil _ hne] at hc
      exact hm.last c hc
  rw [stripOf, hright]
  split
  · rename_i hnil
    rw [hnil]
    rfl
  · rw [List.dropWhile_append_of_pos ha, dropWhile_bare hm.head]

/-- Every list is a bare part between two blank parts. -/
theorem stripOf_spec (blank : α → Bool) (s : List α) :
    ∃ a b, s = a ++ stripOf blank s ++ b ∧ (∀ c ∈ a, blank c = true) ∧ (∀ c ∈ b, blank c = true) ∧
      Bare blank (stripOf blank s) := by
  have hkept : (s.reverse.dropWhile blank).reverse ++ (s.reverse.takeWhile blank).reverse = s := by
    rw [← List.reverse_append, List.takeWhile_append_dropWhile, List.reverse_reverse]
  set kept := (s.reverse.dropWhile blank).reverse with hk
  refine ⟨kept.takeWhile blank, (s.reverse.takeWhile blank).reverse, ?_, ?_, ?_, ?_, ?_⟩
  · rw [stripOf, ← hk, List.takeWhile_append_dropWhile, hkept]
  · exact fun c hc => List.mem_takeWhile_imp hc
  · exact fun c hc => List.mem_takeWhile_imp (List.mem_reverse.mp hc)
  · exact fun c hc => head_dropWhile hc
  · intro c hc
    have hlast : kept.getLast? = some c := by
      rw [← List.takeWhile_append_dropWhile (p := blank) (l := kept), List.getLast?_append,
        show (kept.dropWhile blank).getLast? = some c from hc, Option.some_or]
    rw [hk, List.getLast?_reverse] at hlast
    exact head_dropWhile hlast

/-- Stripping twice is stripping once. -/
theorem stripOf_stripOf (blank : α → Bool) (s : List α) :
    stripOf blank (stripOf blank s) = stripOf blank s := by
  obtain ⟨-, -, -, -, -, hbare⟩ := stripOf_spec blank s
  simpa using stripOf_eq (a := []) (b := []) (by simp) (by simp) hbare

/-- Stripping fewer blanks first changes nothing. -/
theorem stripOf_of_coarse (h : ∀ c, coarse c = true → blank c = true) (s : List α) :
    stripOf blank (stripOf coarse s) = stripOf blank s := by
  obtain ⟨a, b, hs, ha, hb, -⟩ := stripOf_spec coarse s
  obtain ⟨a', b', hm, ha', hb', hbare⟩ := stripOf_spec blank (stripOf coarse s)
  have hall : s = (a ++ a') ++ stripOf blank (stripOf coarse s) ++ (b' ++ b) := by
    conv_lhs => rw [hs, hm]
    simp
  conv_rhs => rw [hall]
  refine (stripOf_eq ?_ ?_ hbare).symm
  · intro c hc
    rcases List.mem_append.mp hc with hc | hc
    · exact h c (ha c hc)
    · exact ha' c hc
  · intro c hc
    rcases List.mem_append.mp hc with hc | hc
    · exact hb' c hc
    · exact h c (hb c hc)

/-- What is no blank is kept. -/
theorem mem_stripOf {s : List α} {c : α} (hc : c ∈ s) (hblank : blank c = false) :
    c ∈ stripOf blank s := by
  obtain ⟨a, b, hs, ha, hb, -⟩ := stripOf_spec blank s
  rw [hs] at hc
  simp only [List.mem_append] at hc
  rcases hc with (hc | hc) | hc
  · exact absurd (ha c hc) (by simp [hblank])
  · exact hc
  · exact absurd (hb c hc) (by simp [hblank])

end Pine
