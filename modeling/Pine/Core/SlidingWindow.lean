import Mathlib.Algebra.Order.Group.Defs
import Mathlib.Data.List.Pairwise
import Mathlib.Data.List.DropRight
import Mathlib.Tactic.Abel
import Mathlib.Tactic.Common

/-!
# Sliding windows

A log of times in their order, and the windows that end at a time. Dropping the times up
to a cutoff keeps what any later window can hold, so a log that admits a time only while
its current window has room never holds too many times in any window.
-/

namespace Pine.SlidingWindow

variable {K : Type*} [LinearOrder K]

/-- Drop the times up to a cutoff from the front of a log. -/
def expire (cutoff : K) (log : List K) : List K := log.dropWhile (· ≤ cutoff)

@[simp] theorem expire_nil (cutoff : K) : expire cutoff [] = [] := rfl

theorem expire_cons (cutoff a : K) (log : List K) :
    expire cutoff (a :: log) = if a ≤ cutoff then expire cutoff log else a :: log := by
  by_cases ha : a ≤ cutoff <;> simp [expire, ha]

/-- What an earlier cutoff dropped is dropped by a later one. -/
theorem expire_expire {c c' : K} (h : c ≤ c') (log : List K) :
    expire c' (expire c log) = expire c' log := by
  induction log with
  | nil => rfl
  | cons a rest ih =>
    rw [expire_cons c]
    split
    · rename_i ha
      rw [ih, expire_cons c', if_pos (ha.trans h)]
    · rfl

/-- A time after the cutoff stays at the end of the log. -/
theorem expire_snoc {cutoff a : K} (h : cutoff < a) (log : List K) :
    expire cutoff (log ++ [a]) = expire cutoff log ++ [a] := by
  induction log with
  | nil => simp [expire_cons, h.not_ge]
  | cons b rest ih =>
    rw [List.cons_append, expire_cons, expire_cons, ih]
    split <;> rfl

theorem expire_sublist (cutoff : K) (log : List K) : (expire cutoff log).Sublist log :=
  List.dropWhile_sublist _

/-- On a log in its order, exactly the times after the cutoff stay. -/
theorem expire_eq_filter {log : List K} (hsorted : log.Pairwise (· ≤ ·)) (cutoff : K) :
    expire cutoff log = log.filter (cutoff < ·) := by
  induction log with
  | nil => rfl
  | cons a rest ih =>
    obtain ⟨hfirst, hrest⟩ := List.pairwise_cons.mp hsorted
    rw [expire_cons]
    split
    · rename_i ha
      rw [ih hrest, List.filter_cons_of_neg (by simpa using ha)]
    · rename_i ha
      have hall : ∀ b ∈ a :: rest, cutoff < b := by
        intro b hb
        rcases List.mem_cons.mp hb with rfl | hb
        · exact not_le.mp ha
        · exact (not_le.mp ha).trans_le (hfirst b hb)
      exact (List.filter_eq_self.mpr fun b hb => by simpa using hall b hb).symm

variable [AddCommGroup K]

/-- How many times of a log are in the window of width `w` that ends at `t`. -/
def within (w t : K) (log : List K) : Nat := log.countP fun a => t - w < a ∧ a ≤ t

/-- No window of width `w` holds more than `n` times. -/
def Bounded (w : K) (n : Nat) (log : List K) : Prop := ∀ t, within w t log ≤ n

theorem bounded_nil (w : K) (n : Nat) : Bounded w n [] := fun t => by simp [within]

/-- A window holds at most what a cutoff before it left. -/
theorem within_le_length {log : List K} (hsorted : log.Pairwise (· ≤ ·)) {w t cutoff : K}
    (h : cutoff ≤ t - w) : within w t log ≤ (expire cutoff log).length := by
  rw [expire_eq_filter hsorted, within, List.countP_eq_length_filter]
  refine (List.monotone_filter_right _ fun a ha => ?_).length_le
  simp only [decide_eq_true_eq] at ha ⊢
  exact h.trans_lt ha.1

/-- The current window holds no more than any window may. -/
theorem Bounded.length_expire {log : List K} {w : K} {n : Nat} (h : Bounded w n log)
    (hsorted : log.Pairwise (· ≤ ·)) {now : K} (hnow : ∀ a ∈ log, a ≤ now) :
    (expire (now - w) log).length ≤ n := by
  have heq : (expire (now - w) log).length = within w now log := by
    rw [expire_eq_filter hsorted, within, List.countP_eq_length_filter]
    congr 1
    refine List.filter_congr fun a ha => ?_
    simp [hnow a ha]
  rw [heq]
  exact h now

variable [IsOrderedAddMonoid K]

/-- A time that is admitted while the current window has room leaves every window bounded. -/
theorem Bounded.snoc {log : List K} {w : K} {n : Nat} (h : Bounded w n log)
    (hsorted : log.Pairwise (· ≤ ·)) {now : K} (hroom : (expire (now - w) log).length < n) :
    Bounded w n (log ++ [now]) := by
  intro t
  have hsplit : within w t (log ++ [now]) =
      within w t log + if t - w < now ∧ now ≤ t then 1 else 0 := by
    simp [within, List.countP_append, List.countP_cons]
  rw [hsplit]
  split
  · rename_i hin
    have hcutoff : now - w ≤ t - w := sub_le_sub_right hin.2 w
    have := within_le_length hsorted hcutoff
    omega
  · exact h t

/-- When the first time of the current window has left it, there is room for one more. -/
theorem length_expire_lt {log : List K} {w now later first : K}
    (hfirst : (expire (now - w) log).head? = some first) (hnow : now ≤ later)
    (hlater : first + w ≤ later) :
    (expire (later - w) log).length < (expire (now - w) log).length := by
  obtain ⟨rest, hrest⟩ := List.head?_eq_some_iff.mp hfirst
  rw [← expire_expire (sub_le_sub_right hnow w) log, hrest, expire_cons,
    if_pos (le_sub_iff_add_le.mpr hlater)]
  exact Nat.lt_succ_of_le (expire_sublist _ rest).length_le

end Pine.SlidingWindow
