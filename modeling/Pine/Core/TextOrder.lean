import Pine.Core.Digits

/-!
# Code point order of texts

The order in which keys are sorted and in which a database compares its text
columns. Zero-padded fields of one width compare as their numbers do.
-/

namespace Pine

/-- Code point order of strings. -/
def textLe : List Char → List Char → Bool
  | [], _ => true
  | _ :: _, [] => false
  | a :: s, b :: t => if a.toNat < b.toNat then true
      else if b.toNat < a.toNat then false else textLe s t

theorem textLe_total (s t : List Char) : textLe s t = true ∨ textLe t s = true := by
  induction s generalizing t with
  | nil => exact Or.inl rfl
  | cons a s ih =>
    cases t with
    | nil => exact Or.inr rfl
    | cons b t =>
      rcases Nat.lt_trichotomy a.toNat b.toNat with h | h | h
      · exact Or.inl (by simp [textLe, h])
      · rcases ih t with hs | ht
        · exact Or.inl (by simp [textLe, h, hs])
        · exact Or.inr (by simp [textLe, h, ht])
      · exact Or.inr (by simp [textLe, h])

theorem textLe_self (s : List Char) : textLe s s = true := (textLe_total s s).elim id id

theorem textLe_trans {s t u : List Char} (h : textLe s t = true) (k : textLe t u = true) :
    textLe s u = true := by
  induction s generalizing t u with
  | nil => rfl
  | cons a s ih =>
    cases t with
    | nil => simp [textLe] at h
    | cons b t =>
      cases u with
      | nil => simp [textLe] at k
      | cons c u =>
        simp only [textLe] at h k ⊢
        split at h
        · split at k
          · rw [if_pos (by omega)]
          · split at k
            · exact absurd k (by decide)
            · rw [if_pos (by omega)]
        · split at h
          · exact absurd h (by decide)
          · split at k
            · rw [if_pos (by omega)]
            · split at k
              · exact absurd k (by decide)
              · rw [if_neg (by omega), if_neg (by omega)]
                exact ih h k

theorem textLe_antisymm {s t : List Char} (h : textLe s t = true) (k : textLe t s = true) :
    s = t := by
  induction s generalizing t with
  | nil =>
    cases t with
    | nil => rfl
    | cons b t => simp [textLe] at k
  | cons a s ih =>
    cases t with
    | nil => simp [textLe] at h
    | cons b t =>
      rcases Nat.lt_trichotomy a.toNat b.toNat with hlt | heq | hlt
      · simp [textLe, hlt, Nat.lt_asymm hlt] at k
      · simp only [textLe, heq, lt_irrefl, if_false] at h k
        rw [Char.toNat_inj.mp heq, ih h k]
      · simp [textLe, hlt, Nat.lt_asymm hlt] at h

/-- Texts that begin with padded fields of one width compare by those fields first. -/
theorem textLe_padDigits {w m n : Nat} {s t : List Char} (hm : m < 10 ^ w) (hn : n < 10 ^ w) :
    textLe (padDigits w m ++ s) (padDigits w n ++ t) = true ↔
      m < n ∨ m = n ∧ textLe s t = true := by
  induction w generalizing m n s t with
  | zero =>
    obtain rfl : m = 0 := by omega
    obtain rfl : n = 0 := by omega
    simp [padDigits]
  | succ w ih =>
    have hm' : m / 10 < 10 ^ w := by
      rw [Nat.div_lt_iff_lt_mul (by decide)]
      simpa [pow_succ] using hm
    have hn' : n / 10 < 10 ^ w := by
      rw [Nat.div_lt_iff_lt_mul (by decide)]
      simpa [pow_succ] using hn
    have hcm := digitChar_toNat (m % 10) (Nat.mod_lt _ (by decide))
    have hcn := digitChar_toNat (n % 10) (Nat.mod_lt _ (by decide))
    simp only [padDigits, List.append_assoc, List.singleton_append]
    rw [ih hm' hn', textLe, hcm, hcn]
    split
    · simp only [and_true]
      omega
    · split
      · simp only [Bool.false_eq_true, and_false, or_false]
        omega
      · have hlast : m % 10 = n % 10 := by omega
        constructor
        · rintro (h | ⟨h, hs⟩)
          · exact Or.inl (by omega)
          · exact Or.inr ⟨by omega, hs⟩
        · rintro (h | ⟨h, hs⟩)
          · exact Or.inl (by omega)
          · exact Or.inr ⟨by omega, hs⟩

/-- Texts that begin with parts of one length compare by those parts first. -/
theorem textLe_append {x y s t : List Char} (h : x.length = y.length) :
    textLe (x ++ s) (y ++ t) = true ↔
      (x ≠ y ∧ textLe x y = true) ∨ (x = y ∧ textLe s t = true) := by
  induction x generalizing y with
  | nil =>
    obtain rfl := List.length_eq_zero_iff.mp h.symm
    simp
  | cons a x ih =>
    cases y with
    | nil => cases h
    | cons b y =>
      have hlast := ih (Nat.succ.inj h)
      simp only [List.cons_append, textLe]
      split
      · rename_i hlt
        have hne : a ≠ b := by
          rintro rfl
          exact lt_irrefl _ hlt
        simp [hne]
      · split
        · rename_i hlt
          have hne : a ≠ b := by
            rintro rfl
            exact lt_irrefl _ hlt
          simp [hne]
        · obtain rfl : a = b := Char.toNat_inj.mp (by omega)
          rw [hlast]
          simp

theorem textLe_cons_self (c : Char) (s t : List Char) :
    textLe (c :: s) (c :: t) = textLe s t := by
  simp [textLe]

end Pine
