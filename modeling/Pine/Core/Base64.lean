import Pine.Core.Bytes

/-!
# Unpadded base64

Three bytes are four digits of the alphabet for URLs, and one or two bytes at the end are
two or three. The bits of a last digit that belong to no byte are not looked at when it is
read, so only what is written again in the same way is canonical.
-/

namespace Pine.Base64

/-- The digits in the order of their values. -/
def alphabet : Text :=
  text "ABCDEFGHIJKLMNOPQRSTUVWXYZabcdefghijklmnopqrstuvwxyz0123456789-_"

/-- The digit of a value. -/
def digit (n : Nat) : Char := alphabet.getD n 'A'

/-- The value of a digit. -/
def value (c : Char) : Nat := alphabet.idxOf c

/-- `base64.urlsafe_b64encode(b).rstrip(b"=")` -/
def encode : Bytes → Text
  | a :: b :: c :: rest =>
    digit (a.toNat / 4) :: digit (a.toNat % 4 * 16 + b.toNat / 16) ::
      digit (b.toNat % 16 * 4 + c.toNat / 64) :: digit (c.toNat % 64) :: encode rest
  | [a, b] => [digit (a.toNat / 4), digit (a.toNat % 4 * 16 + b.toNat / 16), digit (b.toNat % 16 * 4)]
  | [a] => [digit (a.toNat / 4), digit (a.toNat % 4 * 16)]
  | [] => []

/-- `base64.b64decode` of digits that are padded to a multiple of four: one digit cannot be left. -/
def decode : Text → Option Bytes
  | p :: q :: r :: s :: rest =>
    (decode rest).map fun b =>
      .ofNat (value p * 4 + value q / 16) :: .ofNat (value q % 16 * 16 + value r / 4) ::
        .ofNat (value r % 4 * 64 + value s) :: b
  | [p, q, r] =>
    some [.ofNat (value p * 4 + value q / 16), .ofNat (value q % 16 * 16 + value r / 4)]
  | [p, q] => some [.ofNat (value p * 4 + value q / 16)]
  | [_] => none
  | [] => some []

theorem value_digit : ∀ n < 64, value (digit n) = n := by decide

theorem digit_mem : ∀ n < 64, digit n ∈ alphabet := by decide

theorem ofNat_eq {x : UInt8} {n : Nat} (h : n = x.toNat) : UInt8.ofNat n = x := by
  rw [h, UInt8.ofNat_toNat]

/-- What is written is read back. -/
theorem decode_encode (b : Bytes) : decode (encode b) = some b := by
  induction b using encode.induct with
  | case1 a b c rest ih =>
    have ha := a.toNat_lt
    have hb := b.toNat_lt
    have hc := c.toNat_lt
    rw [encode, decode, ih, Option.map_some, value_digit _ (by omega), value_digit _ (by omega),
      value_digit _ (by omega), value_digit _ (by omega), ofNat_eq (x := a) (by omega),
      ofNat_eq (x := b) (by omega), ofNat_eq (x := c) (by omega)]
  | case2 a b =>
    have ha := a.toNat_lt
    have hb := b.toNat_lt
    rw [encode, decode, value_digit _ (by omega), value_digit _ (by omega),
      value_digit _ (by omega), ofNat_eq (x := a) (by omega), ofNat_eq (x := b) (by omega)]
  | case3 a =>
    have ha := a.toNat_lt
    rw [encode, decode, value_digit _ (by omega), value_digit _ (by omega),
      ofNat_eq (x := a) (by omega)]
  | case4 => rfl

/-- Only digits are written. -/
theorem encode_mem (b : Bytes) : ∀ c ∈ encode b, c ∈ alphabet := by
  induction b using encode.induct with
  | case1 a b c rest ih =>
    have ha := a.toNat_lt
    have hb := b.toNat_lt
    have hc := c.toNat_lt
    simp only [encode, List.forall_mem_cons]
    exact ⟨digit_mem _ (by omega), digit_mem _ (by omega), digit_mem _ (by omega),
      digit_mem _ (by omega), ih⟩
  | case2 a b =>
    have ha := a.toNat_lt
    have hb := b.toNat_lt
    simp only [encode, List.forall_mem_cons]
    exact ⟨digit_mem _ (by omega), digit_mem _ (by omega), digit_mem _ (by omega), by simp⟩
  | case3 a =>
    have ha := a.toNat_lt
    simp only [encode, List.forall_mem_cons]
    exact ⟨digit_mem _ (by omega), digit_mem _ (by omega), by simp⟩
  | case4 => simp [encode]

/-- Four digits for three bytes, rounded up. -/
theorem length_encode (b : Bytes) : (encode b).length = (4 * b.length + 2) / 3 := by
  induction b using encode.induct with
  | case1 a b c rest ih =>
    simp only [encode, List.length_cons, ih]
    omega
  | case2 a b => simp [encode]
  | case3 a => simp [encode]
  | case4 => simp [encode]

end Pine.Base64
