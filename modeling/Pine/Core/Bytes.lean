import Pine.Core.Text

/-!
# Bytes

Byte strings with the two decodings of the source language: ASCII, and UTF-8 either
strict or with a replacement character for each maximal malformed part.
-/

namespace Pine

/-- A byte string. -/
abbrev Bytes := List UInt8

/-- The bytes of an ASCII literal. -/
def bytes (s : String) : Bytes := s.toList.map fun c => c.toNat.toUInt8

namespace Bytes

/-- `value.decode("ascii")` -/
def decodeAscii (b : Bytes) : Option Text :=
  if b.all (· < 128) then some (b.map fun x => Char.ofNat x.toNat) else none

/-- `value.lower()` -/
def lower (b : Bytes) : Bytes := b.map fun x => if 65 ≤ x && x ≤ 90 then x + 32 else x

/-! ## UTF-8 -/

/-- The bytes that a started character still needs: how many, the bits so far, and the range of the
next one. -/
structure Pending where
  need : Nat
  bits : Nat
  low : Nat
  high : Nat

/-- What the first byte of a character says. -/
inductive Lead where
  | char (c : Char)
  | pending (p : Pending)
  | malformed

/-- The well-formed first bytes. -/
def lead (b : Nat) : Lead :=
  if b < 0x80 then .char (Char.ofNat b)
  else if b < 0xC2 then .malformed
  else if b < 0xE0 then .pending ⟨1, b - 0xC0, 0x80, 0xBF⟩
  else if b = 0xE0 then .pending ⟨2, 0, 0xA0, 0xBF⟩
  else if b = 0xED then .pending ⟨2, 0xD, 0x80, 0x9F⟩
  else if b < 0xF0 then .pending ⟨2, b - 0xE0, 0x80, 0xBF⟩
  else if b = 0xF0 then .pending ⟨3, 0, 0x90, 0xBF⟩
  else if b < 0xF4 then .pending ⟨3, b - 0xF0, 0x80, 0xBF⟩
  else if b = 0xF4 then .pending ⟨3, 4, 0x80, 0x8F⟩
  else .malformed

/-- The characters, with `none` for each maximal malformed part. -/
def scanUtf8 : Option Pending → Bytes → List (Option Char)
  | none, [] => []
  | some _, [] => [none]
  | pending, x :: rest =>
    let b := x.toNat
    let begin (_ : Unit) : List (Option Char) := match lead b with
      | .char c => some c :: scanUtf8 none rest
      | .pending p => scanUtf8 (some p) rest
      | .malformed => none :: scanUtf8 none rest
    match pending with
    | none => begin ()
    | some p =>
      if p.low ≤ b ∧ b ≤ p.high then
        let bits := p.bits * 64 + (b - 0x80)
        if p.need = 1 then some (Char.ofNat bits) :: scanUtf8 none rest
        else scanUtf8 (some ⟨p.need - 1, bits, 0x80, 0xBF⟩) rest
      else none :: begin ()

/-- `value.decode("utf-8")` -/
def decodeUtf8 (b : Bytes) : Option Text := (scanUtf8 none b).mapM id

/-- `value.decode("utf-8", errors="replace")` -/
def decodeReplace (b : Bytes) : Text := (scanUtf8 none b).map (·.getD '\uFFFD')

/-- The bytes of one character. -/
def encodeChar (c : Char) : Bytes :=
  let n := c.toNat
  if n < 0x80 then [.ofNat n]
  else if n < 0x800 then [.ofNat (0xC0 + n / 64), .ofNat (0x80 + n % 64)]
  else if n < 0x10000 then
    [.ofNat (0xE0 + n / 4096), .ofNat (0x80 + n / 64 % 64), .ofNat (0x80 + n % 64)]
  else [.ofNat (0xF0 + n / 262144), .ofNat (0x80 + n / 4096 % 64), .ofNat (0x80 + n / 64 % 64),
    .ofNat (0x80 + n % 64)]

/-- `value.encode("utf-8")` -/
def encodeUtf8 (s : Text) : Bytes := s.flatMap encodeChar

@[simp] theorem encodeUtf8_nil : encodeUtf8 [] = [] := rfl

@[simp] theorem encodeUtf8_cons (c : Char) (s : Text) :
    encodeUtf8 (c :: s) = encodeChar c ++ encodeUtf8 s := rfl

@[simp] theorem encodeUtf8_append (s t : Text) :
    encodeUtf8 (s ++ t) = encodeUtf8 s ++ encodeUtf8 t := by
  simp [encodeUtf8]

theorem length_encodeChar (c : Char) : (encodeChar c).length = c.utf8Size := by
  have h1 : c.val ≤ UInt32.ofNatLT 0x7F (by decide) ↔ c.toNat < 0x80 := Nat.lt_succ_iff.symm
  have h2 : c.val ≤ UInt32.ofNatLT 0x7FF (by decide) ↔ c.toNat < 0x800 := Nat.lt_succ_iff.symm
  have h3 : c.val ≤ UInt32.ofNatLT 0xFFFF (by decide) ↔ c.toNat < 0x10000 := Nat.lt_succ_iff.symm
  simp only [encodeChar, Char.utf8Size, h1, h2, h3]
  split
  · rfl
  · split
    · rfl
    · split <;> rfl

theorem length_encodeUtf8 (s : Text) : (encodeUtf8 s).length = utf8Length s := by
  induction s with
  | nil => rfl
  | cons c s ih =>
    rw [encodeUtf8_cons, List.length_append, length_encodeChar, ih]
    simp [utf8Length]

/-- A byte that continues a character adds its six bits. -/
theorem scanUtf8_continue {need bits low high m : Nat} (rest : Bytes) (hm : m < 64)
    (hlow : low ≤ 0x80 + m) (hhigh : 0x80 + m ≤ high) :
    scanUtf8 (some ⟨need, bits, low, high⟩) (.ofNat (0x80 + m) :: rest) =
      if need = 1 then some (Char.ofNat (bits * 64 + m)) :: scanUtf8 none rest
      else scanUtf8 (some ⟨need - 1, bits * 64 + m, 0x80, 0xBF⟩) rest := by
  have hbyte : (UInt8.ofNat (0x80 + m)).toNat = 0x80 + m :=
    UInt8.toNat_ofNat_of_lt' (show 0x80 + m < 256 by omega)
  simp only [scanUtf8, hbyte]
  rw [if_pos ⟨hlow, hhigh⟩, Nat.add_sub_cancel_left]

/-- The bytes of a character are read back as that character. -/
theorem scanUtf8_encodeChar (c : Char) (rest : Bytes) :
    scanUtf8 none (encodeChar c ++ rest) = some c :: scanUtf8 none rest := by
  have hvalid : c.toNat < 0xD800 ∨ 0xDFFF < c.toNat ∧ c.toNat < 0x110000 := c.valid
  have hback : Char.ofNat c.toNat = c := Char.ofNat_toNat c
  have hfirst : ∀ (b : Nat) (tail : Bytes), b < 256 → scanUtf8 none (.ofNat b :: tail) =
      match lead b with
      | .char c => some c :: scanUtf8 none tail
      | .pending p => scanUtf8 (some p) tail
      | .malformed => none :: scanUtf8 none tail := by
    intro b tail hb
    have hbyte : (UInt8.ofNat b).toNat = b := UInt8.toNat_ofNat_of_lt' (show b < 256 from hb)
    simp only [scanUtf8, hbyte]
  simp only [encodeChar]
  generalize hn : c.toNat = n at hvalid hback
  split
  · rename_i h1
    rw [List.singleton_append, hfirst n _ (by omega), lead, if_pos h1, hback]
  · rename_i h1
    split
    · rename_i h2
      have hlead : lead (0xC0 + n / 64) = .pending ⟨1, n / 64, 0x80, 0xBF⟩ := by
        rw [lead, if_neg (by omega), if_neg (by omega), if_pos (by omega), Nat.add_sub_cancel_left]
      rw [List.cons_append, List.singleton_append, hfirst _ _ (by omega), hlead]
      simp only
      rw [scanUtf8_continue _ (by omega) (by omega) (by omega), if_pos rfl,
        show n / 64 * 64 + n % 64 = n by omega, hback]
    · rename_i h2
      split
      · rename_i h3
        have hlead : ∃ low high, lead (0xE0 + n / 4096) = .pending ⟨2, n / 4096, low, high⟩ ∧
            low ≤ 0x80 + n / 64 % 64 ∧ 0x80 + n / 64 % 64 ≤ high := by
          by_cases hzero : n / 4096 = 0
          · exact ⟨0xA0, 0xBF, by simp [lead, hzero], by omega, by omega⟩
          · by_cases hsurrogate : n / 4096 = 0xD
            · exact ⟨0x80, 0x9F, by simp [lead, hsurrogate], by omega, by omega⟩
            · refine ⟨0x80, 0xBF, ?_, by omega, by omega⟩
              rw [lead, if_neg (by omega), if_neg (by omega), if_neg (by omega), if_neg (by omega),
                if_neg (by omega), if_pos (by omega), Nat.add_sub_cancel_left]
        obtain ⟨low, high, hlead, hlow, hhigh⟩ := hlead
        rw [List.cons_append, List.cons_append, List.singleton_append, hfirst _ _ (by omega), hlead]
        simp only
        rw [scanUtf8_continue _ (by omega) hlow hhigh, if_neg (by decide),
          scanUtf8_continue _ (by omega) (by omega) (by omega), if_pos rfl,
          show (n / 4096 * 64 + n / 64 % 64) * 64 + n % 64 = n by omega, hback]
      · rename_i h3
        have hlead : ∃ low high, lead (0xF0 + n / 262144) = .pending ⟨3, n / 262144, low, high⟩ ∧
            low ≤ 0x80 + n / 4096 % 64 ∧ 0x80 + n / 4096 % 64 ≤ high := by
          by_cases hzero : n / 262144 = 0
          · exact ⟨0x90, 0xBF, by simp [lead, hzero], by omega, by omega⟩
          · by_cases hlast : n / 262144 = 4
            · exact ⟨0x80, 0x8F, by simp [lead, hlast], by omega, by omega⟩
            · refine ⟨0x80, 0xBF, ?_, by omega, by omega⟩
              rw [lead, if_neg (by omega), if_neg (by omega), if_neg (by omega), if_neg (by omega),
                if_neg (by omega), if_neg (by omega), if_neg (by omega), if_pos (by omega),
                Nat.add_sub_cancel_left]
        obtain ⟨low, high, hlead, hlow, hhigh⟩ := hlead
        rw [List.cons_append, List.cons_append, List.cons_append, List.singleton_append,
          hfirst _ _ (by omega), hlead]
        simp only
        rw [scanUtf8_continue _ (by omega) hlow hhigh, if_neg (by decide),
          scanUtf8_continue _ (by omega) (by omega) (by omega), if_neg (by decide),
          scanUtf8_continue _ (by omega) (by omega) (by omega), if_pos rfl,
          show ((n / 262144 * 64 + n / 4096 % 64) * 64 + n / 64 % 64) * 64 + n % 64 = n by omega,
          hback]

/-- `s.encode("utf-8").decode("utf-8") == s` -/
theorem decodeUtf8_encodeUtf8 (s : Text) : decodeUtf8 (encodeUtf8 s) = some s := by
  have hscan : scanUtf8 none (encodeUtf8 s) = s.map some := by
    induction s with
    | nil => rfl
    | cons c s ih => rw [encodeUtf8_cons, scanUtf8_encodeChar, ih, List.map_cons]
  have hall : ∀ t : Text, (t.map some).mapM id = some t := by
    intro t
    induction t with
    | nil => rfl
    | cons c t ih =>
      rw [List.map_cons, List.mapM_cons, ih]
      rfl
  rw [decodeUtf8, hscan, hall]

end Bytes

end Pine
