import Pine.Core.Digits
import Pine.Core.Json.RoundTrip

/-!
# Binary64 numbers and their decimal texts

A finite magnitude is its count of units of `2 ^ -1074`; at most 53 of its bits
are significant and it stays below `2 ^ 1024`. Reading a decimal literal rounds
to nearest, ties to even. Writing picks the shortest decimal of at most 17 digits
that reads back as the same number, and the exact expansion otherwise, so reading
inverts writing by construction.
-/

namespace Pine

/-- The exponent of the smallest positive magnitude, negated. -/
def unitExponent : Nat := 1074

/-- At most 53 significant bits, and below the overflow threshold. -/
def IsUnits (n : Nat) : Prop := n % 2 ^ (Nat.log2 n - 52) = 0 ∧ n < 2 ^ (1024 + unitExponent)

instance (n : Nat) : Decidable (IsUnits n) := inferInstanceAs (Decidable (_ ∧ _))

/-- An IEEE 754 double, with a single NaN. -/
inductive Binary64 where
  | nan
  | inf (negative : Bool)
  | fin (negative : Bool) (units : {n : Nat // IsUnits n})
  deriving DecidableEq

namespace Binary64

/-! ## Reading -/

/-- The quotient rounded to nearest, ties to even. -/
def roundHalfEven (a b : Nat) : Nat :=
  if 2 * (a % b) < b ∨ 2 * (a % b) = b ∧ a / b % 2 = 0 then a / b else a / b + 1

/-- The double nearest to `a / b`. -/
def ofRatio (negative : Bool) (a b : Nat) : Binary64 :=
  let scaled := a * 2 ^ unitExponent
  let shift := Nat.log2 (scaled / b) - 52
  let n := roundHalfEven scaled (b * 2 ^ shift) * 2 ^ shift
  if h : IsUnits n then .fin negative ⟨n, h⟩ else .inf negative

/-- The double nearest to `digits * 10 ^ exponent`. -/
def ofDecimal (negative : Bool) (digits : Nat) (exponent : Int) : Binary64 :=
  ofRatio negative (digits * 10 ^ exponent.toNat) (10 ^ (-exponent).toNat)

/-- The exponent that a scanned `[eE][-+]?[0-9]+` stands for. -/
def exponentValue : List Char → Int
  | [] => 0
  | _ :: '-' :: ds => -(Nat.ofDigitChars 10 ds 0 : Int)
  | _ :: '+' :: ds => (Nat.ofDigitChars 10 ds 0 : Int)
  | _ :: ds => (Nat.ofDigitChars 10 ds 0 : Int)

/-- The value of a scanned literal. -/
def ofLiteral (s : List Char) : Binary64 :=
  match Json.scanInt s with
  | none => .nan
  | some (whole, r) =>
    let frac := (Json.scanFrac r).1.tail
    let exp := (Json.scanExp (Json.scanFrac r).2).1
    let negative := whole.head? == some '-'
    let digits := if negative then whole.tail else whole
    ofDecimal negative (Nat.ofDigitChars 10 (digits ++ frac) 0)
      (exponentValue exp - frac.length)

/-- `float(text)` of a scanned literal or of a non-finite constant. -/
def ofText (s : List Char) : Binary64 :=
  if s = ['N', 'a', 'N'] then .nan
  else if s = ['I', 'n', 'f', 'i', 'n', 'i', 't', 'y'] then .inf false
  else if s = ['-', 'I', 'n', 'f', 'i', 'n', 'i', 't', 'y'] then .inf true
  else ofLiteral s

/-! ## Writing -/

/-- Digits with the decimal point after the first `point` of them, in the notation of `repr`. -/
def layout (digits : List Char) (point : Int) : List Char :=
  if -4 < point ∧ point ≤ 16 then
    if point ≤ 0 then '0' :: '.' :: (List.replicate (-point).toNat '0' ++ digits)
    else if (digits.length : Int) ≤ point then
      digits ++ List.replicate (point.toNat - digits.length) '0' ++ ['.', '0']
    else digits.take point.toNat ++ '.' :: digits.drop point.toNat
  else
    let exponent := point - 1
    let mantissa := match digits with
      | d :: e :: ds => d :: '.' :: e :: ds
      | ds => ds
    let count := Nat.toDigits 10 exponent.natAbs
    let padded := if count.length < 2 then '0' :: count else count
    mantissa ++ 'e' :: (if exponent < 0 then '-' else '+') :: padded

/-- Drop trailing zeros, but not a lone zero. -/
def dropTrailingZeros (digits : List Char) : List Char :=
  match (digits.reverse.dropWhile (· == '0')).reverse with
  | [] => ['0']
  | ds => ds

/-- The two decimals of `count` digits around a magnitude, the nearer one first. -/
def around (units count : Nat) : List (List Char) :=
  let exact := Nat.toDigits 10 (units * 5 ^ unitExponent)
  let point : Int := if units = 0 then 1 else exact.length - unitExponent
  let low := Nat.ofDigitChars 10 (exact.take count) 0
  let shown := fun n =>
    let ds := Nat.toDigits 10 n
    layout (dropTrailingZeros ds) (point + (ds.length - min count exact.length))
  let rest := exact.drop count
  if Nat.ofDigitChars 10 rest 0 * 2 < 10 ^ rest.length then [shown low, shown (low + 1)]
  else [shown (low + 1), shown low]

/-- The exact decimal expansion of a magnitude. -/
def exactText (units : Nat) : List Char :=
  Nat.toDigits 10 (units / 2 ^ unitExponent) ++
    '.' :: padDigits unitExponent (units * 5 ^ unitExponent % 10 ^ unitExponent)

def withSign (negative : Bool) (s : List Char) : List Char := if negative then '-' :: s else s

/-- A literal with a fraction or an exponent, scanned to its end. -/
def isFloatText (s : List Char) : Bool :=
  match Json.scanNumber s with
  | some (_, _ :: _, []) => true
  | _ => false

/-- `float.__repr__` of a finite number; the non-finite names never enter a document. -/
def text : Binary64 → List Char
  | .nan => ['n', 'a', 'n']
  | .inf negative => withSign negative ['i', 'n', 'f']
  | .fin negative units =>
    let candidates := (List.range' 1 17).flatMap fun count =>
      (around units count).map (withSign negative)
    let good := fun s => isFloatText s && ofText s == .fin negative units
    (candidates.find? good).getD (withSign negative (exactText units))

def finite : Binary64 → Bool
  | .fin _ _ => true
  | _ => false

/-! ## Reading inverts writing -/

/-- A ratio that is a whole number of units is not rounded. -/
theorem ofRatio_exact (negative : Bool) {a b n : Nat} (hb : 0 < b) (hn : IsUnits n)
    (h : a * 2 ^ unitExponent = n * b) : ofRatio negative a b = .fin negative ⟨n, hn⟩ := by
  obtain ⟨q, hq⟩ := Nat.dvd_of_mod_eq_zero hn.1
  have hquot : n * b / b = n := Nat.mul_div_cancel n hb
  have hpos : 0 < b * 2 ^ (Nat.log2 n - 52) := Nat.mul_pos hb (Nat.two_pow_pos _)
  have hscaled : n * b = q * (b * 2 ^ (Nat.log2 n - 52)) := by
    conv_lhs => rw [hq]
    ring
  have hround : roundHalfEven (n * b) (b * 2 ^ (Nat.log2 n - 52)) = q := by
    rw [hscaled, roundHalfEven, Nat.mul_mod_left, Nat.mul_div_cancel q hpos]
    simp [hpos]
  have hback : q * 2 ^ (Nat.log2 n - 52) = n := by
    rw [Nat.mul_comm]
    exact hq.symm
  simp only [ofRatio, h, hquot, hround, hback, hn, dif_pos]

theorem point_not_digit (s : List Char) : ∀ c ∈ ('.' :: s).head?, c.isDigit = false := by
  intro c hc
  simp only [List.head?_cons, Option.mem_def, Option.some.injEq] at hc
  subst hc
  decide

/-- Digits after a sign are no non-finite name. -/
theorem ofText_digits (negative : Bool) (whole : Nat) (r : List Char) :
    ofText (withSign negative (Nat.toDigits 10 whole ++ r)) =
      ofLiteral (withSign negative (Nat.toDigits 10 whole ++ r)) := by
  obtain ⟨c, ds, hcons, _⟩ := Json.natDigits_cons whole
  have hdigit : c.isDigit = true := Json.natDigits_isDigit whole c (by simp [hcons])
  have hletter : ∀ d : Char, d.isDigit = false → c ≠ d := by
    rintro d hd rfl
    rw [hdigit] at hd
    cases hd
  cases negative <;>
    simp [ofText, withSign, hcons, hletter 'N' (by decide), hletter 'I' (by decide),
      hletter '-' (by decide)]

/-- The scanner splits a signed decimal expansion at its point. -/
theorem scan_expansion (negative : Bool) (whole : Nat) {frac : List Char} (hne : frac ≠ [])
    (hd : ∀ c ∈ frac, c.isDigit = true) :
    Json.scanInt (withSign negative (Nat.toDigits 10 whole ++ '.' :: frac)) =
        some (withSign negative (Nat.toDigits 10 whole), '.' :: frac) ∧
      Json.scanFrac ('.' :: frac) = ('.' :: frac, []) := by
  have hscan := Json.scanNat_natDigits whole (point_not_digit frac)
  have htake : Json.takeDigits frac = (frac, []) := by
    simpa using Json.takeDigits_append hd (r := []) (by simp)
  constructor
  · cases negative with
    | true => simp [withSign, Json.scanInt, hscan]
    | false =>
      obtain ⟨c, ds, h, hc⟩ := Json.natDigits_cons whole
      rw [h] at hscan
      simpa [withSign, h, Json.scanInt, hc] using hscan
  · simp [Json.scanFrac, htake, hne]

/-- A signed decimal expansion reads as its digits over a power of ten. -/
theorem ofLiteral_expansion (negative : Bool) (whole : Nat) {frac : List Char} (hne : frac ≠ [])
    (hd : ∀ c ∈ frac, c.isDigit = true) :
    ofLiteral (withSign negative (Nat.toDigits 10 whole ++ '.' :: frac)) =
      ofRatio negative (Nat.ofDigitChars 10 frac whole) (10 ^ frac.length) := by
  obtain ⟨hint, hfrac⟩ := scan_expansion negative whole hne hd
  have hvalue : Nat.ofDigitChars 10 (Nat.toDigits 10 whole ++ frac) 0 =
      Nat.ofDigitChars 10 frac whole := by
    rw [Nat.ofDigitChars_append, Nat.ofDigitChars_ten_toDigits]
  have hsign : ((Nat.toDigits 10 whole).head? == some '-') = false := by
    obtain ⟨c, ds, hcons, hc⟩ := Json.natDigits_cons whole
    simpa [hcons] using hc
  have hexp : Json.scanExp [] = ([], []) := rfl
  rw [ofLiteral, hint]
  cases negative <;>
    simp [withSign, hfrac, hvalue, ofDecimal, hexp, exponentValue, hsign]

/-- The exact expansion of a magnitude reads back as it. -/
theorem ofText_exactText (negative : Bool) (units : {n : Nat // IsUnits n}) :
    ofText (withSign negative (exactText units)) = .fin negative units := by
  obtain ⟨n, hn⟩ := units
  have hdigits := padDigits_isDigit unitExponent (n * 5 ^ unitExponent % 10 ^ unitExponent)
  have hne : padDigits unitExponent (n * 5 ^ unitExponent % 10 ^ unitExponent) ≠ [] := by
    rw [← List.length_pos_iff, length_padDigits]
    decide
  have hten : 10 ^ unitExponent = 2 ^ unitExponent * 5 ^ unitExponent := by
    rw [← Nat.mul_pow]
  have hvalue : n / 2 ^ unitExponent * 10 ^ unitExponent + n * 5 ^ unitExponent % 10 ^ unitExponent =
      n * 5 ^ unitExponent := by
    rw [hten, Nat.mul_mod_mul_right, ← Nat.mul_assoc, ← Nat.add_mul, Nat.div_add_mod']
  rw [exactText, ofText_digits, ofLiteral_expansion negative _ hne hdigits,
    ofDigitChars_padDigits, length_padDigits, Nat.mod_mod, hvalue]
  refine ofRatio_exact negative (Nat.pow_pos (by decide)) hn ?_
  rw [hten]
  ring

theorem isFloatLiteral_of_isFloatText {s : List Char} (h : isFloatText s = true) :
    Json.IsFloatLiteral s := by
  unfold isFloatText at h
  split at h
  · exact Json.isFloatLiteral_of_scan ‹_›
  · cases h

theorem isFloatLiteral_exactText (negative : Bool) (units : Nat) :
    Json.IsFloatLiteral (withSign negative (exactText units)) := by
  have hdigits := padDigits_isDigit unitExponent (units * 5 ^ unitExponent % 10 ^ unitExponent)
  have hne : padDigits unitExponent (units * 5 ^ unitExponent % 10 ^ unitExponent) ≠ [] := by
    rw [← List.length_pos_iff, length_padDigits]
    decide
  obtain ⟨hint, hfrac⟩ := scan_expansion negative (units / 2 ^ unitExponent) hne hdigits
  apply Json.isFloatLiteral_of_scan
  simp only [Json.scanNumber, exactText, hint, Option.bind_eq_bind, Option.bind_some, hfrac,
    Json.stops_nil.scanExp, Option.pure_def, List.append_nil]
  rfl

/-- The text of a finite number is a float literal that reads back as the number. -/
theorem text_spec (negative : Bool) (units : {n : Nat // IsUnits n}) :
    Json.IsFloatLiteral (text (.fin negative units)) ∧
      ofText (text (.fin negative units)) = .fin negative units := by
  simp only [text]
  cases hfind : List.find? _ _ with
  | none => exact ⟨isFloatLiteral_exactText negative units, ofText_exactText negative units⟩
  | some s =>
    have hgood := List.find?_some hfind
    simp only [Bool.and_eq_true, beq_iff_eq] at hgood
    exact ⟨isFloatLiteral_of_isFloatText hgood.1, hgood.2⟩

instance : Json.FloatText Binary64 where
  finite := finite
  text := text
  ofText := ofText
  text_literal := by
    rintro (_ | _ | ⟨negative, units⟩) h
    · cases h
    · cases h
    · exact (text_spec negative units).1
  ofText_text := by
    rintro (_ | _ | ⟨negative, units⟩) h
    · cases h
    · cases h
    · exact (text_spec negative units).2

end Binary64

end Pine
