import Pine.Core.Json.Parse
import Mathlib.Tactic.Linarith

/-!
# Parsing inverts printing

Every proper value printed in a blank-only layout parses back to itself. Compact
texts therefore determine their values.
-/

namespace Pine.Json

/-! ## Blanks -/

theorem isBlank_continues {c : Char} (h : isBlank c = true) : continuesNumber c = false := by
  simp only [isBlank, Bool.or_eq_true, beq_iff_eq] at h
  rcases h with ((rfl | rfl) | rfl) | rfl <;> decide

/-- Leading blanks in front of other text are skipped. -/
theorem skipBlank_append {ws s : List Char} (h : Blank ws) : skipBlank (ws ++ s) = skipBlank s :=
  List.dropWhile_append_of_pos h

theorem skipBlank_cons {c : Char} {s : List Char} (h : isBlank c = false) :
    skipBlank (c :: s) = c :: s := by
  simp [skipBlank, h]

theorem skipBlank_blank {ws : List Char} (h : Blank ws) : skipBlank ws = [] := by
  have happend := skipBlank_append (s := []) h
  rwa [List.append_nil] at happend

theorem stops_blank_append {ws s : List Char} (h : Blank ws) (hs : Stops s) : Stops (ws ++ s) := by
  cases ws with
  | nil => exact hs
  | cons c ws => exact stops_cons (isBlank_continues (h c (by simp)))

/-! ## Strings -/

theorem hexValue_hexDigit : ∀ n < 16, hexValue (hexDigit n) = some n := by decide

theorem hexFour_control {c : Char} (h : c.toNat < 0x20) :
    hexFour '0' '0' (hexDigit (c.toNat / 16)) (hexDigit (c.toNat % 16)) = some c.toNat := by
  have hzero : hexValue '0' = some 0 := by decide
  have hhigh := hexValue_hexDigit (c.toNat / 16) (by omega)
  have hlow := hexValue_hexDigit (c.toNat % 16) (by omega)
  simp only [hexFour, hzero, hhigh, hlow, Option.bind_eq_bind, Option.bind_some, Option.pure_def]
  congr 1
  omega

/-- The escape of a character reads back as that character. -/
theorem parseString_escapeChar (c : Char) (r : List Char) :
    parseString (escapeChar c ++ r) = (parseString r).map fun p => (c :: p.1, p.2) := by
  by_cases h : c = '"' ∨ c = '\\' ∨ c = '\n' ∨ c = '\r' ∨ c = '\t' ∨ c = '\x0c' ∨ c = '\x08'
  · rcases h with rfl | rfl | rfl | rfl | rfl | rfl | rfl <;> rfl
  · simp only [not_or] at h
    obtain ⟨hquote, hslash, hn, hr, ht, hf, hb⟩ := h
    simp only [escapeChar, hquote, hslash, hn, hr, ht, hf, hb, ite_false]
    by_cases hc : c.toNat < 0x20
    · have hhigh : ¬ (0xD800 ≤ c.toNat ∧ c.toNat < 0xDC00) := by omega
      have hlow : ¬ (0xDC00 ≤ c.toNat ∧ c.toNat < 0xE000) := by omega
      simp only [hc, ite_true, escapeControl, List.cons_append, List.nil_append, parseString,
        hexFour_control hc, hhigh, hlow, ite_false, Char.ofNat_toNat]
    · simp only [hc, ite_false, List.cons_append, List.nil_append]
      rw [parseString.eq_def]
      split <;> simp_all

theorem parseString_escape (s r : List Char) :
    parseString (escape s ++ '"' :: r) = some (s, r) := by
  induction s with
  | nil => rfl
  | cons c s ih =>
    rw [escape, List.flatMap_cons, List.append_assoc, parseString_escapeChar]
    change (parseString (escape s ++ '"' :: r)).map _ = _
    rw [ih]
    rfl

/-! ## Numbers -/

theorem natDigits_isDigit (n : Nat) : ∀ c ∈ Nat.toDigits 10 n, c.isDigit = true :=
  fun _ hc => Nat.isDigit_of_mem_toDigits (by decide) (by decide) hc

theorem digitChar_ne_zero : ∀ k < 10, k ≠ 0 → k.digitChar ≠ '0' := by decide

/-- Only zero is written with a leading zero. -/
theorem natDigits_head (n : Nat) :
    n = 0 ∧ Nat.toDigits 10 n = ['0'] ∨ ∃ c ds, Nat.toDigits 10 n = c :: ds ∧ c ≠ '0' := by
  induction n using Nat.strongRecOn with
  | ind n ih =>
    by_cases hn : n < 10
    · rw [Nat.toDigits_of_lt_base hn]
      by_cases hz : n = 0
      · subst hz
        exact Or.inl ⟨rfl, rfl⟩
      · exact Or.inr ⟨_, [], rfl, digitChar_ne_zero n hn hz⟩
    · rw [Nat.toDigits_of_base_le (by decide) (by omega)]
      rcases ih (n / 10) (by omega) with ⟨hzero, _⟩ | ⟨c, ds, hds, hc⟩
      · omega
      · exact Or.inr ⟨c, ds ++ [(n % 10).digitChar], by rw [hds]; rfl, hc⟩

/-- Scanning the digits of a number in front of a stopping text reads exactly them. -/
theorem scanNat_natDigits (n : Nat) {r : List Char} (hr : ∀ c ∈ r.head?, c.isDigit = false) :
    scanNat (Nat.toDigits 10 n ++ r) = some (Nat.toDigits 10 n, r) := by
  have hdigits := natDigits_isDigit n
  rcases natDigits_head n with ⟨_, h⟩ | ⟨c, ds, h, hc⟩
  · rw [h]
    rfl
  · rw [h] at hdigits ⊢
    have hcd := hdigits c (by simp)
    have htake := takeDigits_append (fun d hd => hdigits d (List.mem_cons_of_mem _ hd)) hr
    simp only [List.cons_append, scanNat, hc, hcd, htake, ite_true, ite_false]

theorem not_digit_minus {c : Char} (h : c.isDigit = true) : c ≠ '-' := by
  rintro rfl
  exact absurd h (by decide)

/-- Digits do not begin with a sign. -/
theorem natDigits_cons (n : Nat) : ∃ c ds, Nat.toDigits 10 n = c :: ds ∧ c ≠ '-' := by
  cases h : Nat.toDigits 10 n with
  | nil => exact absurd h Nat.toDigits_ne_nil
  | cons c ds => exact ⟨c, ds, rfl, not_digit_minus (natDigits_isDigit n c (by simp [h]))⟩

theorem scanInt_printInt (z : Int) {r : List Char} (hr : Stops r) :
    scanInt (printInt z ++ r) = some (printInt z, r) := by
  have hscan := scanNat_natDigits z.natAbs hr.digit
  unfold printInt
  split
  · simp only [List.cons_append, scanInt, ite_true, hscan, Option.map_some]
  · obtain ⟨c, ds, h, hc⟩ := natDigits_cons z.natAbs
    rw [h] at hscan ⊢
    simpa only [List.cons_append, scanInt, hc, ite_false] using hscan

/-- A printed integer is scanned as an integer literal. -/
theorem scanNumber_printInt (z : Int) {r : List Char} (hr : Stops r) :
    scanNumber (printInt z ++ r) = some (printInt z, [], r) := by
  simp [scanNumber, scanInt_printInt z hr, hr.scanFrac, hr.scanExp]

theorem intOfText_printInt (z : Int) : intOfText (printInt z) = z := by
  have hval := Nat.ofDigitChars_ten_toDigits (n := z.natAbs)
  unfold printInt
  split
  · simp only [intOfText, ite_true, hval]
    omega
  · obtain ⟨c, ds, h, hc⟩ := natDigits_cons z.natAbs
    rw [h] at hval ⊢
    simp only [intOfText, hc, ite_false, hval]
    omega

/-- Every number literal begins with a digit, or with a minus sign before one. -/
theorem scanNumber_head {s whole mark r : List Char} (h : scanNumber s = some (whole, mark, r)) :
    ∃ c t, s = c :: t ∧ (c = '-' ∧ (∃ d u, t = d :: u ∧ d.isDigit = true) ∨ c.isDigit = true) := by
  have hint : ∃ p, scanInt s = some p := by
    cases hs : scanInt s with
    | none => simp [scanNumber, hs] at h
    | some p => exact ⟨p, rfl⟩
  have hnat : ∀ {t : List Char} {p}, scanNat t = some p → ∃ d u, t = d :: u ∧ d.isDigit = true := by
    intro t p hp
    cases t with
    | nil => simp [scanNat] at hp
    | cons d u =>
      refine ⟨d, u, rfl, ?_⟩
      by_contra hd
      have hzero : d ≠ '0' := by
        rintro rfl
        exact hd (by decide)
      simp [scanNat, hd, hzero] at hp
  obtain ⟨p, hp⟩ := hint
  cases s with
  | nil => simp [scanInt] at hp
  | cons c t =>
    refine ⟨c, t, rfl, ?_⟩
    by_cases hc : c = '-'
    · simp only [scanInt, hc, ite_true, Option.map_eq_some_iff] at hp
      obtain ⟨q, hq, _⟩ := hp
      exact Or.inl ⟨hc, hnat hq⟩
    · simp only [scanInt, hc, ite_false] at hp
      obtain ⟨d, u, hdu, hd⟩ := hnat hp
      rw [List.cons.injEq] at hdu
      exact Or.inr (hdu.1 ▸ hd)

/-! ## Values -/

theorem setField_new {V : Type} {k : List Char} {v : V} {fs : List (List Char × V)}
    (h : k ∉ fs.map Prod.fst) : setField k v fs = fs ++ [(k, v)] := by
  induction fs with
  | nil => rfl
  | cons f fs ih =>
    simp only [List.map_cons, List.mem_cons, not_or] at h
    simp [setField, Ne.symm h.1, ih h.2]

theorem buildFields_onto {V : Type} (done fs : List (List Char × V))
    (h : ((done ++ fs).map Prod.fst).Nodup) :
    fs.foldl (fun acc f => setField f.1 f.2 acc) done = done ++ fs := by
  induction fs generalizing done with
  | nil => simp
  | cons f fs ih =>
    have hnew : f.1 ∉ done.map Prod.fst := by
      simp only [List.map_append, List.map_cons, List.nodup_append] at h
      intro hf
      exact h.2.2 f.1 hf f.1 (by simp) rfl
    rw [List.foldl_cons, setField_new hnew, ih _ (by simpa using h)]
    simp

/-- Fields with distinct keys are kept as they are read. -/
theorem buildFields_nodup {V : Type} {fs : List (List Char × V)}
    (h : (fs.map Prod.fst).Nodup) : buildFields fs = fs :=
  buildFields_onto [] fs h

variable {F : Type}

mutual

/-- The fuel that reading a printed value takes. -/
def size : Value F → Nat
  | .arr items => 1 + sizeItems items
  | .obj fields => 1 + sizeFields fields
  | _ => 1

def sizeItems : List (Value F) → Nat
  | [] => 0
  | x :: xs => 1 + size x + sizeItems xs

def sizeFields : List (List Char × Value F) → Nat
  | [] => 0
  | (_, x) :: fs => 1 + size x + sizeFields fs

end

mutual

/-- The value that a printed value is read as: of fields with one key, the last stays. -/
def built : Value F → Value F
  | .arr items => .arr (builtItems items)
  | .obj fields => .obj (buildFields (builtFields fields))
  | v => v

def builtItems : List (Value F) → List (Value F)
  | [] => []
  | x :: xs => built x :: builtItems xs

def builtFields : List (List Char × Value F) → List (List Char × Value F)
  | [] => []
  | (k, x) :: fs => (k, built x) :: builtFields fs

end

theorem map_fst_builtFields (fs : List (List Char × Value F)) :
    (builtFields fs).map Prod.fst = fs.map Prod.fst := by
  induction fs with
  | nil => rfl
  | cons f fs ih => rw [builtFields, List.map_cons, List.map_cons, ih]

variable [FloatText F]

mutual

/-- A value whose keys are distinct is read as it is. -/
theorem Value.Proper.built : ∀ {v : Value F}, v.Proper → Json.built v = v
  | .null, _ => rfl
  | .bool _, _ => rfl
  | .int _, _ => rfl
  | .float _, _ => rfl
  | .str _, _ => rfl
  | .arr items, h => congrArg Value.arr (ItemsProper.built items h)
  | .obj fields, h => by
    have hkeys : ((builtFields fields).map Prod.fst).Nodup := by
      rw [map_fst_builtFields]
      exact h.1
    rw [Json.built, buildFields_nodup hkeys, FieldsProper.built fields h.2]

theorem ItemsProper.built : ∀ xs : List (Value F), ItemsProper xs → builtItems xs = xs
  | [], _ => rfl
  | x :: xs, h => by rw [builtItems, h.1.built, ItemsProper.built xs h.2]

theorem FieldsProper.built : ∀ fs : List (List Char × Value F), FieldsProper fs → builtFields fs = fs
  | [], _ => rfl
  | (k, x) :: fs, h => by rw [builtFields, h.1.built, FieldsProper.built fs h.2]

end

/-- A text that opens a number is read as one. -/
theorem parseValue_of_scan {n : Nat} {s whole mark r : List Char}
    (h : scanNumber s = some (whole, mark, r)) :
    (parseValue (n + 1) s : Option (Value F × List Char)) = parseNumber s := by
  obtain ⟨c, t, rfl, hc⟩ := scanNumber_head h
  have hopen : ∀ d u, c :: t = d :: u → d = '-' ∧ (∃ e v, u = e :: v ∧ e.isDigit = true) ∨
      d.isDigit = true := by
    rintro d u ⟨⟩
    exact hc
  simp only [parseValue]
  split
  all_goals first
    | rfl
    | rename_i heq
      rcases hopen _ _ heq with ⟨hd, e, v, hu, he⟩ | hd
      · first
        | exact absurd hd (by decide)
        | injection hu with hu
          subst hu
          exact absurd he (by decide)
      · exact absurd hd (by decide)

theorem scan_float {x : F} (h : FloatText.finite x = true) {r : List Char} (hr : Stops r) :
    ∃ whole c mark, FloatText.text x = whole ++ c :: mark ∧
      scanNumber (FloatText.text x ++ r) = some (whole, c :: mark, r) := by
  obtain ⟨whole, c, mark, htext, hscan⟩ := FloatText.text_literal x h
  exact ⟨whole, c, mark, htext, hscan r hr⟩

theorem parseNumber_printInt (z : Int) {r : List Char} (hr : Stops r) :
    (parseNumber (printInt z ++ r) : Option (Value F × List Char)) = some (.int z, r) := by
  simp only [parseNumber, scanNumber_printInt z hr, intOfText_printInt]

theorem parseNumber_float {x : F} (h : FloatText.finite x = true) {r : List Char} (hr : Stops r) :
    parseNumber (FloatText.text x ++ r) = some (.float x, r) := by
  obtain ⟨whole, c, mark, htext, hscan⟩ := scan_float h hr
  simp only [parseNumber, hscan]
  rw [← htext, FloatText.ofText_text x h]

/-- A character that may open a printed value. -/
def Opens (c : Char) : Prop := isBlank c = false ∧ c ≠ ']' ∧ c ≠ '}'

theorem opens_of_scan {s whole mark r : List Char} (h : scanNumber s = some (whole, mark, r)) :
    ∃ c t, s = c :: t ∧ Opens c := by
  obtain ⟨c, t, rfl, hc⟩ := scanNumber_head h
  refine ⟨c, t, rfl, ?_⟩
  rcases hc with ⟨rfl, _⟩ | hc
  · exact ⟨by decide, by decide, by decide⟩
  · refine ⟨?_, ?_, ?_⟩
    · by_contra hb
      have := isBlank_continues (eq_true_of_ne_false hb)
      simp [continuesNumber, hc] at this
    · rintro rfl
      exact absurd hc (by decide)
    · rintro rfl
      exact absurd hc (by decide)

/-- Printed values open with neither a blank nor a closing bracket. -/
theorem print_opens (st : Style) (d : Nat) (v : Value F) (hv : v.Finite) :
    ∃ c t, print st d v = c :: t ∧ Opens c := by
  cases v with
  | null => exact ⟨_, _, rfl, by decide, by decide, by decide⟩
  | bool b => cases b <;> exact ⟨_, _, rfl, by decide, by decide, by decide⟩
  | int z =>
    have h := scanNumber_printInt z stops_nil
    rw [List.append_nil] at h
    exact opens_of_scan h
  | float x =>
    obtain ⟨whole, c, mark, _, h⟩ := scan_float hv stops_nil
    rw [List.append_nil] at h
    exact opens_of_scan h
  | str s => exact ⟨_, _, rfl, by decide, by decide, by decide⟩
  | arr items => cases items <;> exact ⟨_, _, rfl, by decide, by decide, by decide⟩
  | obj fields =>
    rcases fields with _ | ⟨⟨k, x⟩, fs⟩ <;> exact ⟨_, _, rfl, by decide, by decide, by decide⟩

/-- Blanks before a printed value are skipped, and nothing else is. -/
theorem skipBlank_print (st : Style) (d : Nat) {v : Value F} (hv : v.Finite) {ws : List Char}
    (hws : Blank ws) (r : List Char) :
    skipBlank (ws ++ (print st d v ++ r)) = print st d v ++ r := by
  obtain ⟨c, t, h, hc, _⟩ := print_opens st d v hv
  rw [skipBlank_append hws, h]
  exact skipBlank_cons hc

theorem stops_printItems (st : Style) (d : Nat) (xs : List (Value F)) {ws : List Char}
    (hws : Blank ws) (r : List Char) :
    Stops (printItems st d xs ++ (ws ++ ']' :: r)) := by
  cases xs with
  | nil => exact stops_blank_append (s := _ :: r) hws (stops_cons (by decide))
  | cons x xs => exact stops_cons (by decide)

theorem stops_printFields (st : Style) (d : Nat) (fs : List (List Char × Value F)) {ws : List Char}
    (hws : Blank ws) (r : List Char) :
    Stops (printFields st d fs ++ (ws ++ '}' :: r)) := by
  cases fs with
  | nil => exact stops_blank_append (s := _ :: r) hws (stops_cons (by decide))
  | cons f fs => exact stops_cons (by decide)

mutual

/-- With fuel for its size, a printed value in front of a stopping text is read back. -/
theorem parseValue_print {st : Style} (hst : st.Valid) : ∀ (v : Value F) (d n : Nat)
    (r : List Char), v.Finite → size v ≤ n → Stops r →
    parseValue n (print st d v ++ r) = some (built v, r)
  | v, d, 0, r, _, hn, _ => by cases v <;> simp [size] at hn
  | .null, d, n + 1, r, _, _, _ => rfl
  | .bool true, d, n + 1, r, _, _, _ => rfl
  | .bool false, d, n + 1, r, _, _, _ => rfl
  | .int z, d, n + 1, r, _, _, hr => by
    rw [print, parseValue_of_scan (scanNumber_printInt z hr)]
    exact parseNumber_printInt z hr
  | .float x, d, n + 1, r, hv, _, hr => by
    obtain ⟨_, _, _, _, hscan⟩ := scan_float hv hr
    rw [print, parseValue_of_scan hscan]
    exact parseNumber_float hv hr
  | .str s, d, n + 1, r, _, _, _ => by
    simp only [print, printString, List.cons_append, List.append_assoc, List.nil_append, parseValue,
      parseString_escape, Option.map_some]
    rfl
  | .arr [], d, n + 1, r, _, _, _ => by
    simp only [print, List.cons_append, List.nil_append, parseValue]
    rw [skipBlank_cons (by decide), expect_self]
    rfl
  | .arr (x :: xs), d, n + 1, r, hv, hn, hr => by
    have hx : x.Finite := hv.1
    have hitems := parseItems_print hst (x :: xs) (d + 1) n (st.closing d) r hv
      (by simp only [size] at hn; omega) (hst.closing d) x xs rfl
    have hskip := skipBlank_print st (d + 1) hx (hst.opening (d + 1))
      (printItems st (d + 1) xs ++ (st.closing d ++ ']' :: r))
    obtain ⟨c, t, hopen, _, hbracket, _⟩ := print_opens st (d + 1) x hx
    have hnone : expect ']' (print st (d + 1) x ++ (printItems st (d + 1) xs ++
        (st.closing d ++ ']' :: r))) = none := by
      rw [hopen]
      exact expect_ne _ hbracket
    simp only [print, List.cons_append, List.append_assoc, List.nil_append, parseValue, hskip,
      hnone, hitems, Option.map_some, built]
  | .obj [], d, n + 1, r, _, _, _ => by
    simp only [print, List.cons_append, List.nil_append, parseValue]
    rw [skipBlank_cons (by decide), expect_self]
    rfl
  | .obj ((k, x) :: fs), d, n + 1, r, hv, hn, hr => by
    have hfields := parseFields_print hst ((k, x) :: fs) (d + 1) n (st.closing d) r hv
      (by simp only [size] at hn; omega) (hst.closing d) k x fs rfl
    have hskip : skipBlank (st.opening (d + 1) ++ (printString k ++ ':' :: (st.colon ++
        (print st (d + 1) x ++ (printFields st (d + 1) fs ++ (st.closing d ++ '}' :: r)))))) =
        printString k ++ ':' :: (st.colon ++ (print st (d + 1) x ++
          (printFields st (d + 1) fs ++ (st.closing d ++ '}' :: r)))) := by
      rw [skipBlank_append (hst.opening _)]
      exact skipBlank_cons (by decide)
    have hnone : ∀ t, expect '}' (printString k ++ t) = none := fun t => expect_ne _ (by decide)
    simp only [print, List.cons_append, List.append_assoc, List.nil_append, parseValue, hskip,
      hnone, hfields, Option.map_some, built]

/-- The items of a printed array, up to its closing bracket. -/
theorem parseItems_print {st : Style} (hst : st.Valid) : ∀ (items : List (Value F)) (d n : Nat)
    (ws r : List Char), ItemsFinite items → sizeItems items ≤ n → Blank ws →
    ∀ x xs, items = x :: xs →
    parseItems n (print st d x ++ (printItems st d xs ++ (ws ++ ']' :: r))) =
      some (builtItems (x :: xs), r)
  | [], _, _, _, _, _, _, _, _, _, h => nomatch h
  | x :: xs, d, 0, _, _, _, hn, _, _, _, _ => by simp only [sizeItems] at hn; omega
  | x :: xs, d, n + 1, ws, r, hp, hn, hws, _, _, rfl => by
    have hx := parseValue_print hst x d n (printItems st d xs ++ (ws ++ ']' :: r)) hp.1
      (by simp only [sizeItems] at hn; omega) (stops_printItems st d xs hws r)
    simp only [parseItems, hx]
    cases xs with
    | nil =>
      simp only [printItems, List.nil_append, skipBlank_append hws]
      rw [skipBlank_cons (by decide), expect_ne r (by decide), expect_self, Option.map_some]
      rfl
    | cons y ys =>
      have hrest := parseItems_print hst (y :: ys) d n ws r hp.2
        (by simp only [sizeItems] at hn ⊢; omega) hws y ys rfl
      have hskip := skipBlank_print st d hp.2.1 (hst.between d)
        (printItems st d ys ++ (ws ++ ']' :: r))
      simp only [printItems, List.cons_append, List.append_assoc]
      rw [skipBlank_cons (by decide), expect_self]
      simp only [hskip, hrest, Option.map_some, builtItems]

/-- The fields of a printed object, up to its closing brace. -/
theorem parseFields_print {st : Style} (hst : st.Valid) :
    ∀ (fields : List (List Char × Value F)) (d n : Nat) (ws r : List Char),
    FieldsFinite fields → sizeFields fields ≤ n → Blank ws →
    ∀ k x fs, fields = (k, x) :: fs →
    parseFields n (printString k ++ ':' :: (st.colon ++ (print st d x ++
      (printFields st d fs ++ (ws ++ '}' :: r))))) = some (builtFields ((k, x) :: fs), r)
  | [], _, _, _, _, _, _, _, _, _, _, h => nomatch h
  | (k, x) :: fs, d, 0, _, _, _, hn, _, _, _, _, _ => by simp only [sizeFields] at hn; omega
  | (k, x) :: fs, d, n + 1, ws, r, hp, hn, hws, _, _, _, rfl => by
    have hx := parseValue_print hst x d n (printFields st d fs ++ (ws ++ '}' :: r)) hp.1
      (by simp only [sizeFields] at hn; omega) (stops_printFields st d fs hws r)
    have hskip := skipBlank_print st d hp.1 hst.colon (printFields st d fs ++ (ws ++ '}' :: r))
    simp only [printString, List.cons_append, List.append_assoc, List.nil_append, parseFields,
      expect_self, Option.bind_some, parseString_escape]
    rw [skipBlank_cons (by decide), expect_self]
    simp only [Option.bind_some, hskip, hx]
    cases fs with
    | nil =>
      simp only [printFields, List.nil_append, skipBlank_append hws]
      rw [skipBlank_cons (by decide), expect_ne r (by decide), expect_self, Option.map_some]
      rfl
    | cons f fs =>
      obtain ⟨k', y⟩ := f
      have hrest := parseFields_print hst ((k', y) :: fs) d n ws r hp.2
        (by simp only [sizeFields] at hn ⊢; omega) hws k' y fs rfl
      have hblank : ∀ t, skipBlank (st.between d ++ (printString k' ++ t)) = printString k' ++ t := by
        intro t
        rw [skipBlank_append (hst.between d)]
        exact skipBlank_cons (by decide)
      simp only [printFields, List.cons_append, List.append_assoc]
      rw [skipBlank_cons (by decide), expect_self]
      simp only [hblank, hrest, Option.map_some, builtFields]

end

/-! ## Whole documents -/

theorem length_print_pos (st : Style) (d : Nat) {v : Value F} (hv : v.Finite) :
    1 ≤ (print st d v).length := by
  obtain ⟨c, t, h, _⟩ := print_opens st d v hv
  simp [h]

mutual

/-- The text of a value is at least as long as the fuel for it. -/
theorem size_le_length (st : Style) : ∀ (v : Value F) (d : Nat), v.Finite →
    size v ≤ (print st d v).length
  | .null, d, hv => length_print_pos st d hv
  | .bool _, d, hv => length_print_pos st d hv
  | .int _, d, hv => length_print_pos st d hv
  | .float _, d, hv => length_print_pos st d hv
  | .str _, d, hv => length_print_pos st d hv
  | .arr [], d, hv => length_print_pos st d hv
  | .arr (x :: xs), d, hv => by
    have hx := size_le_length st x (d + 1) hv.1
    have hxs := sizeItems_le_length st xs (d + 1) hv.2
    simp only [size, sizeItems, print, List.length_cons, List.length_append]
    omega
  | .obj [], d, hv => length_print_pos st d hv
  | .obj ((k, x) :: fs), d, hv => by
    have hx := size_le_length st x (d + 1) hv.1
    have hfs := sizeFields_le_length st fs (d + 1) hv.2
    simp only [size, sizeFields, print, List.length_cons, List.length_append]
    omega

theorem sizeItems_le_length (st : Style) : ∀ (xs : List (Value F)) (d : Nat), ItemsFinite xs →
    sizeItems xs ≤ (printItems st d xs).length
  | [], _, _ => Nat.zero_le _
  | x :: xs, d, hp => by
    have hx := size_le_length st x d hp.1
    have hxs := sizeItems_le_length st xs d hp.2
    simp only [sizeItems, printItems, List.length_cons, List.length_append]
    omega

theorem sizeFields_le_length (st : Style) : ∀ (fs : List (List Char × Value F)) (d : Nat),
    FieldsFinite fs → sizeFields fs ≤ (printFields st d fs).length
  | [], _, _ => Nat.zero_le _
  | (k, x) :: fs, d, hp => by
    have hx := size_le_length st x d hp.1
    have hfs := sizeFields_le_length st fs d hp.2
    simp only [sizeFields, printFields, List.length_cons, List.length_append]
    omega

end

/-- Loading a printed document, blanks after it included, gives the document back. -/
theorem loads_print {st : Style} (hst : st.Valid) {v : Value F} (hv : v.Proper) {ws : List Char}
    (hws : Blank ws) : loads (print st 0 v ++ ws) = some v := by
  have hskip : skipBlank (print st 0 v ++ ws) = print st 0 v ++ ws :=
    skipBlank_print st 0 hv.finite blank_nil ws
  have hstops : Stops ws := by simpa using stops_blank_append hws stops_nil
  have hfuel : size v ≤ (print st 0 v ++ ws).length + 1 := by
    have := size_le_length st v 0 hv.finite
    simp only [List.length_append]
    omega
  simp only [loads, hskip, parseValue_print hst v 0 _ ws hv.finite hfuel hstops, hv.built,
    skipBlank_blank hws, ite_true]

/-- A printed text determines its value. -/
theorem print_injective {st : Style} (hst : st.Valid) {v w : Value F} (hv : v.Proper)
    (hw : w.Proper) (h : print st 0 v = print st 0 w) : v = w := by
  have hpv := loads_print hst hv blank_nil
  rw [h, loads_print hst hw blank_nil] at hpv
  exact (Option.some.inj hpv).symm

/-- No printed value is the beginning of another, when neither goes on with a number. -/
theorem print_append_injective {st : Style} (hst : st.Valid) {v w : Value F} {d : Nat}
    (hv : v.Finite) (hw : w.Finite) {r t : List Char} (hr : Stops r) (ht : Stops t)
    (h : print st d v ++ r = print st d w ++ t) : print st d v = print st d w ∧ r = t := by
  have hleft := parseValue_print hst v d (size v + size w) r hv (Nat.le_add_right _ _) hr
  have hright := parseValue_print hst w d (size v + size w) t hw (Nat.le_add_left _ _) ht
  rw [h, hright, Option.some.injEq, Prod.mk.injEq] at hleft
  obtain ⟨-, rfl⟩ := hleft
  exact ⟨List.append_cancel_right h, rfl⟩

/-- Only a string is printed as one. -/
theorem eq_str_of_print {st : Style} (hst : st.Valid) {v : Value F} (hv : v.Finite) {d : Nat}
    {s : List Char} (h : print st d v = print st d (.str s : Value F)) : v = .str s := by
  have hread := parseValue_print hst v d (size v + 1) [] hv (Nat.le_succ _) stops_nil
  have hstr := parseValue_print hst (.str s : Value F) d (size v + 1) [] trivial
    (Nat.le_add_left _ _) stops_nil
  rw [h, hstr, Option.some.injEq, Prod.mk.injEq] at hread
  cases v <;> first | exact hread.1.symm | cases hread.1

/-- Values with one text are read as one value. -/
theorem built_eq_of_print {st : Style} (hst : st.Valid) {v w : Value F} (hv : v.Finite)
    (hw : w.Finite) {d : Nat} (h : print st d v = print st d w) : built v = built w := by
  have hleft := parseValue_print hst v d (size v + size w) [] hv (Nat.le_add_right _ _) stops_nil
  have hright := parseValue_print hst w d (size v + size w) [] hw (Nat.le_add_left _ _) stops_nil
  rw [h, hright, Option.some.injEq, Prod.mk.injEq] at hleft
  exact hleft.1.symm

theorem printString_append_injective {k l r t : List Char}
    (h : printString k ++ r = printString l ++ t) : k = l ∧ r = t := by
  have hread : ∀ s u : List Char, (expect '"' (printString s ++ u)).bind parseString = some (s, u) := by
    intro s u
    simp only [printString, List.cons_append, List.append_assoc, List.nil_append, expect_self,
      Option.bind_some, parseString_escape]
  have hleft := hread k r
  rw [h, hread l t, Option.some.injEq, Prod.mk.injEq] at hleft
  exact ⟨hleft.1.symm, hleft.2.symm⟩

/-- The further fields of an object have the texts that its text shows. -/
theorem printFields_injective {st : Style} (hst : st.Valid) (d : Nat) {ws : List Char}
    (hws : Blank ws) {fs gs : List (List Char × Value F)} (hf : FieldsFinite fs)
    (hg : FieldsFinite gs) (hkeys : fs.map Prod.fst = gs.map Prod.fst) {r t : List Char}
    (h : printFields st d fs ++ (ws ++ '}' :: r) = printFields st d gs ++ (ws ++ '}' :: t)) :
    List.Forall₂ (fun f g => print st d f.2 = print st d g.2) fs gs := by
  induction fs generalizing gs with
  | nil =>
    obtain rfl := List.map_eq_nil_iff.mp hkeys.symm
    exact .nil
  | cons f fs ih =>
    obtain ⟨k, x⟩ := f
    rcases gs with _ | ⟨⟨l, y⟩, gs⟩
    · cases hkeys
    · obtain ⟨-, hrest⟩ := List.cons.inj hkeys
      simp only [printFields, List.cons_append, List.append_assoc, List.cons.injEq, true_and] at h
      have hfield := (printString_append_injective (List.append_cancel_left h)).2
      have hvalue := List.append_cancel_left (List.cons.inj hfield).2
      obtain ⟨hprint, htail⟩ := print_append_injective hst hf.1 hg.1
        (stops_printFields st d fs hws r) (stops_printFields st d gs hws t) hvalue
      exact .cons hprint (ih hf.2 hg.2 hrest htail)

/-- Objects with the same keys and one text have fields with the same texts. -/
theorem print_obj_injective {st : Style} (hst : st.Valid) {d : Nat}
    {fs gs : List (List Char × Value F)} (hf : FieldsFinite fs) (hg : FieldsFinite gs)
    (hkeys : fs.map Prod.fst = gs.map Prod.fst)
    (h : print st d (.obj fs) = print st d (.obj gs)) :
    List.Forall₂ (fun f g => print st (d + 1) f.2 = print st (d + 1) g.2) fs gs := by
  rcases fs with _ | ⟨⟨k, x⟩, fs⟩
  · obtain rfl := List.map_eq_nil_iff.mp hkeys.symm
    exact .nil
  · rcases gs with _ | ⟨⟨l, y⟩, gs⟩
    · cases hkeys
    · obtain ⟨-, hrest⟩ := List.cons.inj hkeys
      simp only [print, List.cons.injEq, true_and] at h
      have hfield := (printString_append_injective (List.append_cancel_left h)).2
      have hvalue := List.append_cancel_left (List.cons.inj hfield).2
      obtain ⟨hprint, htail⟩ := print_append_injective hst hf.1 hg.1
        (stops_printFields st (d + 1) fs (hst.closing d) [])
        (stops_printFields st (d + 1) gs (hst.closing d) []) hvalue
      exact .cons hprint (printFields_injective hst (d + 1) (hst.closing d) hf.2 hg.2 hrest htail)

/-! ## Compact text -/

mutual

/-- Compact text is the same at every depth. -/
theorem print_compact : ∀ (v : Value F) (d : Nat), print compactStyle d v = print compactStyle 0 v
  | .null, _ | .bool true, _ | .bool false, _ | .int _, _ | .float _, _ | .str _, _ | .arr [], _
  | .obj [], _ => rfl
  | .arr (x :: xs), d => by
    simp only [print, compactStyle]
    rw [← compactStyle, print_compact x (d + 1), print_compact x (0 + 1),
      printItems_compact xs (d + 1), printItems_compact xs (0 + 1)]
  | .obj ((k, x) :: fs), d => by
    simp only [print, compactStyle]
    rw [← compactStyle, print_compact x (d + 1), print_compact x (0 + 1),
      printFields_compact fs (d + 1), printFields_compact fs (0 + 1)]

theorem printItems_compact : ∀ (xs : List (Value F)) (d : Nat),
    printItems compactStyle d xs = printItems compactStyle 0 xs
  | [], _ => rfl
  | x :: xs, d => by
    rw [printItems, printItems, print_compact x d, printItems_compact xs d]
    rfl

theorem printFields_compact : ∀ (fs : List (List Char × Value F)) (d : Nat),
    printFields compactStyle d fs = printFields compactStyle 0 fs
  | [], _ => rfl
  | (k, x) :: fs, d => by
    rw [printFields, printFields, print_compact x d, printFields_compact fs d]
    rfl

end

end Pine.Json
