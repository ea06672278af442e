import Mathlib.Algebra.GroupWithZero.Nat
import Mathlib.Data.List.Basic
import Mathlib.Tactic.Common

/-!
# Text

Texts are their lists of code points. The operations are those of the source
language that the ledger uses: stripping Unicode blanks, replacing line ends, and
splitting a bounded number of times on a delimiter.
-/

namespace Pine

/-- A string as its code points. -/
abbrev Text := List Char

/-- The text of a string literal. -/
def text (s : String) : Text := s.toList

/-- `str.isspace` of one character. -/
def isSpace (c : Char) : Bool :=
  let n := c.toNat
  (9 ≤ n && n ≤ 13) || (28 ≤ n && n ≤ 32) || n == 0x85 || n == 0xA0 || n == 0x1680 ||
    (0x2000 ≤ n && n ≤ 0x200A) || n == 0x2028 || n == 0x2029 || n == 0x202F || n == 0x205F ||
    n == 0x3000

/-- `str.lstrip()` -/
def lstrip (s : Text) : Text := s.dropWhile isSpace

/-- `str.rstrip()` -/
def rstrip (s : Text) : Text := (lstrip s.reverse).reverse

/-- `str.strip()` -/
def strip (s : Text) : Text := lstrip (rstrip s)

/-- `len(s.encode("utf-8"))` -/
def utf8Length (s : Text) : Nat := (s.map Char.utf8Size).sum

/-- The rest of a text after a prefix of it. -/
def stripPrefix : Text → Text → Option Text
  | [], s => some s
  | _ :: _, [] => none
  | p :: ps, c :: s => if p = c then stripPrefix ps s else none

/-- The text before the first occurrence of a delimiter, and the text after it. -/
def splitOnce (delimiter : Text) : Text → Option (Text × Text)
  | [] => (stripPrefix delimiter []).map fun r => ([], r)
  | c :: s => match stripPrefix delimiter (c :: s) with
    | some r => some ([], r)
    | none => (splitOnce delimiter s).map fun (a, r) => (c :: a, r)

/-- `s.replace("\r\n", "\n")` -/
def replaceCrLf : Text → Text
  | '\r' :: '\n' :: s => '\n' :: replaceCrLf s
  | c :: s => c :: replaceCrLf s
  | [] => []

theorem stripPrefix_eq_some {p s r : Text} : stripPrefix p s = some r ↔ s = p ++ r := by
  induction p generalizing s with
  | nil => simp [stripPrefix, eq_comm]
  | cons c p ih =>
    cases s with
    | nil => simp [stripPrefix]
    | cons d s =>
      simp only [stripPrefix, List.cons_append, List.cons.injEq]
      split
      · rename_i h
        simp [ih, h]
      · rename_i h
        simp [Ne.symm h]

theorem stripPrefix_append (p s : Text) : stripPrefix p (p ++ s) = some s :=
  stripPrefix_eq_some.mpr rfl

/-- A split at one character is at its first occurrence. -/
theorem splitOnce_singleton {d : Char} {s a b : Text} :
    splitOnce [d] s = some (a, b) ↔ s = a ++ d :: b ∧ d ∉ a := by
  induction s generalizing a with
  | nil => simp [splitOnce, stripPrefix]
  | cons c s ih =>
    by_cases hc : d = c
    · subst hc
      have hfirst : stripPrefix [d] (d :: s) = some s := by simp [stripPrefix]
      rw [splitOnce, hfirst, Option.some.injEq, Prod.mk.injEq]
      constructor
      · rintro ⟨rfl, rfl⟩
        exact ⟨rfl, List.not_mem_nil⟩
      · rintro ⟨heq, hnot⟩
        rcases a with _ | ⟨x, a⟩
        · exact ⟨rfl, (List.cons.inj heq).2⟩
        · exact absurd ((List.cons.inj heq).1 ▸ List.mem_cons_self) hnot
    · have hnone : stripPrefix [d] (c :: s) = none := by simp [stripPrefix, hc]
      rw [splitOnce, hnone]
      simp only [Option.map_eq_some_iff, Prod.mk.injEq, Prod.exists]
      constructor
      · rintro ⟨x, y, hsplit, rfl, rfl⟩
        obtain ⟨rfl, hnot⟩ := ih.mp hsplit
        exact ⟨rfl, by simp [hc, hnot]⟩
      · rintro ⟨heq, hnot⟩
        rcases a with _ | ⟨x, a⟩
        · exact absurd (List.cons.inj heq).1.symm hc
        · obtain ⟨rfl, rfl⟩ := List.cons.inj heq
          exact ⟨a, b, ih.mpr ⟨rfl, fun hmem => hnot (List.mem_cons_of_mem _ hmem)⟩, rfl, rfl⟩

theorem stripPrefix_append_right {p s r : Text} (t : Text) (h : stripPrefix p s = some r) :
    stripPrefix p (s ++ t) = some (r ++ t) := by
  obtain rfl := stripPrefix_eq_some.mp h
  rw [List.append_assoc]
  exact stripPrefix_append p (r ++ t)

/-- A text that is long enough decides whether it starts with a prefix. -/
theorem stripPrefix_append_none {p s : Text} (t : Text) (hlength : p.length ≤ s.length)
    (h : stripPrefix p s = none) : stripPrefix p (s ++ t) = none := by
  refine Option.eq_none_iff_forall_ne_some.mpr fun r hr => ?_
  have heq := stripPrefix_eq_some.mp hr
  have hstart : p <+: s :=
    List.prefix_of_prefix_length_le (heq ▸ List.prefix_append p r) (List.prefix_append s t) hlength
  obtain ⟨u, rfl⟩ := hstart
  rw [stripPrefix_append] at h
  cases h

/-- A delimiter that closes a text for the first time does so whatever follows it. -/
theorem splitOnce_closed {d s : Text} (t : Text) (h : splitOnce d (s ++ d) = some (s, [])) :
    splitOnce d (s ++ (d ++ t)) = some (s, t) := by
  induction s with
  | nil =>
    cases d with
    | nil =>
      cases t with
      | nil => rfl
      | cons c t => rfl
    | cons c d =>
      have hfirst := stripPrefix_append (c :: d) t
      rw [List.cons_append] at hfirst
      rw [List.nil_append, List.cons_append, splitOnce, hfirst]
  | cons c s ih =>
    rw [List.cons_append, splitOnce] at h
    cases hstart : stripPrefix d (c :: (s ++ d)) with
    | some r =>
      rw [hstart] at h
      cases h
    | none =>
      rw [hstart] at h
      obtain ⟨⟨a, r⟩, hsplit, heq⟩ := Option.map_eq_some_iff.mp h
      cases heq
      have hlength : d.length ≤ (c :: (s ++ d)).length := by
        simp only [List.length_cons, List.length_append]
        omega
      have hlater := stripPrefix_append_none t hlength hstart
      rw [List.cons_append, List.append_assoc] at hlater
      rw [List.cons_append, splitOnce, hlater, ih hsplit]
      rfl

theorem replaceCrLf_append {s : Text} (t : Text) (h : '\r' ∉ s) :
    replaceCrLf (s ++ t) = s ++ replaceCrLf t := by
  induction s with
  | nil => rfl
  | cons c s ih =>
    rw [List.mem_cons, not_or] at h
    have hkept : replaceCrLf (c :: (s ++ t)) = c :: replaceCrLf (s ++ t) := by
      rw [replaceCrLf]
      rintro u rfl
      exact absurd rfl h.1
    rw [List.cons_append, hkept, ih h.2, List.cons_append]

/-- A line feed after a text that does not end with a carriage return is kept. -/
theorem replaceCrLf_concat {s : Text} (h : s.getLast? ≠ some '\r') :
    replaceCrLf (s ++ ['\n']) = replaceCrLf s ++ ['\n'] := by
  fun_induction replaceCrLf s with
  | case1 s ih =>
    have hrest : s.getLast? ≠ some '\r' := by
      intro hlast
      cases s with
      | nil => cases hlast
      | cons c s => exact h (by simpa using hlast)
    rw [List.cons_append, List.cons_append, replaceCrLf, ih hrest]
    rfl
  | case2 c s hnot ih =>
    have hrest : s.getLast? ≠ some '\r' := by
      intro hlast
      cases s with
      | nil => cases hlast
      | cons d s => exact h (by simpa using hlast)
    have hkept : replaceCrLf (c :: (s ++ ['\n'])) = c :: replaceCrLf (s ++ ['\n']) := by
      rw [replaceCrLf]
      rintro u rfl
      intro heq
      cases s with
      | nil => exact h rfl
      | cons d s =>
        obtain ⟨rfl, -⟩ := List.cons.inj heq
        exact hnot s rfl rfl
    rw [List.cons_append, hkept, ih hrest]
    rfl
  | case3 => rfl

/-- The last character of a stripped text is no blank. -/
theorem getLast?_rstrip (s : Text) : ∀ c ∈ (rstrip s).getLast?, isSpace c = false := by
  intro c hc
  rw [rstrip, lstrip, List.getLast?_reverse] at hc
  have hhead := List.head?_dropWhile_not isSpace s.reverse
  rwa [hc] at hhead

end Pine
