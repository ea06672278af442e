import Mathlib.Data.List.Infix
import Mathlib.Tactic.Common

/-!
# Regular expressions

A matcher that backtracks: the places where a match may end, in the order in which they
are tried. It finds exactly the readings of an expression. On top of it are the search for
a match, and the pieces of a text that matches are replaced in.
-/

namespace Pine

/-- Regular expressions with greedy repetition, and a look at the letter before. -/
inductive Regex (α : Type) where
  | empty
  | one (p : α → Bool)
  | seq (r s : Regex α)
  | alt (r s : Regex α)
  | star (r : Regex α)
  | notBehind (p : α → Bool)

/-- A place in a text: what stands before it, the last letter first, and the rest. -/
@[ext] structure Cursor (α : Type) where
  before : List α
  rest : List α

namespace Cursor

variable {α : Type} {c d e : Cursor α}

/-- The text between two places. -/
def Moves (c : Cursor α) (w : List α) (e : Cursor α) : Prop :=
  c.rest = w ++ e.rest ∧ e.before = w.reverse ++ c.before

theorem Moves.trans {v w : List α} (h : c.Moves v d) (k : d.Moves w e) :
    c.Moves (v ++ w) e := by
  obtain ⟨hrest, hbefore⟩ := h
  obtain ⟨krest, kbefore⟩ := k
  exact ⟨by rw [hrest, krest, List.append_assoc], by
    rw [kbefore, hbefore, List.reverse_append, List.append_assoc]⟩

theorem Moves.eq_of_length {w : List α} (h : c.Moves w e)
    (hlength : c.rest.length ≤ e.rest.length) : e = c := by
  obtain ⟨hrest, hbefore⟩ := h
  have hnil : w = [] := by
    rw [hrest, List.length_append] at hlength
    exact List.length_eq_zero_iff.mp (by omega)
  subst hnil
  exact Cursor.ext hbefore hrest.symm

/-- After the letters of a class that stand at a place. -/
def afterRun (p : α → Bool) (c : Cursor α) : Cursor α :=
  ⟨(c.rest.takeWhile p).reverse ++ c.before, c.rest.dropWhile p⟩

end Cursor

namespace Regex

variable {α : Type}

/-- `r+` -/
def plus (r : Regex α) : Regex α := .seq r (.star r)

/-- `r?` -/
def opt (r : Regex α) : Regex α := .alt r .empty

/-- As many repetitions as possible first; one that reads nothing is not repeated. -/
def repeats (f : Cursor α → List (Cursor α)) : Nat → Cursor α → List (Cursor α)
  | 0, c => [c]
  | n + 1, c =>
    ((f c).filter (·.rest.length < c.rest.length)).flatMap (repeats f n) ++ [c]

/-- Where a match may end, in the order of the attempts. -/
def ends : Regex α → Cursor α → List (Cursor α)
  | .empty, c => [c]
  | .one p, ⟨before, a :: rest⟩ => if p a then [⟨a :: before, rest⟩] else []
  | .one _, ⟨_, []⟩ => []
  | .seq r s, c => (ends r c).flatMap (ends s)
  | .alt r s, c => ends r c ++ ends s c
  | .star r, c => repeats (ends r) c.rest.length c
  | .notBehind p, c => if c.before.head?.any p then [] else [c]

/-! ## Readings -/

/-- An expression reads a text from one place to another. -/
inductive Reads : Regex α → Cursor α → Cursor α → Prop
  | empty (c : Cursor α) : Reads .empty c c
  | one {p : α → Bool} {a : α} (before rest : List α) : p a = true →
      Reads (.one p) ⟨before, a :: rest⟩ ⟨a :: before, rest⟩
  | seq {r s : Regex α} {c d e : Cursor α} : Reads r c d → Reads s d e → Reads (.seq r s) c e
  | left {r s : Regex α} {c e : Cursor α} : Reads r c e → Reads (.alt r s) c e
  | right {r s : Regex α} {c e : Cursor α} : Reads s c e → Reads (.alt r s) c e
  | stop (r : Regex α) (c : Cursor α) : Reads (.star r) c c
  | more {r : Regex α} {c d e : Cursor α} : Reads r c d → Reads (.star r) d e → Reads (.star r) c e
  | notBehind {p : α → Bool} {c : Cursor α} : c.before.head?.any p = false →
      Reads (.notBehind p) c c

/-- All letters that an expression reads meet a condition. -/
def Over (P : α → Prop) : Regex α → Prop
  | .empty | .notBehind _ => True
  | .one p => ∀ a, p a = true → P a
  | .seq r s | .alt r s => Over P r ∧ Over P s
  | .star r => Over P r

variable {r s : Regex α} {c d e : Cursor α}

/-- What is read lies between the two places, and its letters are those of the expression. -/
theorem Reads.moves {P : α → Prop} (h : Reads r c e) (hover : r.Over P) :
    ∃ w, c.Moves w e ∧ ∀ a ∈ w, P a := by
  induction h with
  | empty c => exact ⟨[], ⟨rfl, rfl⟩, by simp⟩
  | one before rest hp => exact ⟨[_], ⟨rfl, rfl⟩, by simpa using hover _ hp⟩
  | seq _ _ ihr ihs =>
    obtain ⟨v, hv, hletters⟩ := ihr hover.1
    obtain ⟨w, hw, kletters⟩ := ihs hover.2
    exact ⟨v ++ w, hv.trans hw, fun a ha => (List.mem_append.mp ha).elim (hletters a) (kletters a)⟩
  | left _ ih => exact ih hover.1
  | right _ ih => exact ih hover.2
  | stop r c => exact ⟨[], ⟨rfl, rfl⟩, by simp⟩
  | more _ _ ihr ihs =>
    obtain ⟨v, hv, hletters⟩ := ihr hover
    obtain ⟨w, hw, kletters⟩ := ihs hover
    exact ⟨v ++ w, hv.trans hw, fun a ha => (List.mem_append.mp ha).elim (hletters a) (kletters a)⟩
  | notBehind _ => exact ⟨[], ⟨rfl, rfl⟩, by simp⟩

theorem over_true (r : Regex α) : r.Over fun _ => True := by
  induction r with
  | empty => trivial
  | one p => exact fun _ _ => trivial
  | seq r s ihr ihs => exact ⟨ihr, ihs⟩
  | alt r s ihr ihs => exact ⟨ihr, ihs⟩
  | star r ih => exact ih
  | notBehind p => trivial

theorem Reads.length_le (h : Reads r c e) : e.rest.length ≤ c.rest.length := by
  obtain ⟨w, ⟨hrest, -⟩, -⟩ := h.moves (over_true r)
  rw [hrest, List.length_append]
  exact Nat.le_add_left _ _

/-- A repetition reads nothing, or first something that makes the rest shorter. -/
theorem Reads.star_cases (h : Reads (.star r) c e) :
    e = c ∨ ∃ d, d.rest.length < c.rest.length ∧ Reads r c d ∧ Reads (.star r) d e := by
  generalize hstar : Regex.star r = q at h
  induction h with
  | stop r c => exact Or.inl rfl
  | @more r' c d e hstep hrest _ ih =>
    obtain rfl := Regex.star.inj hstar
    obtain ⟨w, hmoves, -⟩ := hstep.moves (over_true _)
    by_cases hshorter : d.rest.length < c.rest.length
    · exact Or.inr ⟨d, hshorter, hstep, hrest⟩
    · obtain rfl := hmoves.eq_of_length (not_lt.mp hshorter)
      exact ih rfl
  | empty => cases hstar
  | one => cases hstar
  | seq => cases hstar
  | left => cases hstar
  | right => cases hstar
  | notBehind => cases hstar

/-- The places that a repetition tries are those it reads to. -/
theorem mem_repeats {n : Nat} (hends : ∀ c e, e ∈ ends r c ↔ Reads r c e)
    (hn : c.rest.length ≤ n) : e ∈ repeats (ends r) n c ↔ Reads (.star r) c e := by
  induction n generalizing c with
  | zero =>
    rw [repeats, List.mem_singleton]
    constructor
    · rintro rfl
      exact .stop r e
    · intro h
      rcases h.star_cases with rfl | ⟨d, hshorter, -⟩
      · rfl
      · omega
  | succ n ih =>
    simp only [repeats, List.mem_append, List.mem_flatMap, List.mem_filter, decide_eq_true_eq,
      List.mem_singleton, hends]
    constructor
    · rintro (⟨d, ⟨hstep, hshorter⟩, hrest⟩ | rfl)
      · exact .more hstep ((ih (by omega)).mp hrest)
      · exact .stop r e
    · intro h
      rcases h.star_cases with rfl | ⟨d, hshorter, hstep, hrest⟩
      · exact Or.inr rfl
      · exact Or.inl ⟨d, ⟨hstep, hshorter⟩, (ih (by omega)).mpr hrest⟩

/-- The matcher finds exactly the readings. -/
theorem mem_ends : e ∈ ends r c ↔ Reads r c e := by
  induction r generalizing c e with
  | empty =>
    rw [ends, List.mem_singleton]
    constructor
    · rintro rfl
      exact .empty e
    · rintro ⟨⟩
      rfl
  | one p =>
    obtain ⟨before, rest⟩ := c
    cases rest with
    | nil =>
      constructor
      · simp [ends]
      · rintro ⟨⟩
    | cons a rest =>
      constructor
      · intro h
        simp only [ends, List.mem_ite_nil_right, List.mem_singleton] at h
        obtain ⟨hp, rfl⟩ := h
        exact .one before rest hp
      · intro h
        cases h with
        | one _ _ hp => simp [ends, hp]
  | seq r s ihr ihs =>
    simp only [ends, List.mem_flatMap, ihr, ihs]
    constructor
    · rintro ⟨d, hr, hs⟩
      exact .seq hr hs
    · intro h
      cases h with
      | seq hr hs => exact ⟨_, hr, hs⟩
  | alt r s ihr ihs =>
    simp only [ends, List.mem_append, ihr, ihs]
    constructor
    · rintro (hr | hs)
      · exact .left hr
      · exact .right hs
    · intro h
      cases h with
      | left hr => exact Or.inl hr
      | right hs => exact Or.inr hs
  | star r ih => exact mem_repeats (fun c e => ih) le_rfl
  | notBehind p =>
    constructor
    · intro h
      simp only [ends, List.mem_ite_nil_left, List.mem_singleton] at h
      obtain ⟨hbehind, rfl⟩ := h
      exact .notBehind (by simpa using hbehind)
    · intro h
      cases h with
      | notBehind hbehind => simp [ends, hbehind]

/-! ## Searching -/

/-- `pattern.match` at a place: where the first match ends. -/
def matchAt (r : Regex α) (c : Cursor α) : Option (Cursor α) := (ends r c).head?

/-- Whether an expression matches at a place or after it. -/
def searchFrom (r : Regex α) (before : List α) : List α → Bool
  | [] => (matchAt r ⟨before, []⟩).isSome
  | a :: rest => (matchAt r ⟨before, a :: rest⟩).isSome || searchFrom r (a :: before) rest

/-- Whether `pattern.search` finds a match. -/
def search (r : Regex α) (t : List α) : Bool := searchFrom r [] t

theorem matchAt_isSome : (matchAt r c).isSome = true ↔ ∃ e, Reads r c e := by
  rw [matchAt, List.isSome_head?]
  constructor
  · intro hne
    obtain ⟨e, he⟩ := List.exists_mem_of_ne_nil _ hne
    exact ⟨e, mem_ends.mp he⟩
  · rintro ⟨e, he⟩
    exact List.ne_nil_of_mem (mem_ends.mpr he)

theorem searchFrom_eq_true {before t : List α} : searchFrom r before t = true ↔
    ∃ u v e, t = u ++ v ∧ Reads r ⟨u.reverse ++ before, v⟩ e := by
  induction t generalizing before with
  | nil =>
    rw [searchFrom, matchAt_isSome]
    constructor
    · rintro ⟨e, he⟩
      exact ⟨[], [], e, rfl, he⟩
    · rintro ⟨u, v, e, heq, he⟩
      obtain ⟨rfl, rfl⟩ := List.nil_eq_append_iff.mp heq
      exact ⟨e, he⟩
  | cons a rest ih =>
    rw [searchFrom, Bool.or_eq_true, matchAt_isSome, ih]
    constructor
    · rintro (⟨e, he⟩ | ⟨u, v, e, rfl, he⟩)
      · exact ⟨[], a :: rest, e, rfl, he⟩
      · exact ⟨a :: u, v, e, rfl, by simpa using he⟩
    · rintro ⟨u, v, e, heq, he⟩
      rcases u with _ | ⟨b, u⟩
      · exact Or.inl ⟨e, by simpa [heq] using he⟩
      · obtain ⟨rfl, rfl⟩ := List.cons.inj heq
        exact Or.inr ⟨u, v, e, rfl, by simpa using he⟩

theorem search_eq_true {t : List α} :
    search r t = true ↔ ∃ u v e, t = u ++ v ∧ Reads r ⟨u.reverse, v⟩ e := by
  rw [search, searchFrom_eq_true]
  simp only [List.append_nil]

/-! ## Runs of letters -/

theorem matchAt_seq (r s : Regex α) (c : Cursor α) :
    matchAt (.seq r s) c = (ends r c).findSome? (matchAt s) := by
  rw [matchAt, ends, List.head?_flatMap]
  rfl

/-- A repeated class first takes all of its letters. -/
theorem matchAt_star_one (p : α → Bool) (c : Cursor α) :
    matchAt (.star (.one p)) c = some (c.afterRun p) := by
  have hrepeats : ∀ (n : Nat) (before rest : List α), rest.length ≤ n →
      (repeats (ends (.one p)) n ⟨before, rest⟩).head? =
        some (Cursor.afterRun p ⟨before, rest⟩) := by
    intro n
    induction n with
    | zero =>
      intro before rest hn
      obtain rfl := List.length_eq_zero_iff.mp (Nat.le_zero.mp hn)
      rfl
    | succ n ih =>
      intro before rest hn
      rcases rest with _ | ⟨a, rest⟩
      · rfl
      · by_cases hp : p a = true
        · have hmore := ih (a :: before) rest (by simpa using hn)
          simp [repeats, ends, hp, hmore, Cursor.afterRun]
        · simp [repeats, ends, hp, Cursor.afterRun]
  exact hrepeats _ c.before c.rest le_rfl

/-- A class that is repeated at least once takes all of its letters, if there is one. -/
theorem matchAt_plus_one (p : α → Bool) (c : Cursor α) :
    matchAt (plus (.one p)) c =
      if c.rest.takeWhile p = [] then none else some (c.afterRun p) := by
  obtain ⟨before, rest⟩ := c
  rw [plus, matchAt_seq]
  rcases rest with _ | ⟨a, rest⟩
  · rfl
  · by_cases hp : p a = true
    · simp [ends, hp, matchAt_star_one, Cursor.afterRun]
    · simp [ends, hp]

/-! ## Expressions that do not look around -/

/-- No part looks at the letter before. -/
def Blind : Regex α → Prop
  | .empty | .one _ => True
  | .seq r s | .alt r s => Blind r ∧ Blind s
  | .star r => Blind r
  | .notBehind _ => False

/-- What a blind expression reads, it reads at any place. -/
theorem Reads.anywhere (h : Reads r c e) (hblind : r.Blind) {w : List α} (hmoves : c.Moves w e)
    (before rest : List α) : Reads r ⟨before, w ++ rest⟩ ⟨w.reverse ++ before, rest⟩ := by
  induction h generalizing w before rest with
  | empty c =>
    obtain rfl : w = [] := List.self_eq_append_left.mp hmoves.1
    exact .empty _
  | @one p a b x hp =>
    have hsame : [a] ++ x = w ++ x := hmoves.1
    obtain rfl : w = [a] := (List.append_cancel_right hsame).symm
    exact .one before rest hp
  | @seq r s c d e hr hs ihr ihs =>
    obtain ⟨u, hu, -⟩ := hr.moves (over_true _)
    obtain ⟨v, hv, -⟩ := hs.moves (over_true _)
    obtain rfl : w = u ++ v :=
      List.append_cancel_right (hmoves.1.symm.trans (hu.trans hv).1)
    have hfirst := ihr hblind.1 hu before (v ++ rest)
    have hsecond := ihs hblind.2 hv (u.reverse ++ before) rest
    rw [List.append_assoc, List.reverse_append, List.append_assoc]
    exact .seq hfirst hsecond
  | left _ ih => exact .left (ih hblind.1 hmoves before rest)
  | right _ ih => exact .right (ih hblind.2 hmoves before rest)
  | stop r c =>
    obtain rfl : w = [] := List.self_eq_append_left.mp hmoves.1
    exact .stop r _
  | @more r c d e hr hs ihr ihs =>
    obtain ⟨u, hu, -⟩ := hr.moves (over_true _)
    obtain ⟨v, hv, -⟩ := hs.moves (over_true _)
    obtain rfl : w = u ++ v :=
      List.append_cancel_right (hmoves.1.symm.trans (hu.trans hv).1)
    have hfirst := ihr hblind hu before (v ++ rest)
    have hsecond := ihs hblind hv (u.reverse ++ before) rest
    rw [List.append_assoc, List.reverse_append, List.append_assoc]
    exact .more hfirst hsecond
  | notBehind _ => exact hblind.elim

/-- A match of a blind expression is found in every text around it. -/
theorem search_part {w t : List α} (hblind : r.Blind) (hw : search r w = true) (hpart : w <:+: t) :
    search r t = true := by
  obtain ⟨u, v, e, rfl, hreads⟩ := search_eq_true.mp hw
  obtain ⟨x, y, rfl⟩ := hpart
  obtain ⟨z, hmoves, -⟩ := hreads.moves (over_true _)
  have hthere := hreads.anywhere hblind hmoves ((x ++ u).reverse) (e.rest ++ y)
  rw [← List.append_assoc, ← hmoves.1] at hthere
  exact search_eq_true.mpr ⟨x ++ u, v ++ y, _, by simp, hthere⟩

/-- A text with a match of a blind expression has the matched part itself as a part, and that one is
written in the letters of the expression. -/
theorem exists_part {P : α → Prop} {t : List α} (hblind : r.Blind) (hover : r.Over P)
    (ht : search r t = true) : ∃ w, w <:+: t ∧ search r w = true ∧ ∀ a ∈ w, P a := by
  obtain ⟨u, v, e, rfl, hreads⟩ := search_eq_true.mp ht
  obtain ⟨w, hmoves, hletters⟩ := hreads.moves hover
  refine ⟨w, ⟨u, e.rest, by rw [List.append_assoc, ← hmoves.1]⟩, ?_, hletters⟩
  exact search_eq_true.mpr ⟨[], w, _, rfl, by simpa using hreads.anywhere hblind hmoves [] []⟩

/-! ## Replacing -/

/-- A letter that is kept, or a part that was found. -/
inductive Piece (α : Type) where
  | kept (a : α)
  | found (w : List α)

/-- The pieces of a text from a place on, after the letters of a match that are skipped; for an
expression that does not match the empty text. -/
def scan (r : Regex α) : Nat → List α → List α → List (Piece α)
  | _, _, [] => []
  | skip + 1, before, a :: rest => scan r skip (a :: before) rest
  | 0, before, a :: rest =>
    match matchAt r ⟨before, a :: rest⟩ with
    | some e => .found ((a :: rest).take ((a :: rest).length - e.rest.length)) ::
      scan r (rest.length - e.rest.length) (a :: before) rest
    | none => .kept a :: scan r 0 (a :: before) rest

/-- The pieces of a text. -/
def pieces (r : Regex α) (t : List α) : List (Piece α) := scan r 0 [] t

/-- What stands for a piece in the text. -/
def Piece.text : Piece α → List α
  | .kept a => [a]
  | .found w => w

/-- What stands for a piece after every match was replaced. -/
def Piece.replaced (repl : List α) : Piece α → List α
  | .kept a => [a]
  | .found _ => repl

/-- `pattern.sub(repl, t)` -/
def sub (r : Regex α) (repl t : List α) : List α := (pieces r t).flatMap (Piece.replaced repl)

/-- The match that a piece is. -/
def Piece.match? : Piece α → Option (List α)
  | .kept _ => none
  | .found w => some w

/-- `pattern.findall(t)` -/
def findall (r : Regex α) (t : List α) : List (List α) := (pieces r t).filterMap Piece.match?

/-- Every match reads something. -/
def Consuming (r : Regex α) : Prop := ∀ c e, Reads r c e → e.rest.length < c.rest.length

theorem matchAt_moves (h : matchAt r c = some e) : ∃ w, c.Moves w e := by
  obtain ⟨w, hmoves, -⟩ := (mem_ends.mp (List.mem_of_head? h)).moves (over_true _)
  exact ⟨w, hmoves⟩

/-- Skipped letters leave no piece. -/
theorem scan_skip (r : Regex α) (before u v : List α) :
    scan r u.length before (u ++ v) = scan r 0 (u.reverse ++ before) v := by
  induction u generalizing before with
  | nil => rfl
  | cons a u ih => simp [scan, ih]

theorem scan_kept {before rest : List α} {a : α} (h : matchAt r ⟨before, a :: rest⟩ = none) :
    scan r 0 before (a :: rest) = .kept a :: scan r 0 (a :: before) rest := by
  rw [scan, h]

theorem scan_found (hr : r.Consuming) {w : List α} (h : matchAt r c = some e)
    (hmoves : c.Moves w e) :
    scan r 0 c.before c.rest = .found w :: scan r 0 e.before e.rest := by
  obtain ⟨before, rest⟩ := c
  obtain ⟨before', rest'⟩ := e
  have hshorter := hr _ _ (mem_ends.mp (List.mem_of_head? h))
  obtain ⟨hrest, hbefore⟩ := hmoves
  change rest = w ++ rest' at hrest
  change before' = w.reverse ++ before at hbefore
  subst hrest hbefore
  rcases w with _ | ⟨a, w⟩
  · simp at hshorter
  · have hskip := scan_skip r (a :: before) w rest'
    rw [List.cons_append] at h ⊢
    simp only [scan, h, List.length_cons, List.length_append]
    have htake : w.length + rest'.length + 1 - rest'.length = (a :: w).length := by
      rw [List.length_cons]
      omega
    rw [htake, Nat.add_sub_cancel, hskip, ← List.cons_append, List.take_left,
      List.reverse_cons, List.append_assoc, List.singleton_append]

/-- The pieces from a place on, put together, are the text. -/
theorem flatMap_scan (hr : r.Consuming) (before t : List α) :
    (scan r 0 before t).flatMap Piece.text = t := by
  induction hn : t.length using Nat.strong_induction_on generalizing before t with
  | _ n ih =>
    subst hn
    rcases t with _ | ⟨a, rest⟩
    · rfl
    · cases h : matchAt r ⟨before, a :: rest⟩ with
      | none =>
        rw [scan_kept h, List.flatMap_cons, ih _ (by simp) _ rest rfl]
        rfl
      | some e =>
        obtain ⟨w, hmoves⟩ := matchAt_moves h
        have hshorter := hr _ _ (mem_ends.mp (List.mem_of_head? h))
        rw [scan_found hr h hmoves, List.flatMap_cons, ih _ hshorter _ _ rfl]
        exact hmoves.1.symm

/-- Each match changes the length by the difference to its replacement. -/
theorem length_sub (hr : r.Consuming) (repl t : List α) :
    (sub r repl t).length + (findall r t).flatten.length =
      t.length + (findall r t).length * repl.length := by
  have hpieces : ∀ ps : List (Piece α), (ps.flatMap (Piece.replaced repl)).length +
      (ps.filterMap Piece.match?).flatten.length =
      (ps.flatMap Piece.text).length + (ps.filterMap Piece.match?).length * repl.length := by
    intro ps
    induction ps with
    | nil => simp
    | cons piece rest ih =>
      cases piece with
      | kept a =>
        simp only [List.flatMap_cons, List.length_append, List.filterMap_cons, Piece.replaced,
          Piece.text, Piece.match?] at ih ⊢
        omega
      | found w =>
        simp only [List.flatMap_cons, List.length_append, List.filterMap_cons, Piece.replaced,
          Piece.text, Piece.match?, List.flatten_cons, List.length_cons, Nat.succ_mul] at ih ⊢
        omega
  rw [sub, findall, hpieces, pieces, flatMap_scan hr]

/-- A part without a certain letter lies on one side of it. -/
theorem infix_of_not_mem {w u v : List α} {a : α} (h : w <:+: u ++ a :: v) (ha : a ∉ w) :
    w <:+: u ∨ w <:+: v := by
  obtain ⟨x, y, heq⟩ := h
  rw [List.append_assoc] at heq
  rcases List.append_eq_append_iff.mp heq with ⟨z, hu, hz⟩ | ⟨z, hx, hz⟩
  · rcases List.append_eq_append_iff.mp hz with ⟨z', hz', -⟩ | ⟨z', hw, hav⟩
    · exact Or.inl ⟨x, z', by rw [hu, hz', List.append_assoc]⟩
    · rcases z' with _ | ⟨b, z'⟩
      · exact Or.inl ⟨x, [], by simp [hu, hw]⟩
      · obtain ⟨rfl, -⟩ := List.cons.inj hav
        exact absurd (by simp [hw]) ha
  · rcases z with _ | ⟨b, z⟩
    · rcases w with _ | ⟨b, w⟩
      · exact Or.inl List.nil_infix
      · obtain ⟨rfl, -⟩ := List.cons.inj hz
        exact absurd List.mem_cons_self ha
    · obtain ⟨rfl, hv⟩ := List.cons.inj hz
      exact Or.inr ⟨z, y, by rw [hv, List.append_assoc]; rfl⟩

/-- What stands in the replaced text without the delimiters of the replacement stood in the text, or
stands inside the replacement. -/
theorem infix_sub (hr : r.Consuming) {w inner t : List α} {x y : α} (hx : x ∉ w) (hy : y ∉ w)
    (h : w <:+: sub r (x :: inner ++ [y]) t) : w <:+: t ∨ w <:+: inner := by
  have hpieces : ∀ (ps : List (Piece α)) (u : List α),
      w <:+: u ++ ps.flatMap (Piece.replaced (x :: inner ++ [y])) →
        w <:+: u ++ ps.flatMap Piece.text ∨ w <:+: inner := by
    intro ps
    induction ps with
    | nil => exact fun u h => Or.inl h
    | cons piece rest ih =>
      intro u h
      cases piece with
      | kept a =>
        have hrest := ih (u ++ [a]) (by simpa [Piece.replaced] using h)
        simpa [Piece.text] using hrest
      | found v =>
        have hsplit : w <:+: u ++ x :: (inner ++ y :: rest.flatMap
            (Piece.replaced (x :: inner ++ [y]))) := by
          simpa [Piece.replaced] using h
        rcases infix_of_not_mem hsplit hx with hu | hafter
        · exact Or.inl (hu.trans (List.prefix_append _ _).isInfix)
        · rcases infix_of_not_mem hafter hy with hinner | hrest
          · exact Or.inr hinner
          · rcases ih [] hrest with htext | hinner
            · refine Or.inl (htext.trans ⟨u ++ v, [], ?_⟩)
              simp [Piece.text]
            · exact Or.inr hinner
  have htext := hpieces (pieces r t) [] h
  rwa [List.nil_append, pieces, flatMap_scan hr] at htext

end Regex

end Pine
